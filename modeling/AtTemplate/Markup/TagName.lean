/-!
# AtTemplate.Markup.TagName

The names of elements, and the places of code at which markup begins.
-/

namespace AtTemplate.Markup

/-- A character that the name of an element may go on with. -/
def isTagNameChar (c : Char) : Bool :=
  c.isAlphanum || c == '-' || c == '_' || c == ':' || c == '.'

/-- The longest element name that a text begins with; empty when it begins with none.  A name
starts with an ASCII letter. -/
def takeTagName : List Char → List Char
  | [] => []
  | c :: text => if c.isAlpha then c :: text.takeWhile isTagNameChar else []

/-- The name of an element stands at the head of its text. -/
theorem takeTagName_isPrefix (text : List Char) : takeTagName text <+: text := by
  cases text with
  | nil => exact List.nil_prefix
  | cons c text =>
    simp only [takeTagName]
    split
    · exact List.cons_prefix_cons.2 ⟨rfl, List.takeWhile_prefix isTagNameChar⟩
    · exact List.nil_prefix

/-- The name of the opening tag that a text begins with; empty when there is none. -/
def openingName : List Char → List Char
  | '<' :: text => takeTagName text
  | _ => []

/-- An opening tag begins with an angle bracket. -/
theorem head?_of_openingName {text : List Char} (h : openingName text ≠ []) :
    text.head? = some '<' := by
  unfold openingName at h
  split at h
  · rfl
  · exact absurd rfl h

/-- An opening tag stands at the head of its text. -/
theorem cons_openingName_isPrefix {text : List Char} (h : openingName text ≠ []) :
    '<' :: openingName text <+: text := by
  unfold openingName at h ⊢
  split at h
  · exact List.cons_prefix_cons.2 ⟨rfl, takeTagName_isPrefix _⟩
  · exact absurd rfl h

/-- The angle bracket of an opening tag and its name stand within the text. -/
theorem length_openingName_le {text : List Char} (h : openingName text ≠ []) :
    1 + (openingName text).length ≤ text.length := by
  have := (cons_openingName_isPrefix h).length_le
  rw [List.length_cons] at this
  omega

/-- The name of the closing tag that a text begins with; empty when there is none. -/
def closingName : List Char → List Char
  | '<' :: '/' :: text => takeTagName text
  | _ => []

/-- A closing tag stands at the head of its text. -/
theorem cons_closingName_isPrefix {text : List Char} (h : closingName text ≠ []) :
    '<' :: '/' :: closingName text <+: text := by
  unfold closingName at h ⊢
  split at h
  · exact List.cons_prefix_cons.2 ⟨rfl, List.cons_prefix_cons.2 ⟨rfl, takeTagName_isPrefix _⟩⟩
  · exact absurd rfl h

/-- The mark of a closing tag and its name stand within the text. -/
theorem length_closingName_le {text : List Char} (h : closingName text ≠ []) :
    2 + (closingName text).length ≤ text.length := by
  have := (cons_closingName_isPrefix h).length_le
  simp only [List.length_cons] at this
  omega

/-- Whether a text begins with an opening or a closing tag. -/
def startsTag (text : List Char) : Bool :=
  openingName text ≠ [] ∨ closingName text ≠ []

/-- The mark that begins a comment of the markup. -/
def commentOpening : List Char := ['<', '!', '-', '-']

/-- The mark that ends a comment of the markup. -/
def commentClosing : List Char := ['-', '-', '>']

/-- The tag that begins text without an element of its own. -/
def textOpening : List Char := ['<', 't', 'e', 'x', 't', '>']

/-- The tag that ends text without an element of its own. -/
def textClosing : List Char := ['<', '/', 't', 'e', 'x', 't', '>']

/-- Whether a text of code begins with markup: a tag or a comment. -/
def startsMarkup (text : List Char) : Bool :=
  startsTag text || commentOpening.isPrefixOf text

/-- Markup begins with an angle bracket. -/
theorem head?_of_startsMarkup {text : List Char} (h : startsMarkup text = true) :
    text.head? = some '<' := by
  simp only [startsMarkup, Bool.or_eq_true] at h
  rcases h with h | h
  · simp only [startsTag, openingName, closingName] at h
    grind
  · obtain ⟨rest, rfl⟩ := List.isPrefixOf_iff_prefix.1 h
    rfl

end AtTemplate.Markup
