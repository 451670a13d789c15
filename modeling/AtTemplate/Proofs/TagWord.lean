/-!
# AtTemplate.Proofs.TagWord

The tags of markup as a word of opening and closing tags.  `WellNested` is the grammar: every
element has a closing tag of its own name, and what lies between the two is well nested as well.
`leftOpen?` reads such a word from the left and keeps the names of the elements that are open.

* `leftOpen?_append_iff` — the names after a word are the names before the next;
* `leftOpen?_of_wellNested` — elements that are closed leave no name behind;
* `wellNested_iff` — a word is well nested exactly when it leaves no element open.
-/

namespace AtTemplate.Markup

/-- A tag that opens an element, or one that closes it. -/
inductive Tag where
  | opening (name : String)
  | closing (name : String)
  deriving DecidableEq, Repr

/-- Every tag belongs to an element, and the elements are nested. -/
inductive WellNested : List Tag → Prop
  /-- There is no element. -/
  | nil : WellNested []
  /-- An element with its content, and what follows it. -/
  | element {name : String} {content after : List Tag} (hc : WellNested content)
      (ha : WellNested after) : WellNested (.opening name :: (content ++ .closing name :: after))

/-- A word that closes the elements of `names`, innermost first: the content that each still has
before its closing tag is well nested, and so is what follows the last. -/
inductive Closes : List String → List Tag → Prop
  | nil {word : List Tag} (h : WellNested word) : Closes [] word
  | cons {name : String} {names : List String} {content after : List Tag} (hc : WellNested content)
      (ha : Closes names after) : Closes (name :: names) (content ++ .closing name :: after)

/-- The names of the elements that are open after a word, innermost first, where `names` are open
before it; none when a closing tag bears another name than the innermost element. -/
def leftOpen? : List String → List Tag → Option (List String)
  | names, [] => some names
  | names, .opening name :: word => leftOpen? (name :: names) word
  | [], .closing _ :: _ => none
  | open_ :: names, .closing name :: word => if open_ = name then leftOpen? names word else none

variable {names left : List String} {name : String} {u v word : List Tag}

@[simp] theorem leftOpen?_nil : leftOpen? names [] = some names := by
  cases names <;> rfl

@[simp] theorem leftOpen?_opening :
    leftOpen? names (.opening name :: word) = leftOpen? (name :: names) word := by
  cases names <;> rfl

@[simp] theorem leftOpen?_closing_self :
    leftOpen? (name :: names) (.closing name :: word) = leftOpen? names word := by
  simp [leftOpen?]

/-- The names that a word leaves open are open before the next word. -/
theorem leftOpen?_append_iff :
    leftOpen? names (u ++ v) = some left ↔
      ∃ between, leftOpen? names u = some between ∧ leftOpen? between v = some left := by
  fun_induction leftOpen? names u with
  | case1 names => simp
  | case2 names name word ih => simpa using ih
  | case3 name word => simp [leftOpen?]
  | case4 names name word ih => simpa using ih
  | case5 open_ names name word hne => simp [leftOpen?, hne]

/-- Elements that are closed leave no name behind. -/
theorem leftOpen?_of_wellNested (h : WellNested word) (names : List String) :
    leftOpen? names word = some names := by
  induction h generalizing names with
  | nil => simp
  | element _ _ ihc iha =>
    rw [leftOpen?_opening, leftOpen?_append_iff]
    exact ⟨_, ihc _, by simpa using iha names⟩

/-- An element in front of a word is part of the content of the innermost element that the word
closes. -/
theorem Closes.element {content : List Tag} (hc : WellNested content) (h : Closes names word) :
    Closes names (.opening name :: (content ++ .closing name :: word)) := by
  cases h with
  | nil ha => exact .nil (.element hc ha)
  | @cons outer names content' after hc' ha =>
    have hassoc : Tag.opening name :: (content ++ .closing name :: (content' ++ .closing outer ::
        after)) = (.opening name :: (content ++ .closing name :: content')) ++ .closing outer ::
        after := by simp
    rw [hassoc]
    exact .cons (.element hc hc') ha

/-- A word that leaves no element open closes those that are open before it. -/
theorem closes_of_leftOpen? (h : leftOpen? names word = some []) : Closes names word := by
  fun_induction leftOpen? names word with
  | case1 names =>
    cases h
    exact .nil .nil
  | case2 names name word ih =>
    cases ih h with
    | cons hc hrest => exact hrest.element hc
  | case3 => cases h
  | case4 names name word ih => exact Closes.cons .nil (ih h)
  | case5 => simp at h

/-- **A word is well nested exactly when it leaves no element open.** -/
theorem wellNested_iff : WellNested word ↔ leftOpen? [] word = some [] := by
  constructor
  · intro h
    exact leftOpen?_of_wellNested h []
  · intro h
    cases closes_of_leftOpen? h with
    | nil h => exact h

/-- Behind an opening tag and elements that are closed, the element of the tag is the innermost. -/
theorem leftOpen?_of_unmatched (h : leftOpen? names (u ++ .opening name :: v) = some left)
    (hv : WellNested v) : ∃ outer, left = name :: outer := by
  obtain ⟨outer, -, hrest⟩ := leftOpen?_append_iff.1 h
  rw [leftOpen?_opening, leftOpen?_of_wellNested hv] at hrest
  exact ⟨outer, (Option.some.inj hrest).symm⟩

end AtTemplate.Markup
