import AtTemplate.Directive.Basic
import AtTemplate.Markup.TagName
import AtTemplate.Text.Search
import Mathlib.Data.List.TakeWhile

/-!
# AtTemplate.Proofs.Bounded

A text in front of another one.  Where the second is `Bounded`, nothing that is read at the end of
the first goes on in it: no name, tag or mark takes a character of it.

* `Bounded.takeName_append`, `Bounded.takeTagName_append`, `Bounded.startsMarkup_append` — the same
  names, tags and marks are read whatever bounded text follows;
* `Bounded.headsClause_append` — nor does it matter to the clause that a text heads;
* `Breaks.bounded`, `Detached.bounded` — the two kinds of text that stand behind others here.
-/

namespace AtTemplate

open Text
open AtTemplate.Markup

variable {text after : List Char}

/-! ## runs of a class -/

/-- A run of a class goes on in no text that begins with a character of another. -/
theorem takeWhile_append_of_head_false {p : Char → Bool}
    (h : ∀ c, after.head? = some c → p c = false) (text : List Char) :
    (text ++ after).takeWhile p = text.takeWhile p ∧
      (text ++ after).dropWhile p = text.dropWhile p ++ after := by
  induction text with
  | nil =>
    cases after with
    | nil => exact ⟨rfl, rfl⟩
    | cons c after => simp [h c rfl]
  | cons c text ih =>
    rw [List.cons_append]
    by_cases hc : p c = true
    · simp [hc, ih]
    · simp [hc]

/-- A run of a class that ends within a text ends there whatever follows. -/
theorem takeWhile_append_of_dropWhile {p : Char → Bool} (h : text.dropWhile p ≠ [])
    (after : List Char) :
    (text ++ after).takeWhile p = text.takeWhile p ∧
      (text ++ after).dropWhile p = text.dropWhile p ++ after := by
  have hall : ¬ ∀ c ∈ text, p c = true := fun hall => h (List.dropWhile_eq_nil_iff.2 hall)
  have hlen : (text.takeWhile p).length ≠ text.length := fun hl =>
    hall (List.takeWhile_eq_self_iff.1 ((List.takeWhile_prefix p).eq_of_length hl))
  rw [List.takeWhile_append, List.dropWhile_append, if_neg hlen, if_neg (by simpa using h)]
  exact ⟨rfl, rfl⟩

/-- Blanks that end within a text end there whatever follows. -/
theorem trimStart_append_of_ne_nil (h : trimStart text ≠ []) (after : List Char) :
    trimStart (text ++ after) = trimStart text ++ after ∧
      leadingBlanks (text ++ after) = leadingBlanks text :=
  (takeWhile_append_of_dropWhile h after).symm

/-- A text of blanks is trimmed away with those that follow. -/
theorem trimStart_append_of_eq_nil (h : trimStart text = []) (after : List Char) :
    trimStart (text ++ after) = trimStart after := by
  unfold trimStart at h ⊢
  rw [List.dropWhile_append, h]
  rfl

/-- What is in no name begins none. -/
theorem isNameStart_eq_false {c : Char} (h : isNameChar c = false) : isNameStart c = false := by
  rw [← Bool.not_eq_true] at h ⊢
  exact fun hc => h (isNameChar_of_isNameStart hc)

/-- There is no name where no name begins. -/
theorem takeName_eq_nil {c : Char} (h : text.head? = some c) (hc : isNameStart c = false) :
    takeName text = [] := by
  obtain ⟨rest, rfl⟩ := List.head?_eq_some_iff.1 h
  simp [takeName, hc]

/-- A name goes on in no text that begins with another character. -/
theorem takeName_append_of_head_false (h : ∀ c, after.head? = some c → isNameChar c = false)
    (text : List Char) : takeName (text ++ after) = takeName text := by
  cases text with
  | nil =>
    cases after with
    | nil => rfl
    | cons c after => exact takeName_eq_nil rfl (isNameStart_eq_false (h c rfl))
  | cons c text =>
    simp only [List.cons_append, takeName, (takeWhile_append_of_head_false h text).1]

/-! ## bounded texts -/

/-- A character with which nothing goes on: no name, no name of a tag, no mark of markup, no chain
and no indentation. -/
def isSeparator (c : Char) : Bool :=
  !isNameChar c && !isTagNameChar c && c ∉ ['/', '>', '!', '(', '[', ' ', '\t']

/-- A text with which nothing goes on that stands before it.  Behind its leading blanks begins no
name, body or parenthesis.  The end of a source is one. -/
structure Bounded (after : List Char) : Prop where
  head : ∀ c, after.head? = some c → isSeparator c = true
  trimmed : ∀ c, (trimStart after).head? = some c → isNameChar c = false ∧ c ≠ '{' ∧ c ≠ '('

namespace Bounded

/-- No name goes on behind a text that is bounded. -/
theorem isNameChar_eq_false (h : Bounded after) {c : Char} (hc : after.head? = some c) :
    isNameChar c = false := by
  have hbound := h.head c hc
  simp only [isSeparator, Bool.and_eq_true, Bool.not_eq_true'] at hbound
  exact hbound.1.1

/-- No tag name goes on behind a text that is bounded. -/
theorem isTagNameChar_eq_false (h : Bounded after) {c : Char} (hc : after.head? = some c) :
    isTagNameChar c = false := by
  have hbound := h.head c hc
  simp only [isSeparator, Bool.and_eq_true, Bool.not_eq_true'] at hbound
  exact hbound.1.2

/-- A bounded text begins with no other character. -/
theorem head?_append (h : Bounded after) {c : Char} (hc : isSeparator c = false)
    (text : List Char) : (text ++ after).head? = some c ↔ text.head? = some c := by
  cases text with
  | nil =>
    refine iff_of_false (fun hs => ?_) nofun
    rw [h.head c hs] at hc
    cases hc
  | cons d text => rfl

/-- A bounded text does not go on with the indentation of a line. -/
theorem takeWhile_indent_append (h : Bounded after) (text : List Char) :
    (text ++ after).takeWhile (fun c => c == ' ' || c == '\t') =
      text.takeWhile fun c => c == ' ' || c == '\t' := by
  refine (takeWhile_append_of_head_false (fun c hc => ?_) text).1
  have hbound := h.head c hc
  by_contra hindent
  rw [Bool.not_eq_false, Bool.or_eq_true, beq_iff_eq, beq_iff_eq] at hindent
  obtain rfl | rfl := hindent <;> exact absurd hbound (by decide +kernel)

/-- The name that a bounded text begins with is that of the text alone. -/
theorem takeName_append (h : Bounded after) (text : List Char) :
    takeName (text ++ after) = takeName text :=
  takeName_append_of_head_false (fun _ => h.isNameChar_eq_false) text

/-- The tag name that a bounded text begins with is that of the text alone. -/
theorem takeTagName_append (h : Bounded after) (text : List Char) :
    takeTagName (text ++ after) = takeTagName text := by
  cases text with
  | nil =>
    cases after with
    | nil => rfl
    | cons c after =>
      have hc := h.isTagNameChar_eq_false (c := c) rfl
      simp only [isTagNameChar, Char.isAlphanum, Bool.or_eq_false_iff] at hc
      simp [takeTagName, hc.1.1.1.1.1]
  | cons c text =>
    simp only [List.cons_append, takeTagName,
      (takeWhile_append_of_head_false (fun _ => h.isTagNameChar_eq_false) text).1]

/-- A mark of other characters begins a text or it does not, whatever follows. -/
theorem isPrefixOf_append (h : Bounded after) {mark : List Char}
    (hmark : mark.any isSeparator = false) (text : List Char) :
    mark.isPrefixOf (text ++ after) = mark.isPrefixOf text := by
  induction mark generalizing text with
  | nil => simp
  | cons d mark ih =>
    rw [List.any_cons, Bool.or_eq_false_iff] at hmark
    cases text with
    | nil =>
      cases after with
      | nil => rfl
      | cons c after =>
        have hdc : d ≠ c := by
          rintro rfl
          rw [h.head d rfl] at hmark
          cases hmark.1
        simp [List.isPrefixOf, hdc]
    | cons c text => simp only [List.cons_append, List.isPrefixOf, ih hmark.2]

/-- Nor does the first character of a mark matter, where a text is not empty. -/
theorem isPrefixOf_cons_append (h : Bounded after) {mark : List Char}
    (hmark : mark.any isSeparator = false) (ht : text ≠ []) (c : Char) :
    (c :: mark).isPrefixOf (text ++ after) = (c :: mark).isPrefixOf text := by
  obtain ⟨d, text, rfl⟩ := List.exists_cons_of_ne_nil ht
  rw [List.cons_append, List.isPrefixOf, List.isPrefixOf, h.isPrefixOf_append hmark]

/-- The marks of markup go on in no bounded text. -/
theorem isPrefixOf_append_of_mem (h : Bounded after) {mark : List Char}
    (hmark : mark ∈ [textOpening, textClosing, commentOpening]) (ht : text ≠ []) :
    mark.isPrefixOf (text ++ after) = mark.isPrefixOf text := by
  simp only [List.mem_cons, List.not_mem_nil, or_false] at hmark
  obtain rfl | rfl | rfl := hmark
  · exact h.isPrefixOf_cons_append (by decide +kernel) ht '<'
  · exact h.isPrefixOf_cons_append (by decide +kernel) ht '<'
  · exact h.isPrefixOf_cons_append (by decide +kernel) ht '<'

/-- A bounded text begins with the opening tag that it begins with alone. -/
theorem openingName_append (h : Bounded after) (ht : text ≠ []) :
    openingName (text ++ after) = openingName text := by
  obtain ⟨c, text, rfl⟩ := List.exists_cons_of_ne_nil ht
  by_cases hc : c = '<'
  · rw [hc]
    exact h.takeTagName_append text
  · rw [List.cons_append, openingName, openingName] <;> simp [hc]

/-- A bounded text begins with the closing tag that it begins with alone. -/
theorem closingName_append (h : Bounded after) (ht : text ≠ []) :
    closingName (text ++ after) = closingName text := by
  have hname (t : List Char) :
      closingName t = if ['<', '/'].isPrefixOf t then takeTagName (t.drop 2) else [] := by
    unfold closingName
    split
    · rfl
    · next hne =>
      rw [if_neg]
      intro hp
      obtain ⟨rest, rfl⟩ := List.isPrefixOf_iff_prefix.1 hp
      exact hne rest rfl
  have hmark : ['/'].any isSeparator = false := by decide +kernel
  rw [hname, hname, h.isPrefixOf_cons_append hmark ht]
  split
  · next hp =>
    obtain ⟨rest, rfl⟩ := List.isPrefixOf_iff_prefix.1 hp
    exact h.takeTagName_append rest
  · rfl

/-- A bounded text begins markup where it does alone. -/
theorem startsMarkup_append (h : Bounded after) (ht : text ≠ []) :
    startsMarkup (text ++ after) = startsMarkup text := by
  simp only [startsMarkup, startsTag, h.openingName_append ht, h.closingName_append ht,
    h.isPrefixOf_append_of_mem (show commentOpening ∈ _ by simp) ht]

/-- Behind blanks a bounded text begins with no name. -/
theorem takeName_trimStart (h : Bounded after) (text : List Char) :
    takeName (trimStart (text ++ after)) = takeName (trimStart text) := by
  by_cases ht : trimStart text = []
  · rw [trimStart_append_of_eq_nil ht, ht]
    cases hc : (trimStart after).head? with
    | none => rw [List.head?_eq_none_iff.1 hc]
    | some c => exact takeName_eq_nil hc (isNameStart_eq_false (h.trimmed c hc).1)
  · rw [(trimStart_append_of_ne_nil ht after).1, h.takeName_append]

/-- A bounded text heads no clause, and it does not keep a text before it from heading one. -/
theorem headsClause_append (h : Bounded after) (keyword : Keyword) (text : List Char) :
    keyword.headsClause (text ++ after) = keyword.headsClause text := by
  have hhead (c : Char) (hc : c = '{' ∨ c = '(') :
      (trimStart (text ++ after)).head? = some c ↔ (trimStart text).head? = some c := by
    by_cases ht : trimStart text = []
    · rw [trimStart_append_of_eq_nil ht, ht]
      refine iff_of_false (fun hs => ?_) nofun
      obtain ⟨-, hbrace, hparen⟩ := h.trimmed c hs
      exact hc.elim hbrace hparen
    · rw [(trimStart_append_of_ne_nil ht after).1]
      obtain ⟨d, rest, hd⟩ := List.exists_cons_of_ne_nil ht
      simp [hd]
  cases keyword <;>
    simp only [Keyword.headsClause, h.takeName_trimStart, hhead '{' (.inl rfl),
      hhead '(' (.inr rfl)]

end Bounded

/-! ## texts that break off -/

/-- A text that is empty, or that begins with an at sign or an angle bracket. -/
def Breaks (after : List Char) : Prop :=
  ∀ c, after.head? = some c → c = '@' ∨ c = '<'

/-- A text may break off at the end of the source. -/
theorem Breaks.nil : Breaks [] :=
  nofun

/-- Nothing goes on with an at sign or an angle bracket. -/
theorem Breaks.bounded (h : Breaks after) : Bounded after where
  head c hc := by
    obtain rfl | rfl := h c hc <;> decide +kernel
  trimmed c hc := by
    have htrim : trimStart after = after := by
      cases after with
      | nil => rfl
      | cons d rest => obtain rfl | rfl := h d rfl <;> rfl
    rw [htrim] at hc
    obtain rfl | rfl := h c hc <;> decide +kernel

/-! ## detached texts -/

/-- A text of which what stands before it takes nothing: its first line, where there is one, is made
up of commas and its line break, and behind its leading blanks comes a comma or an angle bracket.
The end of a source is one. -/
structure Detached (after : List Char) : Prop where
  line : ∀ c ∈ firstLine after, c = ',' ∨ c = '\n'
  trimmed : ∀ c, (trimStart after).head? = some c → c = ',' ∨ c = '<'

namespace Detached

theorem nil : Detached [] :=
  ⟨nofun, nofun⟩

theorem head (h : Detached after) (c : Char) (hc : after.head? = some c) : c = ',' ∨ c = '\n' := by
  obtain ⟨rest, rfl⟩ := List.head?_eq_some_iff.1 hc
  refine h.line c ?_
  rw [firstLine]
  split <;> exact List.mem_cons_self

/-- Nothing goes on in a detached text. -/
theorem bounded (h : Detached after) : Bounded after where
  head c hc := by
    obtain rfl | rfl := h.head c hc <;> decide +kernel
  trimmed c hc := by
    obtain rfl | rfl := h.trimmed c hc <;> decide +kernel

/-- An at sign before a detached text introduces nothing of it. -/
theorem resolve_eq (h : Detached after) (previous? : Option Char) :
    Directive.resolve previous? after = Directive.resolve previous? [] := by
  cases after with
  | nil => rfl
  | cons c after =>
    have hstart := isNameStart_eq_false (h.bounded.isNameChar_eq_false (c := c) rfl)
    obtain rfl | rfl := h.head c rfl <;> simp [Directive.resolve, hstart]

end Detached

end AtTemplate
