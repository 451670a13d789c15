import AtTemplate.Text.Letter
import AtTemplate.Text.Bytes

/-!
# AtTemplate.Name

Names in embedded code: the variable after an `@`, the members of a chain, and the name that
the model is bound to.  A name starts with a letter of any script, `_` or `$`, and goes on
with these and numerals.
-/

namespace AtTemplate

open Text

/-- A character that a name may start with. -/
def isNameStart (c : Char) : Bool :=
  isLetter c || c == '_' || c == '$'

/-- A character that a name may go on with. -/
def isNameChar (c : Char) : Bool :=
  isAlphanumeric c || c == '_' || c == '$'

/-- The longest name that a text begins with; empty when it begins with none. -/
def takeName : List Char → List Char
  | [] => []
  | c :: text => if isNameStart c then c :: text.takeWhile isNameChar else []

theorem isNameChar_of_isNameStart {c : Char} (h : isNameStart c = true) : isNameChar c = true := by
  simp only [isNameStart, isNameChar, isAlphanumeric, Bool.or_eq_true] at h ⊢
  grind

/-- A name stands at the head of its text. -/
theorem takeName_append_drop (text : List Char) :
    takeName text ++ text.drop (takeName text).length = text := by
  cases text with
  | nil => rfl
  | cons c text =>
    simp only [takeName]
    split
    · have h : text = text.takeWhile isNameChar ++ text.dropWhile isNameChar :=
        List.takeWhile_append_dropWhile.symm
      have hl : text.drop (text.takeWhile isNameChar).length = text.dropWhile isNameChar := by
        generalize text.takeWhile isNameChar = s at h
        generalize text.dropWhile isNameChar = r at h
        simp [h]
      simp [hl]
    · simp

theorem length_takeName_le (text : List Char) : (takeName text).length ≤ text.length := by
  have := congrArg List.length (takeName_append_drop text)
  simp at this; omega

/-- A text that begins with a name has a non-empty one. -/
theorem takeName_ne_nil_iff {text : List Char} :
    takeName text ≠ [] ↔ ∃ c rest, text = c :: rest ∧ isNameStart c = true := by
  cases text with
  | nil => simp [takeName]
  | cons c text => by_cases h : isNameStart c = true <;> simp [takeName, h]

end AtTemplate
