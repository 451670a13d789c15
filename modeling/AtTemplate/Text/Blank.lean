import AtTemplate.Text.Ranges

/-!
# AtTemplate.Text.Blank

White space of all scripts (the property *White_Space*), and what it is trimmed from.
-/

namespace AtTemplate.Text

/-- A character with the property *White_Space*. -/
def isBlank (c : Char) : Bool :=
  inRanges [(0x09, 0x0D), (0x20, 0x20), (0x85, 0x85), (0xA0, 0xA0), (0x1680, 0x1680),
    (0x2000, 0x200A), (0x2028, 0x2029), (0x202F, 0x202F), (0x205F, 0x205F), (0x3000, 0x3000)]
    c.toNat

/-- No visible character of ASCII is blank. -/
theorem isBlank_of_visible {c : Char} (h : 0x21 ≤ c.toNat ∧ c.toNat ≤ 0x7E) :
    isBlank c = false := by
  simp only [isBlank, inRanges]
  grind

/-- No letter or digit of ASCII is blank. -/
theorem isBlank_of_isAlphanum {c : Char} (h : c.isAlphanum = true) : isBlank c = false := by
  obtain ⟨hlow, hhigh⟩ := toNat_of_isAlphanum h
  exact isBlank_of_visible (by omega)

/-- The text after its leading blanks. -/
def trimStart (text : List Char) : List Char :=
  text.dropWhile isBlank

/-- The blanks that lead a text. -/
def leadingBlanks (text : List Char) : List Char :=
  text.takeWhile isBlank

/-- The text before its trailing blanks. -/
def trimEnd (text : List Char) : List Char :=
  (text.reverse.dropWhile isBlank).reverse

/-- Trimming divides a text and loses nothing. -/
@[simp] theorem leadingBlanks_append_trimStart (text : List Char) :
    leadingBlanks text ++ trimStart text = text :=
  List.takeWhile_append_dropWhile

/-- Behind its leading blanks stands the trimmed text. -/
theorem drop_length_leadingBlanks (text : List Char) :
    text.drop (leadingBlanks text).length = trimStart text := by
  have h := congrArg (List.drop (leadingBlanks text).length) (leadingBlanks_append_trimStart text)
  rw [List.drop_left] at h
  exact h.symm

end AtTemplate.Text
