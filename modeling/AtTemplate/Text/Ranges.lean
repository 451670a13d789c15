/-!
# AtTemplate.Text.Ranges

Sets of code points, written as ascending lists of closed ranges.  The character
classes of the other `Text` modules are such lists.
-/

namespace AtTemplate.Text

/-- `inRanges ranges n` holds when one of the closed ranges contains `n`.  The ranges
ascend, so the search ends at the first one that begins above `n`. -/
def inRanges : List (Nat × Nat) → Nat → Bool
  | [], _ => false
  | (low, high) :: ranges, n =>
    if n < low then false else if n ≤ high then true else inRanges ranges n

/-- The letters and digits of ASCII. -/
theorem toNat_of_isAlphanum {c : Char} (h : c.isAlphanum = true) :
    0x30 ≤ c.toNat ∧ c.toNat ≤ 0x7A := by
  have hval : c.toNat = c.val.toNat := rfl
  unfold Char.isAlphanum Char.isAlpha Char.isUpper Char.isLower Char.isDigit at h
  simp only [Bool.or_eq_true, Bool.and_eq_true, decide_eq_true_eq, ge_iff_le,
    UInt32.le_iff_toNat_le] at h
  rw [hval]
  obtain (h | h) | h := h <;> (simp at h; omega)

end AtTemplate.Text
