import Mathlib.Algebra.Group.Nat.Even
import Mathlib.Data.List.DropRight

/-!
# AtTemplate.Proofs.EndRuns

How often a character is repeated at the end of a text.  Where a character takes the next one with
it, it is the parity of this number that tells whether what follows is taken.

* `even_endRun_pair` — a character that is repeated, and the one that it takes, do not change the
  parity behind them.
-/

namespace AtTemplate.Code

variable {c x : Char} {text : List Char}

/-- How many times a character is repeated at the end of a text. -/
def endRun (c : Char) (text : List Char) : Nat :=
  (text.rtakeWhile (· = c)).length

@[simp] theorem endRun_nil (c : Char) : endRun c [] = 0 := rfl

/-- A run at the end of a text is no longer than the text. -/
theorem endRun_le (c : Char) (text : List Char) : endRun c text ≤ text.length :=
  (List.rtakeWhile_suffix _ text).length_le

/-- A character lengthens the run at the end of a text when the text is nothing but that run. -/
theorem endRun_cons (c x : Char) (text : List Char) :
    endRun c (x :: text) =
      if x = c ∧ endRun c text = text.length then text.length + 1 else endRun c text := by
  simp only [endRun, List.rtakeWhile, List.reverse_cons, List.takeWhile_append,
    List.length_reverse]
  by_cases hx : x = c <;> split <;> simp_all

/-- Another character in front of a text leaves the run at its end as it is. -/
theorem endRun_cons_of_ne (hx : x ≠ c) (text : List Char) :
    endRun c (x :: text) = endRun c text := by
  simp [endRun_cons, hx]

/-- A character and the one that it takes leave it open whether those behind them are even in
number. -/
theorem even_endRun_pair (c x : Char) (text : List Char) :
    Even (endRun c (c :: x :: text)) ↔ Even (endRun c text) := by
  have hle := endRun_le c text
  rw [endRun_cons, endRun_cons, List.length_cons]
  by_cases hall : x = c ∧ endRun c text = text.length
  · simp [hall, Nat.even_add_one]
  · have hlt : endRun c text ≠ text.length + 1 := by omega
    simp [hall, hlt]

end AtTemplate.Code
