import AtTemplate.Code.Group
import AtTemplate.Name

/-!
# AtTemplate.Scan.Expression

The end of an expression that begins with a name.  The expression goes on as long as a member,
an index or a call follows without a gap.
-/

namespace AtTemplate.Scan

open Code

/-- The kind of group that a link of a chain opens. -/
def linkGroup? : Char → Option Delimiter
  | '[' => some .bracket
  | '(' => some .paren
  | _ => none

/-- The end of the chain of members, indices and calls at the cursor.  A point that no name
follows ends the chain before it. -/
def chainEnd (c : Cursor) : Except TemplateError Cursor :=
  match _h : c.rest with
  | [] => .ok c
  | x :: rest =>
    if x = '.' then
      if takeName rest = [] then .ok c
      else chainEnd (c.advance (1 + (takeName rest).length))
    else
      match linkGroup? x with
      | none => .ok c
      | some kind =>
        match _hc : findClosing kind (c.advance 1) with
        | .error e => .error e
        | .ok close => chainEnd (close.advance 1)
termination_by c.rest.length
decreasing_by
  · simp only [Cursor.rest_advance, _h, List.length_drop, List.length_cons]; omega
  · have := (reaches_of_findClosing _hc).1.length_le
    simp [_h] at this ⊢
    omega

/-- The end of a chain, one link at a time. -/
theorem chainEnd_eq (c : Cursor) :
    chainEnd c =
      match c.rest with
      | [] => .ok c
      | x :: rest =>
        if x = '.' then
          if takeName rest = [] then .ok c
          else chainEnd (c.advance (1 + (takeName rest).length))
        else
          match linkGroup? x with
          | none => .ok c
          | some kind =>
            match findClosing kind (c.advance 1) with
            | .error e => .error e
            | .ok close => chainEnd (close.advance 1) := by
  rw [chainEnd]
  split
  · next hr => rw [hr]
  · next x rest hr =>
    simp only [hr]
    by_cases hx : x = '.'
    · simp only [if_pos hx]
    · simp only [if_neg hx]
      cases linkGroup? x with
      | none => rfl
      | some kind =>
        dsimp only
        split <;> simp_all

/-- Behind a character a group begins at a place that is not the first of its source. -/
theorem offset_advance_one_pos {c : Cursor} (h : c.rest ≠ []) : 0 < (c.advance 1).offset := by
  obtain ⟨x, rest, hr⟩ := List.exists_cons_of_ne_nil h
  have := x.utf8Size_pos
  simp [hr]
  omega

/-- The end of a chain lies ahead. -/
theorem reaches_of_chainEnd {c d : Cursor} (h : chainEnd c = .ok d) : c.Reaches d := by
  fun_induction chainEnd c <;>
    grind [Cursor.Reaches.refl, → Cursor.Reaches.trans, Cursor.reaches_advance,
      → reaches_of_findClosing]

end AtTemplate.Scan
