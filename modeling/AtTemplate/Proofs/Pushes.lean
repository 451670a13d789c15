import AtTemplate.Proofs.Chunks
import AtTemplate.Proofs.Headers
import AtTemplate.Proofs.Lexing
import AtTemplate.Script.Procedure

/-!
# AtTemplate.Proofs.Pushes

An expression in the statement that writes it.  The text between the parentheses of an expression is
set between two pairs of parentheses of a call.  A parenthesis stands behind it in both places, so
that no token of it goes on any further, and the same parentheses belong together.

* `Walk.moved` — the tokens of a text are read again wherever the same character follows it;
* `findClosing_moved` — so a group ends where it did;
* `findClosing_of_expression` — **an expression cannot leave the statement that writes it.**
-/

namespace AtTemplate

open Code Text

namespace Code

variable {kind : Delimiter} {c d q : Cursor} {x : Char} {rest : List Char} {token : Token}
  {tokens : List Token}

/-! ## a text in another place -/

/-- A token ends before a text as it ends before another one that begins with the same character. -/
theorem Token.EndsBefore.congr {text text' : List Char}
    (h : token.EndsBefore text) (hhead : text'.head? = text.head?) : token.EndsBefore text' := by
  unfold EndsBefore at h ⊢
  rwa [hhead]

/-- **The tokens of a text are read again wherever the same character follows it.** -/
theorem Walk.moved (h : Walk c tokens q) (hq : q.rest.head? = some x)
    (hd : d.rest = c.textTo q ++ x :: rest) :
    Walk d tokens (d.advance (c.textTo q).length) := by
  induction h generalizing d with
  | nil c =>
    rw [Cursor.textTo_self]
    exact .nil d
  | @cons c e q token tokens hn hw ih =>
    obtain ⟨text, after, hread, he, hafter⟩ := next_eq_some hn
    have htext : c.textTo q = text ++ e.textTo q := by
      rw [← (reaches_of_next hn).textTo_append hw.reaches, he, Cursor.textTo_advance, ← hafter,
        List.take_left]
    have hbehind : after = e.textTo q ++ q.rest := by
      rw [hw.reaches.textTo_append_rest, he, Cursor.rest_advance, ← hafter, List.drop_left]
    rw [htext, List.append_assoc] at hd
    obtain ⟨hself, hends⟩ := read_self hread
    have hmoved : read d.rest = .token token text (e.textTo q ++ x :: rest) := by
      rw [hd]
      refine read_append hself (hends.congr ?_)
      rw [hbehind, List.head?_append, List.head?_append, hq]
      rfl
    have hnext : next d = .ok (some (token, d.advance text.length)) := by simp [next, hmoved]
    have hrest := ih hq (d := d.advance text.length) (by simp [hd])
    rw [htext, List.length_append, ← Cursor.advance_advance]
    exact .cons hnext hrest

/-- A token that always stands alone is read where its character stands. -/
theorem next_of_single? (hx : single? x = some token) (hc : c.rest.head? = some x) :
    next c = .ok (some (token, c.advance 1)) := by
  obtain ⟨rest, hr⟩ := List.head?_eq_some_iff.1 hc
  simp [next, hr, read, hx]

/-- **A group ends where it did**, wherever its text stands in front of a closing delimiter. -/
theorem findClosing_moved (h : findClosing kind c = .ok q) (hx : single? x = some kind.closing)
    (hd : d.rest = c.textTo q ++ x :: rest) :
    findClosing kind d = .ok (d.advance (c.textTo q).length) := by
  rw [findClosing_eq_ok_iff] at h ⊢
  obtain ⟨tokens, hw, hq, hbalanced⟩ := h
  obtain ⟨after, hafter⟩ := rest_of_standsAt hx hq
  exact ⟨tokens, hw.moved (by simp [hafter]) hd,
    standsAt_of_next (next_of_single? hx (by simp [hd])), hbalanced⟩

/-- **A group around a group ends behind it**, wherever their text stands. -/
theorem findClosing_of_group (h : findClosing kind c = .ok q) {y : Char}
    (hy : single? y = some kind.opening) (hx : single? x = some kind.closing)
    (hd : d.rest = y :: (c.textTo q ++ x :: x :: rest)) :
    findClosing kind d = .ok (d.advance (2 + (c.textTo q).length)) := by
  let inner := (d.advance 1).advance (c.textTo q).length
  have hrest : inner.rest = x :: x :: rest := by simp [inner, hd]
  have hplace : d.advance (2 + (c.textTo q).length) = inner.advance 1 := by
    simp only [inner, Cursor.advance_advance]
    congr 1
    omega
  have hclosed : findClosing kind (d.advance 1) = .ok inner :=
    findClosing_moved (x := x) h hx (by rw [Cursor.rest_advance, hd]; rfl)
  rw [findClosing_eq_ok_iff] at hclosed ⊢
  obtain ⟨tokens, hw, -, hbalanced⟩ := hclosed
  rw [hplace]
  refine ⟨kind.opening :: (tokens ++ [kind.closing]), ?_, ?_, ?_⟩
  · have hlast : Walk inner [kind.closing] (inner.advance 1) :=
      .cons (next_of_single? hx (by simp [hrest])) (.nil _)
    exact .cons (next_of_single? hy (by simp [hd])) (walk_append_iff.2 ⟨inner, hw, hlast⟩)
  · exact standsAt_of_next (next_of_single? hx (by simp [hrest]))
  · have hinner : depth? kind 1 tokens = some 1 := by
      rw [← depth?_filter]
      exact depth?_of_balanced hbalanced 1
    rw [balanced_filter_iff, depth?_opening]
    exact depth?_append_iff.2 ⟨1, hinner, by simp⟩

end Code

/-! ## the statement of an expression -/

namespace Script

/-- What stands before the argument of the call that writes a text. -/
def callOpening : List Char :=
  "__vout.push(".toList

theorem callOpening_size : callOpening.length = 12 ∧ byteLength callOpening = 12 := by
  decide +kernel

/-- The statement that writes an expression, without its line break. -/
def pushed (e : List Char) : List Char :=
  callOpening ++ '(' :: (e ++ [')', ')', ';'])

/-- The statement of an expression writes it in parentheses of its own. -/
theorem toList_statement_expression (e : List Char) :
    (statement (.expression (String.ofList e))).toList = pushed e ++ ['\n'] := by
  have hopening : (bufferName ++ ".push((").toList = callOpening ++ ['('] := by decide +kernel
  have hclosing : "));\n".toList = [')', ')', ';', '\n'] := by decide +kernel
  rw [statement, String.toList_append, String.toList_append, hopening, hclosing,
    @String.toList_ofList e, pushed]
  simp only [List.append_assoc, List.cons_append, List.nil_append]

/-- The two parentheses that open in the statement of an expression. -/
theorem advance_of_pushed {c : Cursor} {e rest : List Char} (hc : c.rest = pushed e ++ rest) :
    ((c.advance 12).rest = '(' :: (e ++ ')' :: ')' :: ';' :: rest) ∧
      (c.advance 12).offset = c.offset + 12) ∧
    (c.advance 13).rest = e ++ ')' :: ')' :: ';' :: rest ∧
      (c.advance 13).offset = c.offset + 13 := by
  obtain ⟨hlength, hbytes⟩ := callOpening_size
  have hcall : c.rest = callOpening ++ '(' :: (e ++ ')' :: ')' :: ';' :: rest) := by
    rw [hc, pushed]
    simp only [List.append_assoc, List.cons_append, List.nil_append]
  have houter : (c.advance 12).rest = '(' :: (e ++ ')' :: ')' :: ';' :: rest) := by
    rw [Cursor.rest_advance, hcall, List.drop_left' hlength]
  have hbefore : (c.advance 12).offset = c.offset + 12 := by
    rw [Cursor.offset_advance, hcall, List.take_left' hlength, hbytes]
  have hinner : c.advance 13 = (c.advance 12).advance 1 := (Cursor.advance_advance 12 1 c).symm
  refine ⟨⟨houter, hbefore⟩, ?_, ?_⟩
  · rw [hinner, Cursor.rest_advance, houter]
    rfl
  · rw [hinner, Cursor.offset_advance, houter, hbefore]
    rfl

end Script

namespace Scan

open Script

variable {s : State} {m : Move}

/-- An expression in parentheses is what stands between them. -/
theorem exists_of_explicit (hd : s.Introduces .explicit) (hm : s.atSign = .ok m) :
    ∃ close, findClosing .paren (s.cursor.advance 2) = .ok close ∧
      m.written = [.expression ((s.cursor.advance 2).textTo close)] ∧
      s.rest = '@' :: '(' :: ((s.cursor.advance 2).textTo close ++ ')' :: m.state.rest) := by
  unfold State.atSign at hm
  rw [hd.2] at hm
  simp only [State.explicitExpression] at hm
  split at hm
  · cases hm
  · next close hclose =>
    cases hm
    refine ⟨close, hclose, rfl, ?_⟩
    obtain ⟨rest, hr⟩ := rest_of_introduces hd rfl
    obtain ⟨hreach, hstands⟩ := reaches_of_findClosing hclose
    obtain ⟨after, hafter⟩ := rest_of_standsAt (x := ')') rfl hstands
    have hinside := hreach.textTo_append_rest
    rw [hafter, Cursor.rest_advance, show s.cursor.rest = _ from hr] at hinside
    have hbehind : (close.advance 1).rest = after := by simp [hafter]
    rw [hr, State.rest, hbehind, hinside]
    rfl

/-- **An expression cannot leave the statement that writes it.**  Wherever the statement stands, the
inner parenthesis of its call is closed by the first one behind the expression, and the outer one by
the second. -/
theorem findClosing_of_expression (hd : s.Introduces .explicit) (hm : s.atSign = .ok m) :
    ∃ e, m.written = [.expression e] ∧
      s.rest = '@' :: '(' :: (e ++ ')' :: m.state.rest) ∧
      (statement (Piece.expression e).segment).toList = pushed e ++ ['\n'] ∧
      ∀ (c : Cursor) rest, c.rest = pushed e ++ rest →
        (c.advance 12).offset = c.offset + 12 ∧ (c.advance 13).offset = c.offset + 13 ∧
        ∃ inner outer, findClosing .paren (c.advance 13) = .ok inner ∧
          findClosing .paren (c.advance 12) = .ok outer ∧
          inner.offset = c.offset + (13 + byteLength e) ∧
          outer.offset = c.offset + (14 + byteLength e) := by
  obtain ⟨close, hclose, hwritten, hrest⟩ := exists_of_explicit hd hm
  refine ⟨_, hwritten, hrest, toList_statement_expression _, fun c rest hc => ?_⟩
  obtain ⟨⟨houter, hbefore⟩, hinner, hbehind⟩ := advance_of_pushed hc
  refine ⟨hbefore, hbehind, _, _, findClosing_moved hclose rfl hinner,
    findClosing_of_group hclose rfl rfl houter, ?_, ?_⟩
  · rw [Cursor.offset_advance, hinner, List.take_left, hbehind, Nat.add_assoc]
  · have hgroup (e : List Char) : ('(' :: (e ++ ')' :: ')' :: ';' :: rest)).take (2 + e.length) =
        '(' :: (e ++ [')']) := by
      have hlength : ('(' :: (e ++ [')'])).length = 2 + e.length := by simp; omega
      have hsplit : e ++ ')' :: ')' :: ';' :: rest = (e ++ [')']) ++ ')' :: ';' :: rest := by simp
      rw [hsplit, ← List.cons_append, List.take_left' hlength]
    rw [Cursor.offset_advance, houter, hgroup, hbefore, byteLength_cons, byteLength_append]
    show _ + 12 + (1 + (_ + 1)) = _
    omega

/-- A parenthesis in a string of an expression closes nothing in the statement either. -/
theorem findClosing_of_call :
    ∃ inner outer,
      findClosing .paren ((Cursor.start (pushed "f(\")\")".toList)).advance 13) = .ok inner ∧
        findClosing .paren ((Cursor.start (pushed "f(\")\")".toList)).advance 12) = .ok outer ∧
        inner.offset = 19 ∧ outer.offset = 20 := by
  let s := State.start "@(f(\")\")) or )".toList
  have hstep : s.atSign = .ok ⟨[.expression "f(\")\")".toList], s.skip 9⟩ := by decide +kernel
  obtain ⟨e, he, -, -, hclosing⟩ := findClosing_of_expression (by decide +kernel) hstep
  obtain rfl : "f(\")\")".toList = e := Piece.expression.inj (List.singleton_inj.1 he)
  obtain ⟨-, -, inner, outer, hinner, houter, hi, ho⟩ :=
    hclosing (Cursor.start (pushed "f(\")\")".toList)) [] (List.append_nil _).symm
  have hbytes : byteLength "f(\")\")".toList = 6 := by decide +kernel
  rw [hbytes] at hi ho
  exact ⟨inner, outer, hinner, houter, hi, ho⟩

end Scan

end AtTemplate
