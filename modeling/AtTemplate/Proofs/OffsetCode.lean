import AtTemplate.Directive.Basic
import AtTemplate.Proofs.Offsets
import AtTemplate.Scan.Expression

/-!
# AtTemplate.Proofs.OffsetCode

Reading code by byte offsets: tokens, the ends of groups, the bodies of clauses, what an at sign
introduces and the ends of chains.  Each is read from the whole source and an offset, and keeps its
counts in numbers of 32 bits.
-/

namespace AtTemplate.Offsets

open Checked Code Text

section

variable (source : List Char)

/-! ## from token to token -/

/-- The token at an offset and where it stands; none at the end of the source. -/
def next (pos : Nat) : Checked (Option (Token × Span)) := do
  match Code.read (← after source pos) with
  | .finished => pure none
  | .unclosed => throw (.unclosed .quotation (.ofLength pos 1))
  | .token kind text _ => pure (some (kind, .ofLength pos (byteLength text)))

/-- The place of the delimiter that closes `depth` groups of one kind. -/
def closing? (kind : Delimiter) (rounds : Nat) (depth : Int) (pos : Nat) :
    Checked (Option Nat) :=
  match rounds with
  | 0 => fault
  | rounds + 1 => do
    match ← next source pos with
    | none => pure none
    | some (token, span) =>
      if token = kind.opening then
        let depth ← count (depth + 1)
        closing? kind rounds depth span.stop
      else if token = kind.closing then
        let depth ← count (depth - 1)
        if depth = 0 then pure (some span.start) else closing? kind rounds depth span.stop
      else closing? kind rounds depth span.stop

/-- The place of the delimiter that closes the group which was opened just before an offset. -/
def findClosing (kind : Delimiter) (start : Nat) : Checked Nat := do
  match ← closing? source kind (byteLength source + 1) 1 start with
  | some close => pure close
  | none =>
    let openedAt ← minus start 1
    throw (.unclosed kind.construct ⟨openedAt, start⟩)

/-- The place of the first opening brace outside of `parens` open parentheses. -/
def body? (rounds : Nat) (parens : Int) (pos : Nat) : Checked (Option Nat) :=
  match rounds with
  | 0 => fault
  | rounds + 1 => do
    match ← next source pos with
    | none => pure none
    | some (token, span) =>
      match token with
      | .parenOpen =>
        let parens ← count (parens + 1)
        body? rounds parens span.stop
      | .parenClose =>
        let parens ← count (parens - 1)
        body? rounds parens span.stop
      | .braceOpen =>
        if parens ≤ 0 then pure (some span.start) else body? rounds parens span.stop
      | _ => body? rounds parens span.stop

/-- The place of the brace that opens the body of a clause. -/
def findBody (start : Nat) (keyword : Span) : Checked Nat := do
  match ← body? source (byteLength source + 1) 0 start with
  | some brace => pure brace
  | none => throw (.unclosed .block keyword)

/-! ## at signs and chains -/

/-- What the at sign at an offset introduces. -/
def resolve (sign : Nat) : Checked Directive := do
  let rest ← after source (sign + 1)
  match rest with
  | [] => pure .plain
  | '@' :: _ => pure .doubled
  | ':' :: _ => pure .lineEscape
  | '*' :: _ => pure .comment
  | '(' :: _ => pure .explicit
  | '{' :: _ => pure .anonymousBlock
  | '}' :: _ => pure .closeBlock
  | '<' :: _ => pure .markup
  | c :: _ =>
    if isNameStart c then
      let before ← upTo source sign
      if before.getLast?.any Directive.endsMailbox then pure .plain
      else
        let word ← upTo rest (nameLength rest)
        match Keyword.ofLetters? word with
        | some keyword => if keyword.startsBlock then pure (.clause keyword) else pure .implicit
        | none => pure .implicit
    else pure .plain

/-- The end of the chain of members, indices and calls at an offset. -/
def chainEnd (rounds stop : Nat) : Checked Nat :=
  match rounds with
  | 0 => fault
  | rounds + 1 => do
    let rest ← after source stop
    match rest with
    | '.' :: member =>
      if nameLength member = 0 then pure stop
      else chainEnd rounds (stop + (1 + nameLength member))
    | '[' :: _ =>
      let close ← findClosing source .bracket (stop + 1)
      chainEnd rounds (close + 1)
    | '(' :: _ =>
      let close ← findClosing source .paren (stop + 1)
      chainEnd rounds (close + 1)
    | _ => pure stop

end

/-! ## the same places as by cursors -/

variable {source : List Char} {c d : Cursor} {kind : Delimiter} {token : Token}
  {e : TemplateError}

/-- A token without an end is found at fault by offsets too. -/
theorem next_of_error (h : c.source = source) (hn : Code.next c = .error e) :
    next source c.offset = of (.error e) := by
  unfold Code.next at hn
  unfold next
  rw [Cursor.after_offset h, pure_bind]
  cases hr : Code.read c.rest with
  | unclosed => rw [hr] at hn; cases hn; rfl
  | finished | token => rw [hr] at hn; cases hn

/-- Behind the last token no offset leads on. -/
theorem next_of_none (h : c.source = source) (hn : Code.next c = .ok none) :
    next source c.offset = pure none := by
  unfold Code.next at hn
  unfold next
  rw [Cursor.after_offset h, pure_bind]
  cases hr : Code.read c.rest with
  | finished => rfl
  | unclosed | token => rw [hr] at hn; cases hn

/-- The next token has the offsets of the cursors around it. -/
theorem next_of_some (h : c.source = source) (hn : Code.next c = .ok (some (token, d))) :
    next source c.offset = pure (some (token, c.spanTo d)) := by
  obtain ⟨text, rest, hr, rfl, ht⟩ := Code.next_eq_some hn
  have hp : text <+: c.rest := ⟨rest, ht⟩
  unfold next
  rw [Cursor.after_offset h, pure_bind, hr]
  simp only [Cursor.spanTo, Cursor.offset_advance_of_prefix hp, Span.ofLength]

/-- A group is closed at the same place, and the groups that are open are never more than the
characters read so far. -/
theorem closing?_offset {rounds depth : Nat} (h : c.source = source)
    (hr : c.rest.length < rounds) (hd : depth + 1 + c.rest.length ≤ Balance.maxCount) :
    closing? source kind rounds (depth + 1) c.offset =
      of ((Code.closing? kind depth c).map (Option.map Cursor.offset)) := by
  induction rounds generalizing depth c with
  | zero => cases hr
  | succ rounds ih =>
    rw [closing?, closing?_eq]
    cases hn : Code.next c with
    | error e => rw [next_of_error h hn]; rfl
    | ok found =>
      obtain _ | ⟨token, d⟩ := found
      · rw [next_of_none h hn]; rfl
      · have hlt := Code.next_lt hn
        have hs := (Code.reaches_of_next hn).source_eq.trans h
        rw [next_of_some h hn, pure_bind]
        simp only
        split
        · rw [count_eq (by omega), pure_bind]
          exact ih hs (by omega) (show depth + 1 + 1 + d.rest.length ≤ _ by omega)
        · split
          · rw [count_eq (by omega), pure_bind]
            cases depth with
            | zero => rfl
            | succ depth =>
              rw [if_neg (by omega), show ((depth + 1 : Nat) : Int) + 1 - 1 = depth + 1 by omega]
              exact ih hs (by omega) (by omega)
          · exact ih hs (by omega) (by omega)

/-- A text has as many bytes before a place as its offset says, and characters after it at most as
many as the other bytes. -/
theorem length_rest_le (h : c.source = source) : c.offset + c.rest.length ≤ byteLength source := by
  have hlen := length_le_byteLength c.rest
  rw [Cursor.byteLength_rest h]
  omega

/-- A closing delimiter is found at its offset; what is counted on the way fits 32 bits. -/
theorem findClosing_offset (h : c.source = source) (hpos : 1 ≤ c.offset)
    (hsize : byteLength source ≤ Balance.maxCount) :
    findClosing source kind c.offset = of ((Code.findClosing kind c).map Cursor.offset) := by
  have hlen := length_rest_le h
  have hc : closing? source kind (byteLength source + 1) 1 c.offset =
      of ((Code.closing? kind 0 c).map (Option.map Cursor.offset)) :=
    closing?_offset h (by omega) (by omega)
  unfold findClosing Code.findClosing
  rw [hc]
  split
  · next hr => rw [hr]; rfl
  · next d hr => rw [hr]; rfl
  · next hr =>
    rw [hr]
    simp only [Except.map, of_ok, Option.map_none, pure_bind]
    rw [minus, guarded_of hpos]
    rfl

/-- The body of a clause is looked for at the same offsets: each token adds at most one to the
count, so that it fits 32 bits as long as the source does. -/
theorem body?_offset {rounds : Nat} {parens : Int} (h : c.source = source)
    (hr : c.rest.length < rounds) (hp : parens.natAbs + c.rest.length ≤ Balance.maxCount) :
    body? source rounds parens c.offset =
      of ((Code.body? parens c).map (Option.map Cursor.offset)) := by
  induction rounds generalizing parens c with
  | zero => cases hr
  | succ rounds ih =>
    rw [body?, body?_eq]
    cases hn : Code.next c with
    | error e => rw [next_of_error h hn]; rfl
    | ok found =>
      obtain _ | ⟨token, d⟩ := found
      · rw [next_of_none h hn]; rfl
      · have hlt := Code.next_lt hn
        have hs := (Code.reaches_of_next hn).source_eq.trans h
        rw [next_of_some h hn, pure_bind]
        cases token with
        | parenOpen =>
          simp only
          rw [count_eq (by omega), pure_bind]
          exact ih hs (by omega) (show (parens + 1).natAbs + d.rest.length ≤ _ by omega)
        | parenClose =>
          simp only
          rw [count_eq (by omega), pure_bind]
          exact ih hs (by omega) (show (parens - 1).natAbs + d.rest.length ≤ _ by omega)
        | braceOpen =>
          simp only
          split
          · rfl
          · exact ih hs (by omega) (by omega)
        | _ => exact ih hs (by omega) (show parens.natAbs + d.rest.length ≤ _ by omega)

/-- The body of a clause is found at its offset. -/
theorem findBody_offset {keyword : Span} (h : c.source = source)
    (hsize : byteLength source ≤ Balance.maxCount) :
    findBody source c.offset keyword = of ((Code.findBody keyword c).map Cursor.offset) := by
  have hlen := length_rest_le h
  have hb : body? source (byteLength source + 1) 0 c.offset =
      of ((Code.body? 0 c).map (Option.map Cursor.offset)) :=
    body?_offset h (by omega) (by rw [Int.natAbs_zero]; omega)
  unfold findBody Code.findBody
  rw [hb]
  split
  · next hr => rw [hr]; rfl
  · next d hr => rw [hr]; rfl
  · next hr => rw [hr]; rfl

/-- An at sign introduces the same. -/
theorem resolve_offset (h : c.source = source) (hat : c.rest.head? = some '@') :
    resolve source c.offset = pure (Directive.ofCursor c) := by
  obtain ⟨rest, hr⟩ : ∃ rest, c.rest = '@' :: rest := by
    cases hc : c.rest <;> simp_all
  have hone := Cursor.offset_advance_one hr rfl
  have hafter : after source (c.offset + 1) = pure rest := by
    rw [← hone, Cursor.after_offset (by simp [h])]
    simp [hr]
  have hbefore : c.before.reverse.getLast? = c.previous? := by
    rw [List.getLast?_reverse, Cursor.previous?]
  unfold resolve Directive.ofCursor
  rw [hafter, hr, pure_bind, List.tail_cons]
  split
  case h_9 x tail h1 h2 h3 h4 h5 h6 h7 =>
    have hword : upTo (x :: tail) (nameLength (x :: tail)) = pure (takeName (x :: tail)) := by
      have hu := upTo_append (takeName (x :: tail)) ((x :: tail).drop (takeName (x :: tail)).length)
      rwa [takeName_append_drop, ← nameLength_eq] at hu
    rw [Directive.resolve.eq_9 _ x tail h1 h2 h3 h4 h5 h6 h7, Cursor.upTo_offset h, pure_bind,
      hword, pure_bind, hbefore]
    cases isNameStart x with
    | false => rfl
    | true =>
      simp only [Bool.not_true, Bool.false_eq_true, if_false, if_true]
      split
      · rfl
      · cases Keyword.ofLetters? (takeName (x :: tail)) with
        | none => rfl
        | some keyword => cases hk : keyword.startsBlock <;> simp only [hk] <;> rfl
  all_goals rfl

/-- Behind the delimiter that closes a group, one byte further on, goes what follows the group. -/
theorem offset_of_findClosing (hc : Code.findClosing kind c = .ok d) :
    (d.advance 1).offset = d.offset + 1 := by
  obtain ⟨x, hx, hsize⟩ : ∃ x, single? x = some kind.closing ∧ x.utf8Size = 1 := by
    cases kind
    · exact ⟨')', rfl, rfl⟩
    · exact ⟨']', rfl, rfl⟩
    · exact ⟨'}', rfl, rfl⟩
  obtain ⟨rest, hr⟩ := rest_of_standsAt hx (reaches_of_findClosing hc).2
  exact Cursor.offset_advance_one hr hsize

/-- An index and a call end in the same way, where what follows them ends alike. -/
theorem chainGroup_offset {rounds : Nat} {x : Char} {rest : List Char} (h : c.source = source)
    (hsize : byteLength source ≤ Balance.maxCount) (hx : c.rest = x :: rest)
    (hlink : Scan.linkGroup? x = some kind) (hne : x ≠ '.') (hone : x.utf8Size = 1)
    (hbehind : ∀ d : Cursor, d.source = source → d.rest.length ≤ rest.length →
      chainEnd source rounds d.offset = of ((Scan.chainEnd d).map Cursor.offset)) :
    (do
      let close ← findClosing source kind (c.offset + 1)
      chainEnd source rounds (close + 1)) = of ((Scan.chainEnd c).map Cursor.offset) := by
  have hc := Cursor.offset_advance_one hx hone
  have hs : (c.advance 1).source = source := by rw [Cursor.source_advance, h]
  rw [← hc, findClosing_offset hs (by omega) hsize, Scan.chainEnd_eq, hx]
  simp only [hne, if_false, hlink]
  cases hf : Code.findClosing kind (c.advance 1) with
  | error e => rfl
  | ok close =>
    have hreach := (reaches_of_findClosing hf).1
    have hlen := hreach.length_le
    rw [Cursor.rest_advance, hx, List.drop_one, List.tail_cons] at hlen
    simp only [Except.map, of_ok, pure_bind, ← offset_of_findClosing hf]
    refine hbehind _ (by rw [Cursor.source_advance, hreach.source_eq, hs]) ?_
    rw [Cursor.rest_advance, List.length_drop]
    omega

/-- A chain ends at the same place. -/
theorem chainEnd_offset {rounds : Nat} (h : c.source = source) (hr : c.rest.length < rounds)
    (hsize : byteLength source ≤ Balance.maxCount) :
    chainEnd source rounds c.offset = of ((Scan.chainEnd c).map Cursor.offset) := by
  induction rounds generalizing c with
  | zero => cases hr
  | succ rounds ih =>
    have hbehind {x : Char} {rest : List Char} (hx : c.rest = x :: rest) (d : Cursor)
        (hd : d.source = source) (hlen : d.rest.length ≤ rest.length) :
        chainEnd source rounds d.offset = of ((Scan.chainEnd d).map Cursor.offset) := by
      rw [hx, List.length_cons] at hr
      exact ih hd (by omega)
    rw [chainEnd, Cursor.after_offset h, pure_bind]
    split
    · next member hx =>
      rw [Scan.chainEnd_eq]
      simp only [nameLength_eq, byteLength_eq_zero_iff, hx, if_true]
      split
      · rfl
      · have hp : '.' :: takeName member <+: c.rest :=
          ⟨member.drop (takeName member).length, by rw [hx, List.cons_append, takeName_append_drop]⟩
        have hadvance := Cursor.offset_advance_of_prefix hp
        rw [List.length_cons, Nat.add_comm, byteLength_cons] at hadvance
        rw [show 1 + byteLength (takeName member) = '.'.utf8Size + byteLength (takeName member)
          from rfl, ← hadvance]
        refine hbehind hx _ (by rw [Cursor.source_advance, h]) ?_
        rw [Cursor.rest_advance, hx, List.length_drop, List.length_cons]
        omega
    · next rest hx => exact chainGroup_offset h hsize hx rfl (by decide) rfl (hbehind hx)
    · next rest hx => exact chainGroup_offset h hsize hx rfl (by decide) rfl (hbehind hx)
    · next hpoint hbracket hparen =>
      rw [Scan.chainEnd_eq]
      cases hx : c.rest with
      | nil => rfl
      | cons x rest =>
        have hlink : Scan.linkGroup? x = none := by
          unfold Scan.linkGroup?
          split
          · exact absurd hx (hbracket rest)
          · exact absurd hx (hparen rest)
          · rfl
        have hne : x ≠ '.' := by
          rintro rfl
          exact hpoint rest hx
        simp only [hne, if_false, hlink]
        rfl

end AtTemplate.Offsets
