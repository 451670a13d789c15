import AtTemplate.Proofs.Lexing
import AtTemplate.Proofs.Parts
import AtTemplate.Proofs.Run

/-!
# AtTemplate.Proofs.Fusion

Whether the code of a template has the tokens that were counted in it.  A scan reads code token by
token, but it joins what it writes: where something between two tokens is left out, the first may
take on the second, and the code that comes of it has other tokens, and other braces.

* `lex_of_turn` — each piece of code that a step writes can be read on its own;
* `tokens_of_scan` — the code of a segment has the tokens of its pieces exactly if none of them
  takes on the next;
* `tokens_of_comment` — a comment between two slashes makes one token of them.
-/

namespace AtTemplate

open Code Text

/-- The tokens of a piece. -/
def Scan.Piece.lexemes : Scan.Piece → List Lexeme
  | .token kind chars => [⟨kind, chars⟩]
  | p => (lex p.chars).getD []

namespace Code

variable {k : Token} {text s rest after : List Char}

/-! ## texts that can be read -/

theorem Token.EndsBefore.of_prefix (h : k.EndsBefore after) (hp : text <+: after) :
    k.EndsBefore text := by
  obtain ⟨tail, rfl⟩ := hp
  cases text with
  | nil => exact nofun
  | cons c text => exact h

/-- A text can be read behind the token that it stands behind in another text. -/
theorem isSome_lex_append (hr : read text = .token k s rest) (hp : after <+: rest)
    (h : (lex after).isSome = true) : (lex (s ++ after)).isSome = true := by
  obtain ⟨hself, hends⟩ := read_self hr
  rw [lex_of_read (read_append hself (hends.of_prefix hp)), Option.isSome_map]
  exact h

/-- Only a quotation or a comment may have no end, and neither begins with a blank. -/
theorem exists_cons_of_read_unclosed (h : read text = .unclosed) :
    ∃ c rest, text = c :: rest ∧ isBlank c = false := by
  unfold read at h
  split at h
  · cases h
  · next c rest =>
    refine ⟨c, rest, rfl, ?_⟩
    split at h
    · cases h
    · next hq =>
      unfold quoted? at hq
      split at hq <;> first | decide | cases hq
    · split at h
      · next hc => rw [hc]; decide
      · unfold run at h
        split at h
        · cases h
        · split at h <;> cases h

/-- Blanks can be read. -/
theorem isSome_lex_of_isBlank (h : ∀ c ∈ text, isBlank c = true) :
    (lex text).isSome = true := by
  fun_induction lex text with
  | case1 => rfl
  | case2 text hr =>
    obtain ⟨c, rest, rfl, hc⟩ := exists_cons_of_read_unclosed hr
    rw [h c List.mem_cons_self] at hc
    cases hc
  | case3 text k s rest hr ih =>
    rw [Option.isSome_map]
    exact ih fun c hc => h c (Reading.append_of_read hr ▸ List.mem_append_right s hc)

/-- A character that always stands alone can be read. -/
theorem isSome_lex_single {c : Char} (h : single? c = some k) : (lex [c]).isSome = true := by
  have hr : read [c] = .token k [c] [] := by simp [read, h]
  rw [lex_of_read hr, lex_nil]
  rfl

/-- Closing braces can be read. -/
theorem isSome_lex_replicate (n : Nat) : (lex (List.replicate n '}')).isSome = true := by
  induction n with
  | zero => simp
  | succ n ih =>
    have hr : read ('}' :: List.replicate n '}') =
        .token .braceClose ['}'] (List.replicate n '}') := rfl
    rw [List.replicate_succ, lex_of_read hr, Option.isSome_map]
    exact ih

/-- A text that ends with a brace goes on behind it. -/
theorem textTo_append_brace_prefix {c d : Cursor} (h : c.Reaches d ∧ StandsAt .braceOpen d) :
    c.textTo d ++ ['{'] <+: c.rest := by
  obtain ⟨after, hd⟩ := rest_of_standsAt (x := '{') rfl h.2
  have hrest := h.1.textTo_append_rest
  rw [hd] at hrest
  exact ⟨after, by rw [← hrest]; simp⟩

/-- The header of a clause can be read through the brace that opens its body. -/
theorem isSome_lex_of_body? {parens : Int} {c d : Cursor} (h : body? parens c = .ok (some d)) :
    (lex (c.textTo d ++ ['{'])).isSome = true := by
  have hstep {c e d : Cursor} {token : Token} (hn : next c = .ok (some (token, e)))
      (hreach : e.Reaches d ∧ StandsAt .braceOpen d)
      (h : (lex (e.textTo d ++ ['{'])).isSome = true) :
      (lex (c.textTo d ++ ['{'])).isSome = true := by
    obtain ⟨s, rest, hr, rfl, hs⟩ := next_eq_some hn
    have hrest := textTo_append_brace_prefix hreach
    rw [Cursor.rest_advance, ← hs, List.drop_left] at hrest
    rw [← (Cursor.reaches_advance s.length c).textTo_append hreach.1, Cursor.textTo_advance, ← hs,
      List.take_left, List.append_assoc]
    exact isSome_lex_append hr hrest h
  fun_induction body? parens c with
  | case1 => cases h
  | case2 => cases h
  | case3 _ _ _ _ hn ih | case4 _ _ _ _ hn ih | case6 _ _ _ _ _ hn ih =>
    exact hstep hn (reaches_of_body? h) (ih h)
  | case5 =>
    cases h
    rw [Cursor.textTo_self]
    exact isSome_lex_single rfl
  | case7 _ _ _ _ _ hn _ _ _ ih => exact hstep hn (reaches_of_body? h) (ih h)

end Code

variable {text : List Char}

/-! ## keywords -/

/-- A character that a word goes on with is one that a name goes on with. -/
theorem isNameChar_of_isWordChar {c : Char} (h : isWordChar c = true) : isNameChar c = true := by
  simp only [isWordChar, isNameChar, Bool.or_eq_true] at h ⊢
  obtain (h | h) | h := h
  · exact .inl (.inl (isAlphanumeric_of_isAlphanum h))
  · exact .inl (.inr h)
  · exact .inr h

/-- A name is not followed by a character that a word goes on with. -/
theorem endsBefore_drop_takeName (hne : takeName text ≠ []) :
    Token.EndsBefore .word (text.drop (takeName text).length) := by
  obtain ⟨c, rest, rfl, hc⟩ := takeName_ne_nil_iff.1 hne
  have hname : takeName (c :: rest) = c :: rest.takeWhile isNameChar := by simp [takeName, hc]
  rw [hname]
  have hrest : (c :: rest).drop (c :: rest.takeWhile isNameChar).length =
      rest.dropWhile isNameChar := by
    have htake : rest.takeWhile isNameChar ++ rest.dropWhile isNameChar = rest :=
      List.takeWhile_append_dropWhile
    exact (congrArg (List.drop _) htake).symm.trans List.drop_left
  rw [hrest]
  intro d hd
  have hnot := List.head?_dropWhile_not isNameChar rest
  rw [hd] at hnot
  show isWordChar d = false
  rw [Bool.eq_false_iff]
  intro hword
  simp [isNameChar_of_isWordChar hword] at hnot

namespace Scan

variable {s : State} {m : Move} {keyword : Keyword} {brace : Cursor}

/-! ## the code that a step writes -/

theorem read_letters (keyword : Keyword) :
    Code.read keyword.letters = .token .word keyword.letters [] := by
  cases keyword <;> rfl

/-- A clause can be read through the brace that opens its body. -/
theorem isSome_lex_of_clauseBody (hk : takeName s.rest = keyword.letters)
    (hb : s.clauseBody keyword = .ok brace) :
    (lex (s.cursor.textTo (brace.advance 1))).isSome = true := by
  have hheader : (lex ((s.cursor.advance keyword.letters.length).textTo brace ++ ['{'])).isSome =
      true := by
    unfold State.clauseBody findBody at hb
    simp only at hb
    split at hb
    · cases hb
    · next hbody => cases hb; exact isSome_lex_of_body? hbody
    · cases hb
  have hne : takeName s.rest ≠ [] := by
    rw [hk]
    exact keyword.letters_ne_nil
  have hends := endsBefore_drop_takeName hne
  have hprefix := textTo_append_brace_prefix (State.reaches_of_clauseBody hb)
  rw [Cursor.rest_advance] at hprefix
  rw [hk] at hends
  rw [State.textTo_of_clauseBody hk hb,
    lex_of_read (read_append (read_letters keyword) (hends.of_prefix hprefix)), Option.isSome_map]
  exact hheader

/-- **Each piece of code that a step writes can be read on its own.** -/
theorem lex_of_turn (ht : s.Turn m) :
    ∀ p ∈ m.written, p.isCode = true → lex p.chars = some p.lexemes := by
  have htoken {kind : Token} {text rest : List Char}
      (hr : Code.read s.rest = .token kind text rest) :
      lex (Piece.token kind text).chars = some (Piece.token kind text).lexemes := by
    show lex text = some [⟨kind, text⟩]
    rw [lex_of_read (read_self hr).1, lex_nil]
    rfl
  have hsome {text : List Char} (h : (lex text).isSome = true) :
      lex text = some ((lex text).getD []) := by
    obtain ⟨xs, hxs⟩ := Option.isSome_iff_exists.1 h
    rw [hxs]
    rfl
  cases ht with
  | comment | enterMarkup | leaveMarkup | openText | closeText | loseWhole =>
    exact List.forall_mem_nil _
  | doubled | lineEscape | explicit | implicit | closeNothing | copy | endLine | closingTag
    | openingTag | openValue | endTag | endSelfClosing | closeValue | loseTag =>
    -- what is written is no code
    intro p hp hc
    obtain rfl := List.mem_singleton.1 hp
    cases hc
  | plain =>
    intro p hp hc
    obtain rfl := List.mem_singleton.1 hp
    split at hc
    · next hb => rw [if_pos hb]; exact hsome (isSome_lex_single rfl)
    · cases hc
  | openMarkup =>
    unfold State.openMarkup
    split
    · exact List.forall_mem_nil _
    · split
      · exact List.forall_mem_nil _
      · intro p hp hc
        obtain rfl := List.mem_singleton.1 hp
        cases hc
  | clause hd hb =>
    intro p hp _
    obtain rfl := List.mem_singleton.1 hp
    exact hsome (isSome_lex_of_clauseBody (State.takeName_of_introduces hd) hb)
  | openBlock =>
    intro p hp _
    obtain rfl := List.mem_singleton.1 hp
    exact hsome (isSome_lex_single rfl)
  | closeInnermost =>
    intro p hp _
    obtain rfl := List.mem_singleton.1 hp
    exact hsome (isSome_lex_replicate _)
  | token _ hr | lastToken _ hr =>
    intro p hp _
    obtain rfl := List.mem_singleton.1 hp
    exact htoken hr
  | @nextClause _ below _ text rest _ next _ _ hr _ _ _ hn _ _ hb =>
    have hk : takeName (s.outOf text below).skipBlanks.rest = next.letters := by
      rw [State.rest_skipBlanks, State.rest_outOf hr]
      exact (Keyword.ofLetters?_eq_some_iff.1 hn).symm
    have hblanks : (lex (leadingBlanks rest)).isSome = true :=
      isSome_lex_of_isBlank fun c hc => List.all_eq_true.1 List.all_takeWhile c hc
    simp only [Move.precede, State.enterClause, List.cons_append, List.nil_append,
      List.forall_mem_cons]
    exact ⟨fun _ => htoken hr, fun _ => hsome hblanks,
      fun _ => hsome (isSome_lex_of_clauseBody hk hb), List.forall_mem_nil _⟩

/-- A token that a step copies takes on nothing of what follows it in the source. -/
theorem endsBefore_of_turn (ht : s.Turn m) {kind : Token} {text : List Char}
    (hp : .token kind text ∈ m.written) : kind.EndsBefore (s.rest.drop text.length) := by
  have htoken {k : Token} {t rest : List Char} (hr : Code.read s.rest = .token k t rest)
      (h : Piece.token kind text = .token k t) : kind.EndsBefore (s.rest.drop text.length) := by
    cases h
    rw [← Reading.append_of_read hr, List.drop_left]
    exact (read_self hr).2
  cases ht with
  | token _ hr | lastToken _ hr => exact htoken hr (List.mem_singleton.1 hp)
  | nextClause _ hr =>
    simp only [Move.precede, State.enterClause, List.cons_append, List.nil_append,
      List.mem_cons, reduceCtorEq, List.not_mem_nil, or_false] at hp
    exact htoken hr hp
  | plain =>
    have hp := List.mem_singleton.1 hp
    split at hp <;> cases hp
  | openMarkup =>
    unfold State.openMarkup at hp
    split at hp
    · cases hp
    · split at hp
      · cases hp
      · cases List.mem_singleton.1 hp
  | comment | enterMarkup | leaveMarkup | openText | closeText | loseWhole => cases hp
  | _ => cases List.mem_singleton.1 hp

/-! ## the code of a segment -/

variable {t : State} {trace : List Transition} {part pieces : List Piece}

theorem lex_of_run (h : Run s trace t) :
    ∀ p ∈ written trace, p.isCode = true → lex p.chars = some p.lexemes := by
  induction h with
  | nil => exact List.forall_mem_nil _
  | cons hs hm _ ih =>
    rw [written_cons]
    exact List.forall_mem_append.2 ⟨lex_of_turn (State.turn_of_step hs hm), ih⟩

/-- The tokens of some pieces make up their text, and each is read alone as well. -/
theorem alone_of_pieces (h : ∀ p ∈ part, lex p.chars = some p.lexemes) :
    (part.flatMap Piece.lexemes).flatMap Lexeme.text = part.flatMap Piece.chars ∧
      ∀ x ∈ part.flatMap Piece.lexemes, x.Alone := by
  induction part with
  | nil => exact ⟨rfl, List.forall_mem_nil _⟩
  | cons p part ih =>
    obtain ⟨hp, hpart⟩ := List.forall_mem_cons.1 h
    obtain ⟨htext, halone⟩ := alone_of_lex hp
    obtain ⟨htexts, halones⟩ := ih hpart
    constructor
    · rw [List.flatMap_cons, List.flatMap_append, List.flatMap_cons, htext, htexts]
    · rw [List.flatMap_cons]
      exact List.forall_mem_append.2 ⟨halone, halones⟩

/-- What the code segments of a scan are read as. -/
structure Retold (segments : List Segment) (trace : List Transition) : Prop where
  /-- The segments are the parts of what the scan has written. -/
  eq_map_join : segments = (parts (written trace)).map join
  /-- Each piece of a code segment can be read on its own. -/
  lex_piece : ∀ part ∈ parts (written trace), ∀ text, join part = .code text →
    ∀ p ∈ part, lex p.chars = some p.lexemes
  /-- The text of the segment is read as the tokens of its pieces, blanks apart, exactly if none of
  them takes on the first character of the next. -/
  lex_iff : ∀ part ∈ parts (written trace), ∀ text, join part = .code text →
    ((lex text.toList).map significant = some (significant (part.flatMap Piece.lexemes)) ↔
      Apart (part.flatMap Piece.lexemes))
  /-- In the source none does: what follows a token there ends it. -/
  endsBefore : ∀ x ∈ trace, ∀ kind text, .token kind text ∈ x.written →
    kind.EndsBefore (x.before.rest.drop text.length)

/-- **When the code of a template has the tokens that were counted in it.**  In a template that is
accepted, the text of a code segment is read as the tokens of its pieces, blanks apart, exactly if
none of these takes on the first character of the next. -/
theorem tokens_of_scan {source : String} {segments : List Segment}
    (h : scan source = .ok segments) :
    ∃ trace t, Run (.start source.toList) trace t ∧ t.rest = [] ∧ Retold segments trace := by
  obtain ⟨trace, t, hrun, ht, -, rfl⟩ := scan_eq_ok_iff.1 h
  have hlex {part : List Piece} {text : String} (hpart : part ∈ parts (written trace))
      (hjoin : join part = .code text) : ∀ p ∈ part, lex p.chars = some p.lexemes := fun p hp =>
    lex_of_run hrun p (mem_of_mem_parts hpart hp) ((isCode_of_join hpart hjoin).1 p hp)
  refine ⟨trace, t, hrun, ht, ofPieces_eq _, fun part hpart text hjoin => hlex hpart hjoin,
    fun part hpart text hjoin => ?_, fun x hx kind text hp => ?_⟩
  · obtain ⟨htexts, halone⟩ := alone_of_pieces (hlex hpart hjoin)
    rw [(isCode_of_join hpart hjoin).2, ← htexts]
    exact lex_flatMap_iff halone
  · obtain ⟨-, -, -, -, hs, hm, -⟩ := hrun.of_mem hx
    exact endsBefore_of_turn (State.turn_of_step hs hm) hp

/-- A block of code in which nothing is left out. -/
theorem tokens_of_block :
    scan "@{ a / b }" = .ok [.code "{ a / b }"] ∧
      ∃ trace t, Run (.start "@{ a / b }".toList) trace t ∧ t.rest = [] ∧
        Retold [.code "{ a / b }"] trace := by
  have h : scan "@{ a / b }" = .ok [.code "{ a / b }"] := by decide +kernel
  exact ⟨h, tokens_of_scan h⟩

/-- A comment that is left out between two slashes makes a comment of the code behind them, and the
brace that closes the block is part of it. -/
theorem tokens_of_comment :
    scan "@{ a/@**@/b }" = .ok [.code "{ a//b }"] ∧
      ∃ trace t part, Run (.start "@{ a/@**@/b }".toList) trace t ∧ t.rest = [] ∧
        parts (written trace) = [part] ∧ join part = .code "{ a//b }" ∧
        significant (part.flatMap Piece.lexemes) =
          [⟨.braceOpen, ['{']⟩, ⟨.word, ['a']⟩, ⟨.slash, ['/']⟩, ⟨.slash, ['/']⟩,
            ⟨.word, ['b']⟩, ⟨.braceClose, ['}']⟩] ∧
        (lex "{ a//b }".toList).map significant =
          some [⟨.braceOpen, ['{']⟩, ⟨.word, ['a']⟩,
            ⟨.lineComment, ['/', '/', 'b', ' ', '}']⟩] := by
  refine ⟨by decide +kernel, _, _, [.brace, .token .space [' '], .token .word ['a'],
    .token .slash ['/'], .token .slash ['/'], .token .word ['b'], .token .space [' '],
    .token .braceClose ['}']], .cons ?_ rfl (.cons ?_ rfl (.cons ?_ rfl (.cons ?_ rfl
      (.cons ?_ rfl (.cons ?_ rfl (.cons ?_ rfl (.cons ?_ rfl (.cons ?_ rfl (.nil _))))))))),
    rfl, rfl, rfl, by decide +kernel, by decide +kernel⟩
  all_goals nofun

end Scan

end AtTemplate
