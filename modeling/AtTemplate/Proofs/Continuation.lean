import AtTemplate.Proofs.Bounded
import AtTemplate.Proofs.Fusion
import AtTemplate.Proofs.Marks
import AtTemplate.Proofs.MarkupBlock

/-!
# AtTemplate.Proofs.Continuation

What stands behind a block of a clause.  A statement goes on where blanks, a keyword and the head of
its clause follow the brace that closes the block.  An at sign and a brace close the block as well,
but nothing goes on behind them: the same keyword is read as any other word in the frames around the
block.

* `step_of_lastBrace_continued` — the brace that closes a block goes on with the statement;
* `run_blanks_keyword` — blanks and a keyword, read as any others;
* `continuation_of_reached` — both ways of closing a block, at every state of a scan;
* `scan_of_forced_block` — a statement that is cut off behind an at sign and a brace.
-/

namespace AtTemplate

open Code Text

/-- Behind a block of the first keyword a clause of the second goes on with the statement: blanks
stand there, the keyword as a word of its own, and what heads its clause. -/
structure Keyword.Continues (keyword next : Keyword) (blanks after : List Char) : Prop where
  isBlank : ∀ c ∈ blanks, isBlank c = true
  word : takeName (next.letters ++ after) = next.letters
  continuedBy : keyword.continuedBy next = true
  heads : next.headsClause after = true

/-! ## plain characters -/

/-- A character at which no frame that a block may lie in needs a closer look, but for a block. -/
def IsPlain (c : Char) : Prop :=
  c ∉ ['@', '<', '>', '"', '\'', '/']

theorem isPlain_of_isBlank {c : Char} (h : isBlank c = true) : IsPlain c := by
  intro hmem
  simp only [List.mem_cons, List.not_mem_nil, or_false] at hmem
  obtain rfl | rfl | rfl | rfl | rfl | rfl := hmem <;> exact absurd h (by decide)

theorem Keyword.isPlain_of_mem_letters {keyword : Keyword} :
    ∀ c ∈ keyword.letters, IsPlain c := by
  cases keyword <;> simp [letters, IsPlain]

/-! ## blanks in code -/

namespace Code

/-- A token that no block counts and that does not lead out of its code: blanks and words. -/
def Token.IsNeutral (kind : Token) : Prop :=
  kind = .space ∨ kind = .newline ∨ kind = .other ∨ kind = .word

theorem Token.IsNeutral.feed {kind : Token} (h : kind.IsNeutral) (b : Balance) :
    b.feed kind = b := by
  obtain rfl | rfl | rfl | rfl := h <;> rfl

/-- Blanks are read as a token of blanks. -/
theorem exists_read_of_isBlank {c : Char} (h : isBlank c = true) (text : List Char) :
    ∃ kind piece rest, read (c :: text) = .token kind piece rest ∧ kind.IsNeutral ∧
      ∀ d ∈ piece, isBlank d = true := by
  by_cases hspace : isSpace c = true
  · refine ⟨.space, _, _, read_of_isSpace hspace text, .inl rfl, fun d hd => ?_⟩
    have hd := List.mem_takeWhile_imp hd
    simp only [isSpace, Bool.or_eq_true, beq_iff_eq] at hd
    obtain (rfl | rfl) | rfl := hd <;> decide
  by_cases hline : c = '\n'
  · refine ⟨.newline, ['\n'], text, by rw [hline]; rfl, .inr (.inl rfl), ?_⟩
    exact List.forall_mem_singleton.2 (by decide)
  · have hsingle : single? c = none := by
      unfold single?
      split <;> first | rfl | (exfalso; revert h; decide) | exact absurd rfl hline
    have hquoted : quoted? c = none := by
      unfold quoted?
      split <;> first | rfl | (exfalso; revert h; decide)
    have hslash : c ≠ '/' := by
      rintro rfl
      exact absurd h (by decide)
    have hword : isWordStart c = false := by
      rw [Bool.eq_false_iff]
      intro hword
      simp only [isWordStart, Bool.or_eq_true, beq_iff_eq] at hword
      obtain (hword | rfl) | rfl := hword
      · have halnum : c.isAlphanum = true := by simp [Char.isAlphanum, hword]
        rw [isBlank_of_isAlphanum halnum] at h
        cases h
      · exact absurd h (by decide)
      · exact absurd h (by decide)
    refine ⟨.other, [c], text, ?_, .inr (.inr (.inl rfl)), List.forall_mem_singleton.2 h⟩
    simp [read, hsingle, hquoted, hslash, hspace, hword]

end Code

/-- No text that begins with a keyword begins with a blank. -/
theorem Keyword.isBlank_of_head_letters (keyword : Keyword) (after : List Char) :
    ∀ c, (keyword.letters ++ after).head? = some c → Text.isBlank c = false := by
  obtain ⟨x, tail, hx⟩ := List.exists_cons_of_ne_nil keyword.letters_ne_nil
  intro c hc
  rw [hx, List.cons_append, List.head?_cons] at hc
  obtain rfl := Option.some.inj hc
  exact isBlank_of_isAlphanum (Keyword.isAlphanum_of_mem_letters x (hx ▸ List.mem_cons_self))

namespace Scan

variable {s : State} {below : List Frame} {blanks after : List Char} {keyword next : Keyword}

/-- In the frames around a block, other than a block, a plain character is copied as text. -/
theorem run_plain_char {source : List Char} {block : BlockFrame} {c : Char} {rest : List Char}
    (hn : Nested (.block block :: s.frames)) (hrec : ∀ frame ∈ s.frames, frame.Recorded source)
    (hb : s.inBlock = false) (hr : s.rest = c :: rest) (hc : IsPlain c) (w : Segments) :
    s.run w = (s.skip 1).run (w.addLiteral (String.ofList [c])) := by
  simp only [IsPlain, List.mem_cons, List.not_mem_nil, or_false, not_or] at hc
  obtain ⟨hat, hlt, hgt, hdouble, hsingle, hslash⟩ := hc
  cases hf : s.frames with
  | nil =>
    refine run_char hr ?_ w
    rw [hf, hr]
    exact hat
  | cons frame outer =>
    rw [hf] at hn hrec
    cases frame with
    | block => simp [State.inBlock_eq, hf, Frame.isBlock] at hb
    | markup markup =>
      have hopen : markup.isSettled = false := by simpa [Frame.liesOn] using hn.1
      refine run_char hr ?_ w
      rw [hf, hr]
      exact ⟨hat, fun h => absurd h hlt, fun _ => hopen⟩
    | tag name span =>
      have hstop : State.stopsTag c = false := by
        simp [State.stopsTag, hat, hgt, hdouble, hsingle, hslash]
      refine run_of_copyPlain (by rw [hf]; rfl) (fun t ht d tail htr hd => ?_) hr hstop w
      exact step_of_tag (ht.trans hf) htr hd
    | attributeValue quote openedAt =>
      have hquote : quote = '"' ∨ quote = '\'' := (List.forall_mem_cons.1 hrec).1.2
      have hstop : State.stopsValue quote c = false := by
        obtain rfl | rfl := hquote <;> simp [State.stopsValue, hat, hdouble, hsingle]
      refine run_of_copyPlain (by rw [hf]; rfl) (fun t ht d tail htr hd => ?_) hr hstop w
      exact step_of_value (ht.trans hf) htr hd
    | expression | comment | lineEscape => cases hn.tail.isWhole_eq_false

/-- So is a text of plain characters. -/
theorem run_plain_text {source : List Char} {block : BlockFrame} {text rest : List Char}
    (hn : Nested (.block block :: s.frames)) (hrec : ∀ frame ∈ s.frames, frame.Recorded source)
    (hb : s.inBlock = false) (hr : s.rest = text ++ rest) (hplain : ∀ c ∈ text, IsPlain c)
    (w : Segments) :
    s.run w = (s.skip text.length).run (w.addLiteral (String.ofList text)) := by
  refine run_of_run_char hr (fun i hi c tail htail v => ?_) w
  have hc : c ∈ text := by
    rw [State.rest_skip, hr, List.drop_append_of_le_length (Nat.le_of_lt hi),
      List.drop_eq_getElem_cons hi, List.cons_append] at htail
    rw [← (List.cons.inj htail).1]
    exact List.getElem_mem hi
  rw [run_plain_char (s := s.skip i) hn hrec hb htail (hplain c hc), State.skip_skip]

/-! ## blanks and a keyword -/

/-- In a block a token that changes nothing is copied as code. -/
theorem run_neutral_token {block : BlockFrame} {kind : Token} {text rest : List Char}
    (hf : s.frames = .block block :: below) (hopen : 1 ≤ block.balance.braces)
    (hr : Code.read s.rest = .token kind text rest) (hk : kind.IsNeutral) (w : Segments) :
    s.run w = (s.skip text.length).run (w.addCode (String.ofList text)) := by
  have hclosed : (block.balance.feed kind).isClosed = false := by
    simp [hk.feed, Balance.isClosed]
    omega
  have hat : kind ≠ .at := by
    rintro rfl
    simp [Token.IsNeutral] at hk
  have hangle : kind ≠ .angleOpen := by
    rintro rfl
    simp [Token.IsNeutral] at hk
  have hs : s.rest ≠ [] := by
    intro hs
    rw [hs] at hr
    cases hr
  have hstay : (s.skip text.length).within
      (.block { block with balance := block.balance.feed kind } :: below) = s.skip text.length := by
    rw [hk.feed, ← hf]
    rfl
  rw [run_of_step hs (step_of_token hf hr hat (fun h => absurd h hangle) hclosed), hstay]
  rfl

/-- In a block blanks are copied as code. -/
theorem run_blanks_of_block {block : BlockFrame} (hf : s.frames = .block block :: below)
    (hopen : 1 ≤ block.balance.braces) (hb : ∀ c ∈ blanks, isBlank c = true)
    (ha : ∀ c, after.head? = some c → isBlank c = false) (hr : s.rest = blanks ++ after)
    (w : Segments) :
    s.run w = (s.skip blanks.length).run (w.addCode (String.ofList blanks)) := by
  induction hlen : blanks.length using Nat.strong_induction_on generalizing s w blanks with
  | _ n ih =>
  subst hlen
  cases blanks with
  | nil =>
    rw [List.length_nil, show w.addCode (String.ofList []) = w by simp [Segments.addCode]]
    rfl
  | cons c tail =>
    obtain ⟨kind, piece, rest, hread, hk, hpiece⟩ :=
      exists_read_of_isBlank (hb c List.mem_cons_self) (tail ++ after)
    have happend := Reading.append_of_read hread
    have hne := Reading.ne_nil_of_read hread
    -- the token ends where the blanks do, or before
    obtain ⟨blanks, htail, hrest⟩ : ∃ blanks, c :: tail = piece ++ blanks ∧
        rest = blanks ++ after := by
      obtain ⟨blanks, hpiece', hafter⟩ | h :=
        List.append_eq_append_iff.1 (show (c :: tail) ++ after = piece ++ rest from happend.symm)
      · cases blanks with
        | nil => exact ⟨[], by simpa using hpiece'.symm, by simpa using hafter.symm⟩
        | cons d blanks =>
          have hd := ha d (by rw [hafter]; rfl)
          rw [hpiece d (by rw [hpiece']; simp)] at hd
          cases hd
      · exact h
    rw [htail] at hb hr ⊢
    have hskip : (s.skip piece.length).rest = blanks ++ after := by
      rw [State.rest_skip, hr, List.append_assoc, List.drop_left]
    have hlt : blanks.length < (c :: tail).length := by
      have := List.length_pos_iff.2 hne
      rw [htail, List.length_append]
      omega
    rw [run_neutral_token hf hopen (by rw [hr, ← htail]; exact hread) hk,
      ih blanks.length hlt (s := s.skip piece.length) hf
        (fun d hd => hb d (List.mem_append_right _ hd)) hskip _ rfl,
      State.skip_skip, Segments.addCode_addCode, ← String.ofList_append, List.length_append]

/-- In a block blanks and a keyword are copied as code. -/
theorem run_blanks_keyword_of_block {block : BlockFrame} (hf : s.frames = .block block :: below)
    (hopen : 1 ≤ block.balance.braces) (h : keyword.Continues next blanks after)
    (hr : s.rest = blanks ++ (next.letters ++ after)) (w : Segments) :
    s.run w = (s.skip (blanks ++ next.letters).length).run
      (w.addCode (String.ofList (blanks ++ next.letters))) := by
  have hhead := next.isBlank_of_head_letters after
  have hends : Token.EndsBefore .word after := by
    have hname : takeName (next.letters ++ after) ≠ [] := by
      rw [h.word]
      exact next.letters_ne_nil
    have hends := endsBefore_drop_takeName hname
    rwa [h.word, List.drop_left] at hends
  have hskip : (s.skip blanks.length).rest = next.letters ++ after := by
    rw [State.rest_skip, hr, List.drop_left]
  have hread : Code.read (s.skip blanks.length).rest = .token .word next.letters after := by
    rw [hskip]
    exact read_append (read_letters next) hends
  rw [run_blanks_of_block hf hopen h.isBlank hhead hr,
    run_neutral_token (s := s.skip blanks.length) hf hopen hread (.inr (.inr (.inr rfl))),
    State.skip_skip, Segments.addCode_addCode, ← String.ofList_append, List.length_append]

/-! ## both ways of closing a block -/

/-- Where a clause goes on, the blanks in front of it are copied and it is opened. -/
theorem continueClause_of_continues (h : keyword.Continues next blanks after)
    (hr : s.rest = blanks ++ (next.letters ++ after)) :
    s.continueClause keyword =
      ((s.skip blanks.length).openClause next).precede [.blanks blanks] := by
  have hdivide := takeWhile_append_of_head_false (next.isBlank_of_head_letters after) blanks
  rw [List.takeWhile_eq_self_iff.2 h.isBlank, List.dropWhile_eq_nil_iff.2 h.isBlank,
    List.nil_append, ← hr] at hdivide
  have hlead : leadingBlanks s.rest = blanks := hdivide.1
  have htrim : trimStart s.rest = next.letters ++ after := hdivide.2
  simp only [State.continueClause, hlead, htrim, h.word, Keyword.ofLetters?_letters, h.continuedBy,
    List.drop_left, h.heads]
  rfl

/-- Behind the last brace of a block the clause is opened that goes on with its statement. -/
theorem step_of_continues {block : BlockFrame} (hf : s.frames = .block block :: below)
    (hb : block.balance.braces = 1) (hw : block.clause? = some keyword)
    (h : keyword.Continues next blanks after)
    (hr : s.rest = '}' :: (blanks ++ (next.letters ++ after))) :
    s.step = (((s.skip (1 + blanks.length)).within below).openClause next).precede
      [.token .braceClose ['}'], .blanks blanks] := by
  have hskip : ((s.skip 1).within below).rest = blanks ++ (next.letters ++ after) := by
    rw [State.rest_within, State.rest_skip, hr]
    rfl
  have hbody : ((s.skip 1).within below).skip blanks.length =
      (s.skip (1 + blanks.length)).within below := by
    rw [← State.skip_skip]
    rfl
  rw [step_of_closingBrace hf hr hb, State.afterBlock, hw]
  show Outcome.precede _ (State.continueClause keyword _) = _
  rw [continueClause_of_continues h hskip, hbody]
  cases ((s.skip (1 + blanks.length)).within below).openClause next <;> rfl

/-- The header of a clause and what lies behind the brace that opens its body. -/
theorem exists_header {brace : Cursor} (hk : takeName s.rest = next.letters)
    (hr : s.rest = next.letters ++ after) (h : s.clauseBody next = .ok brace) :
    ∃ header, after = header ++ '{' :: (brace.advance 1).rest ∧
      s.cursor.textTo (brace.advance 1) = next.letters ++ (header ++ ['{']) := by
  obtain ⟨hreach, hstands⟩ := State.reaches_of_clauseBody h
  obtain ⟨rest, hbrace⟩ := rest_of_standsAt (x := '{') rfl hstands
  refine ⟨_, ?_, State.textTo_of_clauseBody hk h⟩
  have hbehind : (brace.advance 1).rest = rest := by
    rw [Cursor.rest_advance, hbrace]
    rfl
  have hafter := hreach.textTo_append_rest
  rw [hbrace, Cursor.rest_advance, show s.cursor.rest = _ from hr, List.drop_left] at hafter
  rw [hbehind, hafter]

/-- An at sign and a brace close the innermost block when nothing in it is left open. -/
theorem step_of_closeInnermost {above : List Frame} {block : BlockFrame} {rest : List Char}
    (hn : Nested s.frames) (hf : FrameStack.splitAtBlock? s.frames = some (above, block, below))
    (hu : above.findSome? Frame.unclosed? = none) (hr : s.rest = '@' :: '}' :: rest) :
    s.step = .ok ⟨[.closing (max 1 block.balance.braces.toNat)], (s.skip 2).within below⟩ := by
  have hd : Directive.ofCursor s.cursor = .closeBlock := by
    simp [Directive.ofCursor, show s.cursor.rest = _ from hr, Directive.resolve]
  rw [step_of_at hn.any_isWhole_head? (by simp [hr]), State.atSign, hd]
  simp only [State.closeInnermost, hf, hu]

/-- **Blanks and a keyword, read as any others**: in the frames around a block they are copied, as
code if these are a block and as text otherwise. -/
theorem run_blanks_keyword {source : List Char} {block : BlockFrame}
    (hn : Nested (.block block :: s.frames)) (hrec : ∀ frame ∈ s.frames, frame.Recorded source)
    (hopen : Open (blocks s.frames)) (h : keyword.Continues next blanks after)
    (hr : s.rest = blanks ++ (next.letters ++ after)) (w : Segments) :
    s.run w = (s.skip (blanks ++ next.letters).length).run
      (w.add (if s.frames.head?.any Frame.isBlock
        then .code (String.ofList (blanks ++ next.letters))
        else .literal (String.ofList (blanks ++ next.letters)))) := by
  by_cases hb : s.inBlock = true
  · obtain ⟨b, outer, hf⟩ := State.exists_block_of_inBlock hb
    rw [hf, blocks_block_cons] at hopen
    rw [run_blanks_keyword_of_block hf (hopen b List.mem_cons_self) h hr, hf]
    rfl
  · rw [← State.inBlock_eq, if_neg hb]
    refine run_plain_text hn hrec (by simpa using hb) (by rw [hr, List.append_assoc]) ?_ w
    refine List.forall_mem_append.2 ⟨fun c hc => isPlain_of_isBlank (h.isBlank c hc), ?_⟩
    exact Keyword.isPlain_of_mem_letters

/-- **Both ways of closing the block of a clause, where a clause follows that goes on with its
statement.**  The brace that closes the block copies the blanks and the clause through the brace
that opens its body, and enters the block of the clause; or it fails as the search for that brace
does.  An at sign and a brace write the braces that the block lacks and leave it, and open nothing:
behind them the blanks and the keyword are copied like any others in the frames around the block,
as code if they are a block and as text otherwise. -/
theorem continuation_of_reached (source : String) :
    ∀ s above block below keyword next blanks after, Reached source s →
      FrameStack.splitAtBlock? s.frames = some (above, block, below) →
      block.clause? = some keyword → keyword.Continues next blanks after →
      (above = [] → block.balance.braces = 1 →
        s.rest = '}' :: (blanks ++ (next.letters ++ after)) →
        (∀ e, ((s.skip (1 + blanks.length)).within below).clauseBody next = .error e →
          s.step = .error e) ∧
        ∀ brace, ((s.skip (1 + blanks.length)).within below).clauseBody next = .ok brace →
          ∃ header m, s.step = .ok m ∧ after = header ++ '{' :: m.state.rest ∧
            m.written = [.token .braceClose ['}'], .blanks blanks,
              .header (next.letters ++ (header ++ ['{']))] ∧
            m.state.frames =
              .block (.opened (s.cursor.advance (1 + blanks.length)).offset (some next)) :: below) ∧
      (above.findSome? Frame.unclosed? = none →
        s.rest = '@' :: '}' :: (blanks ++ (next.letters ++ after)) →
        s.step = .ok ⟨[.closing (max 1 block.balance.braces.toNat)], (s.skip 2).within below⟩ ∧
        ∀ w : Segments, ((s.skip 2).within below).run w =
          ((s.skip (2 + (blanks ++ next.letters).length)).within below).run
            (w.add (if below.head?.any Frame.isBlock then
              .code (String.ofList (blanks ++ next.letters))
            else .literal (String.ofList (blanks ++ next.letters))))) := by
  intro s above block below keyword next blanks after hreached hsplit hclause hcont
  obtain ⟨hframes, habove⟩ := FrameStack.splitAtBlock?_eq_some hsplit
  have hnested := nested_of_reached hreached
  constructor
  · rintro rfl hbraces hr
    have hstep := step_of_continues hframes hbraces hclause hcont hr
    have hbody : ((s.skip (1 + blanks.length)).within below).rest = next.letters ++ after := by
      rw [State.rest_within, State.rest_skip, hr, Nat.add_comm, List.drop_succ_cons, List.drop_left]
    constructor
    · intro e he
      rw [hstep, State.openClause, he]
      rfl
    · intro brace hbrace
      obtain ⟨header, hafter, htext⟩ :=
        exists_header (by rw [hbody]; exact hcont.word) hbody hbrace
      have hmove : s.step = .ok ((((s.skip (1 + blanks.length)).within below).enterClause next
          brace).precede [.token .braceClose ['}'], .blanks blanks]) := by
        rw [hstep, State.openClause, hbrace]
        rfl
      refine ⟨header, _, hmove, hafter, ?_, rfl⟩
      simp only [Move.precede, State.enterClause, htext]
      rfl
  · intro hopen hr
    refine ⟨step_of_closeInnermost hnested hsplit hopen hr, fun w => ?_⟩
    let behind := (s.skip 2).within below
    have hbehind : behind.rest = blanks ++ (next.letters ++ after) := by
      rw [State.rest_within, State.rest_skip, hr]
      rfl
    have hrec := recorded_of_reached hreached
    have hcounts := isOpen_of_reached hreached
    rw [hframes] at hnested hrec hcounts
    rw [blocks_append_of_isBlock habove, blocks_block_cons] at hcounts
    have hrecorded : ∀ frame ∈ behind.frames, frame.Recorded source.toList := fun frame hmem =>
      hrec frame (List.mem_append_right _ (List.mem_cons_of_mem _ hmem))
    have hskip : behind.skip (blanks ++ next.letters).length =
        (s.skip (2 + (blanks ++ next.letters).length)).within below := by
      rw [← State.skip_skip]
      rfl
    have hrun := run_blanks_keyword hnested.of_append hrecorded (List.forall_mem_cons.1 hcounts).2
      hcont hbehind w
    rwa [hskip] at hrun

/-- What stands behind the block of a statement, for both ways of closing it. -/
theorem continues_catch :
    Keyword.tryKeyword.Continues .catchKeyword [' '] " (e) { b }".toList where
  isBlank := List.forall_mem_singleton.2 (by decide)
  word := by decide +kernel
  continuedBy := rfl
  heads := by decide +kernel

/-- The scan comes to the end of the block, whichever way it is closed. -/
theorem reached_end_of_try (source : String)
    (h : source = "@try { a } catch (e) { b }" ∨ source = "@try { a @} catch (e) { b }") :
    Reached source (((State.start source.toList).skip 9).within
      [.block (.opened 1 (some .tryKeyword))]) := by
  let start := State.start source.toList
  let place (n : Nat) : State := (start.skip n).within [.block (.opened 1 (some .tryKeyword))]
  have hrun : ∃ trace, Run start trace (place 9) := by
    obtain rfl | rfl := h
    all_goals
      exact ⟨_,
        .cons (m := ⟨[.header r"try {".toList], place 6⟩)
          (by decide +kernel) (by decide +kernel) <|
        .cons (m := ⟨[.token .space [' ']], place 7⟩) (by decide +kernel) (by decide +kernel) <|
        .cons (m := ⟨[.token .word ['a']], place 8⟩) (by decide +kernel) (by decide +kernel) <|
        .cons (m := ⟨[.token .space [' ']], place 9⟩) (by decide +kernel) (by decide +kernel) <|
        .nil _⟩
  exact hrun

/-- Behind the last brace of the block the statement goes on; behind an at sign and a brace the
scan copies the keyword as text. -/
theorem continuation_of_try :
    (∃ s m header, Reached "@try { a } catch (e) { b }" s ∧ s.step = .ok m ∧
      " (e) { b }".toList = header ++ '{' :: m.state.rest ∧
      m.written = [.token .braceClose ['}'], .blanks [' '],
        .header ("catch".toList ++ (header ++ ['{']))]) ∧
    ∃ s t, Reached "@try { a @} catch (e) { b }" s ∧
      s.step = .ok ⟨[.closing 1], t⟩ ∧ t.rest = " catch (e) { b }".toList ∧
      ∀ w : Segments, t.run w = (t.skip 6).run (w.add (.literal " catch")) := by
  let closed := State.start "@try { a } catch (e) { b }".toList
  let forced := State.start "@try { a @} catch (e) { b }".toList
  let frames : List Frame := [.block (.opened 1 (some .tryKeyword))]
  constructor
  · have hreached := reached_end_of_try _ (.inl rfl)
    have hbrace : (((closed.skip 9).within frames).skip (1 + 1) |>.within []).clauseBody
        .catchKeyword = .ok (closed.cursor.advance 21) := by decide +kernel
    obtain ⟨header, m, hstep, hafter, hwritten, -⟩ :=
      ((continuation_of_reached _ _ [] _ [] .tryKeyword .catchKeyword [' '] _ hreached rfl rfl
        continues_catch).1 rfl rfl (by decide +kernel)).2 _ hbrace
    exact ⟨_, m, header, hreached, hstep, hafter, hwritten⟩
  · have hreached := reached_end_of_try _ (.inr rfl)
    obtain ⟨hstep, hrun⟩ :=
      (continuation_of_reached _ _ [] _ [] .tryKeyword .catchKeyword [' '] _ hreached rfl rfl
        continues_catch).2 rfl (by decide +kernel)
    refine ⟨_, ((forced.skip 9).within frames).skip 2 |>.within [], hreached, hstep,
      by decide +kernel, fun w => ?_⟩
    exact hrun w

/-- Behind an at sign and a brace no clause goes on with the statement: the block is closed without
another, and the rest of the statement is written out as text.  Behind the last brace of the same
block it is code. -/
theorem scan_of_forced_block :
    (∃ s m, Reached "@try { a @} catch (e) { b }" s ∧
      s.frames = [.block (.opened 1 (some .tryKeyword))] ∧
      s.rest = r"@} catch (e) { b }".toList ∧ s.step = .ok m ∧ m.written = [.closing 1] ∧
      m.state.frames = []) ∧
    Keyword.tryKeyword.Continues .catchKeyword [' '] " (e) { b }".toList ∧
    scan "@try { a @} catch (e) { b }" = .ok [.code "try { a }", .literal " catch (e) { b }"] ∧
    scan "@try { a } catch (e) { b }" = .ok [.code "try { a } catch (e) { b }"] := by
  have hstep : (((State.start "@try { a @} catch (e) { b }".toList).skip 9).within
      [.block (.opened 1 (some .tryKeyword))]).step = .ok ⟨[.closing 1],
        ((State.start "@try { a @} catch (e) { b }".toList).skip 11).within []⟩ := by
    decide +kernel
  refine ⟨⟨_, _, reached_end_of_try _ (.inr rfl), rfl, by decide +kernel, hstep, rfl, rfl⟩,
    continues_catch, by decide +kernel, by decide +kernel⟩

end Scan

end AtTemplate
