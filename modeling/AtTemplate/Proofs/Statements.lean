import AtTemplate.Proofs.Chains
import AtTemplate.Proofs.CodeBlocks
import AtTemplate.Proofs.Continuation
import AtTemplate.Proofs.Embedding
import AtTemplate.Proofs.HeaderGroups

/-!
# AtTemplate.Proofs.Statements

A statement of any number of clauses.  The brace that closes a body looks for a clause that goes on
with the statement and, where there is one, opens the block of that clause in the same step.  So a
statement is copied as a whole, and behind its last clause the scan is back in the text around it.

* `continueClause_of_not_goesOn` — nothing else behind a block goes on with its statement;
* `writesCode_of_clauses` — the clauses of a statement are copied one after the other;
* `scan_of_clauses` — **a statement is one segment of code, and the text behind it is scanned as it
  is alone.**
-/

namespace AtTemplate

open Code Text

/-- The text behind a block of the keyword goes on with its statement. -/
def Keyword.GoesOn (keyword : Keyword) (text : List Char) : Prop :=
  ∃ next blanks after, text = blanks ++ (next.letters ++ after) ∧
    keyword.Continues next blanks after

/-- The text behind a block goes on with its statement exactly when the word behind its blanks does
so. -/
theorem Keyword.goesOn_iff {keyword : Keyword} {text : List Char} :
    keyword.GoesOn text ↔ ∃ next, takeName (trimStart text) = next.letters ∧
      keyword.continuedBy next = true ∧
      next.headsClause ((trimStart text).drop next.letters.length) = true := by
  constructor
  · rintro ⟨next, blanks, after, rfl, h⟩
    have hdivide := takeWhile_append_of_head_false (next.isBlank_of_head_letters after) blanks
    rw [List.dropWhile_eq_nil_iff.2 h.isBlank, List.nil_append] at hdivide
    have htrim : trimStart (blanks ++ (next.letters ++ after)) = next.letters ++ after := hdivide.2
    rw [htrim]
    refine ⟨next, h.word, h.continuedBy, ?_⟩
    rw [List.drop_left]
    exact h.heads
  · rintro ⟨next, hword, hcontinued, hheads⟩
    have hsplit : next.letters ++ (trimStart text).drop next.letters.length = trimStart text := by
      rw [← hword, takeName_append_drop]
    refine ⟨next, leadingBlanks text, _, ?_, ?_, ?_, hcontinued, hheads⟩
    · rw [hsplit, leadingBlanks_append_trimStart]
    · exact fun c hc => List.mem_takeWhile_imp hc
    · rw [hsplit, hword]

instance (keyword : Keyword) (text : List Char) : Decidable (keyword.GoesOn text) :=
  decidable_of_iff (∃ next ∈ Keyword.all, takeName (trimStart text) = next.letters ∧
    keyword.continuedBy next = true ∧
    next.headsClause ((trimStart text).drop next.letters.length) = true)
    (by simp [Keyword.goesOn_iff, Keyword.mem_all])

/-- A keyword behind an at sign that ends no address introduces its clause. -/
theorem Directive.resolve_of_keyword {previous? : Option Char} {after : List Char}
    {keyword : Keyword} (hk : takeName after = keyword.letters) (hb : keyword.startsBlock = true)
    (hp : previous?.any endsMailbox = false) : resolve previous? after = .clause keyword := by
  obtain ⟨c, rest, rfl, hc⟩ := takeName_ne_nil_iff.1 (hk ▸ keyword.letters_ne_nil)
  rw [resolve_of_isNameChar (isNameChar_of_isNameStart hc), hk]
  simp [hc, hp, hb]

/-- What lies around the text behind a place: the text before it, which does not end in a character
after which an at sign reads as part of an e-mail address. -/
def Cursor.surroundings (d : Cursor) (hd : d.previous?.any Directive.endsMailbox = false) :
    Surroundings :=
  ⟨⟨d.before, []⟩, [], hd, .nil, trivial⟩

theorem Cursor.bytes_surroundings {d : Cursor}
    (hd : d.previous?.any Directive.endsMailbox = false) : (d.surroundings hd).bytes = d.offset :=
  d.offset_eq.symm

namespace Scan

variable {source : String} {text : List Char} {keyword first last : Keyword} {s : State}
  {c d e brace close : Cursor} {n : Nat} {block : BlockFrame} {below : List Frame}

/-! ## the clauses of a statement -/

/-- The body of a clause stands between two places: its braces are balanced, and no token of it
leads out of the code. -/
def IsBody (c d : Cursor) : Prop :=
  ∃ tokens, Walk c tokens d ∧ KeepsToCode 0 c tokens ∧ BracesBalanced tokens

/-- A clause stands between two places: its keyword as a word of its own, the items of its header,
and its body in braces. -/
structure Clause (keyword : Keyword) (c d : Cursor) : Prop where
  word : takeName c.rest = keyword.letters
  block : ∃ brace close, HeaderItems (c.advance keyword.letters.length) brace ∧
    StandsAt .braceOpen brace ∧ IsBody (brace.advance 1) close ∧ StandsAt .braceClose close ∧
    d = close.advance 1

/-- A clause of the first keyword stands at the first place.  Behind it follow `n` clauses, each of
which goes on with the one before; the last is of the last keyword and ends at the last place. -/
inductive Clauses : Nat → Keyword → Keyword → Cursor → Cursor → Prop
  | single {keyword : Keyword} {c d : Cursor} (h : Clause keyword c d) :
      Clauses 0 keyword keyword c d
  | cons {n : Nat} {keyword next last : Keyword} {c d e : Cursor} {blanks after : List Char}
      (h : Clause keyword c d) (hr : d.rest = blanks ++ (next.letters ++ after))
      (hnext : keyword.Continues next blanks after)
      (hs : Clauses n next last (d.advance blanks.length) e) :
      Clauses (n + 1) keyword last c e

/-- The body of a clause lies ahead. -/
theorem IsBody.reaches (h : IsBody c d) : c.Reaches d := by
  obtain ⟨tokens, hw, -⟩ := h
  exact hw.reaches

/-- A clause ends with a brace. -/
theorem Clause.previous? (h : Clause keyword c d) : d.previous? = some '}' := by
  obtain ⟨brace, close, -, -, -, hclose, rfl⟩ := h.block
  obtain ⟨rest, hr⟩ := rest_of_standsAt (x := '}') rfl hclose
  refine previous?_of_getLast? ?_
  rw [hr]
  rfl

/-- The last character of clauses is the brace that closes the last of them. -/
theorem Clauses.previous? (h : Clauses n first last c d) : d.previous? = some '}' := by
  induction h with
  | single h => exact h.previous?
  | cons _ _ _ _ ih => exact ih

/-- Clauses begin with the keyword of the first of them. -/
theorem Clauses.word (h : Clauses n first last c d) : takeName c.rest = first.letters := by
  cases h with
  | single h | cons h => exact h.word

/-! ## where a statement ends -/

/-- Nothing else behind a block goes on with its statement. -/
theorem continueClause_of_not_goesOn (h : ¬ keyword.GoesOn s.rest) :
    s.continueClause keyword = .ok (.stay s) := by
  simp only [State.continueClause]
  split
  · rfl
  · next next hnext =>
    have hword := Keyword.ofLetters?_eq_some_iff.1 hnext
    refine if_neg fun hcond => h (Keyword.goesOn_iff.2 ?_)
    rw [Bool.and_eq_true] at hcond
    exact ⟨next, hword.symm, hcond.1, hword ▸ hcond.2⟩

/-! ## the body of a clause -/

/-- Braces are balanced exactly when none stays open behind the tokens. -/
theorem bracesBalanced_iff {tokens : List Token} :
    BracesBalanced tokens ↔ depth? .brace 0 tokens = some 0 := by
  simp [BracesBalanced, depth?_eq_some_iff, Delimiter.opening, Delimiter.closing]

/-- The body of a block is copied, and behind it no brace is open but that of the block. -/
theorem writesCode_of_body (h : IsBody c d) (openedAt : Nat) (clause? : Option Keyword)
    (below : List Frame) :
    ∃ balance, balance.braces = 1 ∧
      WritesCode ⟨c, ⟨.block (.opened openedAt clause?) :: below⟩⟩ (c.textTo d)
        ⟨d, ⟨.block ⟨openedAt, balance, clause?⟩ :: below⟩⟩ := by
  obtain ⟨tokens, hw, hkeeps, hbalanced⟩ := h
  exact ⟨_, rfl, writesCode_tokens hw hkeeps rfl
    (bracesBalanced_iff.1 hbalanced)⟩

/-- The brace behind the last body is copied and leaves the block. -/
theorem writesCode_of_lastBrace (hc : StandsAt .braceClose close) (hb : block.balance.braces = 1)
    (hk : block.clause? = some keyword) (hnot : ¬ keyword.GoesOn (close.advance 1).rest) :
    WritesCode ⟨close, ⟨.block block :: below⟩⟩ (close.textTo (close.advance 1))
      ⟨close.advance 1, ⟨below⟩⟩ := by
  obtain ⟨rest, hr⟩ := rest_of_standsAt (x := '}') rfl hc
  let s : State := ⟨close, ⟨.block block :: below⟩⟩
  have hs : s.rest = '}' :: rest := hr
  have hstep : s.step = .ok ⟨[.token .braceClose ['}']], ⟨close.advance 1, ⟨below⟩⟩⟩ := by
    rw [step_of_closingBrace rfl hs hb, State.afterBlock, hk]
    exact congrArg (Outcome.precede _) (continueClause_of_not_goesOn hnot)
  rw [Cursor.textTo_advance, hr]
  exact writesCode_of_step (by simp [hs]) hstep (by decide)

/-- The brace behind another body is copied through the header of the clause that goes on. -/
theorem writesCode_of_nextBrace {next : Keyword} {blanks after : List Char}
    (hc : StandsAt .braceClose close) (hb : block.balance.braces = 1)
    (hk : block.clause? = some keyword)
    (hr : (close.advance 1).rest = blanks ++ (next.letters ++ after))
    (hnext : keyword.Continues next blanks after)
    (hbody : State.clauseBody next ⟨(close.advance 1).advance blanks.length, ⟨below⟩⟩ = .ok brace) :
    WritesCode ⟨close, ⟨.block block :: below⟩⟩ (close.textTo (brace.advance 1))
      ⟨brace.advance 1, ⟨.block (.opened ((close.advance 1).advance blanks.length).offset
        (some next)) :: below⟩⟩ := by
  obtain ⟨rest, hrest⟩ := rest_of_standsAt (x := '}') rfl hc
  let s : State := ⟨close, ⟨.block block :: below⟩⟩
  let word := (close.advance 1).advance blanks.length
  have hs : s.rest = '}' :: (blanks ++ (next.letters ++ after)) := by
    rw [← hr, Cursor.rest_advance, show s.rest = '}' :: rest from hrest, hrest]
    rfl
  have hword : (s.skip (1 + blanks.length)).within below = ⟨word, ⟨below⟩⟩ := by
    simp only [State.skip, State.within, s, word, Cursor.advance_advance]
  have hstep : s.step = .ok ⟨[.token .braceClose ['}'], .blanks blanks,
      .header (word.textTo (brace.advance 1))], ⟨brace.advance 1, ⟨.block (.opened word.offset
        (some next)) :: below⟩⟩⟩ := by
    rw [step_of_continues rfl hb hk hnext hs, hword, State.openClause, hbody]
    rfl
  have hreach : word.Reaches (brace.advance 1) := State.reaches_enterClause hbody
  have htext : close.textTo (brace.advance 1) =
      ['}'] ++ (blanks ++ word.textTo (brace.advance 1)) := by
    rw [← (Cursor.reaches_advance 1 close).textTo_append
        ((Cursor.reaches_advance blanks.length _).trans hreach),
      ← (Cursor.reaches_advance blanks.length (close.advance 1)).textTo_append hreach,
      Cursor.textTo_advance, Cursor.textTo_advance, hr, List.take_left, hrest]
    rfl
  have hcode : ∀ p ∈ [.token .braceClose ['}'], .blanks blanks,
      .header (word.textTo (brace.advance 1))], Piece.isCode p = true := by
    simp only [List.forall_mem_cons, List.not_mem_nil, false_imp_iff, implies_true, and_true]
    exact ⟨rfl, rfl, rfl⟩
  rw [htext, ← List.append_nil (word.textTo _)]
  exact writesCode_of_step (by simp [hs]) hstep hcode

/-! ## the statement -/

/-- The block of a clause is entered where its body begins, and the body is copied. -/
theorem Clause.exists_block (h : Clause keyword c d) (below : List Frame) :
    ∃ brace close block, State.clauseBody keyword ⟨c, ⟨below⟩⟩ = .ok brace ∧
      (brace.advance 1).Reaches close ∧ StandsAt .braceClose close ∧ d = close.advance 1 ∧
      block.balance.braces = 1 ∧ block.clause? = some keyword ∧
      WritesCode ⟨brace.advance 1, ⟨.block (.opened c.offset (some keyword)) :: below⟩⟩
        ((brace.advance 1).textTo close) ⟨close, ⟨.block block :: below⟩⟩ := by
  obtain ⟨brace, close, hitems, hbrace, hbody, hclose, hd⟩ := h.block
  obtain ⟨balance, hopen, hcopied⟩ := writesCode_of_body hbody c.offset (some keyword) below
  exact ⟨brace, close, ⟨c.offset, balance, some keyword⟩, (findBody_of_items _ hitems).1 hbrace,
    hbody.reaches, hclose, hd, hopen, rfl, hcopied⟩

/-- **The clauses of a statement are copied one after the other**, and behind the last one the scan
is in the frames around the statement. -/
theorem writesCode_of_clauses (h : Clauses n first last c e) (hlast : ¬ last.GoesOn e.rest)
    (below : List Frame) :
    ∃ brace, State.clauseBody first ⟨c, ⟨below⟩⟩ = .ok brace ∧ (brace.advance 1).Reaches e ∧
      WritesCode ⟨brace.advance 1, ⟨.block (.opened c.offset (some first)) :: below⟩⟩
        ((brace.advance 1).textTo e) ⟨e, ⟨below⟩⟩ := by
  induction h with
  | single h =>
    obtain ⟨brace, close, block, hfound, hbody, hclose, rfl, hb, hk, hcopied⟩ :=
      h.exists_block below
    have hahead := Cursor.reaches_advance 1 close
    refine ⟨brace, hfound, hbody.trans hahead, ?_⟩
    rw [← hbody.textTo_append hahead]
    exact hcopied.trans (writesCode_of_lastBrace hclose hb hk hlast)
  | cons h hr hnext _ ih =>
    obtain ⟨brace, close, block, hfound, hbody, hclose, rfl, hb, hk, hcopied⟩ :=
      h.exists_block below
    obtain ⟨brace', hfound', hreach, hrest⟩ := ih hlast
    have hahead : close.Reaches (brace'.advance 1) :=
      ((Cursor.reaches_advance 1 close).trans (Cursor.reaches_advance _ _)).trans
        (State.reaches_enterClause hfound')
    have hclosed := writesCode_of_nextBrace hclose hb hk hr hnext hfound'
    refine ⟨brace, hfound, (hbody.trans hahead).trans hreach, ?_⟩
    rw [← hbody.textTo_append (hahead.trans hreach), ← hahead.textTo_append hreach]
    exact hcopied.trans (hclosed.trans hrest)

/-- The place behind the at sign that a template begins with. -/
def statementOf (source : String) : Cursor :=
  (Cursor.start source.toList).advance 1

/-- A template that begins with a statement is copied through the last brace of it. -/
theorem writesCode_of_statement (hs : source.toList = '@' :: text)
    (hfirst : first.startsBlock = true) (h : Clauses n first last (statementOf source) d)
    (hlast : ¬ last.GoesOn d.rest) :
    WritesCode (.start source.toList) ((statementOf source).textTo d) ⟨d, .empty⟩ ∧
      (statementOf source).textTo d ≠ [] := by
  let s := State.start source.toList
  have hr : s.rest = '@' :: text := hs
  have hbehind : (statementOf source).rest = text := by
    rw [statementOf, Cursor.rest_advance, Cursor.rest_start, hs]
    rfl
  have hclause : Directive.ofCursor s.cursor = .clause first := by
    rw [Directive.ofCursor, show s.cursor.rest = _ from hr]
    exact Directive.resolve_of_keyword (hbehind ▸ h.word) hfirst rfl
  obtain ⟨brace, hfound, hreach, hrest⟩ := writesCode_of_clauses h hlast []
  have hstep : s.step = .ok ⟨[.header ((statementOf source).textTo (brace.advance 1))],
      ⟨brace.advance 1, ⟨[.block (.opened (statementOf source).offset (some first))]⟩⟩⟩ := by
    rw [step_of_at rfl (by simp [hr]), State.atSign, hclause]
    show State.openClause first ⟨statementOf source, ⟨[]⟩⟩ = _
    rw [State.openClause, hfound]
    rfl
  have hheader := writesCode_of_step (by simp [hr]) hstep (List.forall_mem_singleton.2 rfl)
  have hahead : (statementOf source).Reaches (brace.advance 1) :=
    State.reaches_enterClause hfound
  rw [List.flatMap_singleton] at hheader
  rw [← hahead.textTo_append hreach]
  refine ⟨hheader.trans hrest, List.append_ne_nil_of_left_ne_nil ?_ _⟩
  rw [State.textTo_of_clauseBody (s := ⟨statementOf source, ⟨[]⟩⟩) h.word hfound]
  exact List.append_ne_nil_of_left_ne_nil first.letters_ne_nil _

/-! ## the text behind a statement -/

/-- The text behind a place outside of all frames is scanned as it is alone, and its errors move
with it. -/
theorem run_behind (hd : d.previous?.any Directive.endsMailbox = false) (w : Segments) :
    State.run ⟨d, .empty⟩ w = (d.surroundings hd).place w.addAll (scan (String.ofList d.rest)) := by
  have hbehind : (⟨d, .empty⟩ : State) = (State.start d.rest).inside (d.surroundings hd) :=
    State.eq_of_before_rest_frames rfl (by simp [Cursor.surroundings, State.rest, State.start]) rfl
  rw [hbehind, run_inside (s := .start d.rest) rfl rfl trivial, run_eq_map,
    scan_eq_map, String.toList_ofList]
  cases (State.start d.rest).run .empty <;> rfl

/-- A text without an at sign is text as a whole. -/
theorem scan_of_not_mem (h : '@' ∉ text) :
    scan (String.ofList text) = .ok (Segments.ofPieces [.literal (String.ofList text)]) := by
  have hr : (State.start text).rest = text ++ [] := (List.append_nil text).symm
  rw [scan_eq_map, String.toList_ofList, run_text hr, run_of_rest_eq_nil]
  · rfl
  · simp [hr]
  · intro i hi
    show Copies [] (text.drop i)
    rw [List.drop_eq_getElem_cons hi]
    exact fun hat => h (hat ▸ List.getElem_mem hi)

/-- **A statement of any number of clauses is one segment of code**, as long as the text behind its
last clause does not go on with it.  That text is scanned as it is alone, and its errors move with
it; where no at sign stands in it, it is text as a whole. -/
theorem scan_of_clauses (hs : source.toList = '@' :: text) (hfirst : first.startsBlock = true)
    (h : Clauses n first last (statementOf source) d) (hlast : ¬ last.GoesOn d.rest) :
    (∃ trace, Run (.start source.toList) trace ⟨d, .empty⟩ ∧
      Segments.ofPieces ((written trace).map Piece.segment) =
        [.code (String.ofList ((statementOf source).textTo d))]) ∧
    (∀ others, scan (String.ofList d.rest) = .ok others → scan source =
      .ok (Segments.ofPieces (.code (String.ofList ((statementOf source).textTo d)) :: others))) ∧
    (∀ e, scan (String.ofList d.rest) = .error e → scan source = .error (e.shift d.offset)) ∧
    ('@' ∉ d.rest → scan source = .ok (Segments.ofPieces
      [.code (String.ofList ((statementOf source).textTo d)),
        .literal (String.ofList d.rest)])) := by
  obtain ⟨⟨trace, hrun, hcode, hchars⟩, hne⟩ := writesCode_of_statement hs hfirst h hlast
  have hmailbox : d.previous?.any Directive.endsMailbox = false := by
    rw [h.previous?]
    decide
  have hscan : scan source = (d.surroundings hmailbox).place
      (fun others => Segments.ofPieces
        (.code (String.ofList ((statementOf source).textTo d)) :: others))
      (scan (String.ofList d.rest)) := by
    rw [scan_eq_map, run_eq_of_run hrun, addAll_of_isCode _ hcode, hchars, run_behind hmailbox]
    cases scan (String.ofList d.rest) <;> rfl
  refine ⟨⟨trace, hrun, ?_⟩, fun others ho => ?_, fun e he => ?_, fun hat => ?_⟩
  · rw [ofPieces_of_isCode hcode (hchars ▸ hne), hchars]
  · rw [hscan, ho, Surroundings.place_ok]
  · rw [hscan, he, Surroundings.place_error, Cursor.bytes_surroundings]
  · rw [hscan, scan_of_not_mem hat]
    exact congrArg (Except.ok ·.toList) (Segments.addAll_ofPieces _ _)

/-- A clause on the same line goes on with the statement, and prose that begins with its keyword
does not. -/
theorem scan_of_prose_behind_else :
    scan "@if (a) {b} else if (c) {d} else is a word" =
      .ok [.code "if (a) {b} else if (c) {d}", .literal " else is a word"] := by
  let source := "@if (a) {b} else if (c) {d} else is a word"
  let c := statementOf source
  let d := (c.advance 9).advance 1
  let word := d.advance 1
  let e := (word.advance 14).advance 1
  have hif : Clause .ifKeyword c d := by
    have hitems : HeaderItems (c.advance 2) (c.advance 7) :=
      .token (t := .space) (d := c.advance 3) (by decide +kernel) (by decide) <|
      .group (d := c.advance 4) (q := c.advance 5) (by decide +kernel) (by decide +kernel) <|
      .token (t := .space) (d := c.advance 7) (by decide +kernel) (by decide) <| .nil _
    have hbody : IsBody ((c.advance 7).advance 1) (c.advance 9) :=
      have h := keepsToCode_cons .word (c.advance 9) (by decide +kernel) nofun nofun
        ⟨.nil _, keepsToCode_nil⟩
      ⟨[.word], h.1, h.2, bracesBalanced_iff.2 rfl⟩
    exact ⟨by decide +kernel, c.advance 7, c.advance 9, hitems,
      standsAt_of_next (d := c.advance 8) (by decide +kernel), hbody,
      standsAt_of_next (d := c.advance 10) (by decide +kernel), rfl⟩
  have helse : Clause .elseKeyword word e := by
    have hitems : HeaderItems (word.advance 4) (word.advance 12) :=
      .token (t := .space) (d := word.advance 5) (by decide +kernel) (by decide) <|
      .token (t := .word) (d := word.advance 7) (by decide +kernel) (by decide) <|
      .token (t := .space) (d := word.advance 8) (by decide +kernel) (by decide) <|
      .group (d := word.advance 9) (q := word.advance 10) (by decide +kernel)
        (by decide +kernel) <|
      .token (t := .space) (d := word.advance 12) (by decide +kernel) (by decide) <| .nil _
    have hbody : IsBody ((word.advance 12).advance 1) (word.advance 14) :=
      have h := keepsToCode_cons .word (word.advance 14) (by decide +kernel) nofun nofun
        ⟨.nil _, keepsToCode_nil⟩
      ⟨[.word], h.1, h.2, bracesBalanced_iff.2 rfl⟩
    exact ⟨by decide +kernel, word.advance 12, word.advance 14, hitems,
      standsAt_of_next (d := word.advance 13) (by decide +kernel), hbody,
      standsAt_of_next (d := word.advance 15) (by decide +kernel), rfl⟩
  have hgoes : Keyword.ifKeyword.Continues .elseKeyword [' ']
      " if (c) {d} else is a word".toList :=
    ⟨List.forall_mem_singleton.2 (by decide), by decide +kernel, rfl, by decide +kernel⟩
  have hclauses : Clauses 1 .ifKeyword .elseKeyword c e :=
    .cons hif (by decide +kernel) hgoes (.single helse)
  have hcode : String.ofList (c.textTo e) = "if (a) {b} else if (c) {d}" := by
    decide +kernel
  have hbehind : String.ofList e.rest = " else is a word" := by decide +kernel
  have hs : source.toList = '@' :: c.rest := by decide +kernel
  have hscan := (scan_of_clauses hs rfl hclauses (by decide +kernel)).2.2.2 (by decide +kernel)
  rw [hscan, hcode, hbehind]
  decide +kernel

end Scan

end AtTemplate
