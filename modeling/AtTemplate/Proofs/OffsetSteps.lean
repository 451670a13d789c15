import AtTemplate.Proofs.OffsetScan

/-!
# AtTemplate.Proofs.OffsetSteps

The steps of a scan by offsets do what the steps of a scan by cursors do.  Each routine is compared
at a state whose cursor stands in the source; what it needs beside, that the source is not too long
and that the text begins as the routine expects, is said where it is needed.

* `copy_scanner` — a text that stands at the cursor is a slice of the source;
* `atSign_scanner` — an at sign is done with in the same way;
* `stepText_scanner`, `stepBlock_scanner`, `stepMarkup_scanner`, `stepTag_scanner`,
  `stepValue_scanner` — the steps in each kind of frame.
-/

namespace AtTemplate

open Code Text Offsets Checked
open AtTemplate.Markup
open AtTemplate.Offsets.Scanner

namespace Scan

/-- A state as the scan by offsets has it, when `w` is written. -/
def State.scanner (w : Segments) (s : State) : Scanner :=
  ⟨s.cursor.offset, s.stack, w⟩

/-- Where a move leads the scan by offsets, when `w` was written before. -/
def Move.scanner (w : Segments) (m : Move) : Scanner :=
  m.state.scanner (w.addAll (m.written.map Piece.segment))

/-- What a step comes to in the scan by offsets. -/
def Outcome.checked (w : Segments) (o : Outcome) : Checked Scanner :=
  of (o.map (Move.scanner w))

variable {source : List Char} {s : State} {w : Segments}

@[simp] theorem pos_scanner : (s.scanner w).pos = s.cursor.offset := rfl

@[simp] theorem frames_scanner : (s.scanner w).stack.frames = s.frames := rfl

@[simp] theorem checked_ok (m : Move) : Outcome.checked w (.ok m) = pure (m.scanner w) := rfl

/-- What is written first is there when the rest of a step is done. -/
theorem checked_precede (pieces : List Piece) (o : Outcome) :
    (o.precede pieces).checked w = o.checked (w.addAll (pieces.map Piece.segment)) := by
  cases o with
  | error e => rfl
  | ok m =>
    simp only [Outcome.precede, checked_ok, Move.scanner, Move.precede, List.map_append,
      Segments.addAll_append]

/-- Settled markup gives way to code by offsets as by cursors. -/
theorem scanner_yieldToCode : (s.scanner w).yieldToCode = s.yieldToCode.scanner w := by
  unfold Scanner.yieldToCode State.yieldToCode
  rw [frames_scanner]
  rcases s.frames with _ | ⟨frame, below⟩
  · rfl
  · cases frame with
    | markup markup => simp only; split <;> rfl
    | _ => rfl

/-- The innermost frame is taken off by offsets as by cursors. -/
theorem scanner_dropFrame {frame : Frame} {below : List Frame} (hf : s.frames = frame :: below) :
    (s.scanner w).dropFrame = (s.within below).scanner w := by
  have hpop : s.stack.pop.2 = ⟨below⟩ := by
    unfold FrameStack.pop
    rw [show s.stack.frames = frame :: below from hf]
  unfold Scanner.dropFrame
  rw [show (s.scanner w).stack = s.stack from rfl, hpop]
  rfl

/-! ## text -/

/-- A text that stands at the cursor is copied. -/
theorem copy_scanner {t : List Char} (h : s.cursor.source = source) (ht : t <+: s.rest) :
    (s.scanner w).copy source (byteLength t) = pure ((s.copy t.length).scanner w) := by
  unfold Scanner.copy
  rw [pos_scanner, ← Cursor.offset_advance_of_prefix ht,
    Cursor.slice_textTo h (Cursor.reaches_advance _ _), pure_bind, Cursor.textTo_advance]
  rfl

/-- A character of one byte that stands at the cursor is copied. -/
theorem copy_one_scanner {c : Char} {rest : List Char} (h : s.cursor.source = source)
    (hs : s.rest = c :: rest) (hc : c.utf8Size = 1) :
    (s.scanner w).copy source 1 = pure ((s.copy 1).scanner w) := by
  have hcopy := copy_scanner (w := w) (t := [c]) h ⟨rest, hs.symm⟩
  rwa [byteLength_cons, hc, byteLength_nil] at hcopy

/-- Where a text is stopped first: nowhere, or behind a part of it, at a character. -/
inductive Stopped (stops : Char → Bool) (text : List Char) : Prop
  | nowhere (plain : ∀ c ∈ text, stops c = false) (found : offsetOf? stops text = none)
      (length : State.plainLength stops text = text.length)
      (behind : text.dropWhile (!stops ·) = [])
  | behind (t : List Char) (c : Char) (rest : List Char) (text_eq : text = t ++ c :: rest)
      (plain : ∀ d ∈ t, stops d = false) (stop : stops c = true)
      (found : offsetOf? stops text = some (byteLength t))
      (length : State.plainLength stops text = t.length)
      (behind : text.dropWhile (!stops ·) = c :: rest)

/-- A text is stopped nowhere, or behind a part without stops. -/
theorem stopped (stops : Char → Bool) (text : List Char) : Stopped stops text := by
  obtain ⟨hall, hfind⟩ | ⟨t, c, rest, rfl, hall, hc, hfind⟩ := offsetOf?_cases stops text
  · have hplain : ∀ c ∈ text, (!stops c) = true := by simpa using hall
    refine .nowhere hall hfind ?_ (List.dropWhile_eq_nil_iff.2 hplain)
    rw [State.plainLength, List.takeWhile_eq_self_iff.2 hplain]
  · have hplain : ∀ d ∈ t, (!stops d) = true := by simpa using hall
    refine .behind t c rest rfl hall hc hfind ?_ ?_
    · rw [State.plainLength, List.takeWhile_append_of_pos hplain]
      simp [hc]
    · rw [List.dropWhile_append_of_pos hplain]
      simp [hc]

/-! ## at signs -/

/-- An at sign that introduces nothing is code in a block and text elsewhere. -/
theorem plainSign_scanner {rest : List Char} (hs : s.rest = '@' :: rest) :
    (s.scanner w).plainSign = s.plainSign.scanner w := by
  have hone := Cursor.offset_advance_one hs rfl
  unfold Scanner.plainSign State.plainSign
  rw [State.inBlock_eq, frames_scanner, pos_scanner, ← hone]
  rcases s.frames with _ | ⟨frame, below⟩
  · rfl
  · cases frame <;> rfl

/-- The line ends at the first line break, or with the source. -/
theorem lineEnd_eq {c : Cursor} (h : c.source = source) :
    lineEnd source c.offset c.rest = (c.advance (firstLine c.rest).length).offset := by
  unfold lineEnd
  have hp : firstLine c.rest <+: c.rest := ⟨_, firstLine_append_drop c.rest⟩
  rw [Cursor.offset_advance_of_prefix hp]
  obtain ⟨line, hl, he⟩ | ⟨hl, he⟩ := firstLine_cases c.rest
  · obtain ⟨rest, hr⟩ := hp
    have hr : c.rest = line ++ '\n' :: rest := by rw [← hr, he]; simp
    have hfind : offsetOf? (· == '\n') c.rest = some (byteLength line) := by
      rw [hr]
      exact offsetOf?_append (fun d hd => by simp; rintro rfl; exact hl hd) rfl
    rw [hfind, he, byteLength_append]
    rfl
  · have hfind : offsetOf? (· == '\n') c.rest = none :=
      offsetOf?_eq_none fun d hd => by simp; rintro rfl; exact hl hd
    rw [hfind, he, Cursor.byteLength_rest h]

/-- The rest of a line behind `@:` is copied up to and with its line break. -/
theorem escapeLine_scanner {rest : List Char} (h : s.cursor.source = source)
    (hs : s.rest = '@' :: ':' :: rest) :
    (s.scanner w).escapeLine source = pure (s.escapeLine.scanner w) := by
  have htwo := Cursor.offset_advance_two hs rfl rfl
  have hsrc : (s.cursor.advance 2).source = source := by rw [Cursor.source_advance, h]
  unfold Scanner.escapeLine State.escapeLine
  dsimp only
  rw [pos_scanner, ← htwo, Cursor.after_offset hsrc, pure_bind, lineEnd_eq hsrc,
    Cursor.slice_textTo hsrc (Cursor.reaches_advance _ _), pure_bind, Cursor.textTo_advance,
    Cursor.advance_advance, Cursor.rest_advance,
    ← List.prefix_iff_eq_take.1 ⟨_, firstLine_append_drop _⟩]
  rfl

/-- A comment is left out up to `*@`, or reported from its beginning on. -/
theorem passComment_scanner {rest : List Char} (h : s.cursor.source = source)
    (hs : s.rest = '@' :: '*' :: rest) :
    (s.scanner w).passComment source = s.passComment.checked w := by
  have htwo := Cursor.offset_advance_two hs rfl rfl
  have hsrc : (s.cursor.advance 2).source = source := by rw [Cursor.source_advance, h]
  have hrest : (s.cursor.advance 2).rest = s.rest.drop 2 := Cursor.rest_advance _ _
  unfold Scanner.passComment State.passComment offsetOfText?
  dsimp only
  rw [pos_scanner, ← htwo, Cursor.after_offset hsrc, pure_bind, hrest]
  cases hb : before? ['*', '@'] (s.rest.drop 2) with
  | none => simp only [Option.map_none, htwo]; rfl
  | some found =>
    have hp : found ++ ['*', '@'] <+: (s.cursor.advance 2).rest := by
      obtain ⟨behind, hd⟩ := append_of_before? hb
      exact ⟨behind, by rw [hrest, hd]⟩
    have hend := Cursor.offset_advance_of_prefix hp
    rw [Cursor.advance_advance, byteLength_append, List.length_append] at hend
    simp only [Option.map_some, checked_ok, Move.scanner, State.scanner, State.cursor_skip]
    rw [show found.length + 2 = found.length + ['*', '@'].length from rfl, hend]
    rfl

/-- The expression in parentheses is the slice between them. -/
theorem explicitExpression_scanner {rest : List Char} (h : s.cursor.source = source)
    (hsize : byteLength source ≤ Balance.maxCount) (hs : s.rest = '@' :: '(' :: rest) :
    (s.scanner w).explicitExpression source = s.explicitExpression.checked w := by
  have htwo := Cursor.offset_advance_two hs rfl rfl
  have hsrc : (s.cursor.advance 2).source = source := by rw [Cursor.source_advance, h]
  unfold Scanner.explicitExpression State.explicitExpression
  dsimp only
  rw [pos_scanner, ← htwo, findClosing_offset hsrc (by omega) hsize]
  cases hc : findClosing .paren (s.cursor.advance 2) with
  | error e => rfl
  | ok close =>
    simp only [Except.map, of_ok, pure_bind]
    rw [Cursor.slice_textTo hsrc (reaches_of_findClosing hc).1, pure_bind,
      ← offset_of_findClosing hc]
    rfl

/-- The expression that begins with a name is the slice up to the end of its chain. -/
theorem implicitExpression_scanner {rest : List Char} (h : s.cursor.source = source)
    (hsize : byteLength source ≤ Balance.maxCount) (hs : s.rest = '@' :: rest) :
    (s.scanner w).implicitExpression source = s.implicitExpression.checked w := by
  have hone := Cursor.offset_advance_one hs rfl
  have hsrc : (s.cursor.advance 1).source = source := by rw [Cursor.source_advance, h]
  unfold Scanner.implicitExpression State.implicitExpression
  dsimp only
  rw [pos_scanner, ← hone, Cursor.after_offset hsrc, pure_bind, nameLength_eq]
  generalize s.cursor.advance 1 = start at hsrc
  have hname : takeName start.rest <+: start.rest := ⟨_, takeName_append_drop _⟩
  have hnameEnd : (start.advance (takeName start.rest).length).source = source := by
    rw [Cursor.source_advance, hsrc]
  have hlen := length_rest_le hnameEnd
  rw [← Cursor.offset_advance_of_prefix hname, chainEnd_offset hnameEnd (by omega) hsize]
  cases hc : chainEnd (start.advance (takeName start.rest).length) with
  | error e => rfl
  | ok stop =>
    have hreach := (Cursor.reaches_advance _ _).trans (reaches_of_chainEnd hc)
    simp only [Except.map, of_ok, pure_bind]
    rw [Cursor.slice_textTo hsrc hreach, pure_bind]
    rfl

/-- The clause that opens at the cursor, from whatever offset the scan comes to it. -/
theorem openClause_scanner {keyword : Keyword} (pos : Nat) (h : s.cursor.source = source)
    (hsize : byteLength source ≤ Balance.maxCount) (hk : keyword.letters <+: s.rest) :
    Scanner.openClause source s.cursor.offset keyword ⟨pos, s.stack, w⟩ =
      (s.openClause keyword).checked w := by
  have hkeyword := Cursor.offset_advance_of_prefix hk
  have hsrc : (s.cursor.advance keyword.letters.length).source = source := by
    rw [Cursor.source_advance, h]
  unfold Scanner.openClause State.openClause State.clauseBody
  dsimp only [Span.ofLength, Cursor.spanTo]
  rw [← hkeyword, findBody_offset hsrc hsize]
  cases hb : findBody ⟨s.cursor.offset, (s.cursor.advance keyword.letters.length).offset⟩
      (s.cursor.advance keyword.letters.length) with
  | error e => rfl
  | ok brace =>
    obtain ⟨hreach, hstands⟩ := reaches_of_findBody hb
    obtain ⟨rest, hr⟩ := rest_of_standsAt (x := '{') rfl hstands
    have hbrace := Cursor.offset_advance_one hr rfl
    have hbody : s.cursor.Reaches (brace.advance 1) :=
      ((Cursor.reaches_advance _ _).trans hreach).trans (Cursor.reaches_advance _ _)
    simp only [Except.map, of_ok, pure_bind]
    rw [← hbrace, Cursor.slice_textTo h hbody, pure_bind]
    rfl

/-- A block without a clause is opened behind `@{`. -/
theorem openBlock_scanner {rest : List Char} (hs : s.rest = '@' :: '{' :: rest) :
    (s.scanner w).openBlock = s.openBlock.scanner w := by
  have htwo := Cursor.offset_advance_two hs rfl rfl
  unfold Scanner.openBlock
  rw [pos_scanner, ← htwo]
  rfl

/-- `@}` closes the innermost block of the stack, with as many braces as are open in it and with one
at least. -/
theorem closeInnermost_scanner {rest : List Char} (hs : s.rest = '@' :: '}' :: rest) :
    (s.scanner w).closeInnermost = s.closeInnermost.checked w := by
  have htwo := Cursor.offset_advance_two hs rfl rfl
  unfold Scanner.closeInnermost State.closeInnermost
  rw [frames_scanner, pos_scanner, ← htwo]
  cases FrameStack.splitAtBlock? s.frames with
  | none => rfl
  | some parts =>
    obtain ⟨above, block, below⟩ := parts
    have hmax : (max block.balance.braces 1).toNat = max 1 block.balance.braces.toNat := by omega
    simp only [hmax]
    cases above.findSome? Frame.unclosed? <;> rfl

/-- Markup is opened behind the at sign in front of it. -/
theorem openMarkup_scanner {rest : List Char} (hs : s.rest = '@' :: rest) :
    (s.scanner w).openMarkup = s.openMarkup.scanner w := by
  have hone := Cursor.offset_advance_one hs rfl
  unfold Scanner.openMarkup State.openMarkup
  rw [State.inBlock_eq, State.inMarkup_eq, frames_scanner, pos_scanner, ← hone]
  rcases s.frames with _ | ⟨frame, below⟩
  · rfl
  · cases frame <;> rfl

/-- An at sign introduces the same, and it is done with in the same way. -/
theorem atSign_scanner (h : s.cursor.source = source) (hsize : byteLength source ≤ Balance.maxCount)
    (hs : s.rest.head? = some '@') :
    (s.scanner w).atSign source = s.atSign.checked w := by
  obtain ⟨after, hr⟩ : ∃ after, s.rest = '@' :: after := by
    cases hc : s.rest with
    | nil => rw [hc] at hs; cases hs
    | cons c after => rw [hc] at hs; cases hs; exact ⟨after, rfl⟩
  have hmark {d : Directive} {c : Char} (hd : Directive.ofCursor s.cursor = d)
      (hm : d.mark? = some c) : ∃ rest, s.rest = '@' :: c :: rest := by
    have htail : s.cursor.rest.tail = after := by
      rw [show s.cursor.rest = '@' :: after from hr]
      rfl
    unfold Directive.ofCursor at hd
    rw [htail] at hd
    obtain ⟨rest, rfl⟩ := Directive.eq_cons_of_mark? (hd ▸ hm)
    exact ⟨rest, hr⟩
  unfold Scanner.atSign State.atSign
  rw [pos_scanner, resolve_offset h hs, pure_bind]
  cases hd : Directive.ofCursor s.cursor with
  | doubled =>
    obtain ⟨rest, hr⟩ := hmark hd rfl
    have htwo := Cursor.offset_advance_two hr rfl rfl
    simp only [Directive.opensBlock, Bool.false_eq_true, if_false]
    rw [pos_scanner, ← htwo]
    rfl
  | lineEscape =>
    obtain ⟨rest, hr⟩ := hmark hd rfl
    exact escapeLine_scanner h hr
  | comment =>
    obtain ⟨rest, hr⟩ := hmark hd rfl
    exact passComment_scanner h hr
  | explicit =>
    obtain ⟨rest, hr⟩ := hmark hd rfl
    exact explicitExpression_scanner h hsize hr
  | anonymousBlock =>
    obtain ⟨rest, hr⟩ := hmark hd rfl
    have hyield : s.yieldToCode.rest = '@' :: '{' :: rest := by rw [State.rest_yieldToCode, hr]
    simp only [Directive.opensBlock, if_true]
    rw [scanner_yieldToCode, openBlock_scanner hyield]
    rfl
  | closeBlock =>
    obtain ⟨rest, hr⟩ := hmark hd rfl
    exact closeInnermost_scanner hr
  | markup =>
    have hyield : s.yieldToCode.rest = '@' :: after := by rw [State.rest_yieldToCode, hr]
    simp only [Directive.opensBlock, Bool.false_eq_true, if_false]
    rw [scanner_yieldToCode, openMarkup_scanner hyield]
    rfl
  | clause keyword =>
    have hk := State.takeName_of_introduces ⟨hs, hd⟩
    have hone : (s.yieldToCode.skip 1).cursor.offset = s.cursor.offset + 1 := by
      rw [State.cursor_skip, State.cursor_yieldToCode]
      exact Cursor.offset_advance_one hr rfl
    have hsrc : (s.yieldToCode.skip 1).cursor.source = source := by
      rw [State.cursor_skip, State.cursor_yieldToCode, Cursor.source_advance, h]
    simp only [Directive.opensBlock, if_true]
    rw [scanner_yieldToCode, pos_scanner, State.cursor_yieldToCode, ← hone]
    exact openClause_scanner _ hsrc hsize (hk ▸ ⟨_, takeName_append_drop _⟩)
  | implicit => exact implicitExpression_scanner h hsize hr
  | plain =>
    simp only [Directive.opensBlock, Bool.false_eq_true, if_false]
    rw [plainSign_scanner hr]
    rfl

/-- A step outside of all frames: the text up to the next at sign is one slice. -/
theorem stepText_scanner (h : s.cursor.source = source)
    (hsize : byteLength source ≤ Balance.maxCount) (hs : s.rest ≠ []) :
    (s.scanner w).stepText source = s.stepText.checked w := by
  have hplain : (s.rest.takeWhile (· ≠ '@')).length = State.plainLength (· == '@') s.rest := by
    rw [State.plainLength]
    congr 2
    funext c
    simp only [ne_eq, decide_not]
    rfl
  have hafter : after source s.cursor.offset = pure s.rest := Cursor.after_offset h
  unfold Scanner.stepText State.stepText
  rw [pos_scanner, hafter, pure_bind, hplain]
  cases stopped (· == '@') s.rest with
  | nowhere hall hfind hlen =>
    obtain ⟨d, rest, hr⟩ := List.exists_cons_of_ne_nil hs
    have hd : d ≠ '@' := by simpa using hall d (by rw [hr]; exact List.mem_cons_self)
    have hcopy := copy_scanner (w := w) h (List.prefix_refl s.rest)
    rw [hlen, hfind]
    rw [hr] at hcopy ⊢
    simp only [hcopy, hd, if_false, checked_ok]
  | behind t c rest hr hall hc hfind hlen =>
    rw [hlen, hfind]
    cases t with
    | nil =>
      obtain rfl : c = '@' := by simpa using hc
      simp only [byteLength_nil, atSign_scanner h hsize (by rw [hr]; rfl), hr]
      rfl
    | cons d t =>
      have hd : d ≠ '@' := by simpa using hall d List.mem_cons_self
      have hp : d :: t <+: s.rest := ⟨_, hr.symm⟩
      obtain ⟨n, hn⟩ := exists_byteLength_cons d t
      have hcopy := copy_scanner (w := w) h hp
      rw [hn] at hcopy ⊢
      simp only [hcopy, hr, List.cons_append, hd, if_false, checked_ok]

/-! ## blocks of code -/

/-- Behind a block the blanks, the word and the head behind it are slices of what is left of the
source; all of them lie within it. -/
theorem continueClause_scanner {keyword : Keyword} (h : s.cursor.source = source)
    (hsize : byteLength source ≤ Balance.maxCount) :
    (s.scanner w).continueClause source keyword = (s.continueClause keyword).checked w := by
  have hafter : after source s.cursor.offset = pure s.rest := Cursor.after_offset h
  -- the text is blanks, a word and what follows
  have hblanks : leadingBlanks s.rest ++ trimStart s.rest = s.rest :=
    leadingBlanks_append_trimStart s.rest
  have hword := takeName_append_drop (trimStart s.rest)
  generalize hb : leadingBlanks s.rest = blanks at hblanks
  generalize ht : trimStart s.rest = trimmed at hblanks hword
  generalize hw : takeName trimmed = word at hword
  generalize hh : trimmed.drop word.length = head at hword
  unfold Scanner.continueClause State.continueClause
  dsimp only
  rw [pos_scanner, hafter, pure_bind, hb, ht, hw, hh]
  have hstart : minus (byteLength s.rest) (byteLength trimmed) = pure (byteLength blanks) := by
    rw [← hblanks, minus_append]
  have htrimmed : after s.rest (byteLength blanks) = pure trimmed := by
    rw [← hblanks, after_append]
  have hend : byteLength blanks + byteLength word = byteLength (blanks ++ word) := by simp
  have hslice : slice s.rest (byteLength blanks) (byteLength (blanks ++ word)) = pure word := by
    rw [← hblanks, ← hword, ← List.append_assoc, slice_append]
  have hhead : after s.rest (byteLength (blanks ++ word)) = pure head := by
    rw [← hblanks, ← hword, ← List.append_assoc, after_append]
  have hupTo : upTo s.rest (byteLength blanks) = pure blanks := by
    rw [← hblanks, upTo_append]
  rw [hstart, pure_bind, htrimmed, pure_bind, nameLength_eq, hw, hend, hslice, pure_bind]
  cases hk : Keyword.ofLetters? word with
  | none => rfl
  | some next =>
    have hletters : next.letters = word := Keyword.ofLetters?_eq_some_iff.1 hk
    simp only
    cases hc : keyword.continuedBy next with
    | false => rfl
    | true =>
      simp only [if_true, Bool.true_and]
      rw [hhead, pure_bind]
      cases hheads : next.headsClause head with
      | false => rfl
      | true =>
        have hp : blanks <+: s.cursor.rest := ⟨trimmed, hblanks⟩
        have hrest : (s.skip blanks.length).rest = trimmed := by
          rw [State.rest_skip, ← hblanks, List.drop_left]
        have hword : next.letters <+: (s.skip blanks.length).rest := by
          rw [hrest, hletters]
          exact ⟨head, hword⟩
        have hsrc : (s.skip blanks.length).cursor.source = source := by
          rw [State.cursor_skip, Cursor.source_advance, h]
        simp only [if_true]
        have hclause := openClause_scanner
          (w := w.addAll ([Piece.blanks blanks].map Piece.segment)) s.cursor.offset hsrc hsize hword
        rw [hupTo, pure_bind, checked_precede, ← Cursor.offset_advance_of_prefix hp, ← hclause]
        rfl

/-- When a block is closed, its statement goes on where a clause does. -/
theorem closeBlock_scanner (h : s.cursor.source = source)
    (hsize : byteLength source ≤ Balance.maxCount) :
    (s.scanner w).closeBlock source = (s.closeBlock id).checked w := by
  unfold Scanner.closeBlock State.closeBlock
  rw [frames_scanner]
  rcases s.frames with _ | ⟨frame, below⟩
  · rfl
  · cases frame with
    | block block =>
      simp only [State.afterBlock]
      cases block.clause? with
      | none => rfl
      | some keyword => exact continueClause_scanner (s := s.within below) h hsize
    | _ => rfl

/-- Counts that stay within 32 bits are kept alike. -/
theorem feed_eq {balance : Balance} {kind : Token}
    (h : (balance.feed kind).Within Balance.maxCount) :
    Scanner.feed balance kind = pure (balance.feed kind) := by
  obtain ⟨hp, hb⟩ := h
  cases kind with
  | parenOpen | parenClose =>
    exact congrArg (· >>= fun n => pure { balance with parens := n }) (count_eq hp)
  | braceOpen | braceClose =>
    exact congrArg (· >>= fun n => pure { balance with braces := n }) (count_eq hb)
  | _ => rfl

/-- What the scan by cursors does with a token of code that does not begin anything. -/
theorem copyToken_scanner {block : BlockFrame} {below : List Frame} {kind : Token}
    {text : List Char} (h : s.cursor.source = source) (hsize : byteLength source ≤ Balance.maxCount)
    (hf : s.frames = .block block :: below) (ht : text <+: s.rest)
    (hfeed : (block.balance.feed kind).Within Balance.maxCount) :
    (s.scanner w).copyToken source kind (.ofLength s.cursor.offset (byteLength text)) =
      Outcome.checked w
        (let block := { block with balance := block.balance.feed kind }
        let next := (s.skip text.length).within (.block block :: below)
        if block.balance.isClosed then (next.closeBlock id).precede [.token kind text]
        else .ok ⟨[.token kind text], next⟩) := by
  have htext : s.cursor.textTo (s.cursor.advance text.length) = text := by
    rw [Cursor.textTo_advance]
    exact (List.prefix_iff_eq_take.1 ht).symm
  have hframes (pos : Nat) :
      (((s.scanner w).code text).moveTo pos).stack.frames = .block block :: below := hf
  unfold Scanner.copyToken Span.ofLength
  dsimp only
  rw [← Cursor.offset_advance_of_prefix ht, Cursor.slice_textTo h (Cursor.reaches_advance _ _),
    pure_bind, htext, hframes]
  have hsrc : (s.skip text.length).cursor.source = source := by
    rw [State.cursor_skip, Cursor.source_advance, h]
  simp only [feed_eq hfeed, pure_bind]
  split
  · rw [checked_precede]
    exact closeBlock_scanner (s := (s.skip text.length).within _) hsrc hsize
  · rfl

/-- A step in a block: what it counts stays within 32 bits by `hfeed`. -/
theorem stepBlock_scanner {block : BlockFrame} {below : List Frame} (h : s.cursor.source = source)
    (hsize : byteLength source ≤ Balance.maxCount) (hs : s.rest ≠ [])
    (hf : s.frames = .block block :: below)
    (hfeed : ∀ kind, (block.balance.feed kind).Within Balance.maxCount) :
    (s.scanner w).stepBlock source = (s.stepBlock id block below).checked w := by
  have hafter : after source s.cursor.offset = pure s.rest := Cursor.after_offset h
  unfold Scanner.stepBlock State.stepBlock Offsets.next
  rw [pos_scanner, hafter, pure_bind]
  cases hr : Code.read s.rest with
  | finished => exact absurd (Reading.read_eq_finished_iff.1 hr) hs
  | unclosed => rfl
  | token kind text rest =>
    have ht : text <+: s.rest := ⟨rest, Reading.append_of_read hr⟩
    have hbegins : (s.scanner w).markupBegins source kind
        (.ofLength s.cursor.offset (byteLength text)) =
        pure (decide (kind = .angleOpen ∧ !block.balance.inParens ∧ startsMarkup s.rest)) := by
      unfold Scanner.markupBegins
      rw [frames_scanner, hf]
      simp only [Span.ofLength, hafter, pure_bind]
      split
      · next hk => simp [hk]
      · next hk =>
        rw [decide_eq_false]
        intro hm
        exact hk ⟨hm.1, hm.2.1⟩
    simp only [pure_bind]
    split
    · next hk => exact atSign_scanner h hsize (State.head?_of_read_at (hk ▸ hr))
    · rw [hbegins, pure_bind]
      by_cases hm : kind = .angleOpen ∧ !block.balance.inParens ∧ startsMarkup s.rest
      · rw [if_pos hm, if_pos (by simpa using hm)]
        rfl
      · rw [if_neg hm, if_neg (by simpa using hm)]
        exact copyToken_scanner h hsize hf ht (hfeed kind)

/-! ## markup within code -/

/-- A comment of the markup is copied with both its marks, or reported from its beginning on. -/
theorem copyComment_scanner (h : s.cursor.source = source) (hp : commentOpening <+: s.rest) :
    (s.scanner w).copyComment source = s.copyComment.checked w := by
  have hstart := Cursor.offset_advance_of_prefix hp
  have hsrc : (s.cursor.advance commentOpening.length).source = source := by
    rw [Cursor.source_advance, h]
  have hrest : (s.cursor.advance commentOpening.length).rest = s.rest.drop commentOpening.length :=
    Cursor.rest_advance _ _
  unfold Scanner.copyComment State.copyComment offsetOfText?
  dsimp only
  rw [pos_scanner, ← hstart, Cursor.after_offset hsrc, pure_bind, hrest]
  cases hb : before? commentClosing (s.rest.drop commentOpening.length) with
  | none => simp only [Option.map_none, hstart]; rfl
  | some comment =>
    have hcomment : commentOpening ++ (comment ++ commentClosing) <+: s.rest := by
      obtain ⟨behind, hd⟩ := append_of_before? hb
      refine ⟨behind, ?_⟩
      rw [List.append_assoc, ← hd]
      exact (List.prefix_iff_eq_append.1 hp)
    have hlen : minus ((s.cursor.advance commentOpening.length).offset + byteLength comment +
        byteLength commentClosing) s.cursor.offset =
        pure (byteLength (commentOpening ++ (comment ++ commentClosing))) := by
      rw [minus, guarded_of (by omega), hstart]
      congr 1
      simp only [byteLength_append]
      omega
    have hcopy := copy_scanner (w := w) h hcomment
    simp only [Option.map_some]
    rw [hlen, pure_bind, hcopy, List.length_append, List.length_append]
    rfl

/-- The innermost element is ended, and the text of its closing tag copied. -/
theorem closeElement_scanner (name : String) {tagEnd : Cursor} (h : s.cursor.source = source)
    (hreach : s.cursor.Reaches tagEnd) :
    (do
      let t ← (s.scanner w).closeElement name ⟨s.cursor.offset, tagEnd.offset⟩
      let text ← slice source t.pos tagEnd.offset
      pure ((t.literal text).moveTo tagEnd.offset)) =
    Outcome.checked w
      (match s.frames with
      | .markup markup :: below =>
        match markup.elements.close name (s.cursor.spanTo tagEnd) with
        | (.error e, _) => .error e
        | (.ok _, elements) =>
          .ok ⟨[.text (s.cursor.textTo tagEnd)],
            ⟨tagEnd, ⟨.markup { markup with elements := elements } :: below⟩⟩⟩
      | _ => .ok ⟨[.text (s.cursor.textTo tagEnd)], ⟨tagEnd, s.stack⟩⟩) := by
  have hslice := Cursor.slice_textTo h hreach
  unfold Scanner.closeElement
  rw [frames_scanner]
  dsimp only [Cursor.spanTo]
  rcases s.frames with _ | ⟨frame, below⟩
  · rw [pure_bind, pos_scanner, hslice, pure_bind]
    rfl
  · cases frame with
    | markup markup =>
      simp only
      obtain ⟨closed, elements⟩ :=
        markup.elements.close name ⟨s.cursor.offset, tagEnd.offset⟩
      cases closed with
      | error e => rfl
      | ok element =>
        simp only
        rw [pure_bind]
        change slice source s.cursor.offset tagEnd.offset >>= _ = _
        rw [hslice, pure_bind]
        rfl
    | _ =>
      rw [pure_bind, pos_scanner, hslice, pure_bind]
      rfl

/-- A closing tag is cut at the bracket behind its name and the blanks after it. -/
theorem closingTag_scanner {name : List Char} (h : s.cursor.source = source)
    (hp : '<' :: '/' :: name <+: s.rest) :
    (s.scanner w).closingTag source name = (s.closingTag id name).checked w := by
  have hname : (s.cursor.advance (2 + name.length)).offset =
      s.cursor.offset + 2 + byteLength name := by
    have hadvance : (s.cursor.advance (name.length + 2)).offset =
        s.cursor.offset + (1 + (1 + byteLength name)) := Cursor.offset_advance_of_prefix hp
    rw [Nat.add_comm 2, hadvance]
    omega
  have hsrc : (s.cursor.advance (2 + name.length)).source = source := by
    rw [Cursor.source_advance, h]
  unfold Scanner.closingTag
  dsimp only
  rw [pos_scanner, ← hname, Cursor.after_offset hsrc, pure_bind]
  cases ht : trimStart (s.cursor.advance (2 + name.length)).rest with
  | nil =>
    simp only [State.closingTag, ht]
    rfl
  | cons x trimmed =>
    by_cases hx : x = '>'
    · subst hx
      simp only [State.closingTag, ht]
      generalize hn : s.cursor.advance (2 + name.length) = nameEnd at hsrc ht
      have hbehind : (nameEnd.advance (leadingBlanks nameEnd.rest).length).rest =
          '>' :: trimmed := by
        rw [Cursor.rest_advance, drop_length_leadingBlanks, ht]
      have hstart := Cursor.minus_rest (c := nameEnd.advance (leadingBlanks nameEnd.rest).length)
        (by rw [Cursor.source_advance, hsrc])
      have hstop : (nameEnd.advance ((leadingBlanks nameEnd.rest).length + 1)).offset =
          (nameEnd.advance (leadingBlanks nameEnd.rest).length).offset + 1 := by
        rw [← Cursor.advance_advance]
        exact Cursor.offset_advance_one hbehind rfl
      have hreach :
          s.cursor.Reaches (nameEnd.advance ((leadingBlanks nameEnd.rest).length + 1)) := by
        rw [← hn]
        exact (Cursor.reaches_advance _ _).trans (Cursor.reaches_advance _ _)
      rw [hbehind] at hstart
      rw [List.head?_cons, if_pos rfl, hstart, pure_bind, ← hstop]
      generalize nameEnd.advance ((leadingBlanks nameEnd.rest).length + 1) = tagEnd at hreach
      exact closeElement_scanner (String.ofList name) h hreach
    · rw [if_neg (by simpa using hx), if_neg (List.cons_ne_nil x trimmed),
        State.closingTag_of_ne ht hx]
      rfl

/-- An opening tag is cut behind its name; an angle bracket without a name is copied. -/
theorem openingTag_scanner {behind : List Char} (h : s.cursor.source = source)
    (hs : s.rest = '<' :: behind) :
    (s.scanner w).openingTag source s.rest =
      (if openingName s.rest ≠ [] then .ok (s.openingTag (openingName s.rest))
        else .ok (s.copy 1) : Outcome).checked w := by
  have hbehind : after s.rest 1 = pure behind := by
    rw [hs]
    exact after_append ['<'] behind
  have hopening : openingName s.rest = takeTagName behind := by rw [hs]; rfl
  unfold Scanner.openingTag
  rw [hbehind, pure_bind, tagNameLength_eq, hopening]
  by_cases hn : takeTagName behind = []
  · rw [if_pos (by rw [hn]; rfl), if_neg (by simpa using hn), copy_one_scanner h hs rfl]
    rfl
  · have hname : takeTagName behind <+: behind := takeTagName_isPrefix behind
    generalize takeTagName behind = name at hn hname
    have hp : '<' :: name <+: s.cursor.rest := by
      rw [show s.cursor.rest = '<' :: behind from hs]
      exact List.cons_prefix_cons.2 ⟨rfl, hname⟩
    have hone := Cursor.offset_advance_one hs rfl
    have hstop : (s.cursor.advance (1 + name.length)).offset =
        s.cursor.offset + 1 + byteLength name := by
      have hadvance : (s.cursor.advance (name.length + 1)).offset =
          s.cursor.offset + (1 + byteLength name) := Cursor.offset_advance_of_prefix hp
      rw [Nat.add_comm 1, hadvance]
      omega
    have htext : slice source s.cursor.offset (s.cursor.advance (1 + name.length)).offset =
        pure (s.rest.take (1 + name.length)) := by
      rw [Cursor.slice_textTo h (Cursor.reaches_advance _ _), Cursor.textTo_advance]
      rfl
    have hslice : slice source (s.cursor.advance 1).offset
        (s.cursor.advance (1 + name.length)).offset = pure name := by
      rw [← Cursor.advance_advance, Cursor.slice_textTo (by rw [Cursor.source_advance, h])
        (Cursor.reaches_advance _ _), Cursor.textTo_advance, Cursor.rest_advance,
        show s.cursor.rest = '<' :: behind from hs, List.drop_one, List.tail_cons,
        ← List.prefix_iff_eq_take.1 hname]
    rw [if_neg (by simpa using hn), if_pos hn]
    dsimp only
    rw [pos_scanner, ← hstop, ← hone, htext, pure_bind, hslice, pure_bind]
    rfl

/-- What an angle bracket in markup begins or ends is told from slices that begin with it. -/
theorem angle_scanner {markup : MarkupFrame} {below : List Frame} {behind : List Char}
    (h : s.cursor.source = source) (hf : s.frames = .markup markup :: below)
    (hs : s.rest = '<' :: behind) :
    (s.scanner w).angle source = (s.angle id markup below).checked w := by
  have hafter : after source s.cursor.offset = pure s.rest := Cursor.after_offset h
  have hmap (f : MarkupFrame → MarkupFrame) :
      (s.scanner w).mapMarkup f = (s.within (.markup (f markup) :: below)).scanner w := by
    unfold mapMarkup
    rw [frames_scanner, hf]
    rfl
  unfold Scanner.angle State.angle
  rw [pos_scanner, hafter, pure_bind, frames_scanner, hf]
  dsimp only
  split
  · split
    · next ht =>
      have hp := List.isPrefixOf_iff_prefix.1 ht
      rw [hmap, ← Cursor.offset_advance_of_prefix hp]
      rfl
    · rw [copy_one_scanner h hs rfl]
      rfl
  · split
    · next ht =>
      have hp := List.isPrefixOf_iff_prefix.1 ht
      rw [hmap, ← Cursor.offset_advance_of_prefix hp]
      rfl
    · split
      · next ht => exact copyComment_scanner h (List.isPrefixOf_iff_prefix.1 ht)
      · split
        · next rest hr =>
          have hclosing : closingName s.rest = takeTagName rest := by rw [hr]; rfl
          have hname := takeTagName_isPrefix rest
          rw [hclosing, tagNameLength_eq]
          generalize takeTagName rest = name at hname
          by_cases hn : name = []
          · rw [if_neg (by rw [hn]; exact Nat.lt_irrefl 0), if_neg (not_not_intro hn)]
            exact openingTag_scanner h hs
          · obtain ⟨tail, rfl⟩ := hname
            rw [if_pos (byteLength_pos_iff.2 hn), if_pos hn, upTo_append, pure_bind]
            exact closingTag_scanner h ⟨tail, hr.symm⟩
        · next hne =>
          have hclosing : closingName s.rest = [] := by
            unfold closingName
            split
            · next rest hr => exact absurd hr (hne rest)
            · rfl
          rw [hclosing, if_neg (not_not_intro rfl)]
          exact openingTag_scanner h hs

/-- A line break in settled markup is copied with the indentation of the next line. -/
theorem endLine_scanner {markup : MarkupFrame} {below : List Frame} {rest : List Char}
    (h : s.cursor.source = source) (hf : s.frames = .markup markup :: below)
    (hs : s.rest = '\n' :: rest) :
    (s.scanner w).endLine source s.rest = pure ((s.endLine below).scanner w) := by
  have hnext : after s.rest 1 = pure rest := by
    rw [hs]
    exact after_append ['\n'] rest
  have htail : s.rest.tail = rest := by rw [hs]; rfl
  unfold Scanner.endLine State.endLine
  dsimp only
  rw [hnext, pure_bind, htail]
  have hindent := minus_append (rest.takeWhile fun c => c == ' ' || c == '\t')
    (rest.dropWhile fun c => c == ' ' || c == '\t')
  have hp : '\n' :: (rest.takeWhile fun c => c == ' ' || c == '\t') <+: s.rest := by
    rw [hs]
    exact List.cons_prefix_cons.2 ⟨rfl, List.takeWhile_prefix _⟩
  rw [List.takeWhile_append_dropWhile] at hindent
  generalize (rest.takeWhile fun c => c == ' ' || c == '\t') = indent at hindent hp
  have hcopy := copy_scanner (w := w) h hp
  rw [List.length_cons, Nat.add_comm, byteLength_cons] at hcopy
  rw [hindent, pure_bind, show 1 + byteLength indent = '\n'.utf8Size + byteLength indent from rfl,
    hcopy, pure_bind]
  exact congrArg pure (scanner_dropFrame (s := s.skip (1 + indent.length)) hf)

/-- A step in markup: each character that stops its text is one byte long. -/
theorem stepMarkup_scanner {markup : MarkupFrame} {below : List Frame}
    (h : s.cursor.source = source) (hsize : byteLength source ≤ Balance.maxCount) (hs : s.rest ≠ [])
    (hf : s.frames = .markup markup :: below) :
    (s.scanner w).stepMarkup source = (s.stepMarkup id markup below).checked w := by
  have hafter : after source s.cursor.offset = pure s.rest := Cursor.after_offset h
  unfold Scanner.stepMarkup State.stepMarkup
  rw [pos_scanner, hafter, pure_bind, frames_scanner, hf]
  cases stopped State.stopsText s.rest with
  | nowhere hall hfind hlen =>
    obtain ⟨d, rest, hr⟩ := List.exists_cons_of_ne_nil hs
    have hd : State.stopsText d = false := hall d (by rw [hr]; exact List.mem_cons_self)
    have hcopy := copy_scanner (w := w) h (List.prefix_refl s.rest)
    rw [hlen, hfind]
    rw [hr] at hcopy ⊢
    simp only [hcopy, hd, Bool.not_false, if_true, checked_ok]
  | behind t c rest hr hall hc hfind hlen =>
    rw [hlen, hfind]
    cases t with
    | nil =>
      rw [List.nil_append] at hr
      have hsmall : c.utf8Size = 1 := by
        simp only [State.stopsText, Bool.or_eq_true, beq_iff_eq] at hc
        obtain ((rfl | rfl) | rfl) | rfl := hc <;> rfl
      have hcopy := copy_one_scanner (w := w) h hr hsmall
      simp only [byteLength_nil, Nat.lt_irrefl, if_false, hr, hc, Bool.not_true,
        Bool.false_eq_true]
      split
      · next hat => exact atSign_scanner h hsize (by rw [hr, hat]; rfl)
      · split
        · next hlt => exact angle_scanner h hf (by rw [hr, hlt])
        · next hat hlt =>
          by_cases hm : markup.isSettled = true
          · simp only [hm, and_true, Bool.not_true, Bool.false_eq_true, if_false]
            split
            · next hline =>
              rw [← hr]
              exact endLine_scanner h hf (by rw [hr, hline])
            · next hline =>
              have hbrace : c = '}' := by
                simp only [State.stopsText, Bool.or_eq_true, beq_iff_eq, hat, hlt, hline,
                  false_or] at hc
                exact hc
              rw [if_pos hbrace, scanner_dropFrame hf]
              rfl
          · simp only [hm, Bool.false_eq_true, and_false, if_false, Bool.not_false, if_true, hcopy,
              checked_ok]
    | cons d t =>
      have hd : State.stopsText d = false := hall d List.mem_cons_self
      have hp : d :: t <+: s.rest := ⟨_, hr.symm⟩
      have hpos : 0 < byteLength (d :: t) := byteLength_pos_iff.2 (List.cons_ne_nil d t)
      have hcopy := copy_scanner (w := w) h hp
      simp only [hpos, if_true, hcopy, hr, List.cons_append, hd, Bool.not_false, checked_ok]

/-! ## tags and attribute values -/

/-- At its end a tag opens its element in the markup it lies in. -/
theorem endTag_scanner {name : String} {span : Span} {below : List Frame} (selfClosing : Bool)
    (hf : s.frames = .tag name span :: below) (written : List Piece) :
    pure ((s.scanner (w.addAll (written.map Piece.segment))).endTag selfClosing) =
      (State.endTag id selfClosing ⟨written, s⟩).checked w := by
  have hdrop : s.dropFrame = s.within below := by
    unfold State.dropFrame FrameStack.pop
    rw [show s.stack.frames = .tag name span :: below from hf]
    rfl
  unfold Scanner.endTag State.endTag
  rw [frames_scanner, hf, hdrop]
  dsimp only
  rw [scanner_dropFrame hf]
  unfold mapMarkup
  rw [frames_scanner, State.frames_within]
  rcases below with _ | ⟨frame, outer⟩
  · rfl
  · cases frame with
    | markup markup => cases selfClosing <;> rfl
    | _ => rfl

/-- The end of a tag is copied, and the tag left. -/
theorem leaveTag_scanner {name : String} {span : Span} {below : List Frame} {text : List Char}
    (selfClosing : Bool) (h : s.cursor.source = source) (hf : s.frames = .tag name span :: below)
    (ht : text <+: s.rest) :
    (do
      let t ← (s.scanner w).copy source (byteLength text)
      pure (t.endTag selfClosing)) =
    (State.endTag id selfClosing (s.copy text.length)).checked w := by
  rw [copy_scanner h ht, pure_bind]
  exact endTag_scanner (s := s.skip text.length) selfClosing hf [.text (s.rest.take text.length)]

/-- The quote that begins a value is copied. -/
theorem openValue_scanner {quote : Char} {rest : List Char} (h : s.cursor.source = source)
    (hs : s.rest = quote :: rest) (hq : quote.utf8Size = 1) :
    ((s.scanner w).push (.attributeValue quote s.cursor.offset)).copy source 1 =
      Outcome.checked w
        (.ok ⟨[.text [quote]], (s.skip 1).push (.attributeValue quote s.cursor.offset)⟩) := by
  have hcopy := copy_one_scanner (s := s.push (.attributeValue quote s.cursor.offset)) (w := w)
    h hs hq
  refine hcopy.trans ?_
  unfold State.copy
  rw [State.rest_push, hs]
  rfl

/-- A step in a tag: each character that stops it is one byte long. -/
theorem stepTag_scanner {name : String} {span : Span} {below : List Frame}
    (h : s.cursor.source = source) (hsize : byteLength source ≤ Balance.maxCount)
    (hf : s.frames = .tag name span :: below) :
    (s.scanner w).stepTag source = (s.stepTag id span).checked w := by
  have hafter : after source s.cursor.offset = pure s.rest := Cursor.after_offset h
  unfold Scanner.stepTag State.stepTag
  rw [pos_scanner, hafter, pure_bind, frames_scanner, hf]
  cases stopped State.stopsTag s.rest with
  | nowhere hall hfind hlen hbehind =>
    rw [hfind, hbehind]
    rfl
  | behind t c rest hr hall hc hfind hlen hbehind =>
    rw [hfind, hbehind, hlen]
    cases t with
    | nil =>
      rw [List.nil_append] at hr
      have hp : [c] <+: s.rest := ⟨rest, hr.symm⟩
      simp only [State.stopsTag, Bool.or_eq_true, beq_iff_eq] at hc
      rw [hr]
      simp only [byteLength_nil, List.length_nil, Nat.lt_irrefl, if_false]
      obtain (((rfl | rfl) | rfl) | rfl) | rfl := hc
      · simp +decide only [if_true, if_false, false_and]
        exact leaveTag_scanner false h hf hp
      · simp +decide only [if_true, if_false, false_and]
        exact openValue_scanner h hr rfl
      · simp +decide only [if_true, if_false, false_and]
        exact openValue_scanner h hr rfl
      · simp only [if_true]
        exact atSign_scanner h hsize (by rw [hr]; rfl)
      · simp +decide only [if_true, if_false, true_and]
        split
        · next hgt =>
          obtain ⟨after, hb⟩ := List.head?_eq_some_iff.1 hgt
          have hslash : ['/', '>'] <+: s.rest := ⟨after, by rw [hr, hb]; rfl⟩
          exact leaveTag_scanner true h hf hslash
        · rw [copy_one_scanner h hr rfl]
          rfl
    | cons d t =>
      have hne : d :: t ≠ [] := List.cons_ne_nil d t
      have hp : d :: t <+: s.rest := ⟨_, hr.symm⟩
      simp only
      rw [if_pos (byteLength_pos_iff.2 hne), if_pos (List.length_pos_iff.2 hne),
        copy_scanner h hp]
      rfl

/-- A step in a value: its quote is one byte long by `hq`. -/
theorem stepValue_scanner {quote : Char} {openedAt : Nat} {below : List Frame}
    (h : s.cursor.source = source) (hsize : byteLength source ≤ Balance.maxCount)
    (hf : s.frames = .attributeValue quote openedAt :: below) (hq : quote.utf8Size = 1) :
    (s.scanner w).stepValue source = (s.stepValue id).checked w := by
  have hafter : after source s.cursor.offset = pure s.rest := Cursor.after_offset h
  unfold Scanner.stepValue State.stepValue
  rw [frames_scanner, pos_scanner, hf]
  simp only [hafter, pure_bind]
  cases stopped (State.stopsValue quote) s.rest with
  | nowhere hall hfind hlen hbehind =>
    rw [hfind, hbehind]
    rfl
  | behind t c rest hr hall hc hfind hlen hbehind =>
    rw [hfind, hbehind, hlen]
    cases t with
    | nil =>
      rw [List.nil_append] at hr
      have hsmall : c.utf8Size = 1 := by
        simp only [State.stopsValue, Bool.or_eq_true, beq_iff_eq] at hc
        obtain rfl | rfl := hc
        · exact hq
        · rfl
      simp only [byteLength_nil, List.length_nil, Nat.lt_irrefl, if_false, hr, List.head?_cons,
        Option.some.injEq]
      split
      · next hat => exact atSign_scanner h hsize (by rw [hr, hat]; rfl)
      · rw [copy_one_scanner h hr hsmall, pure_bind]
        exact congrArg pure (scanner_dropFrame (s := s.skip 1) hf)
    | cons d t =>
      have hne : d :: t ≠ [] := List.cons_ne_nil d t
      have hp : d :: t <+: s.rest := ⟨_, hr.symm⟩
      simp only
      rw [if_pos (byteLength_pos_iff.2 hne), if_pos (List.length_pos_iff.2 hne),
        copy_scanner h hp]
      rfl

end Scan

end AtTemplate
