import AtTemplate.Proofs.Copying

/-!
# AtTemplate.Proofs.MarkupBlock

A block of code that holds one stretch of markup, from the at sign before its brace to the brace
that closes it on a line of its own.

* `run_openBlock` — the scan enters the block and the markup;
* `run_closeBlock` — behind the markup it leaves both;
* `scan_of_markup` — the segments of a template that is such a block.
-/

namespace AtTemplate.Scan

open Code Text
open AtTemplate.Markup

variable {s : State} {rest : List Char} {below : List Frame}

/-! ## blocks -/

/-- Frames in which text is copied do not give way to code. -/
theorem yieldToCode_of_holdsText (h : HoldsText s.frames) : s.yieldToCode = s := by
  unfold State.yieldToCode
  split
  · next markup below hf =>
    have hf : s.frames = .markup markup :: below := hf
    rw [hf] at h
    have ht : markup.inText = true := h
    simp [MarkupFrame.isSettled, ht]
  · rfl

/-- An at sign and a brace open a block. -/
theorem step_of_openBlock (h : HoldsText s.frames) (hr : s.rest = '@' :: '{' :: rest) :
    s.step = .ok ⟨[.brace], (s.skip 2).push (.block (.opened s.cursor.offset none))⟩ := by
  have hd : Directive.ofCursor s.cursor = .anonymousBlock := by
    simp [Directive.ofCursor, show s.cursor.rest = _ from hr, Directive.resolve]
  rw [step_of_at h.any_isWhole_head? (by simp [hr]), State.atSign, hd]
  simp only [State.openBlock, yieldToCode_of_holdsText h]

/-- A token of a block that does not close it is copied.  Within parentheses an angle bracket is
such a token, whatever it might begin. -/
theorem step_of_token {block : BlockFrame} {kind : Token} {text after : List Char}
    (hf : s.frames = .block block :: below) (hr : Code.read s.rest = .token kind text after)
    (hat : kind ≠ .at)
    (hlt : kind = .angleOpen → startsMarkup s.rest = true → block.balance.inParens = true)
    (hc : (block.balance.feed kind).isClosed = false) :
    s.step = .ok ⟨[.token kind text], (s.skip text.length).within
      (.block { block with balance := block.balance.feed kind } :: below)⟩ := by
  have hcode : ¬ (kind = .angleOpen ∧ !block.balance.inParens ∧ startsMarkup s.rest) := by
    rintro ⟨hangle, hopen, hmarkup⟩
    simp [hlt hangle hmarkup] at hopen
  simp only [State.step, State.stepWith, hf, State.stepBlock, hr, if_neg hat, if_neg hcode, hc]
  rfl

/-- In a block outside of parentheses markup takes over. -/
theorem step_of_startsMarkup {block : BlockFrame} (hf : s.frames = .block block :: below)
    (hp : block.balance.inParens = false) (hm : startsMarkup s.rest = true) :
    s.step = .ok ⟨[], s.push (.markup (.opened s.cursor.offset))⟩ := by
  obtain ⟨rest, hr⟩ := List.head?_eq_some_iff.1 (head?_of_startsMarkup hm)
  have hread : Code.read s.rest = .token .angleOpen ['<'] rest := by rw [hr]; rfl
  simp [State.step, State.stepWith, hf, State.stepBlock, hread, hp, hm]

/-- The last brace of a block closes it, and the statement may go on behind it. -/
theorem step_of_closingBrace {block : BlockFrame} (hf : s.frames = .block block :: below)
    (hr : s.rest = '}' :: rest) (hb : block.balance.braces = 1) :
    s.step = (((s.skip 1).within below).afterBlock block).precede [.token .braceClose ['}']] := by
  have hread : Code.read s.rest = .token .braceClose ['}'] rest := by rw [hr]; rfl
  have hc : (block.balance.feed .braceClose).isClosed = true := by
    simp [Balance.feed, Balance.isClosed, hb]
  simp [State.step, State.stepWith, hf, State.stepBlock, hread, hc, State.closeBlock]
  rfl

/-- The last brace of a block without a clause closes it. -/
theorem step_of_lastBrace {block : BlockFrame} (hf : s.frames = .block block :: below)
    (hr : s.rest = '}' :: rest) (hb : block.balance.braces = 1) (hw : block.clause? = none) :
    s.step = .ok ⟨[.token .braceClose ['}']], (s.skip 1).within below⟩ := by
  rw [step_of_closingBrace hf hr hb, State.afterBlock, hw]
  rfl

/-! ## text without an element -/

theorem step_of_openText {markup : MarkupFrame} (hf : s.frames = .markup markup :: below)
    (ht : markup.inText = false) (hs : textOpening <+: s.rest) :
    s.step = .ok ⟨[], (s.skip textOpening.length).within
      (.markup { markup with inText := true } :: below)⟩ := by
  obtain ⟨rest, hr⟩ := hs
  have hp : textOpening.isPrefixOf s.rest = true := List.isPrefixOf_iff_prefix.2 ⟨rest, hr⟩
  have hr : s.rest = '<' :: (textOpening.tail ++ rest) := hr.symm
  simp only [State.step, State.stepWith, hf, State.stepMarkup, hr]
  rw [← hr]
  simp [State.stopsText, State.angle, ht, hp]

theorem step_of_closeText {markup : MarkupFrame} (hf : s.frames = .markup markup :: below)
    (ht : markup.inText = true) (hs : textClosing <+: s.rest) :
    s.step = .ok ⟨[], (s.skip textClosing.length).within
      (.markup { markup with inText := false } :: below)⟩ := by
  obtain ⟨rest, hr⟩ := hs
  have hp : textClosing.isPrefixOf s.rest = true := List.isPrefixOf_iff_prefix.2 ⟨rest, hr⟩
  have hr : s.rest = '<' :: (textClosing.tail ++ rest) := hr.symm
  simp only [State.step, State.stepWith, hf, State.stepMarkup, hr]
  rw [← hr]
  simp [State.stopsText, State.angle, ht, hp]

/-! ## the block as a whole -/

/-- **The scan enters a block and its markup.** -/
theorem run_openBlock (h : HoldsText s.frames) (hr : s.rest = '@' :: '{' :: ' ' :: rest)
    (hm : startsMarkup rest = true) (w : Segments) :
    s.run w = ((s.skip 3).within (.markup (.opened (s.cursor.offset + 3)) ::
      .block (.opened s.cursor.offset none) :: s.frames)).run (w.addCode r"{ ") := by
  obtain ⟨tail, htail⟩ := List.head?_eq_some_iff.1 (head?_of_startsMarkup hm)
  have hread : Code.read (' ' :: rest) = .token .space [' '] rest := by
    rw [htail]
    rfl
  let inner := (s.skip 2).push (.block (.opened s.cursor.offset none))
  have hinner : inner.rest = ' ' :: rest := by simp [inner, hr]
  have hblock : inner.frames = .block (.opened s.cursor.offset none) :: s.frames := rfl
  let code := (inner.skip 1).within (.block (.opened s.cursor.offset none) :: s.frames)
  have hcode : code.rest = rest := by simp [code, hinner]
  have hspaced : code.frames = .block (.opened s.cursor.offset none) :: s.frames := rfl
  have hspace : inner.step = .ok ⟨[.token .space [' ']], code⟩ :=
    step_of_token hblock (hinner ▸ hread) (by decide) nofun rfl
  have hmarkup : code.step = .ok ⟨[], code.push (.markup (.opened code.cursor.offset))⟩ :=
    step_of_startsMarkup hspaced rfl (by rw [hcode, hm])
  have hcursor : code.cursor = s.cursor.advance 3 := Cursor.advance_advance 2 1 s.cursor
  have hoffset : code.cursor.offset = s.cursor.offset + 3 := by
    rw [hcursor, Cursor.offset_advance, show s.cursor.rest = _ from hr]
    rfl
  have hstate : code.push (.markup (.opened code.cursor.offset)) =
      (s.skip 3).within (.markup (.opened (s.cursor.offset + 3)) ::
        .block (.opened s.cursor.offset none) :: s.frames) := by
    rw [hoffset]
    unfold State.push
    rw [hcursor]
    rfl
  rw [run_of_step (by simp [hr]) (step_of_openBlock h hr), run_of_step (by simp [inner, hr]) hspace,
    run_of_step (by simp [hcode, htail]) hmarkup, hstate]
  exact congrArg _ (Segments.addCode_addCode w r"{" " ")

/-- **Behind the markup the scan leaves the block**, when a line break ends the markup and a brace
the block. -/
theorem run_closeBlock {markup : MarkupFrame} {block : BlockFrame}
    (hf : s.frames = .markup markup :: .block block :: below) (hm : markup.isSettled = true)
    (hb : block.balance.braces = 1) (hw : block.clause? = none)
    (hr : s.rest = '\n' :: '}' :: rest) (w : Segments) :
    s.run w = ((s.skip 2).within below).run ((w.addLiteral "\n").addCode r"}") := by
  let code := (s.skip 1).within (.block block :: below)
  have hline : s.step = .ok ⟨[.text ['\n']], code⟩ := by
    simp [State.step, State.stepWith, hf, State.stepMarkup, hr, State.stopsText, hm,
      State.endLine, code]
  have hcode : code.rest = '}' :: rest := by simp [code, hr]
  rw [run_of_step (by simp [hr]) hline,
    run_of_step (by simp [hcode]) (step_of_lastBrace (s := code) rfl hcode hb hw)]
  have hcursor : code.cursor.advance 1 = s.cursor.advance 2 := Cursor.advance_advance 1 1 s.cursor
  unfold State.skip State.within
  rw [hcursor]
  rfl

/-- **A template that is one block with one stretch of markup in it.**  Its segments are the braces
of the block and, between them, what the markup writes and the line break behind it. -/
theorem scan_of_markup {source literal : String} (inner text : List Char)
    (hs : source.toList = '@' :: '{' :: ' ' :: (inner ++ ['\n', '}']))
    (hl : literal.toList = text ++ ['\n'])
    (hm : startsMarkup (inner ++ ['\n', '}']) = true)
    (h : ∀ (s : State) (openedAt : Nat) (below : List Frame), s.rest = inner ++ ['\n', '}'] →
      s.frames = .markup (.opened openedAt) :: below →
      ∃ t markup, WritesTo s text t ∧ t.rest = ['\n', '}'] ∧ t.frames = .markup markup :: below ∧
        markup.isSettled = true) :
    scan source = .ok [.code r"{ ", .literal literal, .code r"}"] := by
  have hstart : (State.start source.toList).rest = '@' :: '{' :: ' ' :: (inner ++ ['\n', '}']) := hs
  obtain ⟨t, markup, hwrites, hrest, hframes, hset⟩ := h
    ((State.start source.toList).skip 3 |>.within [.markup (.opened 3), .block (.opened 0 none)])
    3 [.block (.opened 0 none)] (by simp [hstart]) rfl
  have hend : ((t.skip 2).within []).rest = [] := by simp [hrest]
  have hrun : (State.start source.toList).run .empty = .ok
      ((((Segments.empty.addCode r"{ ").addLiteral (String.ofList text)).addLiteral "\n").addCode
        r"}") := by
    rw [run_openBlock (s := .start source.toList) trivial hstart hm]
    refine (hwrites _).trans ?_
    rw [run_closeBlock hframes hset rfl rfl hrest, run_of_rest_eq_nil hend]
    rfl
  have hliteral : String.ofList text ++ "\n" = literal := by
    rw [← String.toList_inj, hl]
    simp
  have hne : literal ≠ "" := by
    rintro rfl
    simp at hl
  rw [scan_eq_map, hrun, Segments.addLiteral_addLiteral, hliteral]
  simp [Except.map, Segments.empty, Segments.addCode, Segments.addLiteral, Segments.toList, hne]

end AtTemplate.Scan
