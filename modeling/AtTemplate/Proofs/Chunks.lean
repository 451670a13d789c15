import AtTemplate.Proofs.Braces
import AtTemplate.Proofs.Nesting
import AtTemplate.Proofs.Parts

/-!
# AtTemplate.Proofs.Chunks

No character of a template is lost, doubled or moved.  A scan divides its source into chunks, one
for each step that reads any of it, and what it writes are the images of the chunks in order.

`Image` lists the chunks that are not written as they stand.  It relates a chunk to the text that is
written for it by what stands at a place and the frames around it, and does not speak of how a step
computes either.

* `image_of_turn` — what a step writes is an image of what it reads;
* `expression_of_turn` — only an expression is written as one;
* `chunks_of_scan` — the chunks make up the source, and their images the segments.
-/

namespace AtTemplate

open Code Text
open AtTemplate.Markup

/-- The tag that opens or closes the text element of markup. -/
def MarkupFrame.textTag (m : MarkupFrame) : List Char :=
  if m.inText then textClosing else textOpening

/-- Markup in which nothing is open gives way to the frames that it lies in; other frames stay. -/
inductive GivesWay : List Frame → List Frame → Prop
  | settled {markup : MarkupFrame} {outer : List Frame} (h : markup.isSettled = true) :
      GivesWay (.markup markup :: outer) outer
  | other {frames : List Frame}
      (h : ∀ markup outer, frames = .markup markup :: outer → markup.isSettled = false) :
      GivesWay frames frames

namespace Scan

/-- What is written for a chunk of the source that begins where `s` stands. -/
inductive Image (s : State) : List Char → List Char → Prop
  /-- Two at signs are written as one. -/
  | doubled (hd : s.Introduces .doubled) : Image s ['@', '@'] ['@']
  /-- The rest of a line is written with its line break. -/
  | line {line : List Char} (hd : s.Introduces .lineEscape) (hl : '\n' ∉ line) :
      Image s (['@', ':'] ++ (line ++ ['\n'])) (line ++ ['\n'])
  /-- So is the rest of the last line, which has none. -/
  | lastLine {line : List Char} (hd : s.Introduces .lineEscape) (hl : '\n' ∉ line)
      (hs : s.rest = ['@', ':'] ++ line) : Image s (['@', ':'] ++ line) line
  /-- A comment ends at the first closing mark, and nothing is written for it. -/
  | comment {found : List Char} (hd : s.Introduces .comment)
      (hf : ∀ before after, found ++ ['*', '@'] = before ++ ['*', '@'] ++ after →
        found.length ≤ before.length) :
      Image s (['@', '*'] ++ (found ++ ['*', '@'])) []
  /-- An expression is written without its parentheses. -/
  | explicit {expression : List Char} (hd : s.Introduces .explicit) :
      Image s (['@', '('] ++ (expression ++ [')'])) expression
  /-- An expression without parentheses is written without its at sign. -/
  | implicit {expression : List Char} (hd : s.Introduces .implicit) :
      Image s ('@' :: expression) expression
  /-- So is a clause, through the brace that opens its body. -/
  | clause {keyword : Keyword} {header : List Char} (hd : s.Introduces (.clause keyword)) :
      Image s ('@' :: (keyword.letters ++ (header ++ ['{'])))
        (keyword.letters ++ (header ++ ['{']))
  /-- A block without a clause is opened by its brace. -/
  | brace (hd : s.Introduces .anonymousBlock) : Image s ['@', '{'] ['{']
  /-- The innermost block is closed with as many braces as are open in it. -/
  | close {above below : List Frame} {block : BlockFrame} {n : Nat}
      (hd : s.Introduces .closeBlock) (hf : s.frames = above ++ .block block :: below)
      (ha : ∀ frame ∈ above, frame.isBlock = false) (hn : n = block.balance.braces) :
      Image s ['@', '}'] (List.replicate n '}')
  /-- Outside of any block nothing is closed. -/
  | closeNothing (hd : s.Introduces .closeBlock)
      (hf : ∀ frame ∈ s.frames, frame.isBlock = false) : Image s ['@', '}'] ['@', '}']
  /-- The at sign before markup is not written in code or in markup within code, once markup in
  which nothing is open has given way. -/
  | markup {frame : Frame} {outer : List Frame} (hd : s.Introduces .markup)
      (hg : GivesWay s.frames (frame :: outer))
      (hf : frame.isBlock = true ∨ frame.isMarkup = true) : Image s ['@'] []
  /-- It is text elsewhere. -/
  | sign {frames : List Frame} (hd : s.Introduces .markup) (hg : GivesWay s.frames frames)
      (hf : ∀ frame ∈ frames.head?, frame.isBlock = false ∧ frame.isMarkup = false) :
      Image s ['@'] ['@']
  /-- The tags of a text element are not written. -/
  | textTag {markup : MarkupFrame} {below : List Frame}
      (hf : s.frames = .markup markup :: below) : Image s markup.textTag []
  /-- Everything else is written as it stands. -/
  | same {chunk : List Char} (hd : s.rest.head? = some '@' → s.Introduces .plain)
      (ht : ∀ markup below, s.frames = .markup markup :: below → chunk ≠ markup.textTag) :
      Image s chunk chunk

namespace Transition

/-- The text that a step reads. -/
def chunk (t : Transition) : List Char :=
  t.before.cursor.textTo t.after.cursor

/-- The text that a step writes. -/
def image (t : Transition) : List Char :=
  t.written.flatMap Piece.chars

/-- Whether a step reads an expression. -/
def readsExpression (t : Transition) : Bool :=
  decide (t.before.Introduces .explicit ∨ t.before.Introduces .implicit)

end Transition

variable {s : State} {m : Move}

/-! ## what is read at an at sign -/

/-- A tag of a text element begins with an angle bracket, and it is no comment. -/
theorem exists_textTag (markup : MarkupFrame) :
    ∃ c tail, markup.textTag = '<' :: c :: tail ∧ c ≠ '!' := by
  unfold MarkupFrame.textTag
  split
  · exact ⟨'/', _, rfl, by decide⟩
  · exact ⟨'t', _, rfl, by decide⟩

/-- A chunk that does not begin with an angle bracket is no tag of a text element. -/
theorem ne_textTag {chunk : List Char} (h : chunk.head? ≠ some '<') (markup : MarkupFrame) :
    chunk ≠ markup.textTag := by
  obtain ⟨c, tail, htag, -⟩ := exists_textTag markup
  rintro rfl
  exact h (by rw [htag]; rfl)

/-! ## the images of directives -/

/-- The at sign that introduces nothing is written as it stands. -/
theorem image_plainSign (hd : s.Introduces .plain) :
    Image s (s.cursor.textTo s.plainSign.state.cursor)
      (s.plainSign.written.flatMap Piece.chars) := by
  obtain ⟨after, hr⟩ := List.head?_eq_some_iff.1 hd.1
  have hrest : s.cursor.rest = '@' :: after := hr
  have hw : s.plainSign.written.flatMap Piece.chars = ['@'] := by
    unfold State.plainSign
    split <;> rfl
  rw [hw]
  simpa [State.plainSign, hrest] using
    Image.same (fun _ => hd) fun markup _ _ => ne_textTag (by simp) markup

/-- The rest of a line is written through its line break. -/
theorem image_escapeLine (hd : s.Introduces .lineEscape) :
    Image s (s.cursor.textTo s.escapeLine.state.cursor)
      (s.escapeLine.written.flatMap Piece.chars) := by
  obtain ⟨after, hr⟩ := rest_of_introduces hd rfl
  have hrest : s.cursor.rest = '@' :: ':' :: after := hr
  have hline : after.take (firstLine after).length = firstLine after :=
    (List.prefix_iff_eq_take.1 ⟨_, firstLine_append_drop after⟩).symm
  have hchunk : s.cursor.textTo s.escapeLine.state.cursor = ['@', ':'] ++ firstLine after := by
    simp [State.escapeLine, hrest, hr, Nat.add_comm 2, hline]
  have hw : s.escapeLine.written.flatMap Piece.chars = firstLine after := by
    simp [State.escapeLine, hr, Piece.chars]
  rw [hchunk, hw]
  obtain ⟨line, hl, he⟩ | ⟨hl, he⟩ := firstLine_cases after
  · rw [he]
    exact .line hd hl
  · rw [he]
    exact .lastLine hd hl hr

/-- A comment is left out. -/
theorem image_comment {found : List Char} (hd : s.Introduces .comment)
    (hc : before? ['*', '@'] (s.rest.drop 2) = some found) :
    Image s (s.cursor.textTo (s.skip (2 + (found.length + 2))).cursor) [] := by
  obtain ⟨after, hr⟩ := rest_of_introduces hd rfl
  obtain ⟨rest, ha⟩ := append_of_before? hc
  have hrest : s.cursor.rest = ['@', '*'] ++ (found ++ ['*', '@']) ++ rest := by
    show s.rest = _
    rw [hr] at ha ⊢
    simpa using ha
  have hchunk : s.cursor.textTo (s.skip (2 + (found.length + 2))).cursor =
      ['@', '*'] ++ (found ++ ['*', '@']) := by
    have hlen : (['@', '*'] ++ (found ++ ['*', '@'])).length = 2 + (found.length + 2) := by
      rw [List.length_append, List.length_append]
      rfl
    rw [State.cursor_skip, Cursor.textTo_advance, hrest]
    exact List.take_left' hlen
  rw [hchunk]
  apply Image.comment hd
  intro before tail h
  have htext : s.rest.drop 2 = before ++ ['*', '@'] ++ (tail ++ rest) := by
    rw [ha, h, List.append_assoc]
  exact length_le_of_before? hc htext

/-- An expression is written without its parentheses. -/
theorem image_explicit {close : Cursor} (hd : s.Introduces .explicit)
    (hc : findClosing .paren (s.cursor.advance 2) = .ok close) :
    Image s (s.cursor.textTo (close.advance 1)) ((s.cursor.advance 2).textTo close) := by
  obtain ⟨after, hr⟩ := rest_of_introduces hd rfl
  have hrest : s.cursor.rest = '@' :: '(' :: after := hr
  obtain ⟨hreach, hstands⟩ := reaches_of_findClosing hc
  obtain ⟨rest, hclose⟩ := rest_of_standsAt (x := ')') rfl hstands
  rw [← (Cursor.reaches_advance 2 _).textTo_append (hreach.trans (Cursor.reaches_advance 1 _)),
    ← hreach.textTo_append (Cursor.reaches_advance 1 _)]
  simpa [hrest, hclose] using Image.explicit hd

/-- A clause is written without its at sign. -/
theorem image_clause {keyword : Keyword} {brace : Cursor} (hd : s.Introduces (.clause keyword))
    (hb : (s.yieldToCode.skip 1).clauseBody keyword = .ok brace) :
    Image s (s.cursor.textTo (brace.advance 1))
      ((s.yieldToCode.skip 1).cursor.textTo (brace.advance 1)) := by
  obtain ⟨after, hr⟩ := List.head?_eq_some_iff.1 hd.1
  have hrest : s.cursor.rest = '@' :: after := hr
  have hclause := State.textTo_of_clauseBody (State.takeName_of_introduces hd) hb
  have hreach := State.reaches_enterClause hb
  rw [State.cursor_skip, State.cursor_yieldToCode] at hclause hreach ⊢
  rw [State.cursor_enterClause] at hreach
  rw [← (Cursor.reaches_advance 1 _).textTo_append hreach, hclause]
  simpa [hrest] using Image.clause hd

/-- The innermost block is closed with as many braces as are open in it. -/
theorem image_closeInnermost {above below : List Frame} {block : BlockFrame}
    (ho : Open (blocks s.frames)) (hd : s.Introduces .closeBlock)
    (hf : FrameStack.splitAtBlock? s.frames = some (above, block, below)) :
    Image s ['@', '}'] (List.replicate (max 1 block.balance.braces.toNat) '}') := by
  obtain ⟨hs, ha⟩ := FrameStack.splitAtBlock?_eq_some hf
  have hb : 1 ≤ block.balance.braces := ho block (by simp [hs, blocks_append_of_isBlock ha])
  exact .close hd hs ha (by omega)

/-- A step gives way to code by leaving the markup in which nothing is open. -/
theorem givesWay_yieldToCode (s : State) : GivesWay s.frames s.yieldToCode.frames := by
  unfold State.yieldToCode
  split
  · next markup below hf =>
    split
    · next hm =>
      rw [hf]
      exact .settled hm
    · next hm =>
      refine .other fun markup' outer hf' => ?_
      rw [hf] at hf'
      cases hf'
      simpa using hm
  · next hno => exact .other fun markup outer hf => absurd hf (hno markup outer)

/-- The at sign before markup is written only outside of code. -/
theorem image_openMarkup (hd : s.Introduces .markup) :
    Image s ['@'] (s.yieldToCode.openMarkup.written.flatMap Piece.chars) := by
  have hg := givesWay_yieldToCode s
  unfold State.openMarkup
  rw [State.inBlock_eq, State.inMarkup_eq]
  generalize s.yieldToCode.frames = frames at hg ⊢
  cases frames with
  | nil => exact .sign hd hg nofun
  | cons frame outer =>
    rw [List.head?_cons, Option.any_some, Option.any_some]
    cases hb : frame.isBlock with
    | true => exact .markup hd hg (.inl hb)
    | false =>
      cases hm : frame.isMarkup with
      | true => exact .markup hd hg (.inr hm)
      | false =>
        refine .sign hd hg fun frame' hmem => ?_
        obtain rfl : frame = frame' := by simpa using hmem
        exact ⟨hb, hm⟩

/-! ## what is written as it stands -/

/-- What is read as a token or as text of a template is written as it stands. -/
theorem Image.of_frames {frame : Frame} {below : List Frame} (hf : s.frames = frame :: below)
    (hm : frame.isMarkup = false) (hs : s.rest.head? ≠ some '@') (chunk : List Char) :
    Image s chunk chunk := by
  refine .same (fun h => absurd h hs) fun markup below' hf' => ?_
  rw [hf] at hf'
  cases hf'
  cases hm

/-- So is what is read in markup, unless it is a tag of the text element. -/
theorem Image.of_markup {markup : MarkupFrame} {below : List Frame} {c : Cursor}
    (hf : s.frames = .markup markup :: below) (hs : s.rest.head? ≠ some '@')
    (ht : ¬ markup.textTag <+: s.rest) (hc : s.cursor.Reaches c) :
    Image s (s.cursor.textTo c) (s.cursor.textTo c) := by
  refine .same (fun h => absurd h hs) fun markup' below' hf' htag => ht ?_
  rw [hf] at hf'
  cases hf'
  exact ⟨c.rest, by rw [← htag]; exact hc.textTo_append_rest⟩

/-- A token is written as it stands. -/
theorem textTo_outOf {kind : Token} {text rest : List Char}
    (hr : Code.read s.rest = .token kind text rest) (frames : List Frame) :
    s.cursor.textTo (s.outOf text frames).cursor = text := by
  have hs : s.cursor.rest = text ++ rest := (Reading.append_of_read hr).symm
  rw [State.cursor_outOf, Cursor.textTo_advance, hs, List.take_left]

/-- So is a clause that goes on with the statement of the block that a token closes. -/
theorem textTo_nextClause {kind : Token} {text rest : List Char} {below : List Frame}
    {next : Keyword} {brace : Cursor} (hr : Code.read s.rest = .token kind text rest)
    (hb : (s.outOf text below).skipBlanks.clauseBody next = .ok brace) :
    s.cursor.textTo (brace.advance 1) =
      text ++ (leadingBlanks rest ++
        (s.outOf text below).skipBlanks.cursor.textTo (brace.advance 1)) := by
  have htoken : s.cursor.Reaches (s.outOf text below).cursor := Cursor.reaches_advance _ _
  have hblanks : (s.outOf text below).cursor.Reaches (s.outOf text below).skipBlanks.cursor :=
    Cursor.reaches_advance _ _
  have hclause := State.reaches_enterClause hb
  rw [State.cursor_enterClause] at hclause
  have hskipped : (s.outOf text below).cursor.textTo (s.outOf text below).skipBlanks.cursor =
      leadingBlanks rest := by
    have hrest : (s.outOf text below).cursor.rest = rest := State.rest_outOf hr below
    have htake := congrArg (List.take (leadingBlanks rest).length)
      (leadingBlanks_append_trimStart rest)
    rw [List.take_left] at htake
    rw [State.cursor_skipBlanks, Cursor.textTo_advance, State.rest_outOf hr, hrest, ← htake]
  rw [← htoken.textTo_append (hblanks.trans hclause), ← hblanks.textTo_append hclause,
    textTo_outOf hr, hskipped]

/-- No other token than an at sign begins with one. -/
theorem head?_ne_of_read {kind : Token} {text rest : List Char}
    (hr : Code.read s.rest = .token kind text rest) (hk : kind ≠ .at) :
    s.rest.head? ≠ some '@' := by
  intro h
  obtain ⟨after, ha⟩ := List.head?_eq_some_iff.1 h
  rw [ha] at hr
  cases hr
  exact hk rfl

/-- Text that is copied is no tag of a text element. -/
theorem image_copy {n : Nat} (hn : 0 < n) (hs : s.rest.head? ≠ some '@')
    (ha : s.inMarkup = true → s.rest.head? = some '<' → n = 1 ∨ commentOpening <+: s.rest) :
    Image s (s.cursor.textTo (s.copy n).state.cursor)
      ((s.copy n).written.flatMap Piece.chars) := by
  have hchunk : s.cursor.textTo (s.copy n).state.cursor = s.rest.take n :=
    Cursor.textTo_advance n s.cursor
  have hw : (s.copy n).written.flatMap Piece.chars = s.rest.take n := by
    simp [State.copy, Piece.chars]
  rw [hchunk, hw]
  refine .same (fun h => absurd h hs) fun markup below hf htag => ?_
  have hm : s.inMarkup = true := by simp [State.inMarkup_eq, hf, Frame.isMarkup]
  obtain ⟨c, tail, heq, hc⟩ := exists_textTag markup
  rw [heq] at htag
  obtain ⟨after, hr⟩ : ('<' :: c :: tail) <+: s.rest := htag ▸ List.take_prefix n s.rest
  obtain rfl | ⟨rest, hcomment⟩ := ha hm (by rw [← hr]; rfl)
  · have := congrArg List.length htag
    simp at this
    omega
  · rw [← hr] at hcomment
    simp only [commentOpening, List.cons_append, List.cons.injEq, true_and] at hcomment
    exact hc hcomment.1.symm

/-- The line break that ends markup is written with the indentation behind it. -/
theorem image_endLine (below : List Frame) (hs : s.rest.head? = some '\n') :
    Image s (s.cursor.textTo (s.endLine below).state.cursor)
      ((s.endLine below).written.flatMap Piece.chars) := by
  obtain ⟨after, hr⟩ := List.head?_eq_some_iff.1 hs
  have hrest : s.cursor.rest = s.rest := rfl
  have hw : (s.endLine below).written.flatMap Piece.chars =
      s.cursor.textTo (s.endLine below).state.cursor := by
    simp [State.endLine, Piece.chars, hrest]
  rw [hw]
  refine .same (by simp [hs]) fun markup _ _ => ne_textTag ?_ markup
  simp [State.endLine, hrest, hr, Nat.add_comm 1]

/-! ## the images of all chunks -/

/-- **What a step writes is an image of what it reads**, when it reads anything. -/
theorem image_of_turn (hn : Nested s.frames) (ho : Open (blocks s.frames)) (ht : s.Turn m)
    (hlt : m.state.rest.length < s.rest.length) :
    Image s (s.cursor.textTo m.state.cursor) (m.written.flatMap Piece.chars) := by
  have hrest : s.cursor.rest = s.rest := rfl
  cases ht with
  | enterMarkup | leaveMarkup | loseWhole => exact absurd hlt (Nat.lt_irrefl _)
  | plain hd => exact image_plainSign hd
  | lineEscape hd => exact image_escapeLine hd
  | comment hd hc => exact image_comment hd hc
  | doubled hd =>
    obtain ⟨rest, hr⟩ := rest_of_introduces hd rfl
    simpa [hrest, hr, Piece.chars] using Image.doubled hd
  | explicit hd hc => simpa [Piece.chars] using image_explicit hd hc
  | implicit hd hc =>
    obtain ⟨after, hr⟩ := List.head?_eq_some_iff.1 hd.1
    rw [← (Cursor.reaches_advance 1 _).textTo_append
      ((Cursor.reaches_advance _ _).trans (reaches_of_chainEnd hc))]
    simpa [hrest, hr, Piece.chars] using Image.implicit hd
  | clause hd hb => simpa [State.enterClause, Piece.chars] using image_clause hd hb
  | openBlock hd =>
    obtain ⟨after, hr⟩ := rest_of_introduces hd rfl
    simpa [State.openBlock, hrest, hr, Piece.chars] using Image.brace hd
  | closeNothing hd hf =>
    obtain ⟨after, hr⟩ := rest_of_introduces hd rfl
    have hnone := FrameStack.splitAtBlock?_eq_none_iff.1 hf
    simpa [hrest, hr, Piece.chars] using Image.closeNothing hd hnone
  | closeInnermost hd hf =>
    obtain ⟨after, hr⟩ := rest_of_introduces hd rfl
    simpa [hrest, hr, Piece.chars] using image_closeInnermost ho hd hf
  | openMarkup hd =>
    obtain ⟨after, hr⟩ := rest_of_introduces hd rfl
    rw [State.cursor_openMarkup, State.cursor_yieldToCode, Cursor.textTo_advance, hrest, hr]
    exact image_openMarkup hd
  | copy h0 hs _ ha => exact image_copy h0 hs ha
  | token hf hr hk | lastToken hf hr hk =>
    rw [textTo_outOf hr]
    simpa [Piece.chars] using Image.of_frames hf rfl (head?_ne_of_read hr hk) _
  | nextClause hf hr hk _ _ _ _ _ hb =>
    show Image s (s.cursor.textTo (Cursor.advance 1 _)) _
    rw [textTo_nextClause hr hb]
    simpa [Move.precede, State.enterClause, Piece.chars] using
      Image.of_frames hf rfl (head?_ne_of_read hr hk) _
  | endLine _ _ hs => exact image_endLine _ hs
  | openText hf ht hs | closeText hf ht hs =>
    obtain ⟨after, hr⟩ := hs
    have htag := Image.textTag hf
    rw [MarkupFrame.textTag, ht] at htag
    simpa [hrest, ← hr] using htag
  | @closingTag markup _ tagEnd _ _ hf ht hs _ he =>
    have hreach : s.cursor.Reaches tagEnd := by
      rw [he]
      exact (Cursor.reaches_advance _ _).trans (Cursor.reaches_advance _ _)
    obtain ⟨after, hr⟩ := hs
    have htag : ¬ markup.textTag <+: s.rest := by
      rw [MarkupFrame.textTag, ht, ← hr]
      rintro ⟨rest, hrest⟩
      cases hrest
    simpa [Piece.chars] using Image.of_markup hf (by simp [← hr]) htag hreach
  | @openingTag markup _ hf ht hs hn =>
    have htag : ¬ markup.textTag <+: s.rest := by rwa [MarkupFrame.textTag, ht]
    have hat : s.rest.head? ≠ some '@' := by simp [head?_of_openingName hn]
    have hreach := Cursor.reaches_advance (1 + (openingName s.rest).length) s.cursor
    simpa [State.openingTag, Piece.chars, hrest] using Image.of_markup hf hat htag hreach
  | openValue hf hs hc =>
    obtain ⟨after, hr⟩ := List.head?_eq_some_iff.1 hs
    have hat : s.rest.head? ≠ some '@' := by
      rw [hs]
      obtain rfl | rfl := hc <;> decide
    simpa [hrest, hr, Piece.chars] using Image.of_frames hf rfl hat [_]
  | endTag hf hs =>
    obtain ⟨after, hr⟩ := List.head?_eq_some_iff.1 hs
    simpa [hrest, hr, Piece.chars] using Image.of_frames hf rfl (by simp [hs]) ['>']
  | endSelfClosing hf hs =>
    obtain ⟨after, hr⟩ := hs
    simpa [hrest, ← hr, Piece.chars] using Image.of_frames hf rfl (by simp [← hr]) ['/', '>']
  | closeValue hf hs hq =>
    obtain ⟨after, hr⟩ := List.head?_eq_some_iff.1 hs
    have hat : s.rest.head? ≠ some '@' := by
      rw [hs]
      simpa using hq
    simpa [hrest, hr, Piece.chars] using Image.of_frames hf rfl hat [_]
  | loseTag hf hb =>
    rw [hf] at hn
    obtain ⟨markup, outer, rfl⟩ := hn.exists_markup
    cases hb

/-! ## what is written as an expression -/

/-- **Only an expression is written as one**, and nothing else is written with it. -/
theorem expression_of_turn (hn : Nested s.frames) (ht : s.Turn m) :
    if s.Introduces .explicit ∨ s.Introduces .implicit then
      m.written = [.expression (m.written.flatMap Piece.chars)]
    else m.written.filterMap Piece.expression? = [] := by
  have hother {d : Directive} (hd : s.Introduces d) (hne : d ≠ .explicit ∧ d ≠ .implicit) :
      ¬ (s.Introduces .explicit ∨ s.Introduces .implicit) := by
    rintro (h | h)
    · exact hne.1 (hd.2.symm.trans h.2)
    · exact hne.2 (hd.2.symm.trans h.2)
  have hplain (h : s.rest.head? ≠ some '@') :
      ¬ (s.Introduces .explicit ∨ s.Introduces .implicit) := by
    rintro (h' | h') <;> exact h h'.1
  cases ht with
  | explicit hd =>
    rw [if_pos (Or.inl hd)]
    simp [Piece.chars]
  | implicit hd =>
    rw [if_pos (Or.inr hd)]
    simp [Piece.chars]
  | doubled hd | comment hd | closeNothing hd | openBlock hd | closeInnermost hd | clause hd
    | lineEscape hd =>
    rw [if_neg (hother hd (by simp))]
    rfl
  | plain hd =>
    rw [if_neg (hother hd (by simp))]
    unfold State.plainSign
    split <;> rfl
  | openMarkup hd =>
    rw [if_neg (hother hd (by simp))]
    unfold State.openMarkup
    split
    · rfl
    · split <;> rfl
  | copy _ hs =>
    rw [if_neg (hplain hs)]
    rfl
  | token _ hr hk | lastToken _ hr hk | nextClause _ hr hk =>
    rw [if_neg (hplain (head?_ne_of_read hr hk))]
    rfl
  | enterMarkup _ _ hm =>
    rw [if_neg (hplain (by simp [head?_of_startsMarkup hm]))]
    rfl
  | endLine _ _ hs | leaveMarkup _ _ hs | endTag _ hs =>
    rw [if_neg (hplain (by simp [hs]))]
    rfl
  | openText _ _ hs | closeText _ _ hs | closingTag _ _ hs | endSelfClosing _ hs =>
    obtain ⟨after, hr⟩ := hs
    rw [if_neg (hplain (by simp [← hr, textOpening, textClosing]))]
    rfl
  | openingTag _ _ _ hne =>
    rw [if_neg (hplain (by simp [head?_of_openingName hne]))]
    rfl
  | openValue _ hs hc =>
    rw [if_neg (hplain (by rw [hs]; obtain rfl | rfl := hc <;> decide))]
    rfl
  | closeValue _ hs hq =>
    rw [if_neg (hplain (by simpa [hs] using hq))]
    rfl
  | loseTag hf hb =>
    rw [hf] at hn
    obtain ⟨markup, outer, rfl⟩ := hn.exists_markup
    cases hb
  | loseWhole hf hw =>
    rw [hf] at hn
    rw [hn.isWhole_eq_false] at hw
    cases hw

/-! ## the chunks of a run -/

variable {source : String} {trace : List Transition} {t : State}

/-- The chunks of a run make up what it has read. -/
theorem flatMap_chunk_append_rest (h : Run s trace t) :
    trace.flatMap Transition.chunk ++ t.rest = s.rest := by
  induction h with
  | nil => rfl
  | @cons s t m trace hs hm _ ih =>
    rw [List.flatMap_cons, List.append_assoc, ih]
    exact (State.reaches_of_turn (State.turn_of_step hs hm)).textTo_append_rest

/-- The images of the chunks of a run make up what it has written. -/
theorem flatMap_image (trace : List Transition) :
    trace.flatMap Transition.image = (written trace).flatMap Piece.chars := by
  rw [written, List.flatMap_assoc]
  rfl

/-- A step that reads nothing writes nothing; any other writes an image of what it reads. -/
theorem image_of_mem (h : Run (.start source.toList) trace t) {x : Transition} (hx : x ∈ trace) :
    x.chunk = [] ∧ x.image = [] ∨ x.chunk ≠ [] ∧ Image x.before x.chunk x.image := by
  obtain ⟨xs, ys, -, hrun, hs, hm, -⟩ := h.of_mem hx
  have ht := State.turn_of_step hs hm
  have hreached : Reached source x.before := ⟨xs, hrun⟩
  obtain hlt | hst := State.lt_or_stays_of_turn hs ht
  · refine .inr ⟨fun hnil => ?_,
      image_of_turn (nested_of_reached hreached) (isOpen_of_reached hreached) ht hlt⟩
    have hrest := (State.reaches_of_turn ht).textTo_append_rest
    have hlen := congrArg List.length hrest
    rw [show x.before.cursor.textTo x.move.state.cursor = [] from hnil] at hlen
    exact Nat.lt_irrefl _ (hlen ▸ hlt)
  · left
    constructor
    · show x.before.cursor.textTo x.move.state.cursor = []
      rw [hst.2.1, Cursor.textTo_self]
    · show x.move.written.flatMap Piece.chars = []
      rw [hst.1]
      rfl

/-- A step that reads an expression writes it alone, and no other step writes one. -/
theorem expression_of_mem (h : Run (.start source.toList) trace t) {x : Transition}
    (hx : x ∈ trace) :
    if x.readsExpression then x.written = [.expression x.image]
    else x.written.filterMap Piece.expression? = [] := by
  obtain ⟨xs, ys, -, hrun, hs, hm, -⟩ := h.of_mem hx
  have hstep := expression_of_turn (nested_of_reached ⟨xs, hrun⟩) (State.turn_of_step hs hm)
  simp only [Transition.readsExpression, decide_eq_true_eq]
  exact hstep

/-- The expressions of a run are the images of the chunks that are one. -/
theorem filterMap_expression?_written (h : Run (.start source.toList) trace t) :
    (written trace).filterMap Piece.expression? =
      (trace.filter Transition.readsExpression).map Transition.image := by
  have hstep : ∀ x ∈ trace, x.written.filterMap Piece.expression? =
      if x.readsExpression then [x.image] else [] := by
    intro x hx
    have hmem := expression_of_mem h hx
    split at hmem
    · next he => rw [if_pos he, hmem]; rfl
    · next he => rw [if_neg he]; exact hmem
  clear h
  induction trace with
  | nil => rfl
  | cons x trace ih =>
    rw [written_cons, List.filterMap_append, hstep x List.mem_cons_self,
      ih fun y hy => hstep y (List.mem_cons_of_mem _ hy), List.filter_cons]
    split <;> rfl

/-- The image of an expression is a segment of its own, between the images of the chunks before it
and behind it. -/
theorem ofPieces_expression {xs ys : List Transition} {x : Transition}
    (h : Run (.start source.toList) (xs ++ x :: ys) t) (hx : x.readsExpression = true) :
    ∃ before after,
      Segments.ofPieces ((written (xs ++ x :: ys)).map Piece.segment) =
        before ++ .expression (String.ofList x.image) :: after ∧
      before.flatMap Segment.chars = xs.flatMap Transition.image ∧
      after.flatMap Segment.chars = ys.flatMap Transition.image := by
  have hmem := expression_of_mem h (List.mem_append_right xs List.mem_cons_self)
  rw [if_pos hx] at hmem
  have hpieces : (written (xs ++ x :: ys)).map Piece.segment =
      (written xs).map Piece.segment ++
        .expression (String.ofList x.image) :: (written ys).map Piece.segment := by
    rw [written_append, written_cons, hmem, List.map_append]
    rfl
  refine ⟨_, _, by rw [hpieces, Segments.ofPieces_append_expression], ?_, ?_⟩
  · rw [flatMap_chars_ofPieces, flatMap_image]
  · rw [flatMap_chars_ofPieces, flatMap_image]

/-- The steps of a scan divide the source into chunks whose images make up the segments. -/
structure Chunked (source : String) (segments : List Segment) (trace : List Transition) :
    Prop where
  /-- The chunks make up the source, in order. -/
  flatMap_chunk : trace.flatMap Transition.chunk = source.toList
  /-- What the steps write makes up the text of the segments, in order. -/
  flatMap_chars : segments.flatMap Segment.chars = trace.flatMap Transition.image
  /-- A step that reads nothing writes nothing; any other writes the image of its chunk. -/
  image : ∀ x ∈ trace, x.chunk = [] ∧ x.image = [] ∨
    x.chunk ≠ [] ∧ Image x.before x.chunk x.image
  /-- The image of an expression is a segment of its own, behind the images of the chunks before it
  and before those of the chunks behind it. -/
  expression : ∀ xs x ys, trace = xs ++ x :: ys → x.readsExpression = true → ∃ before after,
    segments = before ++ .expression (String.ofList x.image) :: after ∧
      before.flatMap Segment.chars = xs.flatMap Transition.image ∧
      after.flatMap Segment.chars = ys.flatMap Transition.image
  /-- No other segment is an expression. -/
  expressions : segments.filterMap Segment.expression? =
    (trace.filter Transition.readsExpression).map Transition.image

/-- **No character of a template is lost, doubled or moved.**  The scan of a template that is
accepted divides the source into chunks, one for each step that reads any of it, and the images of
the chunks are the text of the segments.  Each expression is a segment of its own. -/
theorem chunks_of_scan {segments : List Segment} (h : scan source = .ok segments) :
    ∃ trace t, Run (.start source.toList) trace t ∧ t.rest = [] ∧
      Chunked source segments trace := by
  obtain ⟨trace, t, hrun, ht, -, rfl⟩ := scan_eq_ok_iff.1 h
  refine ⟨trace, t, hrun, ht, ?_, ?_, fun x hx => image_of_mem hrun hx, ?_, ?_⟩
  · have hall := flatMap_chunk_append_rest hrun
    rw [ht, List.append_nil] at hall
    exact hall
  · rw [flatMap_chars_ofPieces, flatMap_image]
  · rintro xs x ys rfl hx
    exact ofPieces_expression hrun hx
  · rw [filterMap_expression?_ofPieces, filterMap_expression?_written hrun]

/-- A template with an expression in parentheses, a comment and a block. -/
theorem chunks_of_block :
    scan "@(a)@*c*@b@{ x }" = .ok [.expression "a", .literal "b", .code "{ x }"] ∧
      ∃ trace t, Run (.start "@(a)@*c*@b@{ x }".toList) trace t ∧ t.rest = [] ∧
        Chunked "@(a)@*c*@b@{ x }" [.expression "a", .literal "b", .code "{ x }"] trace := by
  have h : scan "@(a)@*c*@b@{ x }" = .ok [.expression "a", .literal "b", .code "{ x }"] := by
    decide +kernel
  exact ⟨h, chunks_of_scan h⟩

end Scan

end AtTemplate
