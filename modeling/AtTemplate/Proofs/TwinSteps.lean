import AtTemplate.Proofs.Braces
import AtTemplate.Proofs.Twins

/-!
# AtTemplate.Proofs.TwinSteps

A scan of two sources that share a stretch of text.  `State.here` and `State.there` are the same
state in either: in the other source the frames remember other places, and they may lie on frames
in which text is copied as it is outside of all frames.

* `atSign_twins` — the same follows an at sign in both sources;
* `step_twins` — the scan takes the same step, as long as that does not lead behind the stretch.
-/

namespace AtTemplate

open Code Text
open AtTemplate.Markup

/-! ## frames -/

namespace Twins

variable {k : Twins}

/-- The frames in the other source. -/
def relocate (k : Twins) (frames : List Frame) : List Frame :=
  frames.map (Frame.relocate k.place) ++ k.outer

@[simp] theorem relocate_nil : k.relocate [] = k.outer := rfl

@[simp] theorem relocate_cons (frame : Frame) (below : List Frame) :
    k.relocate (frame :: below) = frame.relocate k.place :: k.relocate below := rfl

/-- The innermost block divides the frames alike in both sources. -/
theorem splitAtBlock?_relocate {frames above below : List Frame} {b : BlockFrame}
    (h : FrameStack.splitAtBlock? frames = some (above, b, below)) :
    FrameStack.splitAtBlock? (k.relocate frames) =
      some (above.map (Frame.relocate k.place), b.relocate k.place, k.relocate below) := by
  refine FrameStack.splitAtBlock?_append k.outer ?_
  rw [FrameStack.splitAtBlock?_relocate, h]
  rfl

end Twins

namespace Scan

variable {k : Twins} {s : State} {m : Move}

/-! ## states and moves -/

namespace State

/-- The state in the one source. -/
def here (k : Twins) (s : State) : State :=
  ⟨s.cursor.amid k.here, s.stack⟩

/-- The state in the other source. -/
def there (k : Twins) (s : State) : State :=
  ⟨s.cursor.amid k.there, ⟨k.relocate s.frames⟩⟩

@[simp] theorem cursor_here (k : Twins) (s : State) :
    (s.here k).cursor = s.cursor.amid k.here := rfl

@[simp] theorem cursor_there (k : Twins) (s : State) :
    (s.there k).cursor = s.cursor.amid k.there := rfl

@[simp] theorem rest_here (k : Twins) (s : State) :
    (s.here k).rest = s.rest ++ k.here.after := rfl

@[simp] theorem rest_there (k : Twins) (s : State) :
    (s.there k).rest = s.rest ++ k.there.after := rfl

@[simp] theorem frames_here (k : Twins) (s : State) : (s.here k).frames = s.frames := rfl

@[simp] theorem frames_there (k : Twins) (s : State) :
    (s.there k).frames = k.relocate s.frames := rfl

/-- Where both sources end with the stretch, the same text is left in both. -/
theorem rest_there_of_end (h : k.End) (s : State) : (s.there k).rest = (s.here k).rest := by
  rw [rest_there, rest_here, h.after_eq]

/-- The next character of the stretch is the next one in both sources. -/
theorem exists_cons_twins (k : Twins) (hs : s.rest ≠ []) :
    ∃ c rest, s.rest = c :: rest ∧ (s.here k).rest = c :: (rest ++ k.here.after) ∧
      (s.there k).rest = c :: (rest ++ k.there.after) := by
  obtain ⟨c, rest, hr⟩ := List.exists_cons_of_ne_nil hs
  exact ⟨c, rest, hr, by rw [rest_here, hr]; rfl, by rw [rest_there, hr]; rfl⟩

/-- A place within the stretch is the same number of characters ahead in both sources. -/
theorem skip_twins {n : Nat} (h : n ≤ s.rest.length) :
    (s.skip n).here k = (s.here k).skip n ∧ (s.skip n).there k = (s.there k).skip n := by
  constructor
  · rw [here, cursor_skip, Cursor.amid_advance h]
    rfl
  · rw [there, cursor_skip, Cursor.amid_advance h]
    rfl

/-- What is read of the stretch is the same in both sources. -/
theorem take_twins {n : Nat} (h : n ≤ s.rest.length) :
    (s.here k).rest.take n = s.rest.take n ∧ (s.there k).rest.take n = s.rest.take n := by
  simp [List.take_append_of_le_length h]

end State

namespace Move

/-- The move in the one source. -/
def here (k : Twins) (m : Move) : Move :=
  ⟨m.written, m.state.here k⟩

/-- The move in the other source; it writes the same. -/
def there (k : Twins) (m : Move) : Move :=
  ⟨m.written, m.state.there k⟩

end Move

/-! ## steps that settle -/

namespace Outcome

variable {o : Outcome}

/-- What a step does when it neither fails nor ends the text with a frame open. -/
def Settles (o : Outcome) : Prop :=
  ∃ m, o = .ok m ∧ (m.state.rest ≠ [] ∨ m.state.frames = [])

@[simp] theorem settles_ok : Settles (.ok m) ↔ m.state.rest ≠ [] ∨ m.state.frames = [] := by
  constructor
  · rintro ⟨_, hm, h⟩
    cases hm
    exact h
  · intro h
    exact ⟨m, rfl, h⟩

end Outcome

end Scan

/-! ## the same step -/

namespace Twins

open Scan

variable {k : Twins} {o : Outcome}

/-- The step does not lead behind the stretch. -/
abbrev Keeps (k : Twins) (o : Outcome) : Prop :=
  k.Kept (fun m => k.Holds m.state.cursor) o

/-- The step is the same in both sources. -/
abbrev Agree (k : Twins) (o o' : Outcome) : Prop :=
  k.Same (Move.here k) (Move.there k) o o'

end Twins

namespace Scan

open Twins

variable {k : Twins} {s : State} {o o' : Outcome}

/-- Steps that lead to the same place of the stretch, and write the same, are the same. -/
theorem agree_of_cursor {c : Cursor} (written : List Piece) (frames : List Frame) :
    k.Agree (.ok ⟨written, ⟨c.amid k.here, ⟨frames⟩⟩⟩)
      (.ok ⟨written, ⟨c.amid k.there, ⟨k.relocate frames⟩⟩⟩) :=
  Same.ok (⟨written, ⟨c, ⟨frames⟩⟩⟩ : Move)

/-- Steps that move on by the same number of characters, and write the same, are the same. -/
theorem agree_of_skip {n : Nat} (written : List Piece) (frames : List Frame)
    (h : n ≤ s.rest.length) :
    k.Agree (.ok ⟨written, ((s.here k).skip n).within frames⟩)
      (.ok ⟨written, ((s.there k).skip n).within (k.relocate frames)⟩) := by
  rw [← (State.skip_twins h).1, ← (State.skip_twins h).2]
  exact agree_of_cursor written frames

/-- A frame that is opened in the stretch is opened in both sources. -/
theorem agree_of_push {n i : Nat} (written : List Piece) (frame : Nat → Frame)
    (hframe : ∀ p, (frame p).relocate k.place = frame (k.place p)) (h : n ≤ s.rest.length) :
    k.Agree (.ok ⟨written, ((s.here k).skip n).push (frame ((s.here k).cursor.offset + i))⟩)
      (.ok ⟨written, ((s.there k).skip n).push (frame ((s.there k).cursor.offset + i))⟩) := by
  have hplace : k.place ((s.here k).cursor.offset + i) = (s.there k).cursor.offset + i := by
    simp only [State.cursor_here, State.cursor_there, Cursor.offset_amid,
      Nat.add_right_comm _ _ i, k.place_add]
  have hagree := agree_of_skip (k := k) written (frame ((s.here k).cursor.offset + i) :: s.frames) h
  rw [relocate_cons, hframe, hplace] at hagree
  exact hagree

/-- Text of the stretch is copied in both sources. -/
theorem agree_copy {n : Nat} (h : n ≤ s.rest.length) :
    k.Agree (.ok ((s.here k).copy n)) (.ok ((s.there k).copy n)) := by
  have hagree := agree_of_skip (k := k) [.text (s.rest.take n)] s.frames h
  rw [State.copy, State.copy, (State.take_twins h).1, (State.take_twins h).2]
  exact hagree

/-- What is written before a step does not keep it from being the same. -/
theorem agree_precede (pieces : List Piece) (h : k.Agree o o') :
    k.Agree (o.precede pieces) (o'.precede pieces) := by
  obtain ⟨m, rfl, rfl⟩ | ⟨e, rfl, rfl⟩ := h.cases
  · exact Same.ok (m.precede pieces)
  · exact .error e

/-- What is written first does not change where a step leads. -/
theorem keeps_precede {pieces : List Piece} (h : k.Keeps (o.precede pieces)) : k.Keeps o where
  ok m hm := h.ok (m.precede pieces) (by rw [hm]; rfl)
  error e he := h.error e (by rw [he]; rfl)

/-- A step that moves on by a number of characters is kept where these are in the stretch. -/
theorem le_of_keeps {n : Nat} {written : List Piece} {stack : FrameStack}
    (hn : n ≤ (s.here k).rest.length)
    (h : k.Keeps (.ok ⟨written, ⟨(s.here k).cursor.advance n, stack⟩⟩)) : n ≤ s.rest.length :=
  Cursor.le_of_advance_amid hn (h.ok _ rfl)

namespace State

/-! ## at signs -/

/-- The state is in a block in both sources or in neither. -/
theorem inBlock_there : (s.there k).inBlock = (s.here k).inBlock := by
  rw [inBlock_eq, inBlock_eq, frames_there, frames_here]
  cases s.frames with
  | cons frame below => simp
  | nil =>
    have htext := k.outer_text
    rw [relocate_nil]
    cases hk : k.outer with
    | nil => rfl
    | cons frame below =>
      rw [hk] at htext
      cases frame <;> first | rfl | cases htext

/-- The state is in markup in both sources or in neither, where it is in a frame of its own. -/
theorem inMarkup_there (hf : k.outer = [] ∨ s.frames ≠ []) :
    (s.there k).inMarkup = (s.here k).inMarkup := by
  rw [inMarkup_eq, inMarkup_eq, frames_there, frames_here]
  cases hs : s.frames with
  | cons frame below => simp
  | nil => rw [relocate_nil, hf.resolve_right fun hne => hne hs]

/-- Markup gives way to code in both sources alike, and the markup around the stretch never. -/
theorem yieldToCode_twins :
    (s.here k).yieldToCode = s.yieldToCode.here k ∧
      (s.there k).yieldToCode = s.yieldToCode.there k := by
  have hsettled {markup : MarkupFrame} (h : markup.inText = true) : markup.isSettled = false := by
    simp [MarkupFrame.isSettled, h]
  unfold yieldToCode
  rw [frames_here, frames_there]
  cases s.frames with
  | nil =>
    refine ⟨rfl, ?_⟩
    have htext := k.outer_text
    rw [relocate_nil]
    cases hk : k.outer with
    | nil => rfl
    | cons frame below =>
      rw [hk] at htext
      cases frame with
      | markup markup => simp [hsettled htext]
      | _ => cases htext
  | cons frame below =>
    cases frame with
    | markup markup =>
      simp only [relocate_cons, Frame.relocate_markup, MarkupFrame.isSettled_relocate]
      split <;> exact ⟨rfl, rfl⟩
    | _ => exact ⟨rfl, rfl⟩

/-- Behind an at sign stands the mark of what it introduces. -/
theorem two_le_of_mark {d : Directive} {c : Char} (hs : s.rest.head? = some '@')
    (hd : Directive.ofCursor (s.here k).cursor = d) (hm : d.mark? = some c) :
    2 ≤ (s.here k).rest.length := by
  obtain ⟨text, hr⟩ := List.head?_eq_some_iff.1 hs
  obtain ⟨rest, hmark⟩ := rest_of_introduces (s := s.here k) ⟨by simp [hr], hd⟩ hm
  simp [hmark]

/-- A mark behind an at sign of the stretch is in the stretch, unless the other text begins with
it. -/
theorem rest_of_mark {d : Directive} {c : Char} (hs : s.rest.head? = some '@')
    (hd : Directive.ofCursor (s.here k).cursor = d) (hm : d.mark? = some c)
    (hc : c ≠ '@' ∧ c ≠ '<') : ∃ rest, s.rest = '@' :: c :: rest := by
  obtain ⟨text, hr⟩ := List.head?_eq_some_iff.1 hs
  obtain ⟨rest, hmark⟩ := rest_of_introduces (s := s.here k) ⟨by simp [hr], hd⟩ hm
  rw [rest_here, hr, List.cons_append, List.cons.injEq] at hmark
  cases text with
  | nil =>
    exact absurd (k.breaks c (by rw [← List.nil_append k.here.after, hmark.2]; rfl)) (by simp [hc])
  | cons x text =>
    rw [List.cons_append, List.cons.injEq] at hmark
    exact ⟨text, by rw [hr, hmark.2.1]⟩

/-- An at sign that introduces nothing is written alike in both sources. -/
theorem plainSign_twins (hs : s.rest ≠ []) :
    k.Agree (.ok (s.here k).plainSign) (.ok (s.there k).plainSign) := by
  rw [plainSign, plainSign, inBlock_there]
  exact agree_of_skip _ s.frames (List.length_pos_iff.2 hs)

/-- A line that is escaped ends alike in both sources, where it does not go on behind the
stretch. -/
theorem escapeLine_twins {rest : List Char} (hs : s.rest = '@' :: ':' :: rest)
    (hline : k.Alike ∨ (s.here k).escapeLine.state.rest ≠ [])
    (h : k.Keeps (.ok (s.here k).escapeLine)) :
    k.Agree (.ok (s.here k).escapeLine) (.ok (s.there k).escapeLine) := by
  have hdrop (after : List Char) : (s.rest ++ after).drop 2 = rest ++ after := by simp [hs]
  have hle := length_firstLine_le (rest ++ k.here.after)
  simp only [escapeLine, rest_skip, rest_here, rest_there, hdrop, ← List.drop_drop] at h hline ⊢
  have hfits := le_of_keeps (by
    simp only [rest_here, hs, List.cons_append, List.length_cons]
    omega) h
  have hin : (firstLine (rest ++ k.here.after)).length ≤ rest.length := by
    simp only [hs, List.length_cons] at hfits
    omega
  rw [firstLine_twins hin hline]
  exact agree_of_skip _ s.frames hfits

/-- A comment ends at the same mark in both sources. -/
theorem passComment_twins {rest : List Char} (hs : s.rest = '@' :: '*' :: rest)
    (h : k.Keeps (s.here k).passComment) :
    k.Agree (s.here k).passComment (s.there k).passComment := by
  have hdrop (after : List Char) : (s.rest ++ after).drop 2 = rest ++ after := by simp [hs]
  simp only [passComment, rest_here, rest_there, hdrop] at h ⊢
  cases hfound : before? ['*', '@'] (rest ++ k.here.after) with
  | none =>
    rw [hfound] at h
    rw [(h.error _ rfl).after_eq, hfound, cursor_here, cursor_there, ← Cursor.span_there]
    exact .error _
  | some found =>
    rw [hfound] at h
    obtain ⟨tail, htail⟩ := append_of_before? hfound
    have hfits := le_of_keeps (by
      simp only [rest_here, hs, List.cons_append, htail, List.length_cons, List.length_append]
      omega) h
    rw [before?_append_of_le hfound (by
      simp only [hs, List.length_cons, List.length_nil] at hfits ⊢
      omega)]
    exact agree_of_skip _ s.frames hfits

/-- An expression in parentheses is the same in both sources. -/
theorem explicitExpression_twins {rest : List Char} (hs : s.rest = '@' :: '(' :: rest)
    (h : k.Keeps (s.here k).explicitExpression) :
    k.Agree (s.here k).explicitExpression (s.there k).explicitExpression := by
  have hfits : 2 ≤ s.cursor.rest.length := by simp [show s.cursor.rest = _ from hs]
  have hpos : 0 < (s.cursor.advance 2).offset := by
    rw [← Cursor.advance_advance 1 1]
    exact offset_advance_one_pos (by simp [show s.cursor.rest = _ from hs])
  simp only [explicitExpression, cursor_here, cursor_there, ← Cursor.amid_advance hfits] at h ⊢
  have hgroup : k.Kept k.Holds (findClosing .paren ((s.cursor.advance 2).amid k.here)) :=
    h.of_continued (fun e he => by rw [he]) fun d hd m hm => by
      rw [hd] at hm
      cases hm
      exact Cursor.reaches_advance 1 d
  obtain ⟨close, hc, hc'⟩ | ⟨e, he, he'⟩ := (findClosing_twins hpos hgroup).cases
  · obtain ⟨hreach, hstands⟩ := reaches_of_findClosing hc
    rw [hc] at h
    have hclose : 1 ≤ close.rest.length :=
      Cursor.le_of_advance_amid (List.length_pos_iff.2 hstands.rest_ne_nil) (h.ok _ rfl)
    simp only [hc, hc', (Cursor.reaches_of_amid hreach).textTo_amid, ← Cursor.amid_advance hclose]
    exact agree_of_cursor _ s.frames
  · rw [he, he']
    exact .error e

/-- An expression that begins with a name is the same in both sources. -/
theorem implicitExpression_twins (hs : s.rest ≠ []) (h : k.Keeps (s.here k).implicitExpression) :
    k.Agree (s.here k).implicitExpression (s.there k).implicitExpression := by
  have hone : 1 ≤ s.cursor.rest.length := List.length_pos_iff.2 hs
  have hname := length_takeName_le (s.cursor.advance 1).rest
  simp only [implicitExpression, cursor_here, cursor_there, ← Cursor.amid_advance hone,
    Cursor.rest_amid, k.bounded.takeName_append, k.bounded_there.takeName_append,
    ← Cursor.amid_advance hname] at h ⊢
  generalize hstart : (s.cursor.advance 1).advance (takeName (s.cursor.advance 1).rest).length =
    start at h ⊢
  have hchain : k.Kept k.Holds (chainEnd (start.amid k.here)) :=
    h.of_continued (fun e he => by rw [he]) fun d hd m hm => by
      rw [hd] at hm
      cases hm
      exact .refl d
  obtain ⟨stop, hc, hc'⟩ | ⟨e, he, he'⟩ := (chainEnd_twins hchain).cases
  · have hreach : (s.cursor.advance 1).Reaches stop :=
      (hstart ▸ Cursor.reaches_advance _ _).trans (Cursor.reaches_of_amid (reaches_of_chainEnd hc))
    simp only [hc, hc', hreach.textTo_amid]
    exact agree_of_cursor _ s.frames
  · rw [he, he']
    exact .error e

/-! ## clauses -/

/-- The body of a clause is found in both sources or in neither. -/
theorem clauseBody_twins {keyword : Keyword} (hk : takeName s.rest = keyword.letters)
    (h : k.Kept k.Holds ((s.here k).clauseBody keyword)) :
    k.Same (Cursor.amid k.here) (Cursor.amid k.there) ((s.here k).clauseBody keyword)
      ((s.there k).clauseBody keyword) := by
  have hlen : keyword.letters.length ≤ s.cursor.rest.length := hk ▸ length_takeName_le s.rest
  unfold clauseBody at h ⊢
  simp only [cursor_here, cursor_there, ← Cursor.amid_advance hlen] at h ⊢
  rw [← Cursor.spanTo_there]
  exact findBody_twins h

/-- A clause is opened alike in both sources. -/
theorem openClause_twins {keyword : Keyword} (hk : takeName s.rest = keyword.letters)
    (h : k.Keeps ((s.here k).openClause keyword)) :
    k.Agree ((s.here k).openClause keyword) ((s.there k).openClause keyword) := by
  have hbody : k.Kept k.Holds ((s.here k).clauseBody keyword) :=
    h.of_continued (fun e he => by rw [openClause, he]) fun d hd m hm => by
      rw [openClause, hd] at hm
      cases hm
      exact Cursor.reaches_advance 1 d
  unfold openClause at h ⊢
  obtain ⟨brace, hb, hb'⟩ | ⟨e, he, he'⟩ := (clauseBody_twins hk hbody).cases
  · rw [hb] at h
    obtain ⟨hahead, hstands⟩ := reaches_of_clauseBody hb
    have hfits : 1 ≤ brace.rest.length :=
      Cursor.le_of_advance_amid (List.length_pos_iff.2 hstands.rest_ne_nil) (h.ok _ rfl)
    have hreach : s.cursor.Reaches (brace.advance 1) := by
      have hlen : keyword.letters.length ≤ s.cursor.rest.length := hk ▸ length_takeName_le s.rest
      rw [cursor_here, ← Cursor.amid_advance hlen] at hahead
      exact ((Cursor.reaches_advance _ _).trans (Cursor.reaches_of_amid hahead)).trans
        (Cursor.reaches_advance _ _)
    simp only [hb, hb', enterClause, cursor_here, cursor_there, ← Cursor.amid_advance hfits,
      hreach.textTo_amid]
    have hagree := agree_of_cursor (k := k) (c := brace.advance 1)
      [.header (s.cursor.textTo (brace.advance 1))]
      (.block (.opened (s.cursor.amid k.here).offset (some keyword)) :: s.frames)
    rw [relocate_cons, Frame.relocate_block, BlockFrame.relocate, BlockFrame.opened,
      Cursor.place_offset] at hagree
    exact hagree
  · rw [he, he']
    exact .error e

/-- A block without a clause is opened in both sources. -/
theorem openBlock_twins (hs : 2 ≤ (s.here k).rest.length) (h : k.Keeps (.ok (s.here k).openBlock)) :
    k.Agree (.ok (s.here k).openBlock) (.ok (s.there k).openBlock) :=
  agree_of_push (i := 0) [.brace] (fun p => .block (.opened p none)) (fun _ => rfl)
    (le_of_keeps hs h)

/-- The innermost block is closed alike in both sources.  Where there is none, there is none in the
other source either. -/
theorem closeInnermost_twins (hs : 2 ≤ (s.here k).rest.length) (hn : Nested s.frames)
    (hf : k.outer = [] ∨ s.frames ≠ []) (h : k.Keeps (s.here k).closeInnermost) :
    k.Agree (s.here k).closeInnermost (s.there k).closeInnermost := by
  unfold closeInnermost at h ⊢
  rw [frames_there]
  rw [frames_here] at h ⊢
  cases hsplit : FrameStack.splitAtBlock? s.frames with
  | none =>
    rw [hsplit] at h
    have houter : k.outer = [] := hf.resolve_right fun hne => hn.splitAtBlock?_ne_none hne hsplit
    have hthere : FrameStack.splitAtBlock? (k.relocate s.frames) = none := by
      rw [relocate, houter, List.append_nil, FrameStack.splitAtBlock?_relocate, hsplit]
      rfl
    rw [hthere]
    exact agree_of_skip _ s.frames (le_of_keeps hs h)
  | some division =>
    obtain ⟨above, block, below⟩ := division
    rw [hsplit] at h
    simp only [splitAtBlock?_relocate hsplit, findSome?_unclosed?_relocate] at h ⊢
    cases hopen : above.findSome? Frame.unclosed? with
    | some e => exact .error e
    | none =>
      rw [hopen] at h
      exact agree_of_skip _ below (le_of_keeps hs h)

/-- Markup is opened behind an at sign in both sources. -/
theorem openMarkup_twins (hs : s.rest ≠ []) (hf : k.outer = [] ∨ s.frames ≠ []) :
    k.Agree (.ok (s.here k).openMarkup) (.ok (s.there k).openMarkup) := by
  have hfits : 1 ≤ s.rest.length := List.length_pos_iff.2 hs
  unfold openMarkup
  rw [inBlock_there, inMarkup_there hf]
  split
  · exact agree_of_push [] (fun p => .markup (.opened p)) (fun _ => rfl) hfits
  · split <;> exact agree_of_skip _ s.frames hfits

/-- **The same follows an at sign in both sources.**  Outside of all frames of the stretch a block
may be closed, or markup opened, only where no other frames lie around it. -/
theorem atSign_twins (hs : s.rest.head? = some '@') (hn : Nested s.frames)
    (hline : (s.here k).Introduces .lineEscape →
      k.Alike ∨ (s.here k).escapeLine.state.rest ≠ [])
    (hf : k.outer = [] ∨ s.frames ≠ [] ∨
      ¬ (s.here k).Introduces .closeBlock ∧ ¬ (s.here k).Introduces .markup)
    (h : k.Keeps (s.here k).atSign) : k.Agree (s.here k).atSign (s.there k).atSign := by
  have hne : s.rest ≠ [] := by
    intro hnil
    rw [hnil] at hs
    cases hs
  have hhead : (s.here k).rest.head? = some '@' := by
    rw [rest_here, List.head?_append_of_ne_nil _ hne, hs]
  unfold atSign at h ⊢
  rw [cursor_there, Cursor.ofCursor_twins hne]
  simp only [cursor_here] at h ⊢
  cases hd : Directive.ofCursor (s.cursor.amid k.here) with
  | doubled =>
    rw [hd] at h
    exact agree_of_skip _ s.frames (le_of_keeps (two_le_of_mark hs hd rfl) h)
  | plain => exact plainSign_twins hne
  | lineEscape =>
    rw [hd] at h
    obtain ⟨rest, hr⟩ := rest_of_mark hs hd rfl (by decide)
    exact escapeLine_twins hr (hline ⟨hhead, hd⟩) h
  | comment =>
    rw [hd] at h
    obtain ⟨rest, hr⟩ := rest_of_mark hs hd rfl (by decide)
    exact passComment_twins hr h
  | explicit =>
    rw [hd] at h
    obtain ⟨rest, hr⟩ := rest_of_mark hs hd rfl (by decide)
    exact explicitExpression_twins hr h
  | implicit =>
    rw [hd] at h
    exact implicitExpression_twins hne h
  | clause keyword =>
    have hfits : 1 ≤ s.yieldToCode.rest.length := by
      rw [rest_yieldToCode]
      exact List.length_pos_iff.2 hne
    have hk : takeName (s.yieldToCode.skip 1).rest = keyword.letters := by
      have hname := takeName_of_introduces (s := s.here k) ⟨hhead, hd⟩
      rw [yieldToCode_twins.1, ← (skip_twins hfits).1, rest_here,
        k.bounded.takeName_append] at hname
      exact hname
    simp only [hd, yieldToCode_twins.1, yieldToCode_twins.2, ← (skip_twins hfits).1,
      ← (skip_twins hfits).2] at h ⊢
    exact openClause_twins hk h
  | anonymousBlock =>
    have htwo := two_le_of_mark hs hd rfl
    simp only [hd, yieldToCode_twins.1, yieldToCode_twins.2] at h ⊢
    exact openBlock_twins (by rwa [rest_here, rest_yieldToCode]) h
  | closeBlock =>
    rw [hd] at h
    exact closeInnermost_twins (two_le_of_mark hs hd rfl) hn
      (hf.imp_right fun hf => hf.resolve_right fun hno => hno.1 ⟨hhead, hd⟩) h
  | markup =>
    simp only [yieldToCode_twins.1, yieldToCode_twins.2]
    exact openMarkup_twins (by rwa [rest_yieldToCode]) (hf.imp_right fun hf =>
      yieldToCode_frames_ne_nil hn (hf.resolve_right fun hno => hno.2 ⟨hhead, hd⟩))

/-- In a frame a step at an at sign that settles ends an escaped line before the text. -/
theorem atSign_twins_of_frames (hs : s.rest.head? = some '@') (hn : Nested s.frames)
    (hf : s.frames ≠ []) (hk : k.Alike ∨ (s.here k).atSign.Settles)
    (h : k.Keeps (s.here k).atSign) : k.Agree (s.here k).atSign (s.there k).atSign := by
  refine atSign_twins hs hn (fun hline => hk.imp_right fun hsettles => ?_) (.inr (.inl hf)) h
  have hescape : (s.here k).atSign = .ok (s.here k).escapeLine := by
    unfold atSign
    rw [hline.2]
  rw [hescape, Outcome.settles_ok] at hsettles
  exact hsettles.resolve_right hf

/-! ## blocks of code -/

/-- A clause goes on with the statement of a block in both sources alike. -/
theorem continueClause_twins {keyword : Keyword}
    (h : k.Keeps ((s.here k).continueClause keyword)) :
    k.Agree ((s.here k).continueClause keyword) ((s.there k).continueClause keyword) := by
  have hname := length_takeName_le (trimStart s.rest)
  have hblanks : (leadingBlanks s.rest).length ≤ s.rest.length :=
    (List.takeWhile_prefix isBlank).length_le
  simp only [continueClause, rest_here, rest_there, k.bounded.takeName_trimStart,
    k.bounded_there.takeName_trimStart] at h ⊢
  cases hword : Keyword.ofLetters? (takeName (trimStart s.rest)) with
  | none => exact agree_of_cursor [] s.frames
  | some next =>
    have hletters := Keyword.ofLetters?_eq_some_iff.1 hword
    have hne : trimStart s.rest ≠ [] := by
      intro hnil
      rw [hnil] at hletters
      exact next.letters_ne_nil hletters
    have hhere := trimStart_append_of_ne_nil hne k.here.after
    have hthere := trimStart_append_of_ne_nil hne k.there.after
    simp only [hhere.1, hhere.2, hthere.1, hthere.2, List.drop_append_of_le_length hname,
      k.bounded.headsClause_append, k.bounded_there.headsClause_append,
      ← (skip_twins hblanks).1, ← (skip_twins hblanks).2, hword] at h ⊢
    split
    · next hcont =>
      rw [if_pos hcont] at h
      refine agree_precede _ (openClause_twins ?_ (keeps_precede h))
      rw [rest_skip, drop_length_leadingBlanks]
      exact hletters.symm
    · exact agree_of_cursor [] s.frames

/-- What follows a block goes on with its statement in both sources or in neither. -/
theorem afterBlock_twins {block : BlockFrame} (h : k.Keeps ((s.here k).afterBlock block)) :
    k.Agree ((s.here k).afterBlock block) ((s.there k).afterBlock (block.relocate k.place)) := by
  unfold afterBlock at h ⊢
  simp only [BlockFrame.relocate]
  cases hw : block.clause? with
  | none => exact agree_of_cursor [] s.frames
  | some keyword =>
    rw [hw] at h
    exact continueClause_twins h

/-- What follows a block does not lead back. -/
theorem reaches_of_afterBlock {block : BlockFrame} {m : Move} (h : s.afterBlock block = .ok m) :
    s.cursor.Reaches m.state.cursor := by
  unfold afterBlock at h
  split at h
  · cases h
    exact .refl _
  · obtain rfl | ⟨next, brace, -, -, -, hb, rfl⟩ := turn_of_continueClause h
    · exact .refl _
    · exact (Cursor.reaches_advance _ _).trans (reaches_enterClause hb)

/-- The step over a token of a block that begins no markup and is no at sign. -/
def passToken (kind : Token) (text : List Char) (block : BlockFrame) (below : List Frame)
    (s : State) : Outcome :=
  let block := { block with balance := block.balance.feed kind }
  if block.balance.isClosed then ((s.outOf text below).afterBlock block).precede [.token kind text]
  else .ok ⟨[.token kind text], s.outOf text (.block block :: below)⟩

/-- A token that begins neither markup nor a directive is passed. -/
theorem stepBlock_of_token {block : BlockFrame} {below : List Frame} {kind : Token}
    {text rest : List Char} (hr : Code.read s.rest = .token kind text rest) (hat : kind ≠ .at)
    (hm : ¬ (kind = .angleOpen ∧ !block.balance.inParens ∧ startsMarkup s.rest)) :
    s.stepBlock id block below = s.passToken kind text block below := by
  unfold stepBlock
  rw [hr]
  dsimp only
  rw [if_neg hat, if_neg hm]
  rfl

/-- A token that is passed is left behind. -/
theorem reaches_of_passToken {block : BlockFrame} {below : List Frame} {kind : Token}
    {text : List Char} {m : Move} (h : s.passToken kind text block below = .ok m) :
    (s.cursor.advance text.length).Reaches m.state.cursor := by
  unfold passToken at h
  dsimp only at h
  split at h
  · obtain ⟨m, hm, rfl⟩ := Outcome.precede_eq_ok_iff.1 h
    exact reaches_of_afterBlock hm
  · cases h
    exact .refl _

/-- A token of the stretch that leaves the source settled is no comment to the end of the last
line. -/
theorem ne_lineComment_of_settles {block : BlockFrame} {below : List Frame} {kind : Token}
    {text rest : List Char} (hr : Code.read s.rest = .token kind text rest)
    (hb : 1 ≤ block.balance.braces) (h : (s.passToken kind text block below).Settles) :
    rest ≠ [] ∨ kind ≠ .lineComment := by
  unfold passToken at h
  dsimp only at h
  split at h
  · next hc =>
    rw [((Balance.isClosed_feed_iff hb).1 hc).1]
    exact .inr (by decide)
  · have hne := (Outcome.settles_ok.1 h).resolve_right (List.cons_ne_nil _ _)
    rw [rest_outOf hr] at hne
    exact .inl hne

/-- A token of the stretch is passed alike in both sources. -/
theorem passToken_twins {block : BlockFrame} {below : List Frame} {kind : Token}
    {text : List Char} (hle : text.length ≤ s.rest.length)
    (h : k.Keeps ((s.here k).passToken kind text block below)) :
    k.Agree ((s.here k).passToken kind text block below)
      ((s.there k).passToken kind text (block.relocate k.place) (k.relocate below)) := by
  have hout (frames : List Frame) :
      (s.here k).outOf text frames = (s.outOf text frames).here k ∧
        (s.there k).outOf text (k.relocate frames) = (s.outOf text frames).there k := by
    simp only [outOf, ← (skip_twins (k := k) hle).1, ← (skip_twins (k := k) hle).2]
    exact ⟨rfl, rfl⟩
  unfold passToken at h ⊢
  dsimp only [BlockFrame.relocate] at h ⊢
  by_cases hc : (block.balance.feed kind).isClosed = true
  · simp only [if_pos hc, (hout below).1, (hout below).2] at h ⊢
    exact agree_precede _ (afterBlock_twins (keeps_precede h))
  · simp only [if_neg hc]
    exact agree_of_skip _ (.block { block with balance := block.balance.feed kind } :: below) hle

/-- **The next token of a block is passed alike in both sources.** -/
theorem stepBlock_twins {block : BlockFrame} {below : List Frame} (hs : s.rest ≠ [])
    (hn : Nested s.frames) (hf : s.frames = .block block :: below)
    (hk : k.Alike ∨ 1 ≤ block.balance.braces ∧ ((s.here k).stepBlock id block below).Settles)
    (h : k.Keeps ((s.here k).stepBlock id block below)) :
    k.Agree ((s.here k).stepBlock id block below)
      ((s.there k).stepBlock id (block.relocate k.place) (k.relocate below)) := by
  have hstarts : startsMarkup (s.there k).rest = startsMarkup (s.here k).rest := by
    rw [rest_there, rest_here, k.bounded_there.startsMarkup_append hs,
      k.bounded.startsMarkup_append hs]
  cases hr : Code.read (s.here k).rest with
  | finished => simp [Reading.read_eq_finished_iff, hs] at hr
  | unclosed =>
    simp only [stepBlock, hr] at h ⊢
    rw [rest_there_of_end (h.error _ rfl), hr, cursor_here, cursor_there, ← Cursor.span_there]
    exact .error _
  | token kind text rest =>
    -- a token that is read as a character of its own is in the stretch
    have hsingle {x : Char} (hx : single? x = some kind) (hkind : kind ≠ .lineComment) :
        ∃ rest', Code.read (s.there k).rest = .token kind text rest' := by
      refine Twins.read_twins hr ?_ (.inr (.inr hkind))
      rw [(Reading.eq_of_read_single hx hr).1]
      exact List.length_pos_iff.2 hs
    by_cases hat : kind = .at
    · subst hat
      obtain ⟨rest', hr'⟩ := hsingle (x := '@') rfl (by decide)
      have hhead := head?_of_read_at hr
      rw [rest_here, List.head?_append_of_ne_nil _ hs] at hhead
      simp only [stepBlock, hr, hr', if_true] at h hk ⊢
      exact atSign_twins_of_frames hhead hn (by simp [hf]) (hk.imp_right And.right) h
    · by_cases hm : kind = .angleOpen ∧ !block.balance.inParens ∧ startsMarkup (s.here k).rest
      · obtain ⟨rfl, hmarkup⟩ := hm
        obtain ⟨rest', hr'⟩ := hsingle (x := '<') rfl (by decide)
        simp only [stepBlock, hr, hr', hstarts, BlockFrame.balance_relocate, if_neg hat, hmarkup,
          and_self, if_true]
        exact agree_of_push (n := 0) (i := 0) [] (fun p => .markup (.opened p)) (fun _ => rfl)
          (Nat.zero_le _)
      · rw [stepBlock_of_token hr hat hm] at h hk ⊢
        have hlen : text.length ≤ (s.here k).rest.length := by
          rw [← Reading.append_of_read hr, List.length_append]
          exact Nat.le_add_right _ _
        have hle : text.length ≤ s.rest.length :=
          Cursor.le_of_advance_amid hlen (h.holds fun m hm => reaches_of_passToken hm)
        obtain ⟨rest', hr'⟩ := Twins.read_twins hr hle
          (hk.imp_right fun hopen => ne_lineComment_of_settles hr hopen.1 hopen.2)
        rw [stepBlock_of_token (s := s.there k) hr' hat (by rwa [hstarts])]
        exact passToken_twins hle h

/-! ## markup -/

/-- A comment of the markup ends at the same mark in both sources. -/
theorem copyComment_twins (hp : commentOpening <+: s.rest) (h : k.Keeps (s.here k).copyComment) :
    k.Agree (s.here k).copyComment (s.there k).copyComment := by
  have hdrop (after : List Char) : (s.rest ++ after).drop commentOpening.length =
      s.rest.drop commentOpening.length ++ after :=
    List.drop_append_of_le_length hp.length_le
  have hopening := hp.length_le
  unfold copyComment at h ⊢
  rw [rest_here, hdrop] at h
  rw [rest_here, rest_there, hdrop, hdrop]
  cases hfound : before? commentClosing (s.rest.drop commentOpening.length ++ k.here.after) with
  | none =>
    rw [hfound] at h
    rw [(h.error _ rfl).after_eq, hfound, cursor_here, cursor_there, ← Cursor.span_there]
    exact .error _
  | some found =>
    rw [hfound] at h
    obtain ⟨tail, htail⟩ := append_of_before? hfound
    have hfits : commentOpening.length + (found.length + commentClosing.length) ≤
        s.rest.length := by
      refine le_of_keeps ?_ h
      have hlength := congrArg List.length htail
      simp only [rest_here, List.length_append, List.length_drop] at hlength ⊢
      omega
    rw [before?_append_of_le hfound (by rw [List.length_drop]; omega)]
    exact agree_copy hfits

/-- What a closing tag of the stretch does is decided by the first character behind its name that is
not blank, whatever lies around the stretch. -/
theorem closingTag_amid {side : Side} {markup : MarkupFrame} {below : List Frame}
    {name rest : List Char} {x : Char} {nameEnd tagEnd : Cursor}
    (hlen : 2 + name.length ≤ s.rest.length)
    (hname : nameEnd = s.cursor.advance (2 + name.length))
    (hx : trimStart nameEnd.rest = x :: rest)
    (htag : tagEnd = nameEnd.advance ((leadingBlanks nameEnd.rest).length + 1)) :
    closingTag id name ⟨s.cursor.amid side, ⟨.markup markup :: below⟩⟩ =
      if x = '>' then
        match markup.elements.close (String.ofList name)
          ((s.cursor.amid side).spanTo (tagEnd.amid side)) with
        | (.error e, _) => .error e
        | (.ok _, elements) =>
          .ok ⟨[.text (s.cursor.textTo tagEnd)],
            ⟨tagEnd.amid side, ⟨.markup { markup with elements := elements } :: below⟩⟩⟩
      else
        .error (.malformedTag
          ("unexpected content in closing tag </" ++ String.ofList name ++ ">")
          ((s.cursor.amid side).spanTo (nameEnd.amid side))) := by
  have hnameEnd : (s.cursor.amid side).advance (2 + name.length) = nameEnd.amid side := by
    rw [hname]
    exact (Cursor.amid_advance hlen).symm
  have hne : trimStart nameEnd.rest ≠ [] := by
    rw [hx]
    exact List.cons_ne_nil x rest
  obtain ⟨htrim, hblanks⟩ := trimStart_append_of_ne_nil hne side.after
  rw [hx, List.cons_append] at htrim
  by_cases hgt : x = '>'
  · subst hgt
    have hfits : (leadingBlanks nameEnd.rest).length + 1 ≤ nameEnd.rest.length := by
      have hlength := congrArg List.length (leadingBlanks_append_trimStart nameEnd.rest)
      rw [hx, List.length_append, List.length_cons] at hlength
      omega
    have htagEnd : (nameEnd.amid side).advance ((leadingBlanks nameEnd.rest).length + 1) =
        tagEnd.amid side := by
      rw [htag]
      exact (Cursor.amid_advance hfits).symm
    have hreach : s.cursor.Reaches tagEnd := by
      rw [htag, hname]
      exact (Cursor.reaches_advance _ _).trans (Cursor.reaches_advance _ _)
    simp only [closingTag, hnameEnd, Cursor.rest_amid, htrim, hblanks, htagEnd, hreach.textTo_amid,
      if_true]
    rfl
  · rw [if_neg hgt, closingTag_of_ne (by rw [hnameEnd, Cursor.rest_amid, htrim]) hgt, hnameEnd]

/-- A closing tag ends the same element in both sources, or it is refused for the same in both. -/
theorem closingTag_twins {markup : MarkupFrame} {below : List Frame} {name : List Char}
    (hf : s.frames = .markup markup :: below) (hlen : 2 + name.length ≤ s.rest.length)
    (h : k.Keeps ((s.here k).closingTag id name)) :
    k.Agree ((s.here k).closingTag id name) ((s.there k).closingTag id name) := by
  have hhere : s.here k = ⟨s.cursor.amid k.here, ⟨.markup markup :: below⟩⟩ := by
    rw [here, ← hf]
    rfl
  have hthere : s.there k =
      ⟨s.cursor.amid k.there, ⟨.markup (markup.relocate k.place) :: k.relocate below⟩⟩ := by
    rw [there, hf]
    rfl
  generalize hname : s.cursor.advance (2 + name.length) = nameEnd
  cases htrim : trimStart nameEnd.rest with
  | nil =>
    have hnameEnd (side : Side) :
        (s.cursor.amid side).advance (2 + name.length) = nameEnd.amid side := by
      rw [← hname]
      exact (Cursor.amid_advance hlen).symm
    -- no character that may follow the stretch ends the tag
    have hend : k.End := by
      simp only [closingTag, cursor_here, hnameEnd, Cursor.rest_amid,
        trimStart_append_of_eq_nil htrim] at h
      cases hafter : k.here.after with
      | nil =>
        rw [hafter] at h
        exact h.error _ rfl
      | cons c after =>
        rw [hafter] at h
        obtain rfl | rfl := k.breaks c (by rw [hafter]; rfl) <;> exact h.error _ rfl
    simp only [closingTag, cursor_here, cursor_there, hnameEnd, Cursor.rest_amid, hend.1, hend.2,
      List.append_nil, htrim, ← Cursor.spanTo_there (k := k)]
    exact .error _
  | cons x rest =>
    rw [hhere, hthere, closingTag_amid hlen hname.symm htrim rfl,
      closingTag_amid hlen hname.symm htrim rfl]
    split
    · rw [← Cursor.spanTo_there, MarkupFrame.relocate, OpenElements.close_relocate]
      cases markup.elements.close (String.ofList name) ((s.cursor.amid k.here).spanTo
        ((nameEnd.advance ((leadingBlanks nameEnd.rest).length + 1)).amid k.here)) with
      | mk closed elements =>
        cases closed with
        | error e => exact .error e
        | ok element =>
          exact agree_of_cursor _ (.markup { markup with elements := elements } :: below)
    · rw [← Cursor.spanTo_there]
      exact .error _

/-- An opening tag is entered in both sources. -/
theorem openingTag_twins {name : List Char} (hlen : 1 + name.length ≤ s.rest.length) :
    k.Agree (.ok ((s.here k).openingTag name)) (.ok ((s.there k).openingTag name)) := by
  simp only [openingTag, cursor_here, cursor_there, ← Cursor.amid_advance hlen,
    ← Cursor.spanTo_there, (take_twins (k := k) hlen).1, (take_twins (k := k) hlen).2]
  exact agree_of_cursor _ (.tag _ _ :: s.frames)

/-- An angle bracket of the stretch begins the same in both sources. -/
theorem angle_twins {markup : MarkupFrame} {below : List Frame} (hs : s.rest ≠ [])
    (hf : s.frames = .markup markup :: below)
    (h : k.Keeps ((s.here k).angle id markup below)) :
    k.Agree ((s.here k).angle id markup below)
      ((s.there k).angle id (markup.relocate k.place) (k.relocate below)) := by
  have hcopy : k.Agree (.ok ((s.here k).copy 1)) (.ok ((s.there k).copy 1)) :=
    agree_copy (List.length_pos_iff.2 hs)
  have hmark {mark : List Char} (hp : mark.isPrefixOf s.rest = true) :
      mark.length ≤ s.rest.length :=
    (List.isPrefixOf_iff_prefix.1 hp).length_le
  have hprefix (mark : List Char) (hm : mark ∈ [textOpening, textClosing, commentOpening]) :
      mark.isPrefixOf (s.rest ++ k.here.after) = mark.isPrefixOf s.rest ∧
        mark.isPrefixOf (s.rest ++ k.there.after) = mark.isPrefixOf s.rest :=
    ⟨k.bounded.isPrefixOf_append_of_mem hm hs, k.bounded_there.isPrefixOf_append_of_mem hm hs⟩
  have hclosing := hprefix textClosing (by simp)
  have hopening := hprefix textOpening (by simp)
  have hcomment := hprefix commentOpening (by simp)
  unfold angle at h ⊢
  simp only [rest_here, rest_there, hclosing.1, hclosing.2, hopening.1, hopening.2, hcomment.1,
    hcomment.2, k.bounded.closingName_append hs, k.bounded_there.closingName_append hs,
    k.bounded.openingName_append hs, k.bounded_there.openingName_append hs] at h ⊢
  cases ht : markup.inText with
  | true =>
    simp only [MarkupFrame.relocate, ht, if_true]
    split
    · next hp =>
      exact agree_of_skip [] (.markup { markup with inText := false } :: below) (hmark hp)
    · exact hcopy
  | false =>
    simp only [MarkupFrame.relocate, ht, Bool.false_eq_true, if_false] at h ⊢
    by_cases hp : textOpening.isPrefixOf s.rest = true
    · simp only [hp, if_true]
      exact agree_of_skip [] (.markup { markup with inText := true } :: below) (hmark hp)
    · simp only [hp, Bool.false_eq_true, if_false] at h ⊢
      by_cases hc : commentOpening.isPrefixOf s.rest = true
      · simp only [hc, if_true] at h ⊢
        exact copyComment_twins (List.isPrefixOf_iff_prefix.1 hc) h
      · simp only [hc, Bool.false_eq_true, if_false] at h ⊢
        by_cases hclose : closingName s.rest ≠ []
        · simp only [if_pos hclose] at h ⊢
          exact closingTag_twins hf (length_closingName_le hclose) h
        · simp only [if_neg hclose]
          split
          · next hopen => exact openingTag_twins (length_openingName_le hopen)
          · exact hcopy

/-- A run of plain text of the stretch is as long in both sources, and so ends it with the same
character. -/
theorem plainLength_twins {stops : Char → Bool}
    (hle : plainLength stops (s.here k).rest ≤ s.rest.length)
    (h : k.Alike ∨ (s.here k).rest.dropWhile (!stops ·) ≠ []) :
    plainLength stops (s.there k).rest = plainLength stops (s.here k).rest ∧
      ((s.there k).rest.dropWhile (!stops ·)).head? =
        ((s.here k).rest.dropWhile (!stops ·)).head? := by
  obtain ⟨htake, hhead⟩ := takeWhile_twins hle h
  exact ⟨congrArg List.length htake, hhead⟩

/-- A line break in settled markup is left behind alike in both sources, with the indentation that
lies within the stretch. -/
theorem endLine_twins {below : List Frame} (hs : s.rest ≠ []) :
    k.Agree (.ok ((s.here k).endLine below))
      (.ok ((s.there k).endLine (k.relocate below))) := by
  obtain ⟨c, rest, hr⟩ := List.exists_cons_of_ne_nil hs
  have hindent {side : Side} (hb : Bounded side.after) :
      (s.rest ++ side.after).tail.takeWhile (fun c => c == ' ' || c == '\t') =
        rest.takeWhile (fun c => c == ' ' || c == '\t') := by
    rw [hr, List.cons_append, List.tail_cons]
    exact hb.takeWhile_indent_append rest
  have hfits : 1 + (rest.takeWhile fun c => c == ' ' || c == '\t').length ≤ s.rest.length := by
    have := (List.takeWhile_prefix (l := rest) fun c => c == ' ' || c == '\t').length_le
    simp only [hr, List.length_cons]
    omega
  have htake := take_twins (k := k) hfits
  simp only [endLine, rest_here, rest_there, hindent k.bounded, hindent k.bounded_there] at htake ⊢
  rw [htake.1, htake.2]
  exact agree_of_skip _ below hfits

/-- **Markup is read alike in both sources.** -/
theorem stepMarkup_twins {markup : MarkupFrame} {below : List Frame} (hs : s.rest ≠ [])
    (hn : Nested s.frames) (hf : s.frames = .markup markup :: below)
    (hk : k.Alike ∨ ((s.here k).stepMarkup id markup below).Settles)
    (h : k.Keeps ((s.here k).stepMarkup id markup below)) :
    k.Agree ((s.here k).stepMarkup id markup below)
      ((s.there k).stepMarkup id (markup.relocate k.place) (k.relocate below)) := by
  have hframes : s.frames ≠ [] := by simp [hf]
  obtain ⟨c, rest, hr, hhere, hthere⟩ := exists_cons_twins k hs
  unfold stepMarkup at h hk ⊢
  rw [hhere] at h hk
  rw [hhere, hthere]
  simp only [MarkupFrame.isSettled_relocate] at h hk ⊢
  by_cases hstop : (!stopsText c) = true
  · simp only [if_pos hstop] at h hk ⊢
    rw [← hhere] at h hk ⊢
    have hfits := le_of_keeps (plainLength_le _ _) h
    have hplain := plainLength_twins hfits (hk.imp_right fun hsettles => by
      rw [← drop_plainLength, ← rest_skip]
      exact (Outcome.settles_ok.1 hsettles).resolve_right hframes)
    rw [← hthere, hplain.1]
    exact agree_copy hfits
  · simp only [if_neg hstop] at h hk ⊢
    by_cases hat : c = '@'
    · simp only [if_pos hat] at h hk ⊢
      exact atSign_twins_of_frames (by simp [hr, hat]) hn hframes hk h
    · simp only [if_neg hat] at h ⊢
      by_cases hlt : c = '<'
      · simp only [if_pos hlt] at h ⊢
        exact angle_twins hs hf h
      · simp only [if_neg hlt]
        split
        · exact agree_copy (List.length_pos_iff.2 hs)
        · split
          · exact endLine_twins hs
          · exact agree_of_cursor [] below

/-! ## tags and attribute values -/

/-- The end of a tag opens the same element in both sources. -/
theorem endTag_twins {selfClosing : Bool} {name : String} {span : Span} {below : List Frame}
    {n : Nat} (hf : s.frames = .tag name span :: below) (hn : Nested s.frames)
    (hfits : n ≤ s.rest.length) :
    k.Agree (endTag id selfClosing ((s.here k).copy n))
      (endTag id selfClosing ((s.there k).copy n)) := by
  rw [hf] at hn
  obtain ⟨markup, outer, rfl⟩ := hn.exists_markup
  have hagree (elements : OpenElements) := agree_of_skip (k := k) [.text (s.rest.take n)]
    (.markup { markup with elements := elements } :: outer) hfits
  simp only [endTag, copy, (take_twins (k := k) hfits).1, (take_twins (k := k) hfits).2,
    frames_skip, frames_here, frames_there, hf]
  cases selfClosing with
  | true => exact hagree markup.elements
  | false => exact hagree (markup.elements.openElement name span)

/-- Plain text up to a character that has to come is copied alike in both sources. -/
theorem copyPlain_twins {stops : Char → Bool} {e : TemplateError}
    (h : k.Keeps ((s.here k).copyPlain stops e)) :
    k.Agree ((s.here k).copyPlain stops e) ((s.there k).copyPlain stops (e.relocate k.place)) := by
  unfold copyPlain at h ⊢
  cases hstop : ((s.here k).rest.dropWhile (!stops ·)).head? with
  | none =>
    rw [hstop] at h
    rw [rest_there_of_end (h.error e rfl), hstop]
    exact .error e
  | some c =>
    rw [hstop] at h
    have hfits := le_of_keeps (plainLength_le _ _) h
    have hplain := plainLength_twins hfits (.inr fun hnil => by rw [hnil] at hstop; cases hstop)
    rw [hplain.2, hstop, hplain.1]
    exact agree_copy hfits

/-- **An opening tag is read alike in both sources.** -/
theorem stepTag_twins {name : String} {span : Span} {below : List Frame} (hs : s.rest ≠ [])
    (hn : Nested s.frames) (hf : s.frames = .tag name span :: below)
    (hk : k.Alike ∨ ((s.here k).stepTag id span).Settles)
    (h : k.Keeps ((s.here k).stepTag id span)) :
    k.Agree ((s.here k).stepTag id span) ((s.there k).stepTag id (span.relocate k.place)) := by
  have hone : 1 ≤ s.rest.length := List.length_pos_iff.2 hs
  obtain ⟨c, rest, hr, hhere, hthere⟩ := exists_cons_twins k hs
  by_cases hstop : stopsTag c = true
  · have hdrop {t : List Char} : (c :: t).dropWhile (!stopsTag ·) = c :: t := by simp [hstop]
    have hplain {t : List Char} : ¬ 0 < plainLength stopsTag (c :: t) := by
      simp [plainLength, hstop]
    unfold stepTag at h hk ⊢
    simp only [hhere, hthere, hdrop, if_neg hplain] at h hk ⊢
    by_cases hat : c = '@'
    · simp only [if_pos hat] at h hk ⊢
      exact atSign_twins_of_frames (by simp [hr, hat]) hn (by simp [hf]) hk h
    · simp only [if_neg hat]
      split
      · exact endTag_twins hf hn hone
      · split
        · have hgt : isSeparator '>' = false := by decide +kernel
          simp only [k.bounded.head?_append hgt, k.bounded_there.head?_append hgt]
          split
          · next hgt =>
            obtain ⟨tail, rfl⟩ := List.head?_eq_some_iff.1 hgt
            exact endTag_twins hf hn (by simp [hr])
          · exact agree_copy hone
        · exact agree_of_push (i := 0) [.text [c]] (.attributeValue c) (fun _ => rfl) hone
  · have hplain {t : List Char} : 0 < plainLength stopsTag (c :: t) := by
      simp [plainLength, hstop]
    rw [stepTag_of_plain (hhere ▸ hplain)] at h ⊢
    rw [stepTag_of_plain (hthere ▸ hplain)]
    exact copyPlain_twins h

/-- **An attribute value is read alike in both sources.** -/
theorem stepValue_twins {quote : Char} {openedAt : Nat} {below : List Frame} (hs : s.rest ≠ [])
    (hn : Nested s.frames) (hf : s.frames = .attributeValue quote openedAt :: below)
    (hk : k.Alike ∨ ((s.here k).stepValue id).Settles) (h : k.Keeps ((s.here k).stepValue id)) :
    k.Agree ((s.here k).stepValue id) ((s.there k).stepValue id) := by
  have hone : 1 ≤ s.rest.length := List.length_pos_iff.2 hs
  have hf' : (s.there k).frames = .attributeValue quote (k.place openedAt) ::
      k.relocate below := by
    rw [frames_there, hf]
    rfl
  obtain ⟨c, rest, hr, hhere, hthere⟩ := exists_cons_twins k hs
  by_cases hstop : stopsValue quote c = true
  · have hdrop {t : List Char} : (c :: t).dropWhile (!stopsValue quote ·) = c :: t := by
      simp [hstop]
    have hplain {t : List Char} : ¬ 0 < plainLength (stopsValue quote) (c :: t) := by
      simp [plainLength, hstop]
    unfold stepValue at h hk ⊢
    rw [hf']
    simp only [frames_here, hf, hhere, hthere, hdrop, if_neg hplain] at h hk ⊢
    by_cases hat : c = '@'
    · simp only [if_pos hat] at h hk ⊢
      exact atSign_twins_of_frames (by simp [hr, hat]) hn (by simp [hf]) hk h
    · have htake := take_twins (k := k) hone
      simp only [if_neg hat, copy, htake.1, htake.2]
      exact agree_of_skip _ below hone
  · have hplain {t : List Char} : 0 < plainLength (stopsValue quote) (c :: t) := by
      simp [plainLength, hstop]
    rw [stepValue_of_plain (s := s.here k) hf (hhere ▸ hplain)] at h ⊢
    rw [stepValue_of_plain hf' (hthere ▸ hplain), ← Span.relocate_ofLength]
    exact copyPlain_twins h

/-! ## all steps -/

/-- Text outside of all frames is read alike where both sources go on alike. -/
theorem stepText_twins (hs : s.rest ≠ []) (hn : Nested s.frames) (halike : k.Alike)
    (houter : k.outer = []) (h : k.Keeps (s.here k).stepText) :
    k.Agree (s.here k).stepText (s.there k).stepText := by
  obtain ⟨c, rest, hr, hhere, hthere⟩ := exists_cons_twins k hs
  unfold stepText at h ⊢
  rw [hhere] at h
  rw [hhere, hthere]
  dsimp only at h ⊢
  by_cases hat : c = '@'
  · simp only [if_pos hat] at h ⊢
    exact atSign_twins (by simp [hr, hat]) hn (fun _ => .inl halike) (.inl houter) h
  · simp only [if_neg hat] at h ⊢
    rw [← hhere] at h ⊢
    have hfits := le_of_keeps (List.takeWhile_prefix _).length_le h
    have hplain : (s.there k).rest.takeWhile (· ≠ '@') = (s.here k).rest.takeWhile (· ≠ '@') := by
      rw [rest_here] at hfits
      exact (takeWhile_twins hfits (.inl halike)).1
    rw [← hthere, hplain]
    exact agree_copy hfits

/-- **The same step is taken in both sources**, as long as it does not lead behind the stretch and,
unless both sources end there, does not fail.  Where the sources do not go on alike, or other frames
lie around the stretch in one of them, the step has to be one in a frame of the stretch, and one
that does not end the text with a frame open. -/
theorem step_twins (hs : s.rest ≠ []) (hn : Nested s.frames)
    (hk : k.Alike ∧ k.outer = [] ∨
      s.frames ≠ [] ∧ Open (blocks s.frames) ∧ (s.here k).step.Settles)
    (h : k.Keeps (s.here k).step) : k.Agree (s.here k).step (s.there k).step := by
  have hsettles : k.Alike ∨ (s.here k).step.Settles := hk.imp And.left (·.2.2)
  unfold step stepWith at h hsettles ⊢
  rw [frames_here] at h hsettles ⊢
  rw [frames_there]
  cases hf : s.frames with
  | nil =>
    rw [hf] at h
    obtain ⟨halike, houter⟩ := hk.resolve_right fun hne => hne.1 hf
    rw [relocate_nil, houter]
    exact stepText_twins hs hn halike houter h
  | cons frame below =>
    rw [hf] at h hsettles
    cases frame with
    | block block =>
      have hopen : k.Alike ∨ 1 ≤ block.balance.braces :=
        hk.imp And.left fun hk => hk.2.1 block (by rw [hf]; exact List.mem_cons_self)
      refine stepBlock_twins hs hn hf ?_ h
      exact hopen.elim .inl fun hb => hsettles.imp_right fun hsettles => ⟨hb, hsettles⟩
    | markup markup => exact stepMarkup_twins hs hn hf hsettles h
    | tag name span => exact stepTag_twins hs hn hf hsettles h
    | attributeValue quote openedAt => exact stepValue_twins hs hn hf hsettles h
    | expression | comment | lineEscape =>
      rw [hf] at hn
      cases hn.isWhole_eq_false

end State

end Scan

end AtTemplate
