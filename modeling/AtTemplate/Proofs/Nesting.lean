import AtTemplate.Proofs.Run

/-!
# AtTemplate.Proofs.Nesting

Which frame may lie on which, at every state that a scan comes to.

`Nested` is the invariant: markup lies in a block, a tag in markup outside of a text element, an
attribute value in a tag, and a block in the template's own text or in any of these, but not in
markup in which nothing is open.  The template's own text lies under every stack and is no frame,
so there is nothing to say of it.

* `nested_of_turn` — no step breaks the nesting;
* `stepWith_of_nested` — in nested frames every routine of a step finds the frame it is for;
* `restacked_of_turn` — a step leaves alone what lies below the frames that it is about.
-/

namespace AtTemplate

/-- Whether a frame may lie directly on another; `none` is the template's own text. -/
def Frame.liesOn : Frame → Option Frame → Bool
  | .block _, none | .block _, some (.block _) => true
  | .block _, some (.tag _ _) | .block _, some (.attributeValue _ _) => true
  | .block _, some (.markup m) => !m.isSettled
  | .markup _, some (.block _) => true
  | .tag _ _, some (.markup m) => !m.inText
  | .attributeValue _ _, some (.tag _ _) => true
  | _, _ => false

/-- Every frame lies on one that it may lie on. -/
def Nested : List Frame → Prop
  | [] => True
  | frame :: below => frame.liesOn below.head? = true ∧ Nested below

namespace Nested

variable {above below : List Frame} {frame : Frame}

theorem tail (h : Nested (frame :: below)) : Nested below := h.2

/-- The frames below any of them are nested on their own. -/
theorem of_append (h : Nested (above ++ below)) : Nested below := by
  induction above with
  | nil => exact h
  | cons frame above ih => exact ih h.2

/-- A block may be replaced by any other. -/
theorem block {b : BlockFrame} (h : Nested (.block b :: below)) (c : BlockFrame) :
    Nested (.block c :: below) := by
  constructor
  · rw [← h.1]
    cases below.head? with
    | none => rfl
    | some f => cases f <;> rfl
  · exact h.2

/-- Markup on top of all may be replaced by any other. -/
theorem markup {m : MarkupFrame} (h : Nested (.markup m :: below)) (n : MarkupFrame) :
    Nested (.markup n :: below) := by
  constructor
  · rw [← h.1]
    cases below.head? with
    | none => rfl
    | some f => cases f <;> rfl
  · exact h.2

/-- Markup lies on a block. -/
theorem exists_block {m : MarkupFrame} (h : Nested (.markup m :: below)) :
    ∃ b outer, below = .block b :: outer := by
  have hm := h.1
  cases below with
  | nil => cases hm
  | cons f outer => cases f <;> first | exact ⟨_, _, rfl⟩ | cases hm

/-- A tag lies on markup. -/
theorem exists_markup {name : String} {span : Span} (h : Nested (.tag name span :: below)) :
    ∃ m outer, below = .markup m :: outer := by
  have ht := h.1
  cases below with
  | nil => cases ht
  | cons f outer => cases f <;> first | exact ⟨_, _, rfl⟩ | cases ht

/-- No construct that is read as a whole lies on anything. -/
theorem isWhole_eq_false (h : Nested (frame :: below)) : frame.isWhole = false := by
  have hf := h.1
  cases frame with
  | block | markup | tag | attributeValue => rfl
  | expression | comment | lineEscape =>
    unfold Frame.liesOn at hf
    split at hf <;> simp_all

/-- So the innermost frame is none that is read as a whole. -/
theorem any_isWhole_head? {frames : List Frame} (h : Nested frames) :
    (frames.head?.any Frame.isWhole) = false := by
  cases frames with
  | nil => rfl
  | cons frame below => exact h.isWhole_eq_false

/-- Nor is one among the other frames. -/
theorem isWhole_of_mem {frames : List Frame} (h : Nested frames) :
    ∀ frame ∈ frames, frame.isWhole = false := by
  induction frames with
  | nil => exact List.forall_mem_nil _
  | cons frame below ih => exact List.forall_mem_cons.2 ⟨h.isWhole_eq_false, ih h.tail⟩

/-- Where there is any frame, there is one that may not be left open: markup lies on a block. -/
theorem exists_unclosed (h : Nested (frame :: below)) :
    ∃ e, (frame :: below).findSome? Frame.unclosed? = some e := by
  have hw := h.isWhole_eq_false
  cases frame with
  | block | tag | attributeValue => exact ⟨_, rfl⟩
  | expression | comment | lineEscape => cases hw
  | markup m =>
    obtain ⟨b, outer, rfl⟩ := h.exists_block
    rw [List.findSome?_cons]
    cases (Frame.markup m).unclosed? with
    | none => exact ⟨_, rfl⟩
    | some e => exact ⟨e, rfl⟩

/-- Where there is any frame, there is a block. -/
theorem splitAtBlock?_ne_none {frames : List Frame} (h : Nested frames)
    (hne : frames ≠ []) : FrameStack.splitAtBlock? frames ≠ none := by
  induction frames with
  | nil => exact absurd rfl hne
  | cons frame below ih =>
    rw [Ne, FrameStack.splitAtBlock?_eq_none_iff]
    intro hall
    cases below with
    | nil =>
      have hlies := h.1
      have hblock := hall frame List.mem_cons_self
      cases frame <;> first | cases hblock; done | cases hlies
    | cons outer below =>
      refine ih h.tail nofun (FrameStack.splitAtBlock?_eq_none_iff.2 fun f hf => ?_)
      exact hall f (List.mem_cons_of_mem frame hf)

end Nested

namespace Scan

open Code Text
open AtTemplate.Markup

variable {s : State} {m : Move}

/-! ## the invariant -/

/-- Markup that gives way to code leaves nested frames, on which a block may lie. -/
theorem nested_yieldToCode (h : Nested s.frames) (b : BlockFrame) :
    Nested (.block b :: s.yieldToCode.frames) := by
  unfold State.yieldToCode
  split
  · next markup below hf =>
    have hf : s.frames = .markup markup :: below := hf
    rw [hf] at h
    split
    · obtain ⟨c, outer, rfl⟩ := h.exists_block
      exact ⟨rfl, h.tail⟩
    · next hm =>
      have hm : markup.isSettled = false := by simpa using hm
      rw [hf]
      exact ⟨by simp [Frame.liesOn, hm], h⟩
  · next hno =>
    constructor
    · cases hf : s.frames with
      | nil => rfl
      | cons frame below =>
        rw [hf] at h
        have hw := h.isWhole_eq_false
        cases frame with
        | block | tag | attributeValue => rfl
        | markup markup => exact absurd hf (hno markup below)
        | expression | comment | lineEscape => cases hw
    · exact h

/-- Markup that gives way to code gives way to a block, so a frame is left. -/
theorem yieldToCode_frames_ne_nil (h : Nested s.frames) (hne : s.frames ≠ []) :
    s.yieldToCode.frames ≠ [] := by
  unfold State.yieldToCode
  split
  · next markup below hf =>
    have hf : s.frames = .markup markup :: below := hf
    rw [hf] at h
    obtain ⟨b, outer, rfl⟩ := h.exists_block
    split
    · exact List.cons_ne_nil _ _
    · exact hne
  · exact hne

/-- **No step breaks the nesting.** -/
theorem nested_of_turn (h : Nested s.frames) (ht : s.Turn m) : Nested m.state.frames := by
  cases ht with
  | doubled | plain | lineEscape | comment | closeNothing | copy | explicit | implicit => exact h
  | clause => exact nested_yieldToCode h _
  | openBlock => exact nested_yieldToCode h _
  | openMarkup =>
    have hy := (nested_yieldToCode h (.opened 0 none)).tail
    unfold State.openMarkup
    split
    · next hb =>
      obtain ⟨b, below, hf⟩ := State.exists_block_of_inBlock hb
      show Nested (_ :: s.yieldToCode.frames)
      rw [hf] at hy ⊢
      exact ⟨rfl, hy⟩
    · split <;> exact hy
  | closeInnermost _ hf =>
    rw [(FrameStack.splitAtBlock?_eq_some hf).1] at h
    exact h.of_append.tail
  | enterMarkup hf =>
    show Nested (_ :: s.frames)
    rw [hf] at h ⊢
    exact ⟨rfl, h⟩
  | token hf => rw [hf] at h; exact h.block _
  | lastToken hf => rw [hf] at h; exact h.tail
  | nextClause hf => rw [hf] at h; exact h.block _
  | endLine hf | leaveMarkup hf | closeValue hf => rw [hf] at h; exact h.tail
  | openText hf | closeText hf | closingTag hf => rw [hf] at h; exact h.markup _
  | openingTag hf ht =>
    show Nested (_ :: s.frames)
    rw [hf] at h ⊢
    exact ⟨by simp [Frame.liesOn, ht], h⟩
  | openValue hf =>
    show Nested (_ :: s.frames)
    rw [hf] at h ⊢
    exact ⟨rfl, h⟩
  | endTag hf => rw [hf] at h; exact h.tail.markup _
  | endSelfClosing hf => rw [hf] at h; exact h.tail
  | loseTag hf | loseWhole hf => rw [hf] at h; exact h.tail

theorem nested_of_reached {source : String} (h : Reached source s) : Nested s.frames := by
  obtain ⟨trace, hrun⟩ := h
  exact hrun.preserves (P := fun s => Nested s.frames)
    (fun _ _ hn _ ht => nested_of_turn hn ht) trivial

/-! ## no routine misses its frame -/

/-- In nested frames a step finds every frame it looks for, so it never comes to what it would do
without one. -/
theorem stepWith_of_nested (h : Nested s.frames) (recover : Recovery) :
    s.stepWith recover = s.step := by
  unfold State.step State.stepWith
  split
  · rfl
  · unfold State.stepBlock State.closeBlock
    rfl
  · next hf => simp only [State.stepMarkup, State.angle, State.closingTag, hf]
  · next name span below hf =>
    rw [hf] at h
    obtain ⟨markup, outer, rfl⟩ := h.exists_markup
    simp only [State.stepTag, State.endTag, State.state_copy, State.frames_skip, hf]
  · next hf => simp only [State.stepValue, hf]
  all_goals
    next hf =>
      rw [hf] at h
      cases h.isWhole_eq_false

/-! ## what a step leaves alone -/

/-- How a step changes the frames.  What a rule calls `below` is the same before and after. -/
inductive Restacked : List Frame → List Frame → Prop
  /-- The frames stay. -/
  | same (below : List Frame) : Restacked below below
  /-- A frame is pushed. -/
  | push (frame : Frame) (below : List Frame) : Restacked below (frame :: below)
  /-- The innermost frame is changed. -/
  | change {frame new : Frame} (below : List Frame) (h : new.mode = frame.mode) :
      Restacked (frame :: below) (new :: below)
  /-- The innermost frame is popped. -/
  | pop (frame : Frame) (below : List Frame) : Restacked (frame :: below) below
  /-- Markup in which nothing is open is popped, and another frame pushed. -/
  | yield {markup : MarkupFrame} (new : Frame) (below : List Frame) (h : markup.isSettled = true) :
      Restacked (.markup markup :: below) (new :: below)
  /-- A block is popped, and the block of the next clause pushed. -/
  | continue (block next : BlockFrame) (below : List Frame) :
      Restacked (.block block :: below) (.block next :: below)
  /-- A tag is popped, and the markup that it lies in is changed. -/
  | endTag (name : String) (span : Span) (markup new : MarkupFrame) (below : List Frame) :
      Restacked (.tag name span :: .markup markup :: below) (.markup new :: below)
  /-- The frames through the innermost block are popped. -/
  | close {above : List Frame} (block : BlockFrame) (below : List Frame)
      (h : ∀ frame ∈ above, frame.isBlock = false) :
      Restacked (above ++ .block block :: below) below

/-- Pushing a frame after markup has given way to code. -/
theorem restacked_yieldToCode (s : State) (frame : Frame) :
    Restacked s.frames (frame :: s.yieldToCode.frames) := by
  unfold State.yieldToCode
  split
  · next markup below hf =>
    have hf : s.frames = .markup markup :: below := hf
    split
    · next hm => rw [hf]; exact .yield frame below hm
    · exact .push frame s.frames
  · exact .push frame s.frames

/-- Markup that gives way to code gives way to a block. -/
theorem yieldToCode_eq_self (h : Nested s.frames) (hb : s.yieldToCode.inBlock = false) :
    s.yieldToCode = s := by
  unfold State.yieldToCode at hb ⊢
  split
  · next markup below hf =>
    have hf : s.frames = .markup markup :: below := hf
    rw [hf] at h
    obtain ⟨c, outer, rfl⟩ := h.exists_block
    split
    · next hm =>
      simp [hf, hm, State.inBlock_eq, Frame.isBlock] at hb
    · rfl
  · rfl

/-- **A step leaves alone what lies below the frames that it is about.** -/
theorem restacked_of_turn (h : Nested s.frames) (ht : s.Turn m) :
    Restacked s.frames m.state.frames := by
  cases ht with
  | doubled | plain | lineEscape | comment | closeNothing | copy | explicit | implicit =>
    exact .same s.frames
  | clause => exact restacked_yieldToCode s _
  | openBlock => exact restacked_yieldToCode s _
  | openMarkup =>
    unfold State.openMarkup
    split
    · exact restacked_yieldToCode s _
    · next hb =>
      rw [yieldToCode_eq_self h (by simpa using hb)]
      split <;> exact .same s.frames
  | closeInnermost _ hf =>
    obtain ⟨hs, ha⟩ := FrameStack.splitAtBlock?_eq_some hf
    rw [hs]
    exact .close _ _ ha
  | enterMarkup | openingTag | openValue => exact .push _ s.frames
  | token hf => rw [hf]; exact .change _ rfl
  | lastToken hf => rw [hf]; exact .pop _ _
  | nextClause hf => rw [hf]; exact .continue _ _ _
  | endLine hf | leaveMarkup hf | closeValue hf => rw [hf]; exact .pop _ _
  | openText hf | closeText hf | closingTag hf => rw [hf]; exact .change _ rfl
  | endTag hf => rw [hf]; exact .endTag _ _ _ _ _
  | endSelfClosing hf => rw [hf]; exact .pop _ _
  | loseTag hf | loseWhole hf => rw [hf]; exact .pop _ _

/-- **How the frames of a scan are nested.**  At every state that a scan comes to, the frames are
nested; the step from there finds every frame that it looks for, whatever it would do without one,
and it leaves alone what lies below the frames that it is about.  At the end of the source an open
frame is always reported, so that a template is accepted exactly when a run leads to its end with
no frame left. -/
theorem frames_of_reached (source : String) :
    (∀ s, Reached source s →
      Nested s.frames ∧ (∀ recover, s.stepWith recover = s.step) ∧
        ∀ m, s.rest ≠ [] → s.step = .ok m → Restacked s.frames m.state.frames) ∧
    (∀ s, Reached source s → s.rest = [] → s.frames ≠ [] →
      ∃ e, s.frames.findSome? Frame.unclosed? = some e ∧ scan source = .error e) ∧
    ((∃ segments, scan source = .ok segments) ↔
      ∃ s, Reached source s ∧ s.rest = [] ∧ s.frames = []) := by
  have hopen (s : State) (hr : Reached source s) (hs : s.rest = []) (hf : s.frames ≠ []) :
      ∃ e, s.frames.findSome? Frame.unclosed? = some e ∧ scan source = .error e := by
    obtain ⟨frame, below, hb⟩ := List.exists_cons_of_ne_nil hf
    have hn := nested_of_reached hr
    rw [hb] at hn
    obtain ⟨e, he⟩ := hn.exists_unclosed
    rw [← hb] at he
    exact ⟨e, he, scan_eq_error hr hs he⟩
  refine ⟨fun s hr => ?_, hopen, ?_⟩
  · have hn := nested_of_reached hr
    exact ⟨hn, stepWith_of_nested hn, fun m hs hm =>
      restacked_of_turn hn (State.turn_of_step hs hm)⟩
  · constructor
    · rintro ⟨segments, h⟩
      obtain ⟨trace, s, hrun, hs, hu, -⟩ := scan_eq_ok_iff.1 h
      by_cases hf : s.frames = []
      · exact ⟨s, ⟨trace, hrun⟩, hs, hf⟩
      · obtain ⟨e, he, -⟩ := hopen s ⟨trace, hrun⟩ hs hf
        rw [hu] at he
        cases he
    · rintro ⟨s, ⟨trace, hrun⟩, hs, hf⟩
      exact ⟨_, scan_eq_ok_iff.2 ⟨trace, s, hrun, hs, by rw [hf]; rfl, rfl⟩⟩

end Scan

end AtTemplate
