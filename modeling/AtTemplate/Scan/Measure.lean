import AtTemplate.Scan.Turn

/-!
# AtTemplate.Scan.Measure

Why a scan comes to an end.  A step may stay where it is: code gives way to markup before an angle
bracket, and markup gives way to code before a closing brace.  `State.measure` falls all the same
(`measure_lt_of_step`): it counts four for every character ahead, one for every frame, and two more
before an angle bracket that markup has not taken over yet.
-/

namespace AtTemplate.Scan

open Code Text
open AtTemplate.Markup

namespace State

variable {s : State} {m : Move}

/-! ## how far a step leads -/

theorem length_frames_yieldToCode_le (s : State) :
    s.yieldToCode.frames.length ≤ s.frames.length := by
  unfold yieldToCode
  split
  · next h => split <;> simp [h]
  · exact Nat.le_refl _

@[simp] theorem cursor_openMarkup (s : State) :
    s.openMarkup.state.cursor = s.cursor.advance 1 := by
  unfold openMarkup
  split
  · simp
  · split <;> simp

/-- A step leads to a place ahead. -/
theorem reaches_of_turn (h : s.Turn m) : s.cursor.Reaches m.state.cursor := by
  cases h with
  | doubled | plain | lineEscape | comment | closeNothing | closeInnermost | copy | token
    | lastToken | endLine | openText | closeText | openingTag | openValue | endTag
    | endSelfClosing | closeValue | loseTag => exact Cursor.reaches_advance _ _
  | enterMarkup | leaveMarkup | loseWhole => exact Cursor.Reaches.refl _
  | explicit _ hc =>
    exact ((Cursor.reaches_advance _ _).trans (reaches_of_findClosing hc).1).trans
      (Cursor.reaches_advance _ _)
  | implicit _ hc =>
    exact ((Cursor.reaches_advance _ _).trans (Cursor.reaches_advance _ _)).trans
      (reaches_of_chainEnd hc)
  | clause _ hb =>
    have := reaches_enterClause hb
    rw [cursor_skip, cursor_yieldToCode] at this
    exact (Cursor.reaches_advance _ _).trans this
  | openBlock =>
    simp only [openBlock, cursor_push, cursor_skip, cursor_yieldToCode]
    exact Cursor.reaches_advance _ _
  | openMarkup =>
    rw [cursor_openMarkup, cursor_yieldToCode]
    exact Cursor.reaches_advance _ _
  | nextClause _ _ _ _ _ _ _ _ hb =>
    exact ((Cursor.reaches_advance _ _).trans (Cursor.reaches_advance _ _)).trans
      (reaches_enterClause hb)
  | closingTag _ _ _ _ he =>
    rw [he]
    exact (Cursor.reaches_advance _ _).trans (Cursor.reaches_advance _ _)

/-- No step leads more than one frame deeper. -/
theorem length_frames_le_of_turn (h : s.Turn m) :
    m.state.frames.length ≤ s.frames.length + 1 := by
  have hy := length_frames_yieldToCode_le s
  cases h with
  | doubled | plain | lineEscape | comment | closeNothing | copy | explicit | implicit =>
    exact Nat.le_succ _
  | clause | openBlock => exact Nat.succ_le_succ hy
  | openMarkup =>
    unfold openMarkup
    split
    · exact Nat.succ_le_succ hy
    · split <;> exact Nat.le_succ_of_le hy
  | closeInnermost _ hf =>
    rw [(FrameStack.splitAtBlock?_eq_some hf).1]
    simp
    omega
  | enterMarkup | openingTag | openValue => exact Nat.le_refl _
  | token hf | openText hf | closeText hf | endTag hf | endSelfClosing hf | closingTag hf
    | nextClause hf => simp [hf, outOf]
  | lastToken hf | endLine hf | leaveMarkup hf | closeValue hf | loseTag hf | loseWhole hf =>
    simp [hf, outOf, endLine]
    omega

/-! ## the measure -/

/-- A change of frames only: markup takes over before an angle bracket, or a frame is left that is
not markup before an angle bracket. -/
def Stays (s : State) (m : Move) : Prop :=
  m.written = [] ∧ m.state.cursor = s.cursor ∧
    ((∃ markup, m.state.frames = .markup markup :: s.frames) ∧ s.rest.head? = some '<' ∧
        s.inMarkup = false ∨
      ∃ frame, s.frames = frame :: m.state.frames ∧
        (frame.isMarkup = false ∨ s.rest.head? ≠ some '<'))

/-- A step stays where it is only to change the frames. -/
theorem lt_or_stays_of_turn (hs : s.rest ≠ []) (h : s.Turn m) :
    m.state.rest.length < s.rest.length ∨ s.Stays m := by
  have hpos := List.length_pos_iff.2 hs
  have hskip {n : Nat} (hn : 0 < n) : (s.cursor.advance n).rest.length < s.rest.length := by
    rw [Cursor.rest_advance, List.length_drop]
    exact Nat.sub_lt hpos hn
  -- what lies ahead of a place behind the cursor is shorter still
  have hfar {n : Nat} {d : Cursor} (hn : 0 < n) (hd : (s.cursor.advance n).Reaches d) :
      d.rest.length < s.rest.length := Nat.lt_of_le_of_lt hd.length_le (hskip hn)
  cases h with
  | doubled | closeNothing | closeInnermost | openText | closeText | endSelfClosing =>
    exact .inl (hskip (by decide))
  | plain | openValue | endTag | closeValue => exact .inl (hskip (by decide))
  | lineEscape | comment => exact .inl (hskip (by omega))
  | copy hn => exact .inl (hskip hn)
  | explicit _ hc =>
    exact .inl (hfar (by decide) ((reaches_of_findClosing hc).1.trans (Cursor.reaches_advance _ _)))
  | implicit _ hc =>
    exact .inl (hfar (by decide) ((Cursor.reaches_advance _ _).trans (reaches_of_chainEnd hc)))
  | clause _ hb =>
    have := reaches_enterClause hb
    rw [cursor_skip, cursor_yieldToCode] at this
    exact .inl (hfar (by decide) this)
  | openBlock =>
    refine .inl ?_
    simp only [openBlock, rest_push, rest_skip, rest_yieldToCode, List.length_drop]
    omega
  | openMarkup =>
    refine .inl ?_
    simp only [rest, cursor_openMarkup, cursor_yieldToCode]
    exact hskip (by decide)
  | enterMarkup hf hp hm =>
    exact .inr ⟨rfl, rfl, .inl ⟨⟨_, rfl⟩, head?_of_startsMarkup hm, by
      simp [inMarkup_eq, hf, Frame.isMarkup]⟩⟩
  | token _ hr | lastToken _ hr =>
    exact .inl (hskip (List.length_pos_iff.2 (Reading.ne_nil_of_read hr)))
  | nextClause _ hr _ _ _ _ _ _ hb =>
    exact .inl (hfar (List.length_pos_iff.2 (Reading.ne_nil_of_read hr))
      ((Cursor.reaches_advance _ _).trans (reaches_enterClause hb)))
  | endLine => exact .inl (hskip (by omega))
  | leaveMarkup hf _ hc => exact .inr ⟨rfl, rfl, .inr ⟨_, hf, .inr (by simp [hc])⟩⟩
  | closingTag _ _ _ _ he =>
    rw [he]
    exact .inl (hfar (n := 2 + (closingName s.rest).length) (by omega) (Cursor.reaches_advance _ _))
  | openingTag => exact .inl (hskip (by omega))
  | loseTag _ _ hn => exact .inl (hskip hn)
  | @loseWhole frame _ hf hw =>
    refine .inr ⟨rfl, rfl, .inr ⟨_, hf, .inl ?_⟩⟩
    cases frame <;> simp_all [Frame.isWhole, Frame.isMarkup]

/-- What every step makes smaller. -/
def measure (s : State) : Nat :=
  4 * s.rest.length + s.frames.length + if s.rest.head? = some '<' ∧ !s.inMarkup then 2 else 0

/-- Every step before the end of the source makes the measure smaller. -/
theorem measure_lt_of_step (hs : s.rest ≠ []) (h : s.step = .ok m) :
    m.state.measure < s.measure := by
  have ht := turn_of_step hs h
  have hl := length_frames_le_of_turn ht
  obtain hr | ⟨-, hc, ⟨⟨markup, hf⟩, hlt, hm⟩ | ⟨frame, hf, hlt⟩⟩ := lt_or_stays_of_turn hs ht
  · unfold measure
    split <;> split <;> omega
  · have hrest : m.state.rest = s.rest := by simp only [rest, hc]
    have hin : m.state.inMarkup = true := by simp [inMarkup_eq, hf, Frame.isMarkup]
    simp only [measure, hrest, hf, hin, hlt, hm, List.length_cons]
    simp
    omega
  · have hrest : m.state.rest = s.rest := by simp only [rest, hc]
    have hin : s.inMarkup = frame.isMarkup := by simp [inMarkup_eq, hf]
    simp only [measure, hrest, hf, hin, List.length_cons]
    obtain hlt | hlt := hlt
    · rw [hlt]
      split <;> split <;> simp_all
      omega
    · simp [hlt]

end State

end AtTemplate.Scan
