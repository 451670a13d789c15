import AtTemplate.Proofs.Faults

/-!
# AtTemplate.Proofs.Places

Where the frames of a scan were opened.  Everything that a frame remembers of the source has been
read, but for the angle bracket at which markup has just been opened.  So a place is opened once at
most, and what is reported of a frame lies behind the cursor.

* `past_of_turn` — a step leaves behind it what frames remember before it;
* `openings_of_turn` — what frames newly remember begins where the step does;
* `past_of_reached` — at every state of a scan, what frames remember has been read;
* `exists_span_of_run` — what is reported lies ahead, or it was open before.
-/

namespace AtTemplate.Scan

open Code Text
open AtTemplate.Markup

variable {s : State} {m : Move} {span : Span}

/-- The stretch lies before the cursor, or it is the angle bracket ahead at which markup has just
been opened. -/
structure State.Past (s : State) (span : Span) : Prop where
  start_le : span.start ≤ span.stop
  stop_le : span.stop ≤ s.cursor.offset ∨
    span.stop = s.cursor.offset + 1 ∧ s.inMarkup = true ∧ s.rest.head? = some '<'

/-- What has been read is past. -/
theorem State.Past.of_le (hle : span.start ≤ span.stop) (h : span.stop ≤ s.cursor.offset) :
    s.Past span :=
  ⟨hle, .inl h⟩

/-- Before anything but an angle bracket, what is past has been read. -/
theorem State.Past.le (h : s.Past span) (hs : s.rest.head? ≠ some '<') :
    span.stop ≤ s.cursor.offset :=
  h.stop_le.resolve_right fun hopen => hs hopen.2.2

/-- **A step leaves behind it what is past.** -/
theorem past_of_turn (hn : Nested s.frames) (hs : s.rest ≠ []) (ht : s.Turn m)
    (h : s.Past span) : span.stop ≤ m.state.cursor.offset := by
  have hreach := State.reaches_of_turn ht
  obtain hlt | hst := State.lt_or_stays_of_turn hs ht
  · have hoffset := hreach.offset_lt_iff.2 hlt
    obtain hstop | ⟨hstop, -⟩ := h.stop_le <;> omega
  · -- the step stays where it is, so nothing has just been opened there
    rw [hst.2.1]
    obtain hstop | ⟨-, hm, hhead⟩ := h.stop_le
    · exact hstop
    · obtain ⟨block, below, hf, -⟩ | ⟨hbrace, -⟩ := enters_or_leaves_of_stays hn hs ht hst
      · simp [State.inMarkup_eq, hf, Frame.isMarkup] at hm
      · rw [hhead] at hbrace
        cases hbrace

/-! ## what a step opens -/

/-- The keyword of a clause lies before the body. -/
theorem offset_lt_enterClause {keyword : Keyword} {brace : Cursor}
    (h : s.clauseBody keyword = .ok brace) :
    s.cursor.offset < (s.enterClause keyword brace).state.cursor.offset := by
  obtain ⟨rest, hr⟩ := rest_of_standsAt (x := '{') rfl (State.reaches_of_clauseBody h).2
  have hbody := (Cursor.reaches_advance 1 brace).offset_lt_iff.2 (by simp [hr])
  have hbrace := ((Cursor.reaches_advance _ _).trans (State.reaches_of_clauseBody h).1).offset_le
  rw [State.cursor_enterClause]
  omega

/-- A closing tag that is not refused has the name of the innermost element, which it ends. -/
theorem eq_cons_of_close {o elements : OpenElements} {name : String}
    {element : Element} (h : o.close name span = (.ok element, elements)) :
    o.elements = element :: elements.elements ∧ name = element.name := by
  unfold OpenElements.close at h
  split at h
  · cases h
  · next he =>
    split at h <;> cases h
    next hname => exact ⟨he, hname.symm⟩

/-- Markup that has just been opened before an angle bracket is past. -/
theorem past_opened {markup : MarkupFrame} {below : List Frame} {openedAt : Nat}
    (hf : s.frames = .markup markup :: below) (hs : s.rest.head? = some '<')
    (ho : s.cursor.offset = openedAt) : s.Past (.ofLength openedAt 1) :=
  ⟨Nat.le_succ _, .inr ⟨by rw [ho]; rfl, by simp [State.inMarkup_eq, hf, Frame.isMarkup], hs⟩⟩

theorem openings_yieldToCode (h : span ∈ openings s.yieldToCode.frames) :
    span ∈ openings s.frames := by
  obtain ⟨frame, hmem, hspan⟩ := List.mem_flatMap.1 h
  exact List.mem_flatMap.2 ⟨frame, State.mem_of_mem_yieldToCode hmem, hspan⟩

/-- A clause opens its block at its keyword. -/
theorem openings_enterClause {t : State} {keyword : Keyword} {brace : Cursor}
    (hreach : s.cursor.Reaches t.cursor) (hb : t.clauseBody keyword = .ok brace)
    (h : span ∈ openings (t.enterClause keyword brace).state.frames) :
    span ∈ openings t.frames ∨
      s.cursor.offset ≤ span.start ∧ (t.enterClause keyword brace).state.Past span := by
  rw [State.frames_enterClause, openings_cons] at h
  obtain h | h := List.mem_append.1 h
  · obtain rfl := List.mem_singleton.1 h
    exact .inr ⟨hreach.offset_le, .of_le (Nat.le_succ _) (offset_lt_enterClause hb)⟩
  · exact .inl h

/-- An at sign opens markup at the angle bracket behind it. -/
theorem openings_openMarkup {rest : List Char} (hr : s.rest = '@' :: '<' :: rest)
    (h : span ∈ openings s.openMarkup.state.frames) :
    span ∈ openings s.frames ∨
      s.cursor.offset ≤ span.start ∧ s.openMarkup.state.Past span := by
  unfold State.openMarkup at h ⊢
  split at h
  · next hb =>
    rw [if_pos hb]
    obtain h | h := List.mem_append.1 h
    · obtain rfl := List.mem_singleton.1 h
      refine .inr ⟨Nat.le_succ _, past_opened rfl (by simp [hr]) ?_⟩
      simp [show s.cursor.rest = _ from hr, MarkupFrame.opened]
      rfl
    · exact .inl h
  · split at h <;> exact .inl h

/-- **What frames newly remember begins where the step does, and is past.** -/
theorem openings_of_turn (ht : s.Turn m) (h : span ∈ openings m.state.frames) :
    span ∈ openings s.frames ∨ s.cursor.offset ≤ span.start ∧ m.state.Past span := by
  have hskip (n : Nat) (hn : n ≤ s.rest.length) :
      s.cursor.offset + n ≤ (s.cursor.advance n).offset := by
    have hbytes := length_le_byteLength (s.rest.take n)
    rw [List.length_take, Nat.min_eq_left hn] at hbytes
    rw [Cursor.offset_advance]
    exact Nat.add_le_add_left hbytes _
  cases ht with
  | doubled | plain | lineEscape | comment | closeNothing | copy | explicit | implicit =>
    exact .inl h
  | clause _ hb =>
    have hreach : s.cursor.Reaches (s.yieldToCode.skip 1).cursor := by
      rw [State.cursor_skip, State.cursor_yieldToCode]
      exact Cursor.reaches_advance _ _
    exact (openings_enterClause hreach hb h).imp_left openings_yieldToCode
  | openBlock hd =>
    obtain ⟨rest, hr⟩ := rest_of_introduces hd rfl
    obtain h | h := List.mem_append.1 h
    · obtain rfl := List.mem_singleton.1 h
      have hlt : s.cursor.offset + 1 ≤ (s.cursor.advance 2).offset :=
        Nat.le_of_succ_le (hskip 2 (by simp [hr]))
      rw [BlockFrame.opened, State.cursor_yieldToCode]
      refine .inr ⟨Nat.le_refl _, .of_le (Nat.le_succ _) ?_⟩
      simpa [State.openBlock, Span.ofLength] using hlt
    · exact .inl (openings_yieldToCode h)
  | openMarkup hd =>
    obtain ⟨rest, hr⟩ := rest_of_introduces hd rfl
    rw [← State.rest_yieldToCode] at hr
    rw [← State.cursor_yieldToCode]
    exact (openings_openMarkup hr h).imp_left openings_yieldToCode
  | enterMarkup hf _ hm =>
    obtain h | h := List.mem_append.1 h
    · obtain rfl := List.mem_singleton.1 h
      exact .inr ⟨Nat.le_refl _, past_opened rfl (head?_of_startsMarkup hm) rfl⟩
    · exact .inl h
  | closeInnermost _ hf =>
    rw [(FrameStack.splitAtBlock?_eq_some hf).1, openings_append, openings_cons]
    exact .inl (List.mem_append_right _ (List.mem_append_right _ h))
  | lastToken hf | endLine hf | leaveMarkup hf | closeValue hf | loseTag hf | loseWhole hf
    | endSelfClosing hf =>
    rw [hf, openings_cons]
    exact .inl (List.mem_append_right _ h)
  | token hf | openText hf | closeText hf =>
    rw [hf]
    exact .inl h
  | @nextClause block below kind text rest keyword next brace hf _ _ _ _ _ _ _ hb =>
    rw [hf, openings_cons]
    have hreach : s.cursor.Reaches (s.outOf text below).skipBlanks.cursor :=
      (Cursor.reaches_advance _ _).trans (Cursor.reaches_advance _ _)
    exact (openings_enterClause hreach hb h).imp_left (List.mem_append_right _)
  | closingTag hf _ _ _ _ hc =>
    rw [hf]
    simp only [State.frames_mk, openings_cons, Frame.openings, (eq_cons_of_close hc).1,
      List.map_cons, List.cons_append, List.mem_cons] at h ⊢
    exact .inl (h.imp_right .inr)
  | openingTag =>
    obtain h | h := List.mem_append.1 h
    · obtain rfl := List.mem_singleton.1 h
      have hreach := Cursor.reaches_advance (1 + (openingName s.rest).length) s.cursor
      exact .inr ⟨Nat.le_refl _, .of_le hreach.offset_le (Nat.le_refl _)⟩
    · exact .inl h
  | openValue _ hs =>
    obtain ⟨rest, hr⟩ := List.head?_eq_some_iff.1 hs
    obtain h | h := List.mem_append.1 h
    · obtain rfl := List.mem_singleton.1 h
      exact .inr ⟨Nat.le_refl _, .of_le (Nat.le_succ _) (hskip 1 (by simp [hr]))⟩
    · exact .inl h
  | endTag hf =>
    rw [hf]
    simp only [State.frames_within, openings_cons, Frame.openings, OpenElements.openElement,
      List.map_cons, List.cons_append, List.nil_append, List.mem_cons] at h ⊢
    tauto

/-! ## every state of a scan -/

/-- **What holds at the start, and what every step of a scan preserves, holds at every state that
the scan comes to.** -/
theorem Reached.preserves {source : String} {P : State → Prop} (h : Reached source s)
    (hstart : P (.start source.toList))
    (hstep : ∀ s m, Reached source s → P s → s.rest ≠ [] → s.step = .ok m → P m.state) : P s := by
  obtain ⟨trace, hrun⟩ := h
  exact hrun.snoc_induction (P := fun _ s => P s) hstart
    fun xs s m hxs hP hs hm => hstep s m ⟨xs, hxs⟩ hP hs hm

/-- **What frames remember has been read.** -/
theorem past_of_reached {source : String} (h : Reached source s) :
    ∀ span ∈ openings s.frames, s.Past span := by
  refine h.preserves (P := fun s => ∀ span ∈ openings s.frames, s.Past span) nofun ?_
  intro s m hr hpast hs hm span hspan
  have ht := State.turn_of_step hs hm
  obtain hold | ⟨-, hnew⟩ := openings_of_turn ht hspan
  · have hle := past_of_turn (nested_of_reached hr) hs ht (hpast span hold)
    exact .of_le (hpast span hold).start_le hle
  · exact hnew

/-! ## where errors lie -/

/-- **What frames come to remember in a run begins where the run does, or behind.** -/
theorem openings_of_run {t : State} {trace : List Transition} (h : Run s trace t)
    (hspan : span ∈ openings t.frames) :
    span ∈ openings s.frames ∨ s.cursor.offset ≤ span.start ∧ span.start ≤ span.stop := by
  induction h with
  | nil => exact .inl hspan
  | cons hs hm _ ih =>
    have hturn := State.turn_of_step hs hm
    obtain hopen | ⟨hstart, hle⟩ := ih hspan
    · obtain hold | ⟨hnew, hpast⟩ := openings_of_turn hturn hopen
      · exact .inl hold
      · exact .inr ⟨hnew, hpast.start_le⟩
    · exact .inr ⟨Nat.le_trans (State.reaches_of_turn hturn).offset_le hstart, hle⟩

/-- **The error of a scan lies ahead, or it is that something behind is still open.** -/
theorem exists_span_of_run {e : TemplateError} {w : Segments} (h : s.run w = .error e) :
    ∃ span, e.span? = some span ∧
      (span ∈ openings s.frames ∨ s.cursor.offset ≤ span.start ∧ span.start ≤ span.stop) := by
  obtain ⟨trace, t, hrun, ⟨-, he⟩ | ⟨-, he⟩⟩ := run_eq_error_iff.1 h
  · obtain ⟨span, hspan, hsome⟩ := exists_opening he
    exact ⟨span, hsome, openings_of_run hrun hspan⟩
  · obtain ⟨span, hsome, hstart, hle⟩ | ⟨span, hspan, hsome⟩ :=
      State.exists_span_of_fault (State.fault_of_step he)
    · exact ⟨span, hsome, .inr ⟨Nat.le_trans hrun.reaches.offset_le hstart, hle⟩⟩
    · exact ⟨span, hsome, openings_of_run hrun hspan⟩

end AtTemplate.Scan
