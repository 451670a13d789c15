import AtTemplate.Scan

/-!
# AtTemplate.Proofs.Run

The runs of a scan, step by step.  `State.run` computes where a scan ends; a run records the
steps on the way, so that what holds of every step can be carried to every state that a scan
comes to.

* `run_eq_of_run` — a scan goes on from the end of each of its runs;
* `run_eq_map` — what a scan writes does not depend on what is written before it;
* `scan_eq_ok_iff` — a template is accepted when a run leads to its end and nothing is left open;
* `scan_eq_error_iff` — and is refused for what fails at one of the states on the way;
* `Run.preserves` — what every step preserves, every run preserves.
-/

namespace AtTemplate.Scan

/-- A step of a run: the state that it starts from and the move that it makes. -/
structure Transition where
  before : State
  move : Move

namespace Transition

/-- The state that a step leads to. -/
def after (t : Transition) : State :=
  t.move.state

/-- The pieces that a step writes. -/
def written (t : Transition) : List Piece :=
  t.move.written

end Transition

/-- The pieces that the steps of a run write, in order. -/
def written (trace : List Transition) : List Piece :=
  trace.flatMap Transition.written

@[simp] theorem written_nil : written [] = [] := rfl

@[simp] theorem written_cons (t : Transition) (trace : List Transition) :
    written (t :: trace) = t.written ++ written trace := rfl

@[simp] theorem written_append (xs ys : List Transition) :
    written (xs ++ ys) = written xs ++ written ys :=
  List.flatMap_append

/-- Steps that lead from one state to another.  A scan takes a step only before the end of the
source. -/
inductive Run : State → List Transition → State → Prop
  | nil (s : State) : Run s [] s
  | cons {s t : State} {m : Move} {trace : List Transition} (hs : s.rest ≠ [])
      (hm : s.step = .ok m) (h : Run m.state trace t) : Run s (⟨s, m⟩ :: trace) t

/-- A state that the scan of a template comes to. -/
def Reached (source : String) (s : State) : Prop :=
  ∃ trace, Run (.start source.toList) trace s

/-- Two states with the same text on either side and the same frames are the same. -/
theorem State.eq_of_before_rest_frames {s t : State} (hb : s.cursor.before = t.cursor.before)
    (hr : s.rest = t.rest) (hf : s.frames = t.frames) : s = t := by
  obtain ⟨c, ⟨frames⟩⟩ := s
  obtain ⟨d, ⟨frames'⟩⟩ := t
  obtain rfl : c = d := Cursor.eq_of_before_rest hb hr
  obtain rfl : frames = frames' := hf
  rfl

namespace Run

variable {s t u : State} {xs ys trace : List Transition}

theorem append (h : Run s xs t) (h' : Run t ys u) : Run s (xs ++ ys) u := by
  induction h with
  | nil => exact h'
  | cons hs hm _ ih => exact .cons hs hm (ih h')

theorem snoc {m : Move} (h : Run s xs t) (ht : t.rest ≠ []) (hm : t.step = .ok m) :
    Run s (xs ++ [⟨t, m⟩]) m.state :=
  h.append (.cons ht hm (.nil m.state))

/-- A run leads ahead. -/
theorem reaches (h : Run s trace t) : s.cursor.Reaches t.cursor := by
  induction h with
  | nil => exact .refl _
  | cons hs hm _ ih => exact (State.reaches_of_turn (State.turn_of_step hs hm)).trans ih

/-- A run changes no text. -/
theorem source_eq (h : Run s trace t) : t.cursor.source = s.cursor.source :=
  h.reaches.source_eq

/-- Every step of a run starts from a state that the run comes to. -/
theorem of_mem {x : Transition} (h : Run s trace t) (hx : x ∈ trace) :
    ∃ xs ys, trace = xs ++ x :: ys ∧ Run s xs x.before ∧ x.before.rest ≠ [] ∧
      x.before.step = .ok x.move ∧ Run x.after ys t := by
  induction h with
  | nil => cases hx
  | @cons s t m trace hs hm h ih =>
    rcases List.mem_cons.1 hx with rfl | hx
    · exact ⟨[], trace, rfl, .nil _, hs, hm, h⟩
    · obtain ⟨xs, ys, rfl, hxs, hx⟩ := ih hx
      exact ⟨⟨s, m⟩ :: xs, ys, rfl, .cons hs hm hxs, hx⟩

/-- A run to the end of the source goes through every state that the scan comes to. -/
theorem mem_of_run (h : Run s trace t) (hend : t.rest = []) (h' : Run s xs u) (hu : u.rest ≠ []) :
    ∃ m, ⟨u, m⟩ ∈ trace := by
  induction h' generalizing trace with
  | nil =>
    cases h with
    | nil => exact absurd hend hu
    | cons hs hm h => exact ⟨_, List.mem_cons_self⟩
  | cons hs hm h' ih =>
    cases h with
    | nil => exact absurd hend hs
    | cons hs' hm' h =>
      rw [hm] at hm'
      cases hm'
      obtain ⟨m, hmem⟩ := ih h hu
      exact ⟨m, List.mem_cons_of_mem _ hmem⟩

/-- **What every step preserves, every run preserves.** -/
theorem preserves {P : State → Prop}
    (hstep : ∀ s m, P s → s.rest ≠ [] → s.Turn m → P m.state)
    (h : Run s trace t) (hP : P s) : P t := by
  induction h with
  | nil => exact hP
  | cons hs hm _ ih => exact ih (hstep _ _ hP hs (State.turn_of_step hs hm))

/-- What holds before the first step of a run, and what every step keeps of the run so far, holds of
the whole run. -/
theorem snoc_induction {P : List Transition → State → Prop} (h : Run s trace t) (hnil : P [] s)
    (hsnoc : ∀ xs u m, Run s xs u → P xs u → u.rest ≠ [] → u.step = .ok m →
      P (xs ++ [⟨u, m⟩]) m.state) : P trace t := by
  have hgo {u v : State} {ys : List Transition} (hrun : Run u ys v) :
      ∀ xs, Run s xs u → P xs u → P (xs ++ ys) v := by
    induction hrun with
    | nil u => exact fun xs _ hP => (List.append_nil xs).symm ▸ hP
    | @cons u v m ys hs hm _ ih =>
      intro xs hxs hP
      have hnext := ih (xs ++ [⟨u, m⟩]) (hxs.snoc hs hm) (hsnoc xs u m hxs hP hs hm)
      rwa [List.append_assoc] at hnext
  exact hgo h [] (.nil s) hnil

end Run

/-- All states of a scan stand in its source. -/
theorem Reached.source_eq {source : String} {s : State} (h : Reached source s) :
    s.cursor.source = source.toList := by
  obtain ⟨trace, hrun⟩ := h
  exact hrun.source_eq

/-! ## runs and scans -/

/-- A scan goes on from the end of each of its runs. -/
theorem run_eq_of_run {s t : State} {trace : List Transition} (h : Run s trace t)
    (w : Segments) : s.run w = t.run (w.addAll ((written trace).map Piece.segment)) := by
  induction h generalizing w with
  | nil => rfl
  | @cons s t m trace hs hm _ ih =>
    obtain ⟨c, rest, hr⟩ := List.exists_cons_of_ne_nil hs
    have hrun : s.run w = m.state.run (w.addAll (m.written.map Piece.segment)) := by
      rw [State.run]
      split
      · next h0 => exact absurd h0 hs
      · split
        · next he => rw [hm] at he; cases he
        · next m' hm' => rw [hm] at hm'; cases hm'; rfl
    rw [hrun, ih, written_cons, List.map_append, Segments.addAll_append]
    rfl

/-- A scan goes on from where its next step leads. -/
theorem run_of_step {s : State} {m : Move} (hs : s.rest ≠ []) (hm : s.step = .ok m)
    (w : Segments) : s.run w = m.state.run (w.addAll (m.written.map Piece.segment)) := by
  rw [run_eq_of_run (.cons hs hm (.nil m.state)), written_cons, written_nil, List.append_nil]
  rfl

/-- A scan ends where its next step fails. -/
theorem run_of_step_error {s : State} {e : TemplateError} (hs : s.rest ≠ [])
    (he : s.step = .error e) (w : Segments) : s.run w = .error e := by
  rw [State.run]
  split
  · next h => exact absurd h hs
  · split
    · next h => rw [he] at h; cases h; rfl
    · next h => rw [he] at h; cases h

/-- At the end of the source a scan looks for what is left open. -/
theorem run_of_rest_eq_nil {s : State} (hs : s.rest = []) (w : Segments) :
    s.run w = match s.frames.findSome? Frame.unclosed? with
      | some e => .error e
      | none => .ok w := by
  rw [State.run]
  split
  · rfl
  · next h => rw [hs] at h; cases h

/-- What is written before a scan begins stays in front of what the scan writes. -/
theorem run_addAll_toList (s : State) (w v : Segments) :
    s.run (w.addAll v.toList) = (s.run v).map fun u => w.addAll u.toList := by
  fun_induction State.run s v with
  | case1 s v hs e hu => rw [run_of_rest_eq_nil hs, hu]; rfl
  | case2 s v hs hu => rw [run_of_rest_eq_nil hs, hu]; rfl
  | case3 s v c rest hs e he => rw [run_of_step_error (by simp [hs]) he]; rfl
  | case4 s v c rest hs m hm ih =>
    rw [run_of_step (by simp [hs]) hm, ← Segments.addAll_toList_addAll, ih]

theorem run_eq_map (s : State) (w : Segments) :
    s.run w = (s.run .empty).map fun u => w.addAll u.toList :=
  run_addAll_toList s w .empty

theorem scan_eq_map (source : String) :
    scan source = ((State.start source.toList).run .empty).map Segments.toList := by
  unfold scan
  cases (State.start source.toList).run .empty <;> rfl

/-- A scan ends well where one of its runs does. -/
theorem run_eq_ok_iff {s : State} {w v : Segments} :
    s.run w = .ok v ↔ ∃ trace t, Run s trace t ∧ t.rest = [] ∧
      t.frames.findSome? Frame.unclosed? = none ∧
      v = w.addAll ((written trace).map Piece.segment) := by
  constructor
  · intro h
    fun_induction State.run s w with
    | case1 => cases h
    | case2 s w hs hu =>
      cases h
      exact ⟨[], s, .nil s, hs, hu, rfl⟩
    | case3 => cases h
    | case4 s w c rest hs m hm ih =>
      obtain ⟨trace, t, hrun, ht, hu, rfl⟩ := ih h
      refine ⟨⟨s, m⟩ :: trace, t, .cons (by simp [hs]) hm hrun, ht, hu, ?_⟩
      rw [written_cons, List.map_append, Segments.addAll_append]
      rfl
  · rintro ⟨trace, t, hrun, ht, hu, rfl⟩
    rw [run_eq_of_run hrun, run_of_rest_eq_nil ht, hu]

/-- What a scan fails for where it ends: something is left open at the end of the source, or the
next step fails. -/
def State.Fails (s : State) (e : TemplateError) : Prop :=
  (s.rest = [] ∧ s.frames.findSome? Frame.unclosed? = some e) ∨ (s.rest ≠ [] ∧ s.step = .error e)

/-- A scan fails where one of its runs does. -/
theorem run_eq_error_iff {s : State} {w : Segments} {e : TemplateError} :
    s.run w = .error e ↔ ∃ trace t, Run s trace t ∧ t.Fails e := by
  constructor
  · intro h
    fun_induction State.run s w with
    | case1 s w hs e' he =>
      cases h
      exact ⟨[], s, .nil s, .inl ⟨hs, he⟩⟩
    | case2 => cases h
    | case3 s w c rest hs e' he =>
      cases h
      exact ⟨[], s, .nil s, .inr ⟨by simp [hs], he⟩⟩
    | case4 s w c rest hs m hm ih =>
      obtain ⟨trace, t, hrun, ht⟩ := ih h
      exact ⟨⟨s, m⟩ :: trace, t, .cons (by simp [hs]) hm hrun, ht⟩
  · rintro ⟨trace, t, hrun, ⟨ht, he⟩ | ⟨ht, he⟩⟩
    · rw [run_eq_of_run hrun, run_of_rest_eq_nil ht, he]
    · rw [run_eq_of_run hrun, run_of_step_error ht he]

/-- **A template is accepted when a run leads to its end and nothing is left open there.**  Its
segments are then the pieces that the run writes, joined. -/
theorem scan_eq_ok_iff {source : String} {segments : List Segment} :
    scan source = .ok segments ↔ ∃ trace t, Run (.start source.toList) trace t ∧ t.rest = [] ∧
      t.frames.findSome? Frame.unclosed? = none ∧
      segments = Segments.ofPieces ((written trace).map Piece.segment) := by
  unfold scan
  constructor
  · intro h
    split at h
    · cases h
    · next v hv =>
      cases h
      obtain ⟨trace, t, hrun, ht, hu, rfl⟩ := run_eq_ok_iff.1 hv
      exact ⟨trace, t, hrun, ht, hu, rfl⟩
  · rintro ⟨trace, t, hrun, ht, hu, rfl⟩
    rw [run_eq_ok_iff.2 ⟨trace, t, hrun, ht, hu, rfl⟩]
    rfl

/-- **A template is refused for what fails at one of the states that its scan comes to.** -/
theorem scan_eq_error_iff {source : String} {e : TemplateError} :
    scan source = .error e ↔ ∃ s, Reached source s ∧ s.Fails e := by
  have hscan : scan source = .error e ↔ (State.start source.toList).run .empty = .error e := by
    unfold scan
    cases (State.start source.toList).run .empty <;> simp
  rw [hscan, run_eq_error_iff]
  constructor
  · rintro ⟨trace, s, hrun, hs⟩
    exact ⟨s, ⟨trace, hrun⟩, hs⟩
  · rintro ⟨s, ⟨trace, hrun⟩, hs⟩
    exact ⟨trace, s, hrun, hs⟩

/-- A run to the end of the source at which something is left open ends the scan with an error. -/
theorem scan_eq_error {source : String} {s : State} {e : TemplateError} (h : Reached source s)
    (hs : s.rest = []) (he : s.frames.findSome? Frame.unclosed? = some e) :
    scan source = .error e :=
  scan_eq_error_iff.2 ⟨s, h, .inl ⟨hs, he⟩⟩

/-- A run to a step that fails ends the scan with its error. -/
theorem scan_eq_error_of_step {source : String} {s : State} {e : TemplateError}
    (h : Reached source s) (hs : s.rest ≠ []) (he : s.step = .error e) :
    scan source = .error e :=
  scan_eq_error_iff.2 ⟨s, h, .inr ⟨hs, he⟩⟩

/-- In a block a quotation without an end is reported, and a comment without an end as one. -/
theorem scan_of_read_unclosed {source : String} {s : State} {block : BlockFrame}
    {below : List Frame} (h : Reached source s) (hf : s.frames = .block block :: below)
    (hr : Code.read s.rest = .unclosed) :
    scan source = .error (.unclosed .quotation (s.cursor.span 1)) := by
  refine scan_eq_error_of_step h ?_ ?_
  · intro hs
    rw [hs] at hr
    cases hr
  · simp only [State.step, State.stepWith, hf, State.stepBlock, hr]

end AtTemplate.Scan
