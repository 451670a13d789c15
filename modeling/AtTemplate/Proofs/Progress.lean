import AtTemplate.Proofs.Nesting

/-!
# AtTemplate.Proofs.Progress

How many steps a scan takes.  Only two kinds of step stay where they are: code gives way to markup
before an angle bracket, and markup gives way to code before a closing brace.  What stands ahead
keeps one from following the other, so every second step moves on at least.

* `enters_or_leaves_of_stays` — the steps that stay where they are;
* `lt_of_stays_of_turn` — the step after such a step moves on;
* `length_le_of_run` — the steps of a run, against the characters that it passes;
* `steps_of_scan` — a scan ends, after two steps for each byte of its source at most.
-/

namespace AtTemplate

open Text

namespace Cursor

variable {c d : Cursor}

theorem Reaches.offset_le (h : c.Reaches d) : c.offset ≤ d.offset := by
  obtain ⟨n, rfl⟩ := h
  rw [offset_advance]
  exact Nat.le_add_right _ _

/-- The offset grows exactly when there is less text left to read. -/
theorem Reaches.offset_lt_iff (h : c.Reaches d) :
    c.offset < d.offset ↔ d.rest.length < c.rest.length := by
  obtain ⟨n, rfl⟩ := h
  have hpos : c.offset < (c.advance n).offset ↔ c.rest.take n ≠ [] := by
    rw [offset_advance, ← byteLength_pos_iff]
    omega
  rw [hpos, ← List.length_pos_iff, List.length_take, rest_advance, List.length_drop]
  omega

end Cursor

namespace Scan

variable {s t : State} {m n : Move} {trace : List Transition}

/-! ## steps that stay where they are -/

/-- A step stays where it is only where code gives way to markup that begins there, or markup to
code before a closing brace. -/
theorem enters_or_leaves_of_stays (hn : Nested s.frames) (hs : s.rest ≠ []) (ht : s.Turn m)
    (h : s.Stays m) :
    (∃ block below, s.frames = .block block :: below ∧ block.balance.inParens = false ∧
      Markup.startsMarkup s.rest = true ∧
      m = ⟨[], s.push (.markup (.opened s.cursor.offset))⟩) ∨
    (s.rest.head? = some '}' ∧ ∃ markup, s.frames = .markup markup :: m.state.frames) := by
  obtain ⟨hw, hc, -⟩ := h
  have hmoved {k : Nat} (hk : 0 < k) : s.cursor.advance k ≠ s.cursor := by
    intro he
    have hlen := congrArg (·.rest.length) he
    have hpos : 0 < s.cursor.rest.length := List.length_pos_iff.2 hs
    simp only [Cursor.rest_advance, List.length_drop] at hlen
    omega
  cases ht with
  | enterMarkup hf hp hm => exact .inl ⟨_, _, hf, hp, hm, rfl⟩
  | leaveMarkup hf _ hhead => exact .inr ⟨hhead, _, hf⟩
  | loseWhole hf hwhole =>
    rw [hf] at hn
    rw [hn.isWhole_eq_false] at hwhole
    cases hwhole
  | comment => exact absurd hc (hmoved (by omega))
  | openText | closeText => exact absurd hc (hmoved (by decide))
  | openMarkup =>
    rw [State.cursor_openMarkup, State.cursor_yieldToCode] at hc
    exact absurd hc (hmoved (by decide))
  -- every other step writes something
  | _ => cases hw

/-- **The step after one that stays where it is moves on.** -/
theorem lt_of_stays_of_turn (hn : Nested s.frames) (hs : s.rest ≠ []) (ht : s.Turn m)
    (h : s.Stays m) (ht' : m.state.Turn n) : n.state.rest.length < m.state.rest.length := by
  have hrest : m.state.rest = s.rest := congrArg Cursor.rest h.2.1
  have hs' : m.state.rest ≠ [] := hrest ▸ hs
  obtain hlt | hst := State.lt_or_stays_of_turn hs' ht'
  · exact hlt
  · have hnext := enters_or_leaves_of_stays (nested_of_turn hn ht) hs' ht' hst
    rw [hrest] at hnext
    obtain ⟨_, _, -, -, hm, rfl⟩ | ⟨hbrace, markup, hf⟩ := enters_or_leaves_of_stays hn hs ht h
    · obtain ⟨block, below, hb, -⟩ | ⟨hbrace, -⟩ := hnext
      · cases hb
      · rw [Markup.head?_of_startsMarkup hm] at hbrace
        cases hbrace
    · obtain ⟨_, _, -, -, hm, -⟩ | ⟨-, markup', hf'⟩ := hnext
      · rw [Markup.head?_of_startsMarkup hm] at hbrace
        cases hbrace
      · rw [hf] at hn
        obtain ⟨block, outer, hb⟩ := hn.exists_block
        rw [hf'] at hb
        cases hb

/-! ## runs -/

/-- **The steps of a run.**  There are two at most for each character that the run passes, and one
more before its end, where the last step may have stayed.  Where the first step is one that moves on
there is one less. -/
theorem length_le_of_run (h : Run s trace t) (hn : Nested s.frames) :
    trace.length + 2 * t.rest.length ≤ 2 * s.rest.length + (if t.rest = [] then 0 else 1) ∧
    (s.rest ≠ [] → (∀ m, s.step = .ok m → m.state.rest.length < s.rest.length) →
      trace.length + 1 + 2 * t.rest.length ≤
        2 * s.rest.length + (if t.rest = [] then 0 else 1)) := by
  induction h with
  | nil s =>
    refine ⟨?_, fun hs _ => ?_⟩
    · simp
    · simp [hs]
      omega
  | @cons s t m trace hs hm h ih =>
    have hturn := State.turn_of_step hs hm
    obtain ⟨hle, hmoving⟩ := ih (nested_of_turn hn hturn)
    rw [List.length_cons]
    refine ⟨?_, fun _ hstep => ?_⟩
    · obtain hlt | hst := State.lt_or_stays_of_turn hs hturn
      · omega
      · have hrest : m.state.rest = s.rest := congrArg Cursor.rest hst.2.1
        have := hmoving (hrest ▸ hs) fun n hstep =>
          lt_of_stays_of_turn hn hs hturn hst (State.turn_of_step (hrest ▸ hs) hstep)
        rw [hrest] at this
        omega
    · have := hstep m hm
      omega

/-- From every state a run leads to the end of the source or to a step that fails. -/
theorem exists_run_to_end (s : State) :
    ∃ trace t, Run s trace t ∧ (t.rest = [] ∨ ∃ e, t.step = .error e) := by
  fun_induction State.run s .empty with
  | case1 s _ hs | case2 s _ hs => exact ⟨[], s, .nil s, .inl hs⟩
  | case3 s _ _ _ _ e he => exact ⟨[], s, .nil s, .inr ⟨e, he⟩⟩
  | case4 s _ c rest hs m hm ih =>
    obtain ⟨trace, t, hrun, hend⟩ := ih
    exact ⟨⟨s, m⟩ :: trace, t, .cons (by simp [hs]) hm hrun, hend⟩

/-- **How many steps a scan takes.**  No step leads back, and one that stays where it is has another
behind it, which moves on or fails.  So there are two steps at most for each byte of the source, the
step that fails counted as well; and a run does lead to the end of the source or to such a step. -/
theorem steps_of_scan (source : String) :
    (∀ s, Reached source s → s.rest ≠ [] → ∀ m, s.step = .ok m →
      s.cursor.offset ≤ m.state.cursor.offset ∧
      (m.state.cursor.offset = s.cursor.offset → m.state.rest ≠ [] ∧
        ∀ n, m.state.step = .ok n → m.state.cursor.offset < n.state.cursor.offset)) ∧
    (∀ trace s, Run (.start source.toList) trace s →
      trace.length ≤ 2 * source.utf8ByteSize ∧
      (s.rest ≠ [] → trace.length + 1 ≤ 2 * source.utf8ByteSize)) ∧
    ∃ trace s, Run (.start source.toList) trace s ∧ (s.rest = [] ∨ ∃ e, s.step = .error e) := by
  refine ⟨fun s hr hs m hm => ?_, fun trace s hrun => ?_, exists_run_to_end _⟩
  · have hn := nested_of_reached hr
    have hturn := State.turn_of_step hs hm
    have hreach := State.reaches_of_turn hturn
    refine ⟨hreach.offset_le, fun hoffset => ?_⟩
    have hnot : ¬ m.state.rest.length < s.rest.length := by
      have := hreach.offset_lt_iff
      simp only [State.rest]
      omega
    have hst := (State.lt_or_stays_of_turn hs hturn).resolve_left hnot
    have hs' : m.state.rest ≠ [] := by
      rw [show m.state.rest = s.rest from congrArg Cursor.rest hst.2.1]
      exact hs
    refine ⟨hs', fun n hn' => ?_⟩
    have hturn' := State.turn_of_step hs' hn'
    exact (State.reaches_of_turn hturn').offset_lt_iff.2
      (lt_of_stays_of_turn hn hs hturn hst hturn')
  · have hle := (length_le_of_run hrun trivial).1
    have hbytes := length_le_byteLength source.toList
    rw [byteLength_toList] at hbytes
    have hstart : (State.start source.toList).rest.length = source.toList.length := rfl
    rw [hstart] at hle
    constructor
    · split at hle
      · omega
      · next hs =>
        have := List.length_pos_iff.2 hs
        omega
    · intro hs
      have := List.length_pos_iff.2 hs
      rw [if_neg hs] at hle
      omega

end Scan

end AtTemplate
