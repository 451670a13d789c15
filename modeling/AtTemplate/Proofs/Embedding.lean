import AtTemplate.Proofs.Copying
import AtTemplate.Proofs.Locality

/-!
# AtTemplate.Proofs.Embedding

The scan of a text that is part of a larger one, as a whole.  In a frame of its own the text is
scanned step by step as it is alone.  Outside of them its steps may differ, since what is copied at
once depends on what follows and on the frames around, but what they write is the same.

* `run_inside_of_step` — a step that does not end the text with a frame open writes the same;
* `run_inside_of_run` — a text that a run scans to its end is scanned alike in any surroundings.
-/

namespace AtTemplate

open Code Text
open AtTemplate.Markup

variable {k : Surroundings}

/-! ## lines -/

/-- A text of one line goes on with the line after it, unless its line has ended. -/
theorem firstLine_append_of_eq {text : List Char} (h : firstLine text = text) (after : List Char) :
    firstLine (text ++ after) = text ∨ firstLine (text ++ after) = text ++ firstLine after := by
  obtain ⟨line, hline, hfirst⟩ | ⟨hline, -⟩ := firstLine_cases text
  · left
    rw [← h, hfirst, List.append_assoc, firstLine_append_of_not_mem hline]
    rfl
  · exact .inr (firstLine_append_of_not_mem hline after)

namespace Scan

variable {s t : State} {m : Move} {trace : List Transition}

/-! ## text in its surroundings -/

/-- A state of a text outside of all its frames that is scanned alike where the text lies in
markup: no block is closed and no markup opened, and no text element ends in the text copied. -/
def State.Enclosable (s : State) : Prop :=
  s.frames = [] → ¬ s.Introduces .closeBlock ∧ ¬ s.Introduces .markup ∧
    ∀ i < (s.rest.takeWhile (· ≠ '@')).length, ¬ textClosing <+: s.rest.drop i

instance (s : State) : Decidable s.Enclosable :=
  inferInstanceAs (Decidable (_ → _))

/-- Text is copied alike in the larger text. -/
theorem run_copy_inside {n : Nat} (hf : s.frames = [])
    (hn : n ≤ (s.rest.takeWhile (· ≠ '@')).length) (hk : k.frames = [] ∨ s.Enclosable)
    (w : Segments) :
    (s.inside k).run w = ((s.skip n).inside k).run
      (w.addLiteral (String.ofList (s.rest.take n))) := by
  have hplain := List.takeWhile_prefix (l := s.rest) (· ≠ '@')
  have hlen : n ≤ s.rest.length := hn.trans hplain.length_le
  have htake : (s.rest.take n).length = n := List.length_take_of_le hlen
  have hr : (s.inside k).rest = s.rest.take n ++ (s.rest.drop n ++ k.after) := by
    rw [State.rest_inside, ← List.append_assoc, List.take_append_drop]
  rw [run_text hr, htake, State.inside_skip hlen]
  intro i hi
  rw [htake] at hi
  have hi' : i < (s.rest.takeWhile (· ≠ '@')).length := Nat.lt_of_lt_of_le hi hn
  have hdrop : s.rest.drop i = s.rest[i] :: s.rest.drop (i + 1) :=
    List.drop_eq_getElem_cons (by omega)
  have hat : s.rest[i] ≠ '@' := by
    have hmem := List.getElem_mem hi'
    rw [hplain.getElem hi'] at hmem
    simpa using List.mem_takeWhile_imp hmem
  rw [State.frames_inside, hf, State.rest_inside, List.drop_append_of_le_length (by omega), hdrop]
  refine copies_of_holdsText k.frames_text hat (hk.imp_right fun h hp => (h hf).2.2 i hi' ?_)
  have hne : s.rest.drop i ≠ [] := hdrop ▸ List.cons_ne_nil _ _
  have hp' : textClosing <+: s.rest.drop i ++ k.after := by
    rw [hdrop]
    exact hp
  rwa [← List.isPrefixOf_iff_prefix,
    k.after_detached.bounded.isPrefixOf_append_of_mem (show textClosing ∈ _ by simp) hne,
    List.isPrefixOf_iff_prefix] at hp'

/-- A line that is escaped at the end of a text takes in the line that follows, which would be
copied as text otherwise. -/
theorem run_escapeLine_inside (hd : s.Introduces .lineEscape) (hf : s.frames = [])
    (hend : s.escapeLine.state.rest = []) (w : Segments) :
    (s.inside k).run w =
      (s.escapeLine.state.inside k).run (w.addAll (s.escapeLine.written.map Piece.segment)) := by
  obtain ⟨rest, hs⟩ := rest_of_introduces hd rfl
  have hline : firstLine rest = rest := by
    have hnil : rest.drop (firstLine rest).length = [] := by
      simpa [State.escapeLine, hs, Nat.add_comm 2] using hend
    simpa [hnil] using firstLine_append_drop rest
  have hlen : 2 + rest.length ≤ s.rest.length := by simp [hs]; omega
  have hstep : (s.inside k).step = .ok (s.inside k).escapeLine := by
    rw [step_of_at]
    · unfold State.atSign
      rw [State.ofCursor_inside (by simp [hs]), hd.2]
    · rw [State.frames_inside, hf]
      exact k.frames_text.any_isWhole_head?
    · simp [hs]
  have hstate : s.escapeLine.state = s.skip (2 + rest.length) := by
    simp [State.escapeLine, hs, hline]
  have hrest : ((s.inside k).skip (2 + rest.length)).rest =
      firstLine k.after ++ k.after.drop (firstLine k.after).length := by
    rw [firstLine_append_drop, State.rest_skip, State.rest_inside,
      List.drop_append_of_le_length hlen, hs]
    simp [Nat.add_comm 2]
  have hcopies : ∀ i < (firstLine k.after).length,
      Copies ((s.inside k).skip (2 + rest.length)).frames
        (((s.inside k).skip (2 + rest.length)).rest.drop i) := by
    intro i hi
    have hc := k.after_detached.line _ (List.getElem_mem hi)
    rw [State.frames_skip, State.frames_inside, hf, hrest,
      List.drop_append_of_le_length (Nat.le_of_lt hi), List.drop_eq_getElem_cons hi]
    refine copies_of_holdsText k.frames_text ?_ (.inr fun hp => ?_)
    · obtain hc | hc := hc <;> rw [hc] <;> decide
    · obtain ⟨_, hp⟩ := hp
      obtain hc | hc := hc <;> rw [hc] at hp <;> cases hp
  rw [run_of_step (by simp [hs]) hstep, hstate, State.inside_skip hlen]
  simp only [State.escapeLine, State.rest_inside, hs, List.cons_append, List.drop_succ_cons,
    List.drop_zero, hline, List.map_cons, List.map_nil, Segments.addAll_cons, Segments.addAll_nil,
    Piece.segment, Piece.chars, Segments.add]
  obtain h | h := firstLine_append_of_eq hline k.after
  · rw [h]
  · rw [h, run_text hrest hcopies, State.skip_skip, Segments.addLiteral_addLiteral,
      ← String.ofList_append, List.length_append, Nat.add_assoc]

/-! ## steps and runs -/

/-- A step of a text outside of all its frames writes the same in the larger text. -/
theorem run_inside_of_stepText (hs : s.rest ≠ []) (hm : s.step = .ok m) (hf : s.frames = [])
    (hk : k.frames = [] ∨ s.Enclosable) (w : Segments) :
    (s.inside k).run w = (m.state.inside k).run (w.addAll (m.written.map Piece.segment)) := by
  obtain ⟨c, rest, hr⟩ := List.exists_cons_of_ne_nil hs
  by_cases hat : c = '@'
  · have hhead : s.rest.head? = some '@' := by simp [hr, hat]
    have hw : ((s.inside k).frames.head?.any Frame.isWhole) = false := by
      rw [State.frames_inside, hf]
      exact k.frames_text.any_isWhole_head?
    have hstep : s.step = s.atSign := step_of_at (by simp [hf]) hhead
    rw [hstep] at hm
    by_cases hline : s.Introduces .lineEscape ∧ s.escapeLine.state.rest = []
    · have hescape : s.atSign = .ok s.escapeLine := by
        unfold State.atSign
        rw [hline.1.2]
      rw [hescape] at hm
      cases hm
      exact run_escapeLine_inside hline.1 hf hline.2 w
    · have hinside : (s.inside k).step = .ok (m.inside k) := by
        rw [step_of_at hw (by simp [hr, hat])]
        exact State.atSign_inside hhead (by simp [hf, Nested]) hm
          (fun hd hend => hline ⟨hd, hend⟩) (hk.imp_right fun h => .inr ⟨(h hf).1, (h hf).2.1⟩)
      exact run_of_step (by simp [hr]) hinside w
  · rw [step_of_nil hf hr hat] at hm
    cases hm
    exact run_copy_inside hf (Nat.le_refl _) hk w

/-- **A step that neither fails nor ends the text with a frame open writes the same in the larger
text.** -/
theorem run_inside_of_step (hs : s.rest ≠ []) (hm : s.step = .ok m) (hn : Nested s.frames)
    (ho : Open (blocks s.frames)) (hend : m.state.rest ≠ [] ∨ m.state.frames = [])
    (hk : k.frames = [] ∨ s.Enclosable) (w : Segments) :
    (s.inside k).run w = (m.state.inside k).run (w.addAll (m.written.map Piece.segment)) := by
  by_cases hf : s.frames = []
  · exact run_inside_of_stepText hs hm hf hk w
  · exact run_of_step (by simp [hs]) (State.step_inside hs hn ho hf hm hend) w

/-- **A text that a run scans to its end, with no frame left, is scanned alike in the larger
text.** -/
theorem run_inside_of_run (h : Run s trace t) (hn : Nested s.frames) (ho : Open (blocks s.frames))
    (hend : t.rest = []) (hf : t.frames = [])
    (hk : k.frames = [] ∨ ∀ x ∈ trace, x.before.Enclosable) (w : Segments) :
    (s.inside k).run w = (t.inside k).run (w.addAll ((written trace).map Piece.segment)) := by
  induction h generalizing w with
  | nil => rfl
  | @cons s t m trace hs hm h ih =>
    have hturn := State.turn_of_step hs hm
    have hsettles : m.state.rest ≠ [] ∨ m.state.frames = [] := by
      cases h with
      | nil => exact .inr hf
      | cons hs' => exact .inl hs'
    rw [run_inside_of_step hs hm hn ho hsettles (hk.imp_right fun h => h _ List.mem_cons_self),
      ih (nested_of_turn hn hturn) ((rebalanced_of_turn ho hturn).isOpen ho) hend hf
        (hk.imp_right fun h x hx => h x (List.mem_cons_of_mem _ hx)), written_cons, List.map_append,
      Segments.addAll_append]
    rfl

/-! ## accepted texts -/

/-- The state behind the last character of a text, with no frame open. -/
def State.finish (text : List Char) : State :=
  (State.start text).skip text.length

@[simp] theorem State.frames_finish (text : List Char) : (State.finish text).frames = [] := rfl

/-- At the end of a text nothing is left. -/
@[simp] theorem State.rest_finish (text : List Char) : (State.finish text).rest = [] := by
  rw [State.finish, State.rest_skip]
  exact List.drop_length

/-- At the end of a text all of it is behind. -/
@[simp] theorem State.before_finish (text : List Char) :
    (State.finish text).cursor.before = text.reverse := by
  simp [State.finish, State.start, Cursor.start]

/-- A run that leaves no text and no frame comes to the end of its text. -/
theorem eq_finish {text : List Char} (h : Run (.start text) trace t) (hend : t.rest = [])
    (hf : t.frames = []) : t = .finish text := by
  have hsource : t.cursor.source = text := h.reaches.source_eq
  have hrest : t.cursor.rest = [] := hend
  refine State.eq_of_before_rest_frames ?_ ?_ ?_
  · rw [State.before_finish]
    simpa [Cursor.source, hrest] using congrArg List.reverse hsource
  · rw [hend, State.rest_finish]
  · rw [hf, State.frames_finish]

/-- A text that is accepted is scanned to its end, and no frame is left there. -/
theorem exists_run_of_scan {source : String} {segments : List Segment}
    (h : scan source = .ok segments) :
    ∃ trace, Run (.start source.toList) trace (.finish source.toList) ∧
      segments = Segments.ofPieces ((written trace).map Piece.segment) := by
  obtain ⟨trace, t, hrun, hend, hu, rfl⟩ := scan_eq_ok_iff.1 h
  have hf : t.frames = [] := by
    cases hf : t.frames with
    | nil => rfl
    | cons frame below =>
      have hn := nested_of_reached ⟨trace, hrun⟩
      rw [hf] at hn hu
      obtain ⟨e, he⟩ := hn.exists_unclosed
      rw [hu] at he
      cases he
  rw [eq_finish hrun hend hf] at hrun
  exact ⟨trace, hrun, rfl⟩

/-- **A text that is accepted is scanned alike in any surroundings**; where these are markup, it has
to be enclosable. -/
theorem run_inside_of_scan {source : String} {segments : List Segment}
    (h : scan source = .ok segments)
    (hk : k.frames = [] ∨ ∀ s, Reached source s → s.rest ≠ [] → s.Enclosable) (w : Segments) :
    ((State.start source.toList).inside k).run w =
      ((State.finish source.toList).inside k).run (w.addAll segments) := by
  obtain ⟨trace, hrun, rfl⟩ := exists_run_of_scan h
  rw [Segments.addAll_ofPieces]
  refine run_inside_of_run hrun trivial nofun (State.rest_finish _) rfl
    (hk.imp_right fun hk x hx => ?_) w
  obtain ⟨xs, ys, -, hxs, hs, -, -⟩ := hrun.of_mem hx
  exact hk _ ⟨xs, hxs⟩ hs

end Scan

end AtTemplate
