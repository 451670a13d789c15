import AtTemplate.Proofs.MarkupBlock
import AtTemplate.Proofs.Offsets
import AtTemplate.Proofs.Places
import AtTemplate.Proofs.TwinSteps

/-!
# AtTemplate.Proofs.TwinRuns

Runs of two sources that share a stretch of text.  Up to an at sign or an angle bracket two sources
with the same text in front are scanned alike, since nothing that is read before one depends on
what stands behind it; and where two sources end with the same text, nothing that is read of it
depends on what has been passed.

* `exists_run_twins`, `run_twins` — runs within the stretch that two sources share;
* `exists_run_between` — what stands behind a place does not matter before it;
* `run_between` — what stands before a place does not matter behind it.
-/

namespace AtTemplate

open Code Text
open AtTemplate.Markup

/-! ## what stays where it is -/

/-- A frame that remembers nothing that moves stays the same. -/
theorem Frame.relocate_eq_self {frame : Frame} {place : Nat → Nat}
    (h : ∀ span ∈ frame.openings, place span.start = span.start) :
    frame.relocate place = frame := by
  cases frame with
  | markup m =>
    obtain ⟨openedAt, ⟨elements⟩, inText⟩ := m
    have helements : elements.map (Element.relocate place) = elements := by
      refine (List.map_congr_left fun e he => ?_).trans (List.map_id elements)
      have hmem : e.span ∈ (Frame.markup ⟨openedAt, ⟨elements⟩, inText⟩).openings :=
        List.mem_cons_of_mem _ (List.mem_map_of_mem he)
      rw [Element.relocate, Span.relocate_eq_self (h e.span hmem)]
      rfl
    simp [MarkupFrame.relocate, OpenElements.relocate, helements,
      show place openedAt = openedAt from h _ List.mem_cons_self]
  | tag name span =>
    rw [relocate_tag, Span.relocate_eq_self (h span (List.mem_singleton_self _))]
  | block b =>
    simp [BlockFrame.relocate,
      show place b.openedAt = b.openedAt from h _ (List.mem_singleton_self _)]
  | attributeValue _ openedAt | expression openedAt | comment openedAt | lineEscape openedAt =>
    simp [relocate, show place openedAt = openedAt from h _ (List.mem_singleton_self _)]

/-- Frames that remember nothing that moves stay the same. -/
theorem relocate_eq_self {frames : List Frame} {place : Nat → Nat}
    (h : ∀ span ∈ openings frames, place span.start = span.start) :
    frames.map (Frame.relocate place) = frames := by
  refine (List.map_congr_left fun frame hmem => ?_).trans (List.map_id frames)
  exact Frame.relocate_eq_self fun span hspan => h span (List.mem_flatMap.2 ⟨frame, hmem, hspan⟩)

/-- The place between two texts. -/
def Cursor.between (front back : List Char) : Cursor :=
  ⟨front.reverse, back, byteLength front, (byteLength_reverse front).symm⟩

/-- Behind a text the cursor stands between it and the rest. -/
theorem Cursor.between_advance (front text back : List Char) :
    (between front (text ++ back)).advance text.length = between (front ++ text) back := by
  apply eq_of_before_rest <;> simp [between]

/-- A cursor is given by what lies before it and what is left. -/
theorem Cursor.eq_between {c : Cursor} {front back : List Char} (h : c.source = front ++ back)
    (ho : c.offset = byteLength front) : c = between front back := by
  have hbytes : byteLength c.before.reverse = byteLength front := by
    rw [byteLength_reverse, ← c.offset_eq, ho]
  have hdivide := Offsets.divide?_append c.before.reverse c.rest
  rw [hbytes, show c.before.reverse ++ c.rest = front ++ back from h,
    Offsets.divide?_append] at hdivide
  cases hdivide
  exact eq_of_before_rest (List.reverse_reverse _).symm rfl

namespace Scan

variable {k : Twins} {s t : State} {m : Move} {trace : List Transition}

/-! ## runs in two sources -/

/-- At the end of the stretch a step that is kept enters the markup that begins there, in both
sources. -/
theorem step_twins_of_rest (hrest : s.rest = []) (hs : (s.here k).rest ≠ []) (hn : Nested s.frames)
    (hm : (s.here k).step = .ok m) (hkept : k.Holds m.state.cursor) :
    k.Agree (s.here k).step (s.there k).step := by
  have hhere : (s.here k).rest = k.here.after := by rw [State.rest_here, hrest, List.nil_append]
  have hthere : (s.there k).rest = k.there.after := by rw [State.rest_there, hrest, List.nil_append]
  have hturn := State.turn_of_step hs hm
  have hst : (s.here k).Stays m := by
    refine (State.lt_or_stays_of_turn hs hturn).resolve_left fun hlt => ?_
    rw [hhere] at hlt
    exact absurd hkept (Nat.not_le_of_lt hlt)
  have halike : k.Alike := by
    by_contra hno
    exact hs (hhere.trans (Twins.eq_nil_of_not_alike hno).1)
  obtain ⟨block, below, hf, hp, hmarkup, -⟩ | ⟨hbrace, -⟩ :=
    enters_or_leaves_of_stays (s := s.here k) hn hs hturn hst
  · have hf' : (s.there k).frames = .block (block.relocate k.place) :: k.relocate below := by
      rw [State.frames_there, show s.frames = _ from hf]
      rfl
    have hmarkup' : startsMarkup (s.there k).rest = true := by
      rw [hthere, halike.startsMarkup_eq, ← hhere, hmarkup]
    rw [step_of_startsMarkup hf hp hmarkup, step_of_startsMarkup hf' hp hmarkup']
    exact agree_of_push (n := 0) (i := 0) [] (fun p => .markup (.opened p)) (fun _ => rfl)
      (Nat.zero_le _)
  · rw [hhere] at hbrace
    obtain hat | hangle := k.breaks _ hbrace
    · cases hat
    · cases hangle

/-- **A run within the stretch is the same in both sources**, where these go on alike. -/
theorem exists_run_twins (h : Run (s.here k) trace t) (hn : Nested s.frames) (halike : k.Alike)
    (houter : k.outer = []) (hkept : k.Holds t.cursor) :
    ∃ (u : State) (xs : List Transition), t = u.here k ∧ Run (s.there k) xs (u.there k) ∧
      written xs = written trace := by
  generalize hstart : s.here k = start at h
  induction h generalizing s with
  | nil => exact ⟨s, [], hstart.symm, .nil _, rfl⟩
  | @cons start t m trace hs hm h ih =>
    subst hstart
    have hholds : k.Holds m.state.cursor := Nat.le_trans hkept h.reaches.length_le
    have hagree : k.Agree (s.here k).step (s.there k).step := by
      by_cases hrest : s.rest = []
      · exact step_twins_of_rest hrest hs hn hm hholds
      · refine State.step_twins hrest hn (.inl ⟨halike, houter⟩) ⟨fun a ha => ?_, fun e he => ?_⟩
        · rw [hm] at ha
          cases ha
          exact hholds
        · rw [hm] at he
          cases he
    have hne : (s.there k).rest ≠ [] := by
      rw [State.rest_here] at hs
      rw [State.rest_there]
      intro hnil
      obtain ⟨hrest, hafter⟩ := List.append_eq_nil_iff.1 hnil
      have hhead := halike.head_eq
      rw [hafter] at hhead
      exact hs (by rw [hrest, List.head?_eq_none_iff.1 hhead.symm]; rfl)
    obtain ⟨n, hhere, hthere⟩ | ⟨e, he, -⟩ := hagree.cases
    · rw [hm] at hhere
      cases hhere
      have hnested : Nested n.state.frames :=
        nested_of_turn (s := s.here k) (m := n.here k) hn (State.turn_of_step hs hm)
      obtain ⟨u, xs, hu, hrun, hw⟩ := ih hnested hkept rfl
      refine ⟨u, ⟨s.there k, n.there k⟩ :: xs, hu, .cons hne hthere hrun, ?_⟩
      rw [written_cons, written_cons, hw]
      rfl
    · rw [hm] at he
      cases he

/-- **A scan from within the stretch ends alike in both sources**, where they end with it. -/
theorem run_twins (hend : k.End) (houter : k.outer = []) (hn : Nested s.frames) (w : Segments) :
    k.Same id id ((s.here k).run w) ((s.there k).run w) := by
  obtain ⟨trace, t, hrun, hstop⟩ := exists_run_to_end (s.here k)
  obtain ⟨u, xs, rfl, hrun', hw⟩ := exists_run_twins hrun hn hend.alike houter (hend.holds _)
  have hnested : Nested (u.here k).frames :=
    hrun.preserves (P := fun s => Nested s.frames) (fun _ _ hn _ ht => nested_of_turn hn ht) hn
  have hrest : (u.there k).rest = (u.here k).rest := State.rest_there_of_end hend u
  rw [run_eq_of_run hrun, run_eq_of_run hrun', hw]
  by_cases hu : (u.here k).rest = []
  · rw [run_of_rest_eq_nil hu, run_of_rest_eq_nil (hrest.trans hu), State.frames_there,
      Twins.relocate, houter, List.append_nil, findSome?_unclosed?_relocate, State.frames_here]
    cases u.frames.findSome? Frame.unclosed? with
    | none => exact .ok (id _)
    | some e => exact .error e
  · have hne : u.rest ≠ [] := by
      rintro hnil
      rw [State.rest_here, hnil, hend.1] at hu
      exact hu rfl
    obtain ⟨e, he⟩ := hstop.resolve_left hu
    have hkeeps : k.Keeps (u.here k).step := ⟨fun m _ => hend.holds _, fun _ _ => hend⟩
    obtain ⟨n, hhere, -⟩ | ⟨e', he', hthere⟩ :=
      (State.step_twins hne hnested (.inl ⟨hend.alike, houter⟩) hkeeps).cases
    · rw [he] at hhere
      cases hhere
    · rw [run_of_step_error hu he', run_of_step_error (hrest ▸ hu) hthere]
      exact .error e'

/-! ## before and behind a place -/

/-- Two sources that begin with the same text, and behind it with texts that begin alike. -/
def sharedFront {after after' : List Char} (hb : Breaks after) (h : StartAlike after after') :
    Twins where
  here := ⟨[], after⟩
  there := ⟨[], after'⟩
  place := id
  outer := []
  breaks := hb
  goes_on := .inl h
  mailbox_eq := rfl
  place_add _ := rfl
  outer_text := trivial

/-- **What stands behind a place does not matter before it**, where an at sign or an angle bracket
follows.  A scan that comes to the place comes to the same place of another source, in the same
frames, and writes the same. -/
theorem exists_run_between {front after after' : List Char}
    (h : Run (.start (front ++ after)) trace s) (ho : s.cursor.offset = byteLength front)
    (hb : Breaks after) (halike : StartAlike after after') :
    s.cursor = .between front after ∧
      ∃ xs, Run (.start (front ++ after')) xs ⟨.between front after', s.stack⟩ ∧
        written xs = written trace := by
  have hcursor : s.cursor = .between front after := Cursor.eq_between h.reaches.source_eq ho
  have hkept : (sharedFront hb halike).Holds s.cursor := by
    rw [Twins.Holds, hcursor]
    exact Nat.le_refl _
  obtain ⟨u, xs, rfl, hrun, hw⟩ :=
    exists_run_twins (k := sharedFront hb halike) (s := .start front) h trivial halike rfl hkept
  refine ⟨hcursor, xs, ?_, hw⟩
  have hrest : u.rest = [] := List.append_cancel_right (congrArg Cursor.rest hcursor)
  have hbefore : u.cursor.before ++ [] = front.reverse := congrArg Cursor.before hcursor
  have hend : u.there (sharedFront hb halike) = ⟨.between front after', u.stack⟩ := by
    refine State.eq_of_before_rest_frames hbefore ?_ ?_
    · rw [State.rest_there, hrest]
      rfl
    · rw [State.frames_there]
      exact (List.append_nil _).trans (relocate_eq_self fun _ _ => rfl)
  rw [← show (u.here (sharedFront hb halike)).stack = u.stack from rfl] at hend
  exact hend ▸ hrun

/-- Two sources that end with the same text.  No e-mail address goes on in one of them only. -/
def sharedBack {front front' : List Char} (h : front'.reverse.head?.any Directive.endsMailbox =
    front.reverse.head?.any Directive.endsMailbox) : Twins where
  here := ⟨front.reverse, []⟩
  there := ⟨front'.reverse, []⟩
  place n := if n < byteLength front then n else n - byteLength front + byteLength front'
  outer := []
  breaks := .nil
  goes_on := .inl ⟨rfl, rfl⟩
  mailbox_eq := h
  place_add n := by
    simp only [Side.bytes, byteLength_reverse]
    rw [if_neg (by omega), Nat.add_sub_cancel]
  outer_text := trivial

/-- **What stands before a place does not matter behind it.**  From the same frames a scan writes
the same; what it reports is still open from before, or it lies behind the place and moves with
it. -/
theorem run_between {front front' back : List Char} {stack : FrameStack}
    (hmailbox : front'.reverse.head?.any Directive.endsMailbox =
      front.reverse.head?.any Directive.endsMailbox) (hn : Nested stack.frames)
    (hopen : ∀ span ∈ openings stack.frames, span.start < byteLength front) (w : Segments) :
    (∃ v, State.run ⟨.between front back, stack⟩ w = .ok v ∧
      State.run ⟨.between front' back, stack⟩ w = .ok v) ∨
    (∃ e : TemplateError, ∃ span ∈ openings stack.frames, e.span? = some span ∧
      State.run ⟨.between front back, stack⟩ w = .error e ∧
      State.run ⟨.between front' back, stack⟩ w = .error e) ∨
    ∃ e : TemplateError, e.span? ≠ none ∧
      State.run ⟨.between front back, stack⟩ w = .error (e.shift (byteLength front)) ∧
      State.run ⟨.between front' back, stack⟩ w = .error (e.shift (byteLength front')) := by
  let k := sharedBack hmailbox
  have hplace {n : Nat} (h : n < byteLength front) : k.place n = n := if_pos h
  have hhere : State.here k ⟨.start back, stack⟩ = ⟨.between front back, stack⟩ :=
    State.eq_of_before_rest_frames rfl (List.append_nil back) rfl
  have hthere : State.there k ⟨.start back, stack⟩ = ⟨.between front' back, stack⟩ :=
    State.eq_of_before_rest_frames rfl (List.append_nil back)
      ((List.append_nil _).trans
        (relocate_eq_self fun span hspan => hplace (hopen span hspan)))
  have hsame := run_twins (k := k) (s := ⟨.start back, stack⟩) ⟨rfl, rfl⟩ rfl hn w
  rw [hhere, hthere] at hsame
  obtain ⟨v, hv, hv'⟩ | ⟨e, he, he'⟩ := hsame.cases
  · exact .inl ⟨v, hv, hv'⟩
  · obtain ⟨span, hspan, hold | ⟨hstart, hle⟩⟩ := exists_span_of_run he
    · rw [TemplateError.relocate_eq_self hspan (hplace (hopen span hold))] at he'
      exact .inr (.inl ⟨e, span, hold, hspan, he, he'⟩)
    · obtain ⟨e, rfl⟩ := TemplateError.exists_shift (n := byteLength front) hspan hstart hle
      refine .inr (.inr ⟨e, ?_, he, ?_⟩)
      · intro hnone
        cases e <;> cases hnone
        cases hspan
      · have hbytes : k.here.bytes = byteLength front := byteLength_reverse front
        have hbytes' : k.there.bytes = byteLength front' := byteLength_reverse front'
        rwa [← hbytes, TemplateError.relocate_shift k.place_add, hbytes'] at he'

end Scan

end AtTemplate
