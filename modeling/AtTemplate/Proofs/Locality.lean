import AtTemplate.Proofs.TwinRuns

/-!
# AtTemplate.Proofs.Locality

A scan reads a text that is part of a larger one as it reads the text alone.  The two sources share
the text; in the larger one it has surroundings, and their frames lie under its own.
`State.inside` places a state of the scan of the text there.

* `atSign_inside` — the same follows an at sign;
* `step_inside` — in a frame of its own the scan takes the same step, as long as that step does not
  end the text with a frame open;
* `run_inside` — a text behind another one is scanned as it is alone, and its errors move with it.
-/

namespace AtTemplate

open Code Text
open AtTemplate.Markup

/-! ## surroundings -/

/-- What lies around a text that is part of a larger one: the text before it, which ends in no
character of an e-mail address, the text behind it, and the frames that it lies in. -/
structure Surroundings extends Side where
  frames : List Frame
  before_mailbox : before.head?.any Directive.endsMailbox = false
  after_detached : Detached after
  frames_text : HoldsText frames

namespace Surroundings

variable {k : Surroundings} {α β : Type}

/-- No e-mail address ends before the first character of a source. -/
theorem mailbox_nil : ([] : List Char).head?.any Directive.endsMailbox = false := rfl

/-- Nothing lies around a template that stands alone. -/
def alone : Surroundings where
  before := []
  after := []
  frames := []
  before_mailbox := mailbox_nil
  after_detached := .nil
  frames_text := trivial

/-- The text alone, and the text in its surroundings. -/
def twins (k : Surroundings) : Twins where
  here := alone.toSide
  there := k.toSide
  place n := n + k.bytes
  outer := k.frames
  breaks := .nil
  goes_on := .inr ⟨rfl, k.after_detached⟩
  mailbox_eq := k.before_mailbox
  place_add _ := rfl
  outer_text := k.frames_text

/-- Nothing of the text alone is behind its end. -/
theorem holds_twins (k : Surroundings) (c : Cursor) : k.twins.Holds c :=
  Nat.zero_le _

/-- What becomes of a result in the larger text: an error moves with its text. -/
def place (k : Surroundings) (f : α → β) : Except TemplateError α → Except TemplateError β
  | .error e => .error (e.shift k.bytes)
  | .ok a => .ok (f a)

@[simp] theorem place_error (f : α → β) (e : TemplateError) :
    k.place f (.error e) = .error (e.shift k.bytes) := rfl

@[simp] theorem place_ok (f : α → β) (a : α) : k.place f (.ok a) = .ok (f a) := rfl

end Surroundings

namespace Scan

variable {k : Surroundings} {s : State} {m : Move}

/-! ## states and moves -/

/-- The text alone is the text within nothing. -/
theorem State.here_twins (k : Surroundings) (s : State) : s.here k.twins = s := by
  refine State.eq_of_before_rest_frames ?_ ?_ rfl
  · exact List.append_nil _
  · exact List.append_nil _

/-- The state at the same place of the larger text. -/
def State.inside (k : Surroundings) (s : State) : State :=
  s.there k.twins

/-- The move at the same place of the larger text; it writes the same. -/
def Move.inside (k : Surroundings) (m : Move) : Move :=
  m.there k.twins

/-- A move of the text alone is that of the text within nothing. -/
theorem Move.here_twins (k : Surroundings) (m : Move) : m.here k.twins = m :=
  congrArg (Move.mk m.written) (m.state.here_twins k)

namespace State

@[simp] theorem cursor_inside (k : Surroundings) (s : State) :
    (s.inside k).cursor = s.cursor.amid k.toSide := rfl

@[simp] theorem rest_inside (k : Surroundings) (s : State) :
    (s.inside k).rest = s.rest ++ k.after := rfl

@[simp] theorem frames_inside (k : Surroundings) (s : State) :
    (s.inside k).frames = k.twins.relocate s.frames := rfl

/-- Skipping characters of the text leads to the same place of the larger one. -/
theorem inside_skip {n : Nat} (h : n ≤ s.rest.length) :
    (s.skip n).inside k = (s.inside k).skip n :=
  (skip_twins h).2

/-- An at sign introduces the same wherever its text stands. -/
theorem ofCursor_inside (h : s.rest ≠ []) :
    Directive.ofCursor (s.inside k).cursor = Directive.ofCursor s.cursor := by
  have hdirective := Cursor.ofCursor_twins (c := s.cursor) (k := k.twins) h
  rwa [← cursor_here, here_twins] at hdirective

/-! ## steps -/

/-- A step that is the same in both sources is that of the larger text. -/
theorem inside_of_agree {o o' : Outcome} (h : k.twins.Agree o o') (ho : o = .ok m) :
    o' = .ok (m.inside k) := by
  obtain ⟨n, hn, hn'⟩ | ⟨e, he, -⟩ := h.cases
  · rw [ho, Move.here_twins] at hn
    cases hn
    exact hn'
  · rw [ho] at he
    cases he

/-- A step that does not fail does not lead behind the text. -/
theorem keeps_of_ok {o : Outcome} (h : o = .ok m) : k.twins.Keeps o where
  ok n _ := k.holds_twins n.state.cursor
  error e he := by
    rw [h] at he
    cases he

/-- **The same follows an at sign in the larger text.** -/
theorem atSign_inside (hs : s.rest.head? = some '@') (hn : Nested s.frames)
    (hm : s.atSign = .ok m)
    (hline : s.Introduces .lineEscape → s.escapeLine.state.rest ≠ [])
    (hf : k.frames = [] ∨ s.frames ≠ [] ∨
      ¬ s.Introduces .closeBlock ∧ ¬ s.Introduces .markup) :
    (s.inside k).atSign = .ok (m.inside k) := by
  rw [← here_twins k s] at hm hline
  refine inside_of_agree (atSign_twins hs hn (fun hd => .inr (hline hd)) ?_ (keeps_of_ok hm)) hm
  rwa [here_twins]

/-- **The same step is taken in the larger text**, in a frame of the text, where the step does not
end the text with a frame open. -/
theorem step_inside (hs : s.rest ≠ []) (hn : Nested s.frames) (ho : Open (blocks s.frames))
    (hf : s.frames ≠ []) (hm : s.step = .ok m)
    (hend : m.state.rest ≠ [] ∨ m.state.frames = []) : (s.inside k).step = .ok (m.inside k) := by
  have hsettles : s.step.Settles := ⟨m, hm, hend⟩
  rw [← here_twins k s] at hm hsettles
  exact inside_of_agree (step_twins hs hn (.inr ⟨hf, ho, hsettles⟩) (keeps_of_ok hm)) hm

end State

/-! ## runs -/

/-- **A text behind another one is scanned as it is alone**, and its errors move with it. -/
theorem run_inside (hk : k.after = []) (hf : k.frames = []) (hn : Nested s.frames)
    (w : Segments) : (s.inside k).run w = k.place id (s.run w) := by
  have hsame := run_twins (k := k.twins) ⟨rfl, hk⟩ hf hn w
  rw [State.here_twins] at hsame
  obtain ⟨v, hv, hv'⟩ | ⟨e, he, he'⟩ := hsame.cases
  · rw [hv]
    exact hv'
  · rw [he, Surroundings.place_error, TemplateError.shift_eq_relocate]
    exact he'

end Scan

end AtTemplate
