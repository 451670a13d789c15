import AtTemplate.Proofs.Run
import Mathlib.Data.List.TakeWhile

/-!
# AtTemplate.Proofs.Copying

Text that a scan copies.  A step copies as much of it as it can in its frame, and where it stops
differs from frame to frame: at an at sign, at a bracket or a line break, at a quote.  What is
written does not depend on that, so a scan may be thought of as copying text character by character.

* `run_char` — a character that its frame copies is copied;
* `run_text` — a scan copies a text and goes on behind it.
-/

namespace AtTemplate

open Code Text
open AtTemplate.Markup

/-- Frames in which text of a template is copied as it is outside of all frames: none, or markup
in which a text element is open. -/
def HoldsText : List Frame → Prop
  | [] => True
  | .markup m :: _ => m.inText = true
  | _ => False

/-- What holds text is not read as a whole. -/
theorem HoldsText.any_isWhole_head? {frames : List Frame} (h : HoldsText frames) :
    (frames.head?.any Frame.isWhole) = false := by
  cases frames with
  | nil => rfl
  | cons frame below => cases frame <;> first | rfl | cases h

namespace Scan

/-- The frames copy the first character of a text as it is.  An attribute value is copied up to a
quote or an at sign only, so one of these has to follow. -/
def Copies : List Frame → List Char → Prop
  | [], c :: _ => c ≠ '@'
  | .markup m :: _, c :: rest =>
    c ≠ '@' ∧ (c = '<' → m.inText = true ∧ ¬ textClosing <+: c :: rest) ∧
      (c = '\n' ∨ c = '}' → m.isSettled = false)
  | .attributeValue quote _ :: _, c :: rest =>
    c ≠ '@' ∧ c ≠ quote ∧ ∃ d ∈ rest, State.stopsValue quote d = true
  | _, _ => False

variable {s : State} {m : Move} {c : Char} {rest : List Char}

/-- In frames that hold text every character but an at sign is copied, as long as the text does not
end there. -/
theorem copies_of_holdsText {frames : List Frame} {c : Char} {rest : List Char}
    (h : HoldsText frames) (hat : c ≠ '@') (hlt : frames = [] ∨ ¬ textClosing <+: c :: rest) :
    Copies frames (c :: rest) := by
  cases frames with
  | nil => exact hat
  | cons frame below =>
    cases frame with
    | markup markup =>
      have ht : markup.inText = true := h
      exact ⟨hat, fun _ => ⟨ht, hlt.resolve_left (List.cons_ne_nil _ _)⟩, fun _ => by
        simp [MarkupFrame.isSettled, ht]⟩
    | _ => cases h

/-- Characters are skipped in one go or in two. -/
theorem State.skip_skip (i j : Nat) (s : State) : (s.skip i).skip j = s.skip (i + j) := by
  simp only [State.skip, Cursor.advance_advance]

/-- A run goes on behind the text that its first step writes. -/
theorem run_of_step_text {chars : List Char} {t : State} (hs : s.rest ≠ [])
    (h : s.step = .ok ⟨[.text chars], t⟩) (w : Segments) :
    s.run w = t.run (w.addLiteral (String.ofList chars)) :=
  run_of_step hs h w

/-- A run goes on behind the text that its first step copies. -/
theorem run_of_step_copy {n : Nat} (hs : s.rest ≠ []) (h : s.step = .ok (s.copy n))
    (w : Segments) :
    s.run w = (s.skip n).run (w.addLiteral (String.ofList (s.rest.take n))) :=
  run_of_step_text hs h w

/-! ## one character -/

/-- Where the steps copy the leading characters of a class, these may be copied one by one. -/
theorem run_of_plain (p : Char → Bool)
    (hstep : ∀ t : State, t.frames = s.frames → t.rest.dropWhile p = s.rest.dropWhile p →
      ∀ c rest, t.rest = c :: rest → p c = true →
        t.step = .ok (t.copy (t.rest.takeWhile p).length))
    (hr : s.rest = c :: rest) (hc : p c = true) (w : Segments) :
    s.run w = (s.skip 1).run (w.addLiteral (String.ofList [c])) := by
  have hcopy {t : State} (hf : t.frames = s.frames)
      (hdrop : t.rest.dropWhile p = s.rest.dropWhile p) {d : Char} {after : List Char}
      (ht : t.rest = d :: after) (hd : p d = true) (v : Segments) :
      t.run v = (t.skip (t.rest.takeWhile p).length).run
        (v.addLiteral (String.ofList (t.rest.takeWhile p))) := by
    have htake : t.rest.take (t.rest.takeWhile p).length = t.rest.takeWhile p :=
      (List.prefix_iff_eq_take.1 (List.takeWhile_prefix p)).symm
    rw [run_of_step_copy (by simp [ht]) (hstep t hf hdrop d after ht hd), htake]
  have hrest : (s.skip 1).rest = rest := by simp [hr]
  have hdrop : (s.skip 1).rest.dropWhile p = s.rest.dropWhile p := by
    rw [hrest, hr, List.dropWhile_cons_of_pos hc]
  rw [hcopy rfl rfl hr hc, hr, List.takeWhile_cons_of_pos hc]
  cases rest with
  | nil => rfl
  | cons d after =>
    by_cases hd : p d = true
    · -- the next step would copy the rest of the run
      rw [hcopy (t := s.skip 1) rfl hdrop hrest hd, hrest, State.skip_skip,
        Segments.addLiteral_addLiteral, ← String.ofList_append, List.length_cons, Nat.add_comm 1]
      rfl
    · rw [List.takeWhile_cons_of_neg hd]
      rfl

/-- Outside of all frames text is copied up to the next at sign. -/
theorem step_of_nil (hf : s.frames = []) (hr : s.rest = c :: rest) (hc : c ≠ '@') :
    s.step = .ok (s.copy (s.rest.takeWhile (· ≠ '@')).length) := by
  simp only [State.step, State.stepWith, hf, State.stepText, hr, if_neg hc]

/-- Markup is copied up to the next character that stops its text. -/
theorem step_of_markup {markup : MarkupFrame} {below : List Frame}
    (hf : s.frames = .markup markup :: below) (hr : s.rest = c :: rest)
    (hc : State.stopsText c = false) :
    s.step = .ok (s.copy (s.rest.takeWhile (!State.stopsText ·)).length) := by
  simp only [State.step, State.stepWith, hf, State.stepMarkup, hr, hc]
  rfl

/-- In markup a bracket, a line break and a brace are copied one by one. -/
theorem step_of_stopsText {markup : MarkupFrame} {below : List Frame}
    (hf : s.frames = .markup markup :: below) (hr : s.rest = c :: rest)
    (hc : State.stopsText c = true) (h : Copies s.frames s.rest) : s.step = .ok (s.copy 1) := by
  rw [hf, hr] at h
  obtain ⟨hat, hlt, hset⟩ := h
  simp only [State.step, State.stepWith, hf, State.stepMarkup, hr, hc, if_neg hat]
  by_cases hangle : c = '<'
  · obtain ⟨ht, hp⟩ := hlt hangle
    rw [← hr, ← List.isPrefixOf_iff_prefix] at hp
    simp [hangle, State.angle, ht, hp]
  · have hset : markup.isSettled = false := by
      refine hset ?_
      simpa [State.stopsText, hat, hangle] using hc
    simp [hangle, hset]

namespace State

/-- The step that copies plain text up to a character that needs a closer look.  There has to be
one. -/
def copyPlain (stops : Char → Bool) (e : TemplateError) (s : State) : Outcome :=
  match (s.rest.dropWhile (!stops ·)).head? with
  | none => .error e
  | some _ => .ok (s.copy (plainLength stops s.rest))

/-- A tag is copied up to the next character that stops it. -/
theorem stepTag_of_plain {span : Span} (h : 0 < plainLength stopsTag s.rest) :
    s.stepTag id span = s.copyPlain stopsTag (.unclosed .tag span) := by
  unfold stepTag copyPlain
  cases s.rest.dropWhile (!stopsTag ·) with
  | nil => rfl
  | cons c after => simp only [if_pos h, List.head?_cons]

/-- A value is copied up to the next character that stops it. -/
theorem stepValue_of_plain {quote : Char} {openedAt : Nat} {below : List Frame}
    (hf : s.frames = .attributeValue quote openedAt :: below)
    (h : 0 < plainLength (stopsValue quote) s.rest) : s.stepValue id =
      s.copyPlain (stopsValue quote) (.unclosed .attributeValue (.ofLength openedAt 1)) := by
  unfold stepValue copyPlain
  simp only [hf]
  cases s.rest.dropWhile (!stopsValue quote ·) with
  | nil => rfl
  | cons c after => simp only [if_pos h, List.head?_cons]

end State

/-- A step in a tag copies where the text does not begin with a stop. -/
theorem step_of_tag {name : String} {span : Span} {below : List Frame}
    (hf : s.frames = .tag name span :: below) (hr : s.rest = c :: rest)
    (hc : State.stopsTag c = false) :
    s.step = s.copyPlain State.stopsTag (.unclosed .tag span) := by
  have hplain : 0 < State.plainLength State.stopsTag s.rest := by simp [State.plainLength, hr, hc]
  simp only [State.step, State.stepWith, hf]
  exact State.stepTag_of_plain hplain

/-- A step in a value copies where the text does not begin with a stop. -/
theorem step_of_value {quote : Char} {openedAt : Nat} {below : List Frame}
    (hf : s.frames = .attributeValue quote openedAt :: below) (hr : s.rest = c :: rest)
    (hc : State.stopsValue quote c = false) :
    s.step = s.copyPlain (State.stopsValue quote)
      (.unclosed .attributeValue (.ofLength openedAt 1)) := by
  have hplain : 0 < State.plainLength (State.stopsValue quote) s.rest := by
    simp [State.plainLength, hr, hc]
  simp only [State.step, State.stepWith, hf]
  exact State.stepValue_of_plain hf hplain

/-- Where the steps copy plain text up to a character that has to come, the plain characters may be
copied one by one.  When no such character comes, the template is refused behind them just as well,
since what lacks its end is still open there. -/
theorem run_of_copyPlain {stops : Char → Bool} {e : TemplateError}
    (hopen : s.frames.findSome? Frame.unclosed? = some e)
    (hstep : ∀ t : State, t.frames = s.frames → ∀ c rest, t.rest = c :: rest → stops c = false →
      t.step = t.copyPlain stops e)
    (hr : s.rest = c :: rest) (hc : stops c = false) (w : Segments) :
    s.run w = (s.skip 1).run (w.addLiteral (String.ofList [c])) := by
  by_cases hdrop : s.rest.dropWhile (!stops ·) = []
  · have hfails {t : State} (hf : t.frames = s.frames) (ht : ∀ d ∈ t.rest, stops d = false)
        (v : Segments) : t.run v = .error e := by
      cases htr : t.rest with
      | nil => rw [run_of_rest_eq_nil htr, hf, hopen]
      | cons d after =>
        have hnone : t.rest.dropWhile (!stops ·) = [] := by
          simpa [List.dropWhile_eq_nil_iff] using ht
        refine run_of_step_error (by simp [htr]) ?_ v
        rw [hstep t hf d after htr (ht d (by simp [htr])), State.copyPlain, hnone]
        rfl
    have hplain : ∀ d ∈ s.rest, stops d = false := by
      simpa [List.dropWhile_eq_nil_iff] using hdrop
    rw [hfails rfl hplain, hfails (t := s.skip 1) rfl fun d hd => hplain d ?_]
    rw [State.rest_skip] at hd
    exact List.mem_of_mem_drop hd
  · refine run_of_plain (!stops ·) (fun t hf hdt d after htr hd => ?_) hr (by simp [hc]) w
    obtain ⟨x, tail, hx⟩ := List.exists_cons_of_ne_nil hdrop
    rw [hstep t hf d after htr (by simpa using hd), State.copyPlain, hdt, hx]
    rfl

/-- A character that its frame copies is copied. -/
theorem run_char (hr : s.rest = c :: rest) (h : Copies s.frames s.rest) (w : Segments) :
    s.run w = (s.skip 1).run (w.addLiteral (String.ofList [c])) := by
  cases hf : s.frames with
  | nil =>
    rw [hf, hr] at h
    have hat : c ≠ '@' := h
    refine run_of_plain (· ≠ '@') (fun t ht _ d after htr hd => ?_) hr (by simpa using hat) w
    exact step_of_nil (ht.trans hf) htr (by simpa using hd)
  | cons frame below =>
    cases frame with
    | markup markup =>
      by_cases hstop : State.stopsText c = true
      · rw [run_of_step_copy (by simp [hr]) (step_of_stopsText hf hr hstop h), hr]
        rfl
      · refine run_of_plain (!State.stopsText ·) (fun t ht _ d after htr hd => ?_) hr
          (by simpa using hstop) w
        exact step_of_markup (ht.trans hf) htr (by simpa using hd)
    | attributeValue quote openedAt =>
      rw [hf, hr] at h
      obtain ⟨hat, hq, -⟩ := h
      have hstop : State.stopsValue quote c = false := by simp [State.stopsValue, hat, hq]
      refine run_of_copyPlain (by rw [hf]; rfl) (fun t ht d after htr hd => ?_) hr hstop w
      exact step_of_value (ht.trans hf) htr hd
    | block | tag | expression | comment | lineEscape =>
      rw [hf, hr] at h
      cases h

/-! ## texts -/

/-- A text is copied where each of its characters is. -/
theorem run_of_run_char {text after : List Char} (hr : s.rest = text ++ after)
    (h : ∀ i < text.length, ∀ c rest, (s.skip i).rest = c :: rest → ∀ w : Segments,
      (s.skip i).run w = (s.skip (i + 1)).run (w.addLiteral (String.ofList [c]))) (w : Segments) :
    s.run w = (s.skip text.length).run (w.addLiteral (String.ofList text)) := by
  induction text generalizing s w with
  | nil => rfl
  | cons c text ih =>
    have hnext : (s.skip 1).rest = text ++ after := by simp [hr]
    rw [show s.run w = (s.skip 1).run (w.addLiteral (String.ofList [c])) from
      h 0 (by simp) c _ hr w, ih hnext fun i hi d rest hd v => ?_, State.skip_skip,
      Segments.addLiteral_addLiteral, ← String.ofList_append, List.length_cons, Nat.add_comm 1]
    · rfl
    · rw [State.skip_skip, State.skip_skip, Nat.add_comm 1, Nat.add_comm 1]
      rw [State.skip_skip, Nat.add_comm 1] at hd
      exact h (i + 1) (by simpa using hi) d rest hd v

/-- **A scan copies a text and goes on behind it**, where its frame copies each of the
characters. -/
theorem run_text {text after : List Char} (hr : s.rest = text ++ after)
    (h : ∀ i < text.length, Copies s.frames (s.rest.drop i)) (w : Segments) :
    s.run w = (s.skip text.length).run (w.addLiteral (String.ofList text)) := by
  refine run_of_run_char hr (fun i hi c rest hrest v => ?_) w
  have hcopies : Copies (s.skip i).frames (s.skip i).rest := by
    rw [State.rest_skip]
    exact h i hi
  rw [run_char hrest hcopies, State.skip_skip]

/-- From the first state the scan writes a text and goes on from the second. -/
def WritesTo (s : State) (text : List Char) (t : State) : Prop :=
  ∀ w : Segments, s.run w = t.run (w.addLiteral (String.ofList text))

/-- A step may write nothing. -/
theorem writesTo_nil {t : State} (hs : s.rest ≠ []) (h : s.step = .ok ⟨[], t⟩) :
    WritesTo s [] t :=
  run_of_step hs h

/-- What is written in two runs is written in one. -/
theorem WritesTo.trans {t u : State} {text text' : List Char} (h : WritesTo s text t)
    (h' : WritesTo t text' u) : WritesTo s (text ++ text') u := by
  intro w
  rw [h w, h' _, Segments.addLiteral_addLiteral, String.ofList_append]

end Scan

end AtTemplate
