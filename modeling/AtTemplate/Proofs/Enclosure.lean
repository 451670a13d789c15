import AtTemplate.Proofs.Embedding
import AtTemplate.Proofs.MarkupBlock
import Mathlib.Logic.Function.Iterate

/-!
# AtTemplate.Proofs.Enclosure

A template within the markup of another one.  In a text element the text of a template is copied as
it is outside of all frames, so a template may be enclosed in a block of code, to any depth, and it
is scanned there as it is alone.

* `Fits.enclose` — a text that fits into any surroundings still does when it is enclosed;
* `scan_enclose` — a template that is accepted is accepted when it is enclosed.
-/

namespace AtTemplate

open Code Text
open AtTemplate.Markup

/-- A block of code that holds a text element with a template in it. -/
def enclose (source : String) : String :=
  r"@{ <text>" ++ source ++ "\n</text>\n" ++ r"}"

/-- The segments of a block of code that holds a text element with a template in it. -/
def encloseSegments (segments : List Segment) : List Segment :=
  Segments.ofPieces ([.code r"{ "] ++ segments ++ [.literal "\n\n", .code r"}"])

/-- The end of the text element bounds the template in front of it. -/
theorem detached_closing (text : List Char) :
    Detached ('\n' :: (textClosing ++ ['\n', '}'] ++ text)) where
  line := by simp [firstLine]
  trimmed c hc := by
    have hnewline : isBlank '\n' = true := by decide
    have hangle : isBlank '<' = false := by decide
    rw [trimStart, List.dropWhile_cons_of_pos hnewline, textClosing, List.cons_append,
      List.cons_append, List.dropWhile_cons_of_neg (by simp [hangle])] at hc
    exact .inr (Option.some.inj hc).symm

/-- What lies around a template that is enclosed in surroundings. -/
def Surroundings.enclose (k : Surroundings) : Surroundings where
  before := r"@{ <text>".toList.reverse ++ k.before
  after := '\n' :: (textClosing ++ ['\n', '}'] ++ k.after)
  frames := .markup { MarkupFrame.opened (k.bytes + 3) with inText := true } ::
    .block (.opened k.bytes none) :: k.frames
  before_mailbox := show Directive.endsMailbox '>' = false by decide
  after_detached := detached_closing k.after
  frames_text := rfl

namespace Scan

variable {source : String} {segments : List Segment}

/-! ## the block around a template -/

/-- The scan enters the block and the text element. -/
theorem run_enter (k : Surroundings) (source : String) (w : Segments) :
    ((State.start (enclose source).toList).inside k).run w =
      ((State.start source.toList).inside k.enclose).run (w.addCode r"{ ") := by
  generalize hs : (State.start (enclose source).toList).inside k = s
  have hf : s.frames = k.frames := by rw [← hs]; rfl
  have hb : s.cursor.before = k.before := by rw [← hs]; rfl
  have hoffset : s.cursor.offset = k.bytes := by rw [s.cursor.offset_eq, hb]; rfl
  have hr : s.rest = '@' :: '{' :: ' ' :: (textOpening ++ (source.toList ++ k.enclose.after)) := by
    rw [← hs]
    simp [State.start, State.rest, enclose, Surroundings.enclose, textOpening, textClosing]
  let markup := (s.skip 3).within (.markup (.opened (s.cursor.offset + 3)) ::
    .block (.opened s.cursor.offset none) :: s.frames)
  have hmarkup : markup.rest = textOpening ++ (source.toList ++ k.enclose.after) := by
    simp [markup, hr]
  have hinner : (markup.skip textOpening.length).within
        (.markup { MarkupFrame.opened (s.cursor.offset + 3) with inText := true } ::
          .block (.opened s.cursor.offset none) :: s.frames) =
      (State.start source.toList).inside k.enclose := by
    refine State.eq_of_before_rest_frames ?_ ?_ ?_
    · simp [markup, Cursor.advance_advance, show s.cursor.rest = _ from hr, hb, textOpening,
        Surroundings.enclose, State.start, Cursor.start]
    · rw [State.rest_within, State.rest_skip, hmarkup, List.drop_left]
      rfl
    · rw [State.frames_within, hoffset, hf]
      rfl
  have hstarts : startsMarkup (textOpening ++ (source.toList ++ k.enclose.after)) = true := by
    simp [startsMarkup, startsTag, openingName, takeTagName, textOpening]
  have htext := step_of_openText (s := markup) rfl rfl ⟨_, hmarkup.symm⟩
  rw [run_openBlock (hf ▸ k.frames_text) hr hstarts,
    run_of_step (s := markup) (by simp [hmarkup, textOpening]) htext, ← hinner]
  rfl

/-- Behind the template the scan leaves the text element and the block. -/
theorem run_leave (k : Surroundings) (source : String) (w : Segments) :
    ((State.finish source.toList).inside k.enclose).run w =
      ((State.finish (enclose source).toList).inside k).run
        ((w.addLiteral "\n\n").addCode r"}") := by
  generalize hs : (State.finish source.toList).inside k.enclose = s
  have hf : s.frames = k.enclose.frames := by rw [← hs]; rfl
  have hb : s.cursor.before = source.toList.reverse ++ k.enclose.before := by
    rw [← hs, State.cursor_inside, Cursor.before_amid, State.before_finish]
  have hr : s.rest = '\n' :: (textClosing ++ '\n' :: '}' :: k.after) := by
    rw [← hs, State.rest_inside, State.rest_finish]
    simp [Surroundings.enclose]
  have hnewline : Copies s.frames s.rest := by
    rw [hf, hr]
    exact copies_of_holdsText rfl (by decide) (.inr (by simp [textClosing]))
  have hclosing : (s.skip 1).rest = textClosing ++ '\n' :: '}' :: k.after := by simp [hr]
  have hframes : (s.skip 1).frames =
      .markup { MarkupFrame.opened (k.bytes + 3) with inText := true } ::
        .block (.opened k.bytes none) :: k.frames := hf
  have htext := step_of_closeText hframes rfl ⟨_, hclosing.symm⟩
  generalize hcode : ((s.skip 1).skip textClosing.length).within _ = code at htext
  have hcodeRest : code.rest = '\n' :: '}' :: k.after := by
    rw [← hcode]
    simp [hr, textClosing]
  have hcodeFrames : code.frames =
      .markup (.opened (k.bytes + 3)) :: .block (.opened k.bytes none) :: k.frames := by
    rw [← hcode]
    rfl
  have houter : (code.skip 2).within k.frames =
      (State.finish (enclose source).toList).inside k := by
    refine State.eq_of_before_rest_frames ?_ ?_ rfl
    · rw [← hcode, State.cursor_within, State.cursor_skip, State.cursor_within, State.cursor_skip,
        State.cursor_skip, Cursor.advance_advance, Cursor.advance_advance, Cursor.before_advance,
        ← State.rest, hr, hb, State.cursor_inside, Cursor.before_amid, State.before_finish]
      simp [enclose, Surroundings.enclose, textClosing]
    · simp [hcodeRest]
  rw [run_char hr hnewline, run_of_step (by simp [hclosing, textClosing]) htext,
    run_closeBlock hcodeFrames rfl rfl rfl hcodeRest, houter,
    ← show "\n" ++ "\n" = "\n\n" by decide, ← Segments.addLiteral_addLiteral]
  rfl

/-! ## templates in any surroundings -/

/-- The text is scanned alike in any surroundings. -/
def Fits (source : String) (segments : List Segment) : Prop :=
  ∀ (k : Surroundings) (w : Segments), ((State.start source.toList).inside k).run w =
    ((State.finish source.toList).inside k).run (w.addAll segments)

/-- A template that may be enclosed: outside of all its frames it closes no block and opens no
markup, and no text element ends in the text that it copies there. -/
def Enclosable (source : String) : Prop :=
  ∀ s, Reached source s → s.rest ≠ [] → s.Enclosable

theorem fits_of_scan (h : scan source = .ok segments) (he : Enclosable source) :
    Fits source segments :=
  fun _ w => run_inside_of_scan h (.inr he) w

theorem scan_of_fits (h : Fits source segments) :
    scan source = .ok (Segments.ofPieces segments) := by
  have hstart : (State.start source.toList).inside .alone = .start source.toList :=
    State.eq_of_before_rest_frames rfl (List.append_nil _) rfl
  have hrun := h .alone .empty
  rw [hstart, run_of_rest_eq_nil (s := (State.finish source.toList).inside .alone)
    (by rw [State.rest_inside, State.rest_finish]; rfl)] at hrun
  rw [scan_eq_map, hrun]
  rfl

/-- **A text that fits into any surroundings still does when it is enclosed.** -/
theorem Fits.enclose (h : Fits source segments) :
    Fits (enclose source) (encloseSegments segments) := by
  intro k w
  rw [run_enter, h k.enclose, run_leave, encloseSegments, Segments.addAll_ofPieces,
    Segments.addAll_append, Segments.addAll_append]
  rfl

/-- **Templates nest without changing meaning.** -/
theorem scan_enclose (h : scan source = .ok segments) (he : Enclosable source) :
    scan (r"@{ <text>" ++ source ++ "\n</text>\n" ++ r"}") =
        .ok (Segments.ofPieces ([.code r"{ "] ++ segments ++ [.literal "\n\n", .code r"}"])) ∧
      ∀ n, scan (enclose^[n] source) = .ok (encloseSegments^[n] segments) := by
  have hfits (n : Nat) : Fits (enclose^[n] source) (encloseSegments^[n] segments) := by
    induction n with
    | zero => exact fits_of_scan h he
    | succ n ih =>
      rw [Function.iterate_succ_apply', Function.iterate_succ_apply']
      exact ih.enclose
  have hscan (n : Nat) : scan (enclose^[n] source) = .ok (encloseSegments^[n] segments) := by
    cases n with
    | zero => exact h
    | succ n =>
      rw [scan_of_fits (hfits (n + 1)), Function.iterate_succ_apply', encloseSegments,
        Segments.ofPieces_ofPieces]
  exact ⟨hscan 1, hscan⟩

/-- A template with text and a block that holds markup, within the markup of another block. -/
theorem scan_enclose_block :
    scan "é@{ <b>y</b> }" = .ok [.literal "é", .code r"{ ", .literal "<b>y</b> ", .code r"}"] ∧
      Enclosable "é@{ <b>y</b> }" ∧
      scan (r"@{ <text>" ++ "é@{ <b>y</b> }" ++ "\n</text>\n" ++ r"}") =
        .ok [.code r"{ ", .literal "é", .code r"{ ", .literal "<b>y</b> ", .code r"}",
          .literal "\n\n", .code r"}"] := by
  have h : scan "é@{ <b>y</b> }" =
      .ok [.literal "é", .code r"{ ", .literal "<b>y</b> ", .code r"}"] := by decide +kernel
  have he : Enclosable "é@{ <b>y</b> }" := by
    obtain ⟨trace, t, hrun, hend, htrace⟩ : ∃ trace t,
        Run (.start "é@{ <b>y</b> }".toList) trace t ∧
          t.rest = [] ∧ ∀ x ∈ trace, x.before.Enclosable := by
      refine ⟨_, _, .cons ?_ rfl (.cons ?_ rfl (.cons ?_ rfl (.cons ?_ rfl (.cons ?_ rfl
        (.cons ?_ rfl (.cons ?_ rfl (.cons ?_ rfl (.cons ?_ rfl (.cons ?_ rfl (.cons ?_ rfl
          (.nil _))))))))))), rfl, ?_⟩
      case refine_12 => decide +kernel
      all_goals nofun
    intro s ⟨xs, hs⟩ hne
    obtain ⟨m, hm⟩ := hrun.mem_of_run hend hs hne
    exact htrace _ hm
  refine ⟨h, he, ?_⟩
  simpa [Segments.ofPieces, Segments.empty, Segments.add, Segments.addCode, Segments.addLiteral,
    Segments.toList] using (scan_enclose h he).1

end Scan

end AtTemplate
