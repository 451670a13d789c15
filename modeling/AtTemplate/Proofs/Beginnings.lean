import AtTemplate.Proofs.Marks
import AtTemplate.Proofs.OpenElements

/-!
# AtTemplate.Proofs.Beginnings

Where the constructs began that are open at the end of a run, the innermost first.  Blocks, tags,
elements and attribute values are remembered by their frames.  Where a text element began is known
only from the steps of the run: its markup keeps no more than that one is open.

* `rebegun_of_step` — a step ends innermost constructs, or it begins one ahead of all others;
* `ordered_of_run` — so the innermost construct is the one that was opened last;
* `beginning_of_scan_error` — what is reported at the end of the source, for each kind of construct;
* `scan_of_open_text` — a text element that is open, and the element before it that is reported.
-/

namespace AtTemplate

open Code Text
open AtTemplate.Markup

namespace Scan

/-! ## what is open after a run -/

/-- The place at which the markup was opened in which the step from here begins a text element. -/
def State.opensText? (s : State) : Option Nat :=
  match s.frames with
  | .markup m :: _ => if m.inText = false ∧ textOpening <+: s.rest then some m.openedAt else none
  | _ => none

/-- Where the last text element began in the markup that was opened at a place. -/
def textOpenedAt? (trace : List Transition) (openedAt : Nat) : Option Nat :=
  (trace.filter (·.before.opensText? = some openedAt)).getLast?.map (·.before.cursor.offset)

end Scan

/-- Where the constructs of a frame began, the innermost first.  `text?` tells where text elements
began. -/
def Frame.beginnings (text? : Nat → Option Nat) : Frame → List Beginning
  | .block b => [.block b.openedAt b.clause?]
  | .markup m =>
    (if m.inText then ((text? m.openedAt).map Beginning.text).toList else []) ++
      m.elements.elements.map fun e => .tag e.name e.span
  | .tag name span => [.tag name span]
  | .attributeValue quote openedAt => [.attributeValue quote openedAt]
  | _ => []

/-- Where the constructs of frames began, the innermost first. -/
def beginnings (text? : Nat → Option Nat) (frames : List Frame) : List Beginning :=
  frames.flatMap (Frame.beginnings text?)

/-- What is reported of markup in which something is open: its innermost element, or else the place
at which it was opened. -/
def MarkupFrame.reported (m : MarkupFrame) : Span :=
  (m.elements.innermost?.map Element.span).getD (.ofLength m.openedAt 1)

section

variable {text? : Nat → Option Nat} {above below : List Frame} {frame : Frame}

@[simp] theorem beginnings_nil : beginnings text? [] = [] := rfl

@[simp] theorem beginnings_cons :
    beginnings text? (frame :: below) = frame.beginnings text? ++ beginnings text? below := rfl

/-- What frames begin is listed from the innermost one on. -/
theorem beginnings_append :
    beginnings text? (above ++ below) = beginnings text? above ++ beginnings text? below :=
  List.flatMap_append

/-- Only markup in which a text element is open adds one. -/
theorem text_mem_beginnings_iff {frames : List Frame} {place : Nat} :
    .text place ∈ beginnings text? frames ↔
      ∃ m ∈ markups frames, m.inText = true ∧ text? m.openedAt = some place := by
  have hframe : ∀ frame : Frame, .text place ∈ frame.beginnings text? ↔
      ∃ m, frame.markup? = some m ∧ m.inText = true ∧ text? m.openedAt = some place := by
    intro frame
    cases frame with
    | markup m => by_cases hm : m.inText = true <;> simp [Frame.beginnings, Frame.markup?, hm]
    | _ => simp [Frame.beginnings, Frame.markup?]
  simp only [beginnings, List.mem_flatMap, hframe, markups, List.mem_filterMap]
  grind

/-- Markup in which nothing is open adds nothing. -/
theorem Frame.beginnings_of_isSettled {m : MarkupFrame} (h : m.isSettled = true) :
    (Frame.markup m).beginnings text? = [] := by
  simp only [MarkupFrame.isSettled, OpenElements.isEmpty, Bool.and_eq_true, List.isEmpty_iff,
    Bool.not_eq_true'] at h
  simp [beginnings, h.1, h.2]

end

namespace Scan

variable {s t : State} {m : Move} {trace : List Transition} {openedAt : Nat}
  {text? : Nat → Option Nat}

/-- Settled markup has nothing open, so that giving way to code leaves what has begun as it is. -/
theorem beginnings_yieldToCode (s : State) :
    beginnings text? s.yieldToCode.frames = beginnings text? s.frames := by
  unfold State.yieldToCode
  split
  · next markup below hf =>
    have hf : s.frames = .markup markup :: below := hf
    split
    · next hm => rw [hf, beginnings_cons, Frame.beginnings_of_isSettled hm]; rfl
    · rfl
  · rfl

/-- How a step changes what is open: it ends constructs from the innermost on, and may begin one
between two places that is no text element. -/
inductive Rebegun (start stop : Nat) : List Beginning → List Beginning → Prop
  /-- Some constructs end, or none. -/
  | kept {old new : List Beginning} (h : new <:+ old) : Rebegun start stop old new
  /-- Some constructs end, or none, and one begins. -/
  | begun {old kept : List Beginning} (b : Beginning) (h : kept <:+ old) (hb : b.isText = false)
      (hstart : start ≤ b.offset) (hstop : b.offset < stop) : Rebegun start stop old (b :: kept)

/-- **A step ends innermost constructs, or it begins one**, as long as it does not begin a text
element. -/
theorem rebegun_of_turn (hn : Nested s.frames) (hs : s.rest ≠ []) (htext : s.opensText? = none)
    (ht : s.Turn m) :
    Rebegun s.cursor.offset m.state.cursor.offset (beginnings text? s.frames)
      (beginnings text? m.state.frames) := by
  have hpop (above : List Frame) {below : List Frame} (hf : s.frames = above ++ below) :
      Rebegun s.cursor.offset m.state.cursor.offset (beginnings text? s.frames)
        (beginnings text? below) := by
    rw [hf, beginnings_append]
    exact .kept (List.suffix_append _ _)
  have hlt {n : Nat} (hpos : 0 < n) : s.cursor.offset < (s.cursor.advance n).offset := by
    refine (Cursor.reaches_advance n s.cursor).offset_lt_iff.2 ?_
    have := List.length_pos_iff.2 hs
    simp only [State.rest] at this
    simp only [Cursor.rest_advance, List.length_drop]
    omega
  have hclause {t : State} {keyword : Keyword} {brace : Cursor}
      (hreach : s.cursor.Reaches t.cursor) (hb : t.clauseBody keyword = .ok brace)
      (hkept : beginnings text? t.frames <:+ beginnings text? s.frames) :
      Rebegun s.cursor.offset (t.enterClause keyword brace).state.cursor.offset
        (beginnings text? s.frames)
        (beginnings text? (t.enterClause keyword brace).state.frames) :=
    .begun (.block t.cursor.offset (some keyword)) hkept rfl hreach.offset_le
      (offset_lt_enterClause hb)
  cases ht with
  | doubled | plain | lineEscape | comment | closeNothing | copy | explicit | implicit =>
    exact .kept (List.suffix_refl _)
  | clause _ hb =>
    refine hclause ?_ hb ?_
    · rw [State.cursor_skip, State.cursor_yieldToCode]
      exact Cursor.reaches_advance _ _
    · simp only [State.frames_skip, beginnings_yieldToCode, List.suffix_refl]
  | openBlock hd =>
    obtain ⟨rest, hr⟩ := rest_of_introduces hd rfl
    show Rebegun _ (s.yieldToCode.cursor.advance 2).offset _
      (.block s.yieldToCode.cursor.offset none :: beginnings text? s.yieldToCode.frames)
    rw [State.cursor_yieldToCode, beginnings_yieldToCode]
    exact .begun _ (List.suffix_refl _) rfl (Nat.le_refl _) (hlt (by decide))
  | openMarkup =>
    have hopened : beginnings text? s.yieldToCode.openMarkup.state.frames =
        beginnings text? s.frames := by
      refine Eq.trans ?_ (beginnings_yieldToCode s)
      unfold State.openMarkup
      split
      · rfl
      · split <;> rfl
    rw [hopened]
    exact .kept (List.suffix_refl _)
  | closeInnermost _ hf =>
    obtain ⟨hframes, -⟩ := FrameStack.splitAtBlock?_eq_some hf
    rw [List.append_cons] at hframes
    exact hpop _ hframes
  | enterMarkup => exact .kept (List.suffix_refl _)
  | token hf =>
    rw [hf]
    exact .kept (List.suffix_refl _)
  | lastToken hf | endLine hf | leaveMarkup hf | closeValue hf | loseTag hf | loseWhole hf
    | endSelfClosing hf => exact hpop [_] hf
  | nextClause hf _ _ _ _ _ _ _ hb =>
    refine hclause ((Cursor.reaches_advance _ _).trans (Cursor.reaches_advance _ _)) hb ?_
    rw [hf]
    exact List.suffix_append _ _
  | openText hf htext' hs =>
    simp [State.opensText?, hf, htext', hs] at htext
  | @closeText markup _ hf ht =>
    rw [hf]
    refine .kept ⟨((text? markup.openedAt).map Beginning.text).toList, ?_⟩
    simp [Frame.beginnings, ht]
  | @closingTag markup _ _ element _ hf ht _ _ _ hc =>
    rw [hf]
    refine .kept ⟨[.tag element.name element.span], ?_⟩
    simp [Frame.beginnings, ht, (eq_cons_of_close hc).1]
  | openingTag _ _ _ hname =>
    exact .begun _ (List.suffix_refl _) rfl (Nat.le_refl _) (hlt (by omega))
  | openValue => exact .begun _ (List.suffix_refl _) rfl (Nat.le_refl _) (hlt (by decide))
  | endTag hf =>
    rw [hf] at hn ⊢
    have ht := hn.1
    simp only [Frame.liesOn, List.head?_cons, Bool.not_eq_true'] at ht
    refine .kept ⟨[], ?_⟩
    simp [Frame.beginnings, OpenElements.openElement, ht]

/-- No text element is open after a step that was not before, unless the step begins one. -/
theorem Rebegun.text_mem {start stop place : Nat} {old new : List Beginning}
    (h : Rebegun start stop old new) (hmem : .text place ∈ new) : .text place ∈ old := by
  cases h with
  | kept h => exact h.subset hmem
  | begun b h hb =>
    obtain rfl | hmem := List.mem_cons.1 hmem
    · cases hb
    · exact h.subset hmem

/-! ## text elements -/

/-- A text element is opened in markup in which none is open, at the mark that opens it. -/
theorem opensText?_eq_some (h : s.opensText? = some openedAt) :
    ∃ markup below, s.frames = .markup markup :: below ∧ markup.inText = false ∧
      textOpening <+: s.rest ∧ markup.openedAt = openedAt := by
  unfold State.opensText? at h
  split at h
  · next hf =>
    split at h
    · next ht =>
      exact ⟨_, _, hf, ht.1, ht.2, Option.some.inj h⟩
    · cases h
  · cases h

/-- The last text element that a run opens in some markup is the one that counts. -/
theorem textOpenedAt?_snoc (x : Transition) :
    textOpenedAt? (trace ++ [x]) openedAt =
      if x.before.opensText? = some openedAt then some x.before.cursor.offset
      else textOpenedAt? trace openedAt := by
  unfold textOpenedAt?
  rw [List.filter_append]
  split
  · next h => simp [h]
  · next h => simp [h]

/-- A step that begins no text element changes nothing about where they began. -/
theorem textOpenedAt?_snoc_of_none (h : s.opensText? = none) :
    textOpenedAt? (trace ++ [⟨s, m⟩]) = textOpenedAt? trace := by
  funext openedAt
  simp [textOpenedAt?_snoc, h]

/-- What is open in frames depends on where text elements began in their markup alone. -/
theorem beginnings_congr {f g : Nat → Option Nat} {frames : List Frame}
    (h : ∀ k ∈ markups frames, f k.openedAt = g k.openedAt) :
    beginnings f frames = beginnings g frames := by
  induction frames with
  | nil => rfl
  | cons frame below ih =>
    cases frame with
    | markup k =>
      rw [markups_markup, List.forall_mem_cons] at h
      rw [beginnings_cons, beginnings_cons, ih h.2, Frame.beginnings, Frame.beginnings, h.1]
    | _ => exact congrArg _ (ih h)

/-- A step that begins a text element leaves all else that is open as it is. -/
theorem beginnings_of_opensText? {source : String} (h : Reached source s)
    (hm : s.step = .ok m) (ht : s.opensText? = some openedAt) :
    beginnings (textOpenedAt? (trace ++ [⟨s, m⟩])) m.state.frames =
      .text s.cursor.offset :: beginnings (textOpenedAt? trace) s.frames := by
  obtain ⟨markup, below, hf, htext, hs, rfl⟩ := opensText?_eq_some ht
  have hp := pairwise_of_reached h
  rw [hf, markups_markup, List.pairwise_cons] at hp
  have hbelow : beginnings (textOpenedAt? (trace ++ [⟨s, m⟩])) below =
      beginnings (textOpenedAt? trace) below := by
    refine beginnings_congr fun k hk => ?_
    have hne : markup.openedAt ≠ k.openedAt := Nat.ne_of_gt (hp.1 k hk)
    rw [textOpenedAt?_snoc, ht, if_neg (by simpa using hne)]
  rw [step_of_openText hf htext hs] at hm
  cases hm
  rw [hf, State.frames_within, beginnings_cons, hbelow]
  simp [Frame.beginnings, textOpenedAt?_snoc, ht, htext]

/-! ## runs -/

/-- Each construct began behind those around it, and all of them before a place. -/
def Ordered (stop : Nat) (bs : List Beginning) : Prop :=
  bs.Pairwise (fun b outer => outer.offset < b.offset) ∧ ∀ b ∈ bs, b.offset < stop

/-- What was begun before is in order still when some of it is done. -/
theorem Ordered.of_suffix {start stop : Nat} {old new : List Beginning} (h : Ordered start old)
    (hle : start ≤ stop) (hs : new <:+ old) : Ordered stop new :=
  ⟨h.1.sublist hs.sublist, fun b hb => Nat.lt_of_lt_of_le (h.2 b (hs.subset hb)) hle⟩

/-- What begins behind all that is open is in order with it. -/
theorem Ordered.cons {start stop : Nat} {bs : List Beginning} {b : Beginning}
    (h : Ordered start bs) (hstart : start ≤ b.offset) (hstop : b.offset < stop) :
    Ordered stop (b :: bs) :=
  ⟨.cons (fun outer hb => Nat.lt_of_lt_of_le (h.2 outer hb) hstart) h.1,
    List.forall_mem_cons.2 ⟨hstop, fun outer hb => Nat.lt_of_lt_of_le (h.2 outer hb)
      (Nat.le_trans hstart (Nat.le_of_lt hstop))⟩⟩

/-- What a step begins, or begins anew, lies behind all that is still open. -/
theorem Rebegun.ordered {start stop : Nat} {old new : List Beginning}
    (h : Rebegun start stop old new) (hle : start ≤ stop) (ho : Ordered start old) :
    Ordered stop new := by
  cases h with
  | kept h => exact ho.of_suffix hle h
  | begun b h _ hstart hstop => exact (ho.of_suffix (Nat.le_refl _) h).cons hstart hstop

/-- **The innermost construct is the one that was opened last.** -/
theorem ordered_of_run {source : String} (h : Run (.start source.toList) trace s) :
    Ordered s.cursor.offset (beginnings (textOpenedAt? trace) s.frames) := by
  refine h.snoc_induction (P := fun trace s =>
    Ordered s.cursor.offset (beginnings (textOpenedAt? trace) s.frames)) ⟨.nil, nofun⟩ ?_
  intro trace s m hrun ho hs hm
  have hturn := State.turn_of_step hs hm
  cases ht : s.opensText? with
  | none =>
    rw [textOpenedAt?_snoc_of_none ht]
    exact (rebegun_of_turn (nested_of_reached ⟨trace, hrun⟩) hs ht hturn).ordered
      (State.reaches_of_turn hturn).offset_le ho
  | some openedAt =>
    rw [beginnings_of_opensText? ⟨trace, hrun⟩ hm ht]
    refine ho.cons (Nat.le_refl _) ?_
    obtain ⟨markup, below, hf, htext, hp, -⟩ := opensText?_eq_some ht
    rw [step_of_openText hf htext hp] at hm
    cases hm
    rw [State.cursor_within, State.cursor_skip, Cursor.offset_advance_of_prefix hp]
    exact Nat.lt_add_of_pos_right (by decide)

/-- Of every text element that is open it is known where it began. -/
theorem exists_textOpenedAt? {source : String} (h : Run (.start source.toList) trace s) :
    ∀ k ∈ markups s.frames, k.inText = true →
      ∃ place, textOpenedAt? trace k.openedAt = some place := by
  refine h.snoc_induction (P := fun trace s => ∀ k ∈ markups s.frames, k.inText = true →
    ∃ place, textOpenedAt? trace k.openedAt = some place) nofun ?_
  intro trace s m hrun ih hs hm k hk htext
  cases ht : s.opensText? with
  | none =>
    -- markup in which one is open now was open before, and one was open in it
    have hstep : Rebegun _ _ (beginnings some s.frames) (beginnings some m.state.frames) :=
      rebegun_of_turn (nested_of_reached ⟨trace, hrun⟩) hs ht (State.turn_of_step hs hm)
    obtain ⟨l, hl, hopen, hplace⟩ := text_mem_beginnings_iff.1
      (hstep.text_mem (text_mem_beginnings_iff.2 ⟨k, hk, htext, rfl⟩))
    rw [textOpenedAt?_snoc_of_none ht, ← Option.some.inj hplace]
    exact ih l hl hopen
  | some openedAt =>
    obtain ⟨markup, below, hf, hnone, hp, rfl⟩ := opensText?_eq_some ht
    rw [step_of_openText hf hnone hp] at hm
    cases hm
    rw [textOpenedAt?_snoc]
    split
    · exact ⟨_, rfl⟩
    · next hne =>
      obtain rfl | hk := List.mem_cons.1 hk
      · exact absurd ht hne
      · exact ih k (by rw [hf]; exact List.mem_cons_of_mem _ hk) htext

/-- Text elements begin with their tag. -/
theorem stands_of_textOpenedAt? {source : String} {place : Nat}
    (h : Run (.start source.toList) trace s) (ht : textOpenedAt? trace openedAt = some place) :
    (Beginning.text place).Stands source.toList := by
  obtain ⟨x, hx, rfl⟩ := Option.map_eq_some_iff.1 ht
  obtain ⟨hmem, hopens⟩ := List.mem_filter.1 (List.mem_of_getLast? hx)
  obtain ⟨xs, -, -, hrun, -⟩ := h.of_mem hmem
  obtain ⟨-, -, -, -, hp, -⟩ := opensText?_eq_some (by simpa using hopens)
  exact ⟨x.before.cursor, hrun.source_eq, rfl, hp⟩

/-- Every construct that is open begins with its mark. -/
theorem stands_of_run {source : String} (h : Run (.start source.toList) trace s) :
    ∀ b ∈ beginnings (textOpenedAt? trace) s.frames, b.Stands source.toList := by
  intro b hb
  obtain ⟨frame, hframe, hb⟩ := List.mem_flatMap.1 hb
  have hrec := recorded_of_reached ⟨trace, h⟩ frame hframe
  cases frame with
  | block | tag | attributeValue =>
    obtain rfl := List.mem_singleton.1 hb
    exact hrec
  | markup m =>
    obtain hb | hb := List.mem_append.1 hb
    · split at hb
      · obtain ⟨place, hplace, rfl⟩ := Option.map_eq_some_iff.1 (Option.mem_toList.1 hb)
        exact stands_of_textOpenedAt? h hplace
      · cases hb
    · obtain ⟨e, he, rfl⟩ := List.mem_map.1 hb
      exact hrec.2 e he
  | expression | comment | lineEscape => cases hb

/-! ## what is reported -/

/-- **What is reported of frames that are left open.**  It is the innermost construct, where that
begins, unless it is a text element. -/
theorem unclosed_of_nested {frames : List Frame} (hn : Nested frames) (hne : frames ≠ [])
    (htext : ∀ k ∈ markups frames, k.inText = true → ∃ place, text? k.openedAt = some place) :
    ∃ opening outer span, beginnings text? frames = opening :: outer ∧
      frames.findSome? Frame.unclosed? = some (.unclosed opening.construct span) ∧
      (opening.isText = false → span.start = opening.offset) ∧
      ∀ place, opening = .text place → ∃ markup below, frames = .markup markup :: below ∧
        markup.inText = true ∧ span = markup.reported := by
  obtain ⟨frame, below, rfl⟩ := List.exists_cons_of_ne_nil hne
  cases frame with
  | block | tag | attributeValue => exact ⟨_, _, _, rfl, rfl, fun _ => rfl, nofun⟩
  | expression | comment | lineEscape => cases hn.isWhole_eq_false
  | markup m =>
    obtain ⟨block, outer, rfl⟩ := hn.exists_block
    obtain ⟨openedAt, ⟨elements⟩, inText⟩ := m
    cases inText with
    | true =>
      obtain ⟨place, hplace⟩ := htext _ List.mem_cons_self rfl
      have hopen : ∃ tail, beginnings text? (.markup ⟨openedAt, ⟨elements⟩, true⟩ ::
          .block block :: outer) = .text place :: tail := by
        simp [Frame.beginnings, hplace]
      obtain ⟨tail, htail⟩ := hopen
      refine ⟨.text place, tail, MarkupFrame.reported ⟨openedAt, ⟨elements⟩, true⟩, htail, ?_,
        nofun, fun _ _ => ⟨_, _, rfl, rfl, rfl⟩⟩
      cases elements <;> rfl
    | false =>
      cases elements with
      | nil => exact ⟨_, _, _, rfl, rfl, fun _ => rfl, nofun⟩
      | cons e elements => exact ⟨_, _, _, rfl, rfl, fun _ => rfl, nofun⟩

/-- **What a template is refused for when something is open at its end.**  The constructs that are
open there began one behind the other, each with its mark, and the innermost is the one that was
opened last.  It is reported where it began, unless it is a text element: then the innermost element
of its markup is reported, or else the place at which that markup was opened.  This is where the
text element began only if no element is open in the markup and nothing stood before the text
element in it. -/
theorem beginning_of_scan_error (source : String) :
    ∀ trace s, Run (.start source.toList) trace s → s.rest = [] → s.frames ≠ [] →
      (∀ k ∈ markups s.frames, k.inText = true →
        ∃ place, textOpenedAt? trace k.openedAt = some place) ∧
      ∃ opening outer span, beginnings (textOpenedAt? trace) s.frames = opening :: outer ∧
        (∀ b ∈ outer, b.offset < opening.offset) ∧
        (∀ b ∈ opening :: outer, b.Stands source.toList) ∧
        scan source = .error (.unclosed opening.construct span) ∧
        (opening.isText = false → span.start = opening.offset) ∧
        ∀ place, opening = .text place → ∃ markup below, s.frames = .markup markup :: below ∧
          markup.inText = true ∧ span = markup.reported ∧
          (span.start = place ↔ markup.elements.isEmpty = true ∧ markup.openedAt = place) := by
  intro trace s hrun hs hne
  have htexts := exists_textOpenedAt? hrun
  have hstands := stands_of_run hrun
  have hordered := (ordered_of_run hrun).1
  obtain ⟨opening, outer, span, hopen, hreport, hstart, htext⟩ :=
    unclosed_of_nested (nested_of_reached ⟨trace, hrun⟩) hne htexts
  rw [hopen] at hstands hordered
  refine ⟨htexts, opening, outer, span, hopen, (List.pairwise_cons.1 hordered).1, hstands,
    scan_eq_error ⟨trace, hrun⟩ hs hreport, hstart, ?_⟩
  rintro place rfl
  obtain ⟨markup, below, hf, hin, rfl⟩ := htext place rfl
  refine ⟨markup, below, hf, hin, rfl, ?_⟩
  have hbehind := (List.pairwise_cons.1 hordered).1
  obtain ⟨openedAt, ⟨elements⟩, inText⟩ := markup
  obtain rfl : inText = true := hin
  cases elements with
  | nil => exact ⟨fun h => ⟨rfl, h⟩, fun h => h.2⟩
  | cons e elements =>
    -- the element began before the text element, which lies in it
    have he : .tag e.name e.span ∈ outer := by
      rw [hf] at hopen
      cases hplace : textOpenedAt? trace openedAt with
      | none => simp [Frame.beginnings, hplace] at hopen
      | some p =>
        simp only [Frame.beginnings, hplace, beginnings_cons] at hopen
        obtain ⟨-, rfl⟩ := List.cons.inj hopen
        simp
    exact iff_of_false (Nat.ne_of_lt (hbehind _ he)) fun h => Bool.false_ne_true h.1

/-- A text element in an element, behind the brace of a block. -/
theorem run_open_text (source : String)
    (h : source = r"@{ <b><text>x" ∨ source = r"@{ <b><text>x@{ y") :
    ∃ trace, Run (.start source.toList) trace (((State.start source.toList).skip 13).within
        [.markup ⟨3, ⟨[⟨"b", false, ⟨3, 5⟩⟩]⟩, true⟩, .block (.opened 0 none)]) ∧
      textOpenedAt? trace 3 = some 6 := by
  let start := State.start source.toList
  let place (n : Nat) (frames : List Frame) : State := (start.skip n).within frames
  let block : Frame := .block (.opened 0 none)
  let element : OpenElements := ⟨[⟨"b", false, ⟨3, 5⟩⟩]⟩
  obtain rfl | rfl := h
  all_goals
    exact ⟨_,
      .cons (m := ⟨[.brace], place 2 [block]⟩) (by decide +kernel) (by decide +kernel) <|
      .cons (m := ⟨[.token .space [' ']], place 3 [block]⟩) (by decide +kernel)
        (by decide +kernel) <|
      .cons (m := ⟨[], place 3 [.markup (.opened 3), block]⟩) (by decide +kernel)
        (by decide +kernel) <|
      .cons (m := ⟨[.text ['<', 'b']], place 5 [.tag "b" ⟨3, 5⟩, .markup (.opened 3), block]⟩)
        (by decide +kernel) (by decide +kernel) <|
      .cons (m := ⟨[.text ['>']], place 6 [.markup ⟨3, element, false⟩, block]⟩)
        (by decide +kernel) (by decide +kernel) <|
      .cons (m := ⟨[], place 12 [.markup ⟨3, element, true⟩, block]⟩) (by decide +kernel)
        (by decide +kernel) <|
      .cons (m := ⟨[.text ['x']], place 13 [.markup ⟨3, element, true⟩, block]⟩)
        (by decide +kernel) (by decide +kernel) <| .nil _,
      by decide +kernel⟩

/-- A block in the text element: four constructs are open, and the block is reported. -/
theorem beginnings_of_open_block :
    ∃ trace s span, Run (.start r"@{ <b><text>x@{ y".toList) trace s ∧ s.rest = [] ∧
      s.frames ≠ [] ∧ beginnings (textOpenedAt? trace) s.frames =
        [.block 13 none, .text 6, .tag "b" ⟨3, 5⟩, .block 0 none] ∧
      scan r"@{ <b><text>x@{ y" = .error (.unclosed .block span) ∧ span.start = 13 := by
  let start := State.start r"@{ <b><text>x@{ y".toList
  let frames : List Frame := [.block (.opened 13 none),
    .markup ⟨3, ⟨[⟨"b", false, ⟨3, 5⟩⟩]⟩, true⟩, .block (.opened 0 none)]
  let place (n : Nat) : State := (start.skip n).within frames
  obtain ⟨trace, hrun, hplace⟩ : ∃ trace, Run start trace (place 17) ∧
      textOpenedAt? trace 3 = some 6 := by
    obtain ⟨trace, hrun, hplace⟩ := run_open_text _ (.inr rfl)
    refine ⟨_, ((hrun.snoc (m := ⟨[.brace], place 15⟩) (by decide +kernel) (by decide +kernel)).snoc
      (m := ⟨[.token .space [' ']], place 16⟩) (by decide +kernel) (by decide +kernel)).snoc
      (m := ⟨[.token .word ['y']], place 17⟩) (by decide +kernel) (by decide +kernel), ?_⟩
    rw [textOpenedAt?_snoc, if_neg (by decide +kernel), textOpenedAt?_snoc,
      if_neg (by decide +kernel), textOpenedAt?_snoc, if_neg (by decide +kernel), hplace]
  have hopen : beginnings (textOpenedAt? trace) frames =
      [.block 13 none, .text 6, .tag "b" ⟨3, 5⟩, .block 0 none] := by
    simp [frames, Frame.beginnings, hplace, BlockFrame.opened]
  obtain ⟨-, opening, outer, span, hb, -, -, hscan, hstart, -⟩ :=
    beginning_of_scan_error _ trace (place 17) hrun (by decide +kernel) (List.cons_ne_nil _ _)
  obtain ⟨rfl, -⟩ := List.cons.inj (hopen.symm.trans hb)
  exact ⟨trace, _, span, hrun, by decide +kernel, List.cons_ne_nil _ _, hopen, hscan, hstart rfl⟩

/-- A text element in an element that is left open with it: the text element was opened last, and
the element before it is reported. -/
theorem scan_of_open_text :
    (∃ trace s, Run (.start r"@{ <b><text>x".toList) trace s ∧ s.rest = [] ∧
      beginnings (textOpenedAt? trace) s.frames = [.text 6, .tag "b" ⟨3, 5⟩, .block 0 none]) ∧
    scan r"@{ <b><text>x" = .error (.unclosed .tag ⟨3, 5⟩) := by
  obtain ⟨trace, hrun, hplace⟩ := run_open_text _ (.inl rfl)
  refine ⟨⟨trace, _, hrun, by decide +kernel, ?_⟩, by decide +kernel⟩
  simp [Frame.beginnings, hplace, BlockFrame.opened]

end Scan

end AtTemplate
