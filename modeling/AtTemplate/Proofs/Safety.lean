import AtTemplate.Proofs.OffsetSteps

/-!
# AtTemplate.Proofs.Safety

A scan never breaks off.  The scan by byte offsets checks every operation that is not defined for
all that it may be given; in every state that a scan comes to, each of them is defined, so that it
does what the scan by cursors does.

* `sound_of_turn` — what a step relies on, it leaves to the next one;
* `step_scanner` — a step by offsets is the step by cursors;
* `scan_safe` — and so is the scan.
-/

namespace AtTemplate

open Code Text Offsets Checked

/-- The quote of an attribute value takes one byte. -/
def Frame.QuoteIsByte : Frame → Prop
  | .attributeValue quote _ => quote.utf8Size = 1
  | _ => True

namespace Scan

variable {source : List Char} {s : State} {m : Move} {w : Segments}

/-! ## what a step relies on -/

/-- What the routines of a step rely on: the cursor stands in the source, the counts of the blocks
are at most what has been read, a brace is open in every block, and quotes take one byte. -/
structure Sound (source : List Char) (s : State) : Prop where
  source_eq : s.cursor.source = source
  counted : Counted source.length s
  isOpen : Open (blocks s.frames)
  quotes : ∀ frame ∈ s.frames, frame.QuoteIsByte

theorem sound_start (source : List Char) : Sound source (.start source) where
  source_eq := rfl
  counted := ⟨Nat.le_refl _, List.forall_mem_nil _⟩
  isOpen := List.forall_mem_nil _
  quotes := List.forall_mem_nil _

/-- Only a quotation mark begins an attribute value. -/
theorem quotes_of_turn (h : ∀ frame ∈ s.frames, frame.QuoteIsByte) (ht : s.Turn m) :
    ∀ frame ∈ m.state.frames, frame.QuoteIsByte := by
  have hbelow {frame : Frame} {below : List Frame} (hf : s.frames = frame :: below) :
      ∀ frame ∈ below, frame.QuoteIsByte := (List.forall_mem_cons.1 (hf ▸ h)).2
  have hyield : ∀ frame ∈ s.yieldToCode.frames, frame.QuoteIsByte :=
    fun frame hframe => h frame (State.mem_of_mem_yieldToCode hframe)
  cases ht with
  | doubled | plain | lineEscape | comment | closeNothing | copy | explicit | implicit => exact h
  | clause | openBlock => exact List.forall_mem_cons.2 ⟨trivial, hyield⟩
  | openMarkup =>
    unfold State.openMarkup
    split
    · exact List.forall_mem_cons.2 ⟨trivial, hyield⟩
    · split <;> exact hyield
  | closeInnermost _ hf =>
    intro frame hframe
    rw [(FrameStack.splitAtBlock?_eq_some hf).1] at h
    exact h frame (List.mem_append_right _ (List.mem_cons_of_mem _ hframe))
  | enterMarkup | openingTag => exact List.forall_mem_cons.2 ⟨trivial, h⟩
  | openValue _ _ hc =>
    refine List.forall_mem_cons.2 ⟨?_, h⟩
    obtain rfl | rfl := hc <;> rfl
  | token hf | nextClause hf | openText hf | closeText hf | closingTag hf =>
    exact List.forall_mem_cons.2 ⟨trivial, hbelow hf⟩
  | lastToken hf | endLine hf | leaveMarkup hf | closeValue hf | loseTag hf | loseWhole hf =>
    exact hbelow hf
  | endTag hf | endSelfClosing hf =>
    exact List.forall_mem_cons.2 ⟨trivial, (List.forall_mem_cons.1 (hbelow hf)).2⟩

/-- What a step relies on, it leaves to the next one. -/
theorem sound_of_turn (h : Sound source s) (hs : s.rest ≠ []) (ht : s.Turn m) :
    Sound source m.state where
  source_eq := (State.reaches_of_turn ht).source_eq.trans h.source_eq
  counted := counted_of_turn h.counted h.isOpen hs ht
  isOpen := (rebalanced_of_turn h.isOpen ht).isOpen h.isOpen
  quotes := quotes_of_turn h.quotes ht

theorem sound_of_reached {source : String} (h : Reached source s) : Sound source.toList s := by
  obtain ⟨trace, hrun⟩ := h
  exact hrun.preserves (fun _ _ h hs ht => sound_of_turn h hs ht) (sound_start _)

/-- The counts of a block are numbers of 32 bits, also after the next token. -/
theorem Sound.within (h : Sound source s) (hsize : byteLength source ≤ Balance.maxCount)
    (hs : s.rest ≠ []) {block : BlockFrame} {below : List Frame}
    (hf : s.frames = .block block :: below) (kind : Token) :
    (block.balance.feed kind).Within Balance.maxCount := by
  obtain ⟨hread, hwithin⟩ := h.counted
  have hblock := hwithin block (by rw [hf, blocks_block_cons]; exact List.mem_cons_self)
  have hlen := length_le_byteLength source
  have hpos := List.length_pos_iff.2 hs
  exact (hblock.feed kind).mono (by omega)

/-! ## the scan by offsets -/

/-- **A step by offsets is the step by cursors.**  None of its operations is undefined. -/
theorem step_scanner (h : Sound source s) (hsize : byteLength source ≤ Balance.maxCount)
    (hs : s.rest ≠ []) : (s.scanner w).step source = s.step.checked w := by
  unfold Scanner.step State.step State.stepWith
  rw [frames_scanner]
  cases hf : s.frames with
  | nil => exact stepText_scanner h.source_eq hsize hs
  | cons frame below =>
    cases frame with
    | block block => exact stepBlock_scanner h.source_eq hsize hs hf (h.within hsize hs hf)
    | markup markup => exact stepMarkup_scanner h.source_eq hsize hs hf
    | tag name span => exact stepTag_scanner h.source_eq hsize hf
    | attributeValue quote openedAt =>
      have hq := h.quotes (.attributeValue quote openedAt) (by rw [hf]; exact List.mem_cons_self)
      exact stepValue_scanner h.source_eq hsize hf hq
    | expression | comment | lineEscape => rfl

theorem run_scanner {rounds : Nat} (h : Sound source s)
    (hsize : byteLength source ≤ Balance.maxCount) (hr : s.measure < rounds) :
    (s.scanner w).run source rounds = of ((s.run w).map Segments.toList) := by
  induction rounds generalizing s w with
  | zero => cases hr
  | succ rounds ih =>
    have hlen := Cursor.byteLength_rest h.source_eq
    rw [Scanner.run, pos_scanner, guarded_of (Cursor.isBoundary_offset h.source_eq)]
    by_cases hs : s.rest = []
    · have hend : ¬ s.cursor.offset < byteLength source := by
        rw [hlen, show s.cursor.rest = [] from hs]
        exact Nat.lt_irrefl _
      rw [if_neg hend, run_of_rest_eq_nil hs, Scanner.finish, frames_scanner]
      cases s.frames.findSome? Frame.unclosed? <;> rfl
    · have hbefore : s.cursor.offset < byteLength source := by
        have := byteLength_pos_iff.2 hs
        rw [hlen]
        exact Nat.lt_add_of_pos_right this
      rw [if_pos hbefore, step_scanner h hsize hs]
      cases hm : s.step with
      | error e => rw [run_of_step_error hs hm]; rfl
      | ok m =>
        have hlt := State.measure_lt_of_step hs hm
        rw [run_of_step hs hm, checked_ok, pure_bind]
        exact ih (sound_of_turn h hs (State.turn_of_step hs hm)) (by omega)

/-- The first state leaves as many steps as there may be rounds. -/
theorem measure_start_lt (source : List Char) :
    (State.start source).measure < 4 * byteLength source + 3 := by
  have hlen : (State.start source).rest.length ≤ byteLength source := length_le_byteLength source
  have hframes : (State.start source).frames.length = 0 := rfl
  unfold State.measure
  split <;> omega

/-- **A scan never breaks off.**  In a source of less than two to the power of 31 bytes, the offset
of every state that a scan comes to lies in the source and between two of its characters, and the
step from there by offsets goes through: its slices begin and end, in this order, at boundaries of
the text that they are cut from, no length is taken from a smaller one, the parentheses and braces
of the blocks and those that are counted on the way to the end of a group or to the body of a
clause are numbers of 32 bits, and it does what the step by cursors does.  So the whole scan by
offsets ends, and with the segments or the error of the scan by cursors. -/
theorem scan_safe {source : String} (hsize : source.utf8ByteSize ≤ Balance.maxCount) :
    (∀ s, Reached source s →
      s.cursor.offset ≤ source.utf8ByteSize ∧ String.Pos.Raw.IsValid source ⟨s.cursor.offset⟩ ∧
      (s.rest ≠ [] → ∀ w,
        (s.scanner w).step source.toList = some (s.step.map (Move.scanner w)))) ∧
    Offsets.scan source = some (AtTemplate.scan source) := by
  rw [← byteLength_toList] at hsize ⊢
  constructor
  · intro s h
    have hsound := sound_of_reached h
    have hboundary := Cursor.isBoundary_offset hsound.source_eq
    exact ⟨hboundary.le, isBoundary_toList_iff.1 hboundary,
      fun hs w => step_scanner hsound hsize hs⟩
  · rw [scan_eq_map]
    exact run_scanner (sound_start _) hsize (measure_start_lt _)

/-- Characters of two bytes stand before and in the code, in the name that is read and in the blank
that is trimmed. -/
theorem scan_safe_accents :
    "é @if(x){<p>@né</p>}\u00a0else{ü}".utf8ByteSize ≤ Balance.maxCount ∧
    Offsets.scan "é @if(x){<p>@né</p>}\u00a0else{ü}" =
      some (scan "é @if(x){<p>@né</p>}\u00a0else{ü}") ∧
    scan "é @if(x){<p>@né</p>}\u00a0else{ü}" =
      .ok [.literal "é ", .code r"if(x){", .literal "<p>", .expression "né", .literal "</p>",
        .code (r"}" ++ "\u00a0else{ü}")] := by
  have hsize : "é @if(x){<p>@né</p>}\u00a0else{ü}".utf8ByteSize ≤ Balance.maxCount := by
    decide +kernel
  exact ⟨hsize, (scan_safe hsize).2, by decide +kernel⟩

end Scan

end AtTemplate
