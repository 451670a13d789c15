import AtTemplate.Proofs.Nesting

/-!
# AtTemplate.Proofs.Braces

No brace of a template's code is lost.  Each block counts the braces that are open in it; what the
blocks count together is what has been written so far, opening braces less closing ones.

* `rebalanced_of_turn` — what a step does to the blocks, and what it writes as it does so;
* `closing_of_closeBlock` — a block that is closed at once is closed with as many braces as are
  open in it;
* `openBraces_of_run` — the braces that are open after a run;
* `braces_of_scan` — they are conserved by every scan, and a template that is accepted closes all
  of them.
-/

namespace AtTemplate

open Code Text

/-! ## counting -/

/-- The block that a frame is. -/
def Frame.block? : Frame → Option BlockFrame
  | .block b => some b
  | _ => none

/-- What is read as a whole is no block. -/
theorem Frame.isBlock_of_isWhole {frame : Frame} (h : frame.isWhole = true) :
    frame.isBlock = false := by
  cases frame <;> first | rfl | cases h

/-- The largest number of 32 bits with a sign: one less than two to the power of 31. -/
def Code.Balance.maxCount : Nat := 2147483647

/-- Neither count is more than `n` away from zero. -/
def Code.Balance.Within (n : Nat) (b : Balance) : Prop :=
  b.parens.natAbs ≤ n ∧ b.braces.natAbs ≤ n

namespace Code.Balance

variable {b : Balance} {kind : Token} {m n : Nat}

theorem Within.mono (h : b.Within m) (hmn : m ≤ n) : b.Within n :=
  ⟨Nat.le_trans h.1 hmn, Nat.le_trans h.2 hmn⟩

theorem within_block : Balance.block.Within 1 :=
  ⟨Nat.zero_le 1, Nat.le_refl 1⟩

/-- A token changes a count by one at most. -/
theorem Within.feed (h : b.Within n) (kind : Token) : (b.feed kind).Within (n + 1) := by
  obtain ⟨hp, hb⟩ := h
  cases kind <;> (unfold Balance.feed Balance.Within; constructor <;> simp only <;> omega)

/-- A block with an open brace is closed by a closing brace alone, the one that brings its count
to zero. -/
theorem isClosed_feed_iff (hb : 1 ≤ b.braces) :
    (b.feed kind).isClosed = true ↔ kind = .braceClose ∧ (b.feed kind).braces = 0 := by
  unfold isClosed
  rw [decide_eq_true_iff]
  cases kind <;> simp [feed] <;> omega

end Code.Balance

namespace Scan

namespace Piece

/-- Whether a piece opens a block. -/
def opensBlock : Piece → Bool
  | .header _ | .brace => true
  | _ => false

/-- Whether a piece is a token of some kind. -/
def isToken (kind : Token) : Piece → Bool
  | .token k _ => k = kind
  | _ => false

/-- The braces with which a piece closes a block at once. -/
def forced : Piece → Nat
  | .closing braces => braces
  | _ => 0

/-- What a piece adds to the braces that are open. -/
def braces (p : Piece) : Int :=
  p.opensBlock.toNat + (p.isToken .braceOpen).toNat - ((p.isToken .braceClose).toNat + p.forced)

end Piece

/-- The blocks among some frames, innermost first. -/
def blocks (frames : List Frame) : List BlockFrame :=
  frames.filterMap Frame.block?

/-- The braces that are open in some blocks. -/
def openBraces : List BlockFrame → Int
  | [] => 0
  | b :: bs => b.balance.braces + openBraces bs

/-- The number of blocks that some pieces open, each with one brace. -/
def opened (pieces : List Piece) : Nat :=
  pieces.countP Piece.opensBlock

/-- The number of tokens of a kind that are copied from blocks among some pieces. -/
def copied (kind : Token) (pieces : List Piece) : Nat :=
  pieces.countP (Piece.isToken kind)

/-- The number of braces among some pieces that close a block at once. -/
def forced : List Piece → Nat
  | [] => 0
  | p :: pieces => p.forced + forced pieces

/-- What some pieces add to the braces that are open. -/
def netBraces : List Piece → Int
  | [] => 0
  | p :: pieces => p.braces + netBraces pieces

section

variable {frame : Frame} {above below : List Frame} {b : BlockFrame} {p : Piece}
  {ps qs : List Piece}

@[simp] theorem blocks_nil : blocks [] = [] := rfl

@[simp] theorem blocks_block_cons : blocks (.block b :: below) = b :: blocks below := rfl

@[simp] theorem blocks_markup_cons {m : MarkupFrame} :
    blocks (.markup m :: below) = blocks below := rfl

@[simp] theorem blocks_tag_cons {name : String} {span : Span} :
    blocks (.tag name span :: below) = blocks below := rfl

@[simp] theorem blocks_attributeValue_cons {quote : Char} {openedAt : Nat} :
    blocks (.attributeValue quote openedAt :: below) = blocks below := rfl

/-- A frame that is no block does not count. -/
theorem blocks_cons_of_isBlock (h : frame.isBlock = false) :
    blocks (frame :: below) = blocks below := by
  cases frame with
  | block => cases h
  | _ => rfl

/-- Frames above the innermost block do not count. -/
theorem blocks_append_of_isBlock (h : ∀ frame ∈ above, frame.isBlock = false) :
    blocks (above ++ below) = blocks below := by
  induction above with
  | nil => rfl
  | cons frame above ih =>
    rw [List.cons_append, blocks_cons_of_isBlock (h frame List.mem_cons_self)]
    exact ih fun f hf => h f (List.mem_cons_of_mem _ hf)

/-- Where nothing is open, no block is. -/
theorem blocks_eq_nil_of_unclosed? {frames : List Frame}
    (h : frames.findSome? Frame.unclosed? = none) : blocks frames = [] := by
  rw [List.findSome?_eq_none_iff] at h
  rw [blocks, List.filterMap_eq_nil_iff]
  intro frame hf
  have := h frame hf
  cases frame with
  | block => cases this
  | _ => rfl

@[simp] theorem openBraces_nil : openBraces [] = 0 := rfl

@[simp] theorem openBraces_cons {bs : List BlockFrame} :
    openBraces (b :: bs) = b.balance.braces + openBraces bs := rfl

@[simp] theorem netBraces_nil : netBraces [] = 0 := rfl

@[simp] theorem netBraces_cons : netBraces (p :: ps) = p.braces + netBraces ps := rfl

/-- Braces are counted piece by piece. -/
@[simp] theorem netBraces_append : netBraces (ps ++ qs) = netBraces ps + netBraces qs := by
  induction ps with
  | nil => simp
  | cons p ps ih => simp [ih, Int.add_assoc]

/-- What pieces add is what they open less what they close. -/
theorem netBraces_eq (pieces : List Piece) :
    netBraces pieces = (opened pieces + copied .braceOpen pieces : Int) -
      (copied .braceClose pieces + forced pieces) := by
  induction pieces with
  | nil => rfl
  | cons p ps ih =>
    simp only [netBraces_cons, ih, Piece.braces, opened, copied, forced, List.countP_cons]
    cases p.opensBlock <;> cases p.isToken .braceOpen <;> cases p.isToken .braceClose <;>
      simp <;> omega

end

/-! ## what a step does to the blocks -/

/-- How a step changes the blocks, by what it writes. -/
inductive Rebalanced : List BlockFrame → List Piece → List BlockFrame → Prop
  /-- The blocks stay, and neither tokens nor braces are written. -/
  | same {pieces : List Piece} (bs : List BlockFrame)
      (h : ∀ p ∈ pieces, p = .sign ∨ ∃ chars, p = .text chars ∨ p = .expression chars) :
      Rebalanced bs pieces bs
  /-- A clause opens a block. -/
  | clause (header : List Char) (openedAt : Nat) (keyword : Keyword) (bs : List BlockFrame) :
      Rebalanced bs [.header header] (.opened openedAt (some keyword) :: bs)
  /-- A block without a clause is opened. -/
  | brace (openedAt : Nat) (bs : List BlockFrame) :
      Rebalanced bs [.brace] (.opened openedAt none :: bs)
  /-- A token is copied from the innermost block, in which a brace stays open. -/
  | token {b : BlockFrame} {kind : Token} (text : List Char) (bs : List BlockFrame)
      (h : 1 ≤ (b.balance.feed kind).braces) :
      Rebalanced (b :: bs) [.token kind text] ({ b with balance := b.balance.feed kind } :: bs)
  /-- A closing brace brings the count of the innermost block to zero and closes it. -/
  | close {b : BlockFrame} (text : List Char) (bs : List BlockFrame)
      (h : (b.balance.feed .braceClose).braces = 0) :
      Rebalanced (b :: bs) [.token .braceClose text] bs
  /-- A closing brace brings the count of the innermost block to zero and closes it, and the next
  clause of its statement opens another. -/
  | next {b : BlockFrame} (text blanks header : List Char) (openedAt : Nat) (keyword : Keyword)
      (bs : List BlockFrame) (h : (b.balance.feed .braceClose).braces = 0) :
      Rebalanced (b :: bs) [.token .braceClose text, .blanks blanks, .header header]
        (.opened openedAt (some keyword) :: bs)
  /-- The innermost block is closed with as many braces as are open in it. -/
  | force {b : BlockFrame} {n : Nat} (bs : List BlockFrame) (h : n = b.balance.braces) :
      Rebalanced (b :: bs) [.closing n] bs

/-- A brace is open in every block. -/
def Open (bs : List BlockFrame) : Prop :=
  ∀ b ∈ bs, 1 ≤ b.balance.braces

variable {s t : State} {m : Move} {bs cs : List BlockFrame} {pieces : List Piece}

/-- Settled markup gives way to code with the same blocks open. -/
@[simp] theorem blocks_yieldToCode (s : State) : blocks s.yieldToCode.frames = blocks s.frames := by
  unfold State.yieldToCode
  split
  · next hf => split <;> simp [hf]
  · rfl

/-- Markup opens with the same blocks open. -/
theorem blocks_openMarkup (s : State) : blocks s.openMarkup.state.frames = blocks s.frames := by
  unfold State.openMarkup
  split
  · rfl
  · split <;> rfl

/-- A step that writes one text leaves the count as it is. -/
theorem Rebalanced.text (chars : List Char) (bs : List BlockFrame) :
    Rebalanced bs [.text chars] bs :=
  .same bs (by simp)

/-- **What a step does to the blocks**, as long as a brace is open in each of them. -/
theorem rebalanced_of_turn (ho : Open (blocks s.frames)) (ht : s.Turn m) :
    Rebalanced (blocks s.frames) m.written (blocks m.state.frames) := by
  cases ht with
  | doubled | lineEscape | closeNothing | copy | openingTag | openValue => exact .text _ _
  | comment | enterMarkup => exact .same _ (by simp)
  | plain =>
    refine .same _ ?_
    unfold State.plainSign
    split <;> simp
  | explicit | implicit => exact .same _ (by simp)
  | clause =>
    rw [State.frames_enterClause, blocks_block_cons]
    simpa [State.enterClause] using Rebalanced.clause _ _ _ (blocks s.frames)
  | openBlock =>
    simpa [State.openBlock] using Rebalanced.brace s.cursor.offset (blocks s.frames)
  | closeInnermost _ hf =>
    obtain ⟨hs, ha⟩ := FrameStack.splitAtBlock?_eq_some hf
    rw [hs, blocks_append_of_isBlock ha, blocks_block_cons] at ho ⊢
    refine .force _ ?_
    have := ho _ List.mem_cons_self
    omega
  | openMarkup =>
    rw [blocks_openMarkup, blocks_yieldToCode]
    refine .same _ ?_
    unfold State.openMarkup
    split
    · simp
    · split <;> simp
  | token hf hr hk hc =>
    rw [hf, blocks_block_cons]
    refine .token _ _ ?_
    simp only [Balance.isClosed, decide_eq_false_iff_not] at hc
    omega
  | lastToken hf _ _ hc =>
    rw [hf, blocks_block_cons] at ho ⊢
    obtain ⟨rfl, h0⟩ := (Balance.isClosed_feed_iff (ho _ List.mem_cons_self)).1 hc
    exact .close _ _ h0
  | nextClause hf _ _ hc =>
    rw [hf, blocks_block_cons] at ho ⊢
    obtain ⟨rfl, h0⟩ := (Balance.isClosed_feed_iff (ho _ List.mem_cons_self)).1 hc
    exact .next _ _ _ _ _ _ h0
  | closingTag hf | closeValue hf | endTag hf | endSelfClosing hf | endLine hf | loseTag hf =>
    rw [hf]
    exact .text _ _
  | openText hf | closeText hf | leaveMarkup hf =>
    rw [hf]
    exact .same _ (by simp)
  | loseWhole hf hw =>
    rw [hf, blocks_cons_of_isBlock (Frame.isBlock_of_isWhole hw)]
    exact .same _ (List.forall_mem_nil _)

namespace Rebalanced

/-- The braces that are open after a step are those that were open before and those that it
writes. -/
theorem openBraces_eq (h : Rebalanced bs pieces cs) :
    openBraces cs = openBraces bs + netBraces pieces := by
  cases h with
  | same _ hw =>
    have : netBraces pieces = 0 := by
      induction pieces with
      | nil => rfl
      | cons p ps ih =>
        rw [netBraces_cons, ih fun q hq => hw q (List.mem_cons_of_mem _ hq)]
        obtain rfl | ⟨chars, rfl | rfl⟩ := hw p List.mem_cons_self <;> rfl
    rw [this, Int.add_zero]
  | clause | brace =>
    simp [Piece.braces, Piece.opensBlock, Piece.isToken, Piece.forced, BlockFrame.opened,
      Balance.block]
    omega
  | @token b kind =>
    cases kind <;>
      (simp [Piece.braces, Piece.opensBlock, Piece.isToken, Piece.forced, Balance.feed]; try omega)
  | close _ _ h0 | next _ _ _ _ _ _ h0 | force _ h0 =>
    simp [Piece.braces, Piece.opensBlock, Piece.isToken, Piece.forced, BlockFrame.opened,
      Balance.block, Balance.feed] at h0 ⊢
    omega

/-- A step leaves a brace open in every block. -/
theorem isOpen (h : Rebalanced bs pieces cs) (ho : Open bs) : Open cs := by
  have htail {b : BlockFrame} {bs : List BlockFrame} (ho : Open (b :: bs)) : Open bs :=
    fun c hc => ho c (List.mem_cons_of_mem _ hc)
  have hcons {b : BlockFrame} {bs : List BlockFrame} (hb : 1 ≤ b.balance.braces) (ho : Open bs) :
      Open (b :: bs) := List.forall_mem_cons.2 ⟨hb, ho⟩
  cases h with
  | same => exact ho
  | clause | brace => exact hcons (Int.le_refl 1) ho
  | token _ _ h1 => exact hcons h1 (htail ho)
  | close | force => exact htail ho
  | next => exact hcons (Int.le_refl 1) (htail ho)

/-- A block after a step was there before, has just been opened, or has just been fed a token. -/
theorem mem_cases {b : BlockFrame} (h : Rebalanced bs pieces cs) (hb : b ∈ cs) :
    b ∈ bs ∨ pieces ≠ [] ∧ (b.balance = .block ∨
      ∃ c ∈ bs, ∃ kind, b.balance = c.balance.feed kind) := by
  cases h with
  | same => exact .inl hb
  | clause | brace | next =>
    obtain rfl | hb := List.mem_cons.1 hb
    · exact .inr ⟨by simp, .inl rfl⟩
    · exact .inl (by simp [hb])
  | @token c kind =>
    obtain rfl | hb := List.mem_cons.1 hb
    · exact .inr ⟨by simp, .inr ⟨c, List.mem_cons_self, kind, rfl⟩⟩
    · exact .inl (by simp [hb])
  | close | force => exact .inl (by simp [hb])

/-- A token leaves its block open, with its new count, unless this is zero. -/
theorem stays_iff {b : BlockFrame} {kind : Token} {text : List Char}
    (h : Rebalanced (b :: bs) pieces cs) (hw : .token kind text ∈ pieces) :
    cs = { b with balance := b.balance.feed kind } :: bs ↔ (b.balance.feed kind).braces ≠ 0 := by
  cases h with
  | same _ hp => obtain h | ⟨chars, h | h⟩ := hp _ hw <;> cases h
  | clause | brace | force => simp at hw
  | token _ _ h1 =>
    obtain ⟨rfl, rfl⟩ : kind = _ ∧ text = _ := by simpa using hw
    simp
    omega
  | close _ _ h0 =>
    obtain ⟨rfl, rfl⟩ : kind = _ ∧ text = _ := by simpa using hw
    simp [h0]
  | next _ _ _ _ _ _ h0 =>
    obtain ⟨rfl, rfl⟩ : kind = _ ∧ text = _ := by simpa using hw
    refine iff_of_false (fun h => ?_) (by simp [h0])
    have h := congrArg (·.balance.braces) (List.cons.inj h).1
    exact absurd (h.trans h0) Int.one_ne_zero

end Rebalanced

/-! ## blocks that are closed at once -/

/-- **A block that is closed at once is closed with as many braces as are open in it**, and what
lies in it is left with it. -/
theorem closing_of_closeBlock {above below : List Frame} {b : BlockFrame} (hn : Nested s.frames)
    (hd : s.Introduces .closeBlock) (hf : s.frames = above ++ .block b :: below)
    (ha : ∀ frame ∈ above, frame.isBlock = false) (hb : 1 ≤ b.balance.braces)
    (hm : s.step = .ok m) :
    ∃ n : Nat, n = b.balance.braces ∧ m.written = [.closing n] ∧ m.state.frames = below := by
  have hsplit := FrameStack.splitAtBlock?_append_block ha b below
  rw [step_of_at hn.any_isWhole_head? hd.1, State.atSign, hd.2] at hm
  simp only [State.closeInnermost, hf, hsplit] at hm
  split at hm
  · cases hm
  · cases hm
    exact ⟨max 1 b.balance.braces.toNat, by omega, rfl, rfl⟩

/-! ## runs -/

/-- A brace is open in every block that a scan comes to. -/
theorem isOpen_of_reached {source : String} (h : Reached source s) : Open (blocks s.frames) := by
  obtain ⟨trace, hrun⟩ := h
  exact hrun.preserves (P := fun s => Open (blocks s.frames))
    (fun _ _ ho _ ht => (rebalanced_of_turn ho ht).isOpen ho) (List.forall_mem_nil _)

/-- The braces that are open after a run are those that were open before and those that it
writes. -/
theorem openBraces_of_run {trace : List Transition} (h : Run s trace t)
    (ho : Open (blocks s.frames)) :
    openBraces (blocks t.frames) = openBraces (blocks s.frames) + netBraces (written trace) := by
  induction h with
  | nil => simp
  | @cons s t m trace hs hm _ ih =>
    have hr := rebalanced_of_turn ho (State.turn_of_step hs hm)
    rw [ih (hr.isOpen ho), hr.openBraces_eq, written_cons, netBraces_append]
    exact Int.add_assoc _ _ _

/-- The counts of the blocks are at most the number of characters read so far. -/
def Counted (length : Nat) (s : State) : Prop :=
  s.rest.length ≤ length ∧
    ∀ b ∈ blocks s.frames, b.balance.Within (length - s.rest.length)

/-- A count grows by one at most with each token, and a token has a character of its own. -/
theorem counted_of_turn {length : Nat} (h : Counted length s) (ho : Open (blocks s.frames))
    (hs : s.rest ≠ []) (ht : s.Turn m) : Counted length m.state := by
  have hle : m.state.rest.length ≤ s.rest.length := (State.reaches_of_turn ht).length_le
  constructor
  · exact Nat.le_trans hle h.1
  intro b hb
  obtain hb | ⟨hw, hb⟩ := (rebalanced_of_turn ho ht).mem_cases hb
  · exact (h.2 b hb).mono (by omega)
  · have hlt : m.state.rest.length < s.rest.length := by
      obtain hlt | hst := State.lt_or_stays_of_turn hs ht
      · exact hlt
      · exact absurd hst.1 hw
    have hlen := h.1
    obtain hb | ⟨c, hc, kind, hb⟩ := hb
    · rw [hb]
      exact Balance.within_block.mono (by omega)
    · rw [hb]
      exact ((h.2 c hc).feed kind).mono (by omega)

/-- In every run the counts of the blocks are at most the number of characters read so far. -/
theorem counted_of_run {source : String} {trace : List Transition}
    (h : Run (.start source.toList) trace s) : Counted source.toList.length s := by
  have hstart : Counted source.toList.length (.start source.toList) :=
    ⟨Nat.le_refl _, List.forall_mem_nil _⟩
  exact (h.preserves (P := fun s => Counted source.toList.length s ∧ Open (blocks s.frames))
    (fun _ _ hc hs ht => ⟨counted_of_turn hc.1 hc.2 hs ht,
      (rebalanced_of_turn hc.2 ht).isOpen hc.2⟩) ⟨hstart, List.forall_mem_nil _⟩).1

/-- **No brace is lost.**  After any run of a scan a brace is open in every block, and the blocks
count together what the run has written: the blocks that it opened and the opening braces that it
copied, less the closing braces that it copied and those with which it closed a block at once.  The
next step changes the blocks in one of the ways of `Rebalanced`; a token closes its block exactly
when it brings its count to zero; and an at sign that closes the innermost block writes as many
braces as are open in it, no more and no less, and leaves it.  In a source of at most
`Balance.maxCount` bytes no count goes beyond a number of 32 bits.  A template that is accepted
closes as many braces as it opens. -/
theorem braces_of_scan (source : String) :
    (∀ trace s, Run (.start source.toList) trace s →
      Open (blocks s.frames) ∧
      openBraces (blocks s.frames) =
        (opened (written trace) + copied .braceOpen (written trace) : Int) -
          (copied .braceClose (written trace) + forced (written trace)) ∧
      (∀ m, s.rest ≠ [] → s.step = .ok m →
        Rebalanced (blocks s.frames) m.written (blocks m.state.frames) ∧
        (∀ b bs kind text, blocks s.frames = b :: bs → .token kind text ∈ m.written →
          (blocks m.state.frames = { b with balance := b.balance.feed kind } :: bs ↔
            (b.balance.feed kind).braces ≠ 0)) ∧
        ∀ (above : List Frame) (b : BlockFrame) (below : List Frame), s.Introduces .closeBlock →
          s.frames = above ++ .block b :: below → (∀ frame ∈ above, frame.isBlock = false) →
          ∃ n : Nat, n = b.balance.braces ∧ m.written = [.closing n] ∧ m.state.frames = below) ∧
      (byteLength source.toList ≤ Balance.maxCount → s.rest ≠ [] →
        ∀ b ∈ blocks s.frames, ∀ kind, (b.balance.feed kind).Within Balance.maxCount)) ∧
    (∀ segments, scan source = .ok segments → ∃ trace t, Run (.start source.toList) trace t ∧
      t.rest = [] ∧ segments = Segments.ofPieces ((written trace).map Piece.segment) ∧
      opened (written trace) + copied .braceOpen (written trace) =
        copied .braceClose (written trace) + forced (written trace)) := by
  have hsum (trace : List Transition) (s : State) (h : Run (.start source.toList) trace s) :
      openBraces (blocks s.frames) =
        (opened (written trace) + copied .braceOpen (written trace) : Int) -
          (copied .braceClose (written trace) + forced (written trace)) := by
    rw [openBraces_of_run h (List.forall_mem_nil _), netBraces_eq]
    exact Int.zero_add _
  constructor
  · intro trace s h
    have ho := isOpen_of_reached ⟨trace, h⟩
    refine ⟨ho, hsum trace s h, fun m hs hm => ⟨?_, ?_, ?_⟩, fun hlt hs b hb kind => ?_⟩
    · exact rebalanced_of_turn ho (State.turn_of_step hs hm)
    · intro b bs kind text hb hw
      have hr := rebalanced_of_turn ho (State.turn_of_step hs hm)
      rw [hb] at hr
      exact hr.stays_iff hw
    · intro above b below hd hf ha
      have hb : b ∈ blocks s.frames := by
        rw [hf, blocks_append_of_isBlock ha, blocks_block_cons]
        exact List.mem_cons_self
      exact closing_of_closeBlock (nested_of_reached ⟨trace, h⟩) hd hf ha (ho b hb) hm
    · have hc := counted_of_run h
      have hlen := length_le_byteLength source.toList
      have hpos := List.length_pos_iff.2 hs
      exact ((hc.2 b hb).feed kind).mono (by have := hc.1; omega)
  · intro segments h
    obtain ⟨trace, t, hrun, ht, hu, rfl⟩ := scan_eq_ok_iff.1 h
    have hclosed := hsum trace t hrun
    rw [blocks_eq_nil_of_unclosed? hu, openBraces_nil] at hclosed
    exact ⟨trace, t, hrun, ht, rfl, by omega⟩

end Scan

end AtTemplate
