import AtTemplate.Proofs.Headers
import AtTemplate.Proofs.MarkupBlock
import AtTemplate.Proofs.Parts

/-!
# AtTemplate.Proofs.CodeBlocks

A block of code in which no markup begins.  The scan takes one token of it at each step and keeps
the open braces in the frame of the block, where the search for a closing brace goes over all tokens
with a counter of its own.  Both come to the same end.

* `writesCode_token`, `writesCode_tokens` — the scan copies tokens that do not close their block,
  and its frame counts them;
* `scan_of_code` — **a block ends at the brace that the search finds, or fails as the search does.**
-/

namespace AtTemplate

/-! ## the counters of a block -/

namespace Code

variable {b : Balance} {token : Token} {tokens : List Token} {m n : Nat}

theorem parens_feed (b : Balance) (token : Token) :
    (b.feed token).parens = b.parens + parens [token] := by
  cases token <;> simp [Balance.feed, parens, Int.sub_eq_add_neg]

/-- The frame of a block counts the braces as a search from within it does, and the brace of the
block besides. -/
theorem braces_feed (hb : b.braces = n + 1) (h : depth? .brace n (token :: tokens) = some m) :
    ∃ k, depth? .brace k tokens = some m ∧ (b.feed token).braces = k + 1 := by
  by_cases ho : token = .braceOpen
  · subst ho
    exact ⟨n + 1, depth?_opening.symm.trans h, by simp [Balance.feed, hb]⟩
  by_cases hc : token = .braceClose
  · subst hc
    cases n with
    | zero => cases depth?_closing_zero.symm.trans h
    | succ k =>
      exact ⟨k, depth?_closing_succ.symm.trans h, by simp [Balance.feed, hb]⟩
  · refine ⟨n, (depth?_of_not_counts ho hc).symm.trans h, ?_⟩
    rw [← hb]
    cases token <;> first | rfl | contradiction

end Code

namespace Scan

open Code Text
open AtTemplate.Markup

variable {source : String} {text code code' : List Char} {s t r : State} {c d p : Cursor}
  {token : Token} {tokens : List Token} {pieces : List Piece} {m n : Nat} {open_ : Int}
  {block : BlockFrame} {below : List Frame}

/-! ## runs that write code -/

/-- A run leads from the first state to the second, and all that it writes is code. -/
def WritesCode (s : State) (code : List Char) (t : State) : Prop :=
  ∃ trace, Run s trace t ∧ (∀ p ∈ written trace, p.isCode = true) ∧
    (written trace).flatMap Piece.chars = code

theorem WritesCode.refl (s : State) : WritesCode s [] s :=
  ⟨[], .nil s, nofun, rfl⟩

/-- What is written as code in two runs is written in one. -/
theorem WritesCode.trans (h : WritesCode s code t) (h' : WritesCode t code' r) :
    WritesCode s (code ++ code') r := by
  obtain ⟨xs, hxs, hcode, rfl⟩ := h
  obtain ⟨ys, hys, hcode', rfl⟩ := h'
  refine ⟨xs ++ ys, hxs.append hys, fun p hp => ?_, ?_⟩
  · rw [written_append] at hp
    exact (List.mem_append.1 hp).elim (hcode p) (hcode' p)
  · rw [written_append, List.flatMap_append]

/-- A step that writes nothing but code is a run that does. -/
theorem writesCode_of_step (hs : s.rest ≠ []) (hm : s.step = .ok ⟨pieces, t⟩)
    (hp : ∀ p ∈ pieces, p.isCode = true) : WritesCode s (pieces.flatMap Piece.chars) t := by
  refine ⟨[⟨s, ⟨pieces, t⟩⟩], .cons hs hm (.nil t), ?_, ?_⟩
  · simpa [Transition.written] using hp
  · simp [Transition.written]

/-- Pieces of code are joined to one segment. -/
theorem addAll_of_isCode (w : Segments) (hp : ∀ p ∈ pieces, p.isCode = true) :
    w.addAll (pieces.map Piece.segment) =
      w.addCode (String.ofList (pieces.flatMap Piece.chars)) := by
  induction pieces generalizing w with
  | nil => simp [Segments.addCode]
  | cons p pieces ih =>
    obtain ⟨hcode, hrest⟩ := List.forall_mem_cons.1 hp
    have hadd : w.add p.segment = w.addCode (String.ofList p.chars) := by
      cases p <;> first | rfl | cases hcode
    rw [List.map_cons, Segments.addAll_cons, ih _ hrest, hadd, Segments.addCode_addCode,
      List.flatMap_cons, String.ofList_append]

/-- Pieces of code are joined to one segment. -/
theorem ofPieces_of_isCode (hp : ∀ p ∈ pieces, p.isCode = true)
    (hne : pieces.flatMap Piece.chars ≠ []) :
    Segments.ofPieces (pieces.map Piece.segment) =
      [.code (String.ofList (pieces.flatMap Piece.chars))] := by
  rw [Segments.ofPieces, addAll_of_isCode _ hp]
  simp [Segments.addCode, Segments.empty, Segments.toList, hne]

/-! ## tokens that keep a scan in code -/

/-- Tokens that do not lead out of the code of their block, where `open_` parentheses are open
before them: none is an at sign, and where an angle bracket might begin markup a parenthesis is
open. -/
def KeepsToCode (open_ : Int) (c : Cursor) (tokens : List Token) : Prop :=
  .at ∉ tokens ∧ ∀ u v, tokens = u ++ .angleOpen :: v → ∀ d, Walk c u d →
    startsMarkup d.rest = true → 0 < open_ + parens u

theorem keepsToCode_nil : KeepsToCode open_ c [] :=
  ⟨List.not_mem_nil, by simp⟩

/-- A stretch keeps to code where its first token does and the rest does, with the parentheses
counted that are open there. -/
theorem keepsToCode_cons_iff (hn : next c = .ok (some (token, d))) :
    KeepsToCode open_ c (token :: tokens) ↔
      token ≠ .at ∧ (token = .angleOpen → startsMarkup c.rest = true → 0 < open_) ∧
        KeepsToCode (open_ + parens [token]) d tokens := by
  have hnil (e : Cursor) : Walk c [] e ↔ e = c := by
    simp [walk_iff_of_next hn]
  have hcons (u : List Token) (e : Cursor) : Walk c (token :: u) e ↔ Walk d u e := by
    simp [walk_iff_of_next hn]
  have hparens (u : List Token) : 0 < open_ + parens (token :: u) ↔
      0 < open_ + parens [token] + parens u := by
    rw [parens_cons, Int.add_assoc]
  have hzero : open_ + parens [] = open_ := Int.add_zero open_
  unfold KeepsToCode
  rw [forall_eq_append_cons_iff, List.mem_cons, not_or]
  simp only [hnil, hcons, hparens, hzero, forall_eq]
  rw [and_assoc, and_left_comm (a := .at ∉ tokens), ne_comm]

/-- A token in front of a stretch that keeps to code. -/
theorem keepsToCode_cons (token : Token) (d : Cursor) (hn : next c = .ok (some (token, d)))
    (hat : token ≠ .at)
    (hangle : token = .angleOpen → startsMarkup c.rest = true → 0 < open_)
    (h : Walk d tokens p ∧ KeepsToCode (open_ + parens [token]) d tokens) :
    Walk c (token :: tokens) p ∧ KeepsToCode open_ c (token :: tokens) :=
  ⟨.cons hn h.1, (keepsToCode_cons_iff hn).2 ⟨hat, hangle, h.2⟩⟩

/-! ## the body of a block -/

/-- A token that does not lead out of the code is copied, unless it closes the block. -/
theorem writesCode_token (hn : next c = .ok (some (token, d))) (hat : token ≠ .at)
    (hangle : token = .angleOpen → startsMarkup c.rest = true → 0 < block.balance.parens)
    (hopen : (block.balance.feed token).isClosed = false) :
    WritesCode ⟨c, ⟨.block block :: below⟩⟩ (c.textTo d)
      ⟨d, ⟨.block { block with balance := block.balance.feed token } :: below⟩⟩ := by
  obtain ⟨text, rest, hr, rfl, happend⟩ := next_eq_some hn
  let s : State := ⟨c, ⟨.block block :: below⟩⟩
  have hstep : s.step = .ok ⟨[.token token text], ⟨c.advance text.length,
      ⟨.block { block with balance := block.balance.feed token } :: below⟩⟩⟩ :=
    step_of_token rfl hr hat (fun h hm => by simpa [Balance.inParens] using hangle h hm) hopen
  have hne : s.rest ≠ [] := (standsAt_of_next hn).rest_ne_nil
  have htext : c.textTo (c.advance text.length) = [Piece.token token text].flatMap Piece.chars := by
    rw [Cursor.textTo_advance, ← happend, List.take_left, List.flatMap_singleton, Piece.chars]
  rw [htext]
  exact writesCode_of_step hne hstep fun p hp => by rw [List.mem_singleton.1 hp]; rfl

/-- **The scan copies the tokens of a body**, as long as they do not lead out of the code and do not
close the block, and the frame of the block counts what they open. -/
theorem writesCode_tokens (hw : Walk c tokens d)
    (hk : KeepsToCode block.balance.parens c tokens) (hb : block.balance.braces = n + 1)
    (hd : depth? .brace n tokens = some m) :
    WritesCode ⟨c, ⟨.block block :: below⟩⟩ (c.textTo d)
      ⟨d, ⟨.block { block with balance := ⟨block.balance.parens + parens tokens, m + 1⟩ } ::
        below⟩⟩ := by
  induction hw generalizing block n with
  | nil c =>
    cases hd
    have hblock : { block with balance := ⟨block.balance.parens + parens [], m + 1⟩ } = block := by
      rw [← hb]
      exact congrArg (BlockFrame.mk block.openedAt · block.clause?)
        (congrArg (Balance.mk · _) (Int.add_zero _))
    rw [hblock, Cursor.textTo_self]
    exact .refl _
  | @cons c c' d token tokens hn hw ih =>
    obtain ⟨hat, hangle, hkeeps⟩ := (keepsToCode_cons_iff hn).1 hk
    obtain ⟨k, hdepth, hbraces⟩ := braces_feed hb hd
    rw [← parens_feed] at hkeeps
    -- the brace of the block itself is still open behind the token
    have hopen : (block.balance.feed token).isClosed = false := by
      simp [Balance.isClosed, hbraces]
    have htokens := (writesCode_token hn hat hangle hopen).trans (ih hkeeps hbraces hdepth)
    rwa [(reaches_of_next hn).textTo_append hw.reaches, parens_feed, Int.add_assoc,
      ← parens_cons] at htokens

/-! ## a template that begins with a block -/

/-- The place behind the brace of a block that a template begins with. -/
def bodyOf (source : String) : Cursor :=
  (Cursor.start source.toList).advance 2

/-- What stands between an at sign and a place in the block behind it begins with the brace of the
block. -/
theorem textTo_of_bodyOf (hs : source.toList = '@' :: '{' :: text)
    (h : (bodyOf source).Reaches p) :
    ((Cursor.start source.toList).advance 1).textTo p = '{' :: (bodyOf source).textTo p := by
  let brace := (Cursor.start source.toList).advance 1
  have hbody : bodyOf source = brace.advance 1 := (Cursor.advance_advance 1 1 _).symm
  have hbrace : brace.textTo (bodyOf source) = ['{'] := by
    rw [hbody, Cursor.textTo_advance, Cursor.rest_advance, Cursor.rest_start, hs]
    rfl
  rw [← Cursor.Reaches.textTo_append ⟨1, hbody⟩ h, hbrace]
  rfl

/-- The scan enters the block and comes to any place of its body. -/
theorem writesCode_of_block (hs : source.toList = '@' :: '{' :: text)
    (hw : Walk (bodyOf source) tokens p) (hk : KeepsToCode 0 (bodyOf source) tokens)
    (hd : depth? .brace 0 tokens = some m) :
    WritesCode (.start source.toList) ('{' :: (bodyOf source).textTo p)
      ⟨p, ⟨[.block ⟨0, ⟨parens tokens, m + 1⟩, none⟩]⟩⟩ := by
  have hrest : (State.start source.toList).rest = '@' :: '{' :: text := hs
  have hopened : WritesCode (.start source.toList) ['{']
      ⟨bodyOf source, ⟨[.block (.opened 0 none)]⟩⟩ :=
    writesCode_of_step (by simp [hrest])
      (step_of_openBlock (s := .start source.toList) trivial hrest) (by decide)
  rw [← Int.zero_add (parens tokens)]
  exact hopened.trans (writesCode_tokens hw hk rfl hd)

/-- Where the search finds the brace that closes the block, the scan leaves the block there. -/
theorem writesCode_of_findClosing (hs : source.toList = '@' :: '{' :: text)
    (hw : Walk (bodyOf source) tokens p) (hk : KeepsToCode 0 (bodyOf source) tokens)
    (hfound : findClosing .brace (bodyOf source) = .ok p) :
    WritesCode (.start source.toList) ('{' :: (bodyOf source).textTo (p.advance 1))
      ⟨p.advance 1, .empty⟩ := by
  obtain ⟨tokens', hw', hp, hbalanced⟩ := findClosing_eq_ok_iff.1 hfound
  obtain rfl := hw.unique hw'
  obtain ⟨rest, hr⟩ := rest_of_standsAt (x := '}') rfl hp
  have hbody := writesCode_of_block hs hw hk (balanced_filter_iff.1 hbalanced)
  let inner : State := ⟨p, ⟨[.block ⟨0, ⟨parens tokens, 0 + 1⟩, none⟩]⟩⟩
  have hinner : inner.rest = '}' :: rest := hr
  have hclose : WritesCode inner (p.textTo (p.advance 1)) ⟨p.advance 1, .empty⟩ := by
    rw [Cursor.textTo_advance, hr]
    exact writesCode_of_step (by simp [hinner]) (step_of_lastBrace rfl hinner rfl rfl) (by decide)
  have hblock := hbody.trans hclose
  rwa [List.cons_append, hw.reaches.textTo_append (Cursor.reaches_advance 1 p)] at hblock

/-- Where the search fails, the scan comes to every place of the body within the block. -/
theorem reached_of_findClosing_error {error : TemplateError}
    (hs : source.toList = '@' :: '{' :: text) (hw : Walk (bodyOf source) tokens p)
    (hk : KeepsToCode 0 (bodyOf source) tokens)
    (herror : findClosing .brace (bodyOf source) = .error error) :
    ∃ balance, Reached source ⟨p, ⟨[.block ⟨0, balance, none⟩]⟩⟩ := by
  -- the counter goes below zero only at a brace that the search would have found
  have hdepth : depth? .brace 0 tokens ≠ none := by
    intro hnone
    obtain ⟨q, hq, -⟩ := (depth?_eq_none_iff_closes hw).1 hnone
    exact not_closes_of_error herror q hq
  obtain ⟨m, hm⟩ := Option.ne_none_iff_exists'.1 hdepth
  obtain ⟨trace, hrun, -⟩ := writesCode_of_block hs hw hk hm
  exact ⟨_, trace, hrun⟩

/-- **A block in which no markup begins ends at the brace that the search finds**, and the scan
leaves it with one segment of code.  Where the search fails for a token the scan fails with the same
error; where it comes to the end of the text the block is left open.  The tokens that keep to code
are those up to the place where the search ends in each of the three ways. -/
theorem scan_of_code (hs : source.toList = '@' :: '{' :: text)
    (hw : Walk (bodyOf source) tokens p) (hk : KeepsToCode 0 (bodyOf source) tokens) :
    (findClosing .brace (bodyOf source) = .ok p →
      ∃ trace, Run (.start source.toList) trace ⟨p.advance 1, .empty⟩ ∧
        Segments.ofPieces ((written trace).map Piece.segment) =
          [.code (String.ofList (((Cursor.start source.toList).advance 1).textTo (p.advance 1)))]) ∧
    ∀ error, findClosing .brace (bodyOf source) = .error error →
      (Fault (bodyOf source) p → scan source = .error error) ∧
      (p.rest = [] → scan source = .error (.unclosed .block ⟨0, 1⟩)) := by
  constructor
  · intro hfound
    obtain ⟨trace, hrun, hcode, hchars⟩ := writesCode_of_findClosing hs hw hk hfound
    have hreach := hw.reaches.trans (Cursor.reaches_advance 1 p)
    refine ⟨trace, hrun, ?_⟩
    rw [ofPieces_of_isCode hcode (by simp [hchars]), hchars, textTo_of_bodyOf hs hreach]
  · intro error herror
    obtain ⟨balance, hreached⟩ := reached_of_findClosing_error hs hw hk herror
    refine ⟨fun hfault => ?_, fun hend => scan_eq_error hreached hend rfl⟩
    obtain ⟨f, hf, hreported⟩ | ⟨hnone, -⟩ := findClosing_eq_error (not_closes_of_error herror)
    · obtain rfl := hf.unique hfault
      obtain rfl := Except.error.inj (herror.symm.trans hreported)
      exact scan_of_read_unclosed hreached rfl hfault.2
    · exact absurd hfault (hnone p)

/-- A comparison in parentheses is code.  Where a quotation begins behind it or the text ends, the
block has no end. -/
theorem scan_of_comparison :
    (∃ trace t, Run (.start "@{{(<b)}} c".toList) trace t ∧ t.rest = " c".toList ∧
      t.frames = [] ∧ Segments.ofPieces ((written trace).map Piece.segment) =
        [.code "{{(<b)}}"]) ∧
    scan r"@{(<b'" = .error (.unclosed .quotation ⟨5, 6⟩) ∧
    scan r"@{(<b" = .error (.unclosed .block ⟨0, 1⟩) := by
  let c := bodyOf "@{{(<b)}} c"
  let d := bodyOf r"@{(<b'"
  let e := bodyOf r"@{(<b"
  obtain ⟨hc, hkc⟩ : Walk c [.braceOpen, .parenOpen, .angleOpen, .word, .parenClose, .braceClose]
      (c.advance 6) ∧ KeepsToCode 0 c _ :=
    keepsToCode_cons .braceOpen (c.advance 1) (by decide +kernel) nofun nofun <|
    keepsToCode_cons .parenOpen (c.advance 2) (by decide +kernel) nofun nofun <|
    keepsToCode_cons .angleOpen (c.advance 3) (by decide +kernel) nofun (by decide) <|
    keepsToCode_cons .word (c.advance 4) (by decide +kernel) nofun nofun <|
    keepsToCode_cons .parenClose (c.advance 5) (by decide +kernel) nofun nofun <|
    keepsToCode_cons .braceClose (c.advance 6) (by decide +kernel) nofun nofun
      ⟨.nil _, keepsToCode_nil⟩
  obtain ⟨hd, hkd⟩ : Walk d [.parenOpen, .angleOpen, .word] (d.advance 3) ∧ KeepsToCode 0 d _ :=
    keepsToCode_cons .parenOpen (d.advance 1) (by decide +kernel) nofun nofun <|
    keepsToCode_cons .angleOpen (d.advance 2) (by decide +kernel) nofun (by decide) <|
    keepsToCode_cons .word (d.advance 3) (by decide +kernel) nofun nofun
      ⟨.nil _, keepsToCode_nil⟩
  obtain ⟨he, hke⟩ : Walk e [.parenOpen, .angleOpen, .word] (e.advance 3) ∧ KeepsToCode 0 e _ :=
    keepsToCode_cons .parenOpen (e.advance 1) (by decide +kernel) nofun nofun <|
    keepsToCode_cons .angleOpen (e.advance 2) (by decide +kernel) nofun (by decide) <|
    keepsToCode_cons .word (e.advance 3) (by decide +kernel) nofun nofun
      ⟨.nil _, keepsToCode_nil⟩
  have hclosing : findClosing .brace c = .ok (c.advance 6) := by decide +kernel
  have hquotation : findClosing .brace d = .error (.unclosed .quotation ⟨5, 6⟩) := by
    decide +kernel
  have hblock : findClosing .brace e = .error (.unclosed .block ⟨1, 2⟩) := by decide +kernel
  have hfault : Fault d (d.advance 3) := ⟨⟨_, hd⟩, by decide +kernel⟩
  obtain ⟨trace, hrun, hsegments⟩ := (scan_of_code rfl hc hkc).1 hclosing
  exact ⟨⟨trace, _, hrun, by decide +kernel, rfl, hsegments⟩,
    ((scan_of_code rfl hd hkd).2 _ hquotation).1 hfault,
    ((scan_of_code rfl he hke).2 _ hblock).2 (by decide +kernel)⟩

end Scan

end AtTemplate
