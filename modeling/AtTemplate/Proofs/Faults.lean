import AtTemplate.Proofs.Chunks
import AtTemplate.Proofs.Progress

/-!
# AtTemplate.Proofs.Faults

What a step of a scan can fail for.  `State.Fault` has one rule for each way in which a step finds
the template at fault, with what stands ahead there and what is reported.

* `fault_of_step` — a step that fails does so by one of the rules;
* `exists_span_of_fault` — a fault lies ahead, or it is that something behind is still open.
-/

namespace AtTemplate

open Code Text
open AtTemplate.Markup

/-! ## what frames remember -/

/-- The stretches of the source that a frame remembers: where it was opened, and of markup also the
opening tags of the elements in it. -/
def Frame.openings : Frame → List Span
  | .block b => [.ofLength b.openedAt 1]
  | .markup m => .ofLength m.openedAt 1 :: m.elements.elements.map Element.span
  | .tag _ span => [span]
  | .attributeValue _ openedAt | .expression openedAt => [.ofLength openedAt 1]
  | .comment openedAt | .lineEscape openedAt => [.ofLength openedAt 2]

/-- The stretches of the source that frames remember. -/
def openings (frames : List Frame) : List Span :=
  frames.flatMap Frame.openings

@[simp] theorem openings_nil : openings [] = [] := rfl

@[simp] theorem openings_cons (frame : Frame) (frames : List Frame) :
    openings (frame :: frames) = frame.openings ++ openings frames := rfl

@[simp] theorem openings_append (above below : List Frame) :
    openings (above ++ below) = openings above ++ openings below :=
  List.flatMap_append

/-- What is reported of a frame that is left open is a stretch that it remembers. -/
theorem Frame.exists_opening {frame : Frame} {e : TemplateError} (h : frame.unclosed? = some e) :
    ∃ span ∈ frame.openings, e.span? = some span := by
  cases frame with
  | block | tag | attributeValue | expression | comment =>
    cases h
    exact ⟨_, List.mem_singleton_self _, rfl⟩
  | markup m =>
    simp only [unclosed?] at h
    split at h
    · next element he =>
      cases h
      obtain ⟨elements, hm⟩ := List.head?_eq_some_iff.1 he
      exact ⟨element.span, by simp [openings, hm], rfl⟩
    · split at h
      · cases h
        exact ⟨_, List.mem_cons_self, rfl⟩
      · cases h
  | lineEscape => cases h

/-- What is reported of frames that are left open is a stretch that they remember. -/
theorem exists_opening {frames : List Frame} {e : TemplateError}
    (h : frames.findSome? Frame.unclosed? = some e) :
    ∃ span ∈ openings frames, e.span? = some span := by
  obtain ⟨frame, hmem, he⟩ := List.exists_of_findSome?_eq_some h
  obtain ⟨span, hspan, hs⟩ := Frame.exists_opening he
  exact ⟨span, List.mem_flatMap.2 ⟨frame, hmem, hspan⟩, hs⟩

/-! ## faults ahead of a cursor -/

/-- A closing tag that does not fit is reported with its name, from its beginning to its end. -/
theorem Markup.OpenElements.eq_of_close_eq_error {o elements : OpenElements} {name : String}
    {span : Span} {e : TemplateError} (h : o.close name span = (.error e, elements)) :
    ∃ expected, e = .strayClosingTag expected name span := by
  unfold OpenElements.close at h
  split at h
  · cases h
    exact ⟨none, rfl⟩
  · split at h <;> cases h
    exact ⟨some _, rfl⟩

/-- What is at fault begins at the cursor or behind it. -/
def Cursor.Faces (c : Cursor) (e : TemplateError) : Prop :=
  ∃ span, e.span? = some span ∧ c.offset ≤ span.start ∧ span.start ≤ span.stop

/-- What is at fault ahead of a cursor is ahead of every cursor before it. -/
theorem Cursor.Faces.of_reaches {c d : Cursor} {e : TemplateError} (hd : d.Faces e)
    (h : c.Reaches d) : c.Faces e := by
  obtain ⟨span, he, hle, hstop⟩ := hd
  exact ⟨span, he, Nat.le_trans h.offset_le hle, hstop⟩

namespace Code

variable {c d : Cursor} {e : TemplateError} {delimiter : Delimiter}

/-- A token without an end is at fault where it begins. -/
theorem faces_of_next (h : next c = .error e) : c.Faces e := by
  unfold next at h
  split at h <;> cases h
  exact ⟨_, rfl, Nat.le_refl _, Nat.le_add_right _ _⟩

/-- While a closing delimiter is searched only a token can be at fault. -/
theorem faces_of_closing? {depth : Nat} (h : closing? delimiter depth c = .error e) :
    c.Faces e := by
  fun_induction closing? delimiter depth c with
  | case1 _ _ _ hn =>
    cases h
    exact faces_of_next hn
  | case2 => cases h
  | case4 => cases h
  | case3 _ _ _ hn ih | case5 _ _ _ hn _ ih | case6 _ _ _ _ hn _ _ ih =>
    exact (ih h).of_reaches (reaches_of_next hn)

/-- A group without an end is at fault from its opening delimiter on, which stands before the
cursor. -/
theorem faces_of_findClosing {n : Nat} (hn : n < c.rest.length)
    (h : findClosing delimiter (c.advance (n + 1)) = .error e) : c.Faces e := by
  have hreach := Cursor.reaches_advance (n + 1) c
  unfold findClosing at h
  split at h
  · next hc =>
    cases h
    exact (faces_of_closing? hc).of_reaches hreach
  · cases h
  · cases h
    have hlt := hreach.offset_lt_iff.2 (by simp; omega)
    exact ⟨_, rfl, Nat.le_sub_one_of_lt hlt, Nat.sub_le _ _⟩

/-- While the body of a clause is searched only a token can be at fault. -/
theorem faces_of_body? {parens : Int} (h : body? parens c = .error e) : c.Faces e := by
  fun_induction body? parens c with
  | case1 _ _ _ hn =>
    cases h
    exact faces_of_next hn
  | case2 => cases h
  | case5 => cases h
  | case3 _ _ _ _ hn ih | case4 _ _ _ _ hn ih | case6 _ _ _ _ _ hn ih
    | case7 _ _ _ _ _ hn _ _ _ ih =>
    exact (ih h).of_reaches (reaches_of_next hn)

/-- A clause without a body is at fault from its keyword on. -/
theorem faces_of_findBody {keyword : Span} (hk : d.offset = keyword.start)
    (hle : keyword.start ≤ keyword.stop) (hreach : d.Reaches c)
    (h : findBody keyword c = .error e) : d.Faces e := by
  unfold findBody at h
  split at h
  · next hc =>
    cases h
    exact (faces_of_body? hc).of_reaches hreach
  · cases h
  · cases h
    exact ⟨keyword, rfl, Nat.le_of_eq hk, hle⟩

end Code

namespace Scan

variable {s : State} {e : TemplateError} {c : Cursor}

/-- A chain is at fault in a group of one of its links. -/
theorem faces_of_chainEnd (h : chainEnd c = .error e) : c.Faces e := by
  fun_induction chainEnd c with
  | case1 => cases h
  | case2 => cases h
  | case3 c rest hname hr ih => exact (ih h).of_reaches (Cursor.reaches_advance _ _)
  | case4 => cases h
  | case5 c x rest hr _ _ _ e' hc =>
    cases h
    exact faces_of_findClosing (n := 0) (by simp [hr]) hc
  | case6 c x rest hr _ _ _ close hc ih =>
    refine (ih h).of_reaches ?_
    exact ((Cursor.reaches_advance _ _).trans (reaches_of_findClosing hc).1).trans
      (Cursor.reaches_advance _ _)

/-- A clause whose body is not found is at fault from its keyword on, or in a token behind it. -/
theorem faces_of_clauseBody {keyword : Keyword} (h : s.clauseBody keyword = .error e) :
    s.cursor.Faces e := by
  have hreach := Cursor.reaches_advance keyword.letters.length s.cursor
  exact faces_of_findBody rfl hreach.offset_le hreach h

/-! ## the faults of a step -/

namespace State

/-- The ways in which a step finds the template at fault. -/
inductive Fault (s : State) : TemplateError → Prop
  /-- A comment has no end. -/
  | comment (hd : s.Introduces .comment) (hc : before? ['*', '@'] (s.rest.drop 2) = none) :
      Fault s (.unclosed .comment (s.cursor.span 2))
  /-- An expression in parentheses has no end. -/
  | explicit {e : TemplateError} (hd : s.Introduces .explicit)
      (hc : findClosing .paren (s.cursor.advance 2) = .error e) : Fault s e
  /-- A link of an expression has no end. -/
  | implicit {e : TemplateError} (hd : s.Introduces .implicit)
      (hc : chainEnd ((s.cursor.advance 1).advance (takeName (s.cursor.advance 1).rest).length) =
        .error e) : Fault s e
  /-- A clause has no body. -/
  | clause {keyword : Keyword} {e : TemplateError} (hd : s.Introduces (.clause keyword))
      (hb : (s.yieldToCode.skip 1).clauseBody keyword = .error e) : Fault s e
  /-- A block is closed in which something is left open. -/
  | closeInnermost {above below : List Frame} {block : BlockFrame} {e : TemplateError}
      (hd : s.Introduces .closeBlock)
      (hf : FrameStack.splitAtBlock? s.frames = some (above, block, below))
      (hu : above.findSome? Frame.unclosed? = some e) : Fault s e
  /-- A quotation or comment of code has no end. -/
  | quotation {block : BlockFrame} {below : List Frame} (hf : s.frames = .block block :: below)
      (hr : Code.read s.rest = .unclosed) : Fault s (.unclosed .quotation (s.cursor.span 1))
  /-- The clause that continues a statement has no body. -/
  | nextClause {block : BlockFrame} {below : List Frame} {kind : Token} {text rest : List Char}
      {keyword next : Keyword} {e : TemplateError}
      (hf : s.frames = .block block :: below) (hr : Code.read s.rest = .token kind text rest)
      (hc : (block.balance.feed kind).isClosed = true) (hw : block.clause? = some keyword)
      (hn : Keyword.ofLetters? (takeName (trimStart rest)) = some next)
      (hb : (s.outOf text below).skipBlanks.clauseBody next = .error e) : Fault s e
  /-- A comment of the markup has no end. -/
  | markupComment {markup : MarkupFrame} {below : List Frame}
      (hf : s.frames = .markup markup :: below) (hs : commentOpening <+: s.rest)
      (hc : before? commentClosing (s.rest.drop commentOpening.length) = none) :
      Fault s (.unclosed .comment (s.cursor.span commentOpening.length))
  /-- A closing tag has no end. -/
  | openClosingTag {markup : MarkupFrame} {below : List Frame}
      (hf : s.frames = .markup markup :: below) (ht : markup.inText = false)
      (hn : closingName s.rest ≠ [])
      (hc : trimStart (s.rest.drop (2 + (closingName s.rest).length)) = []) :
      Fault s (.unclosed .tag
        (s.cursor.spanTo (s.cursor.advance (2 + (closingName s.rest).length))))
  /-- A closing tag has more than a name. -/
  | malformedTag {markup : MarkupFrame} {below : List Frame} {c : Char}
      (hf : s.frames = .markup markup :: below) (ht : markup.inText = false)
      (hn : closingName s.rest ≠ [])
      (hc : (trimStart (s.rest.drop (2 + (closingName s.rest).length))).head? = some c)
      (hgt : c ≠ '>') :
      Fault s (.malformedTag
        ("unexpected content in closing tag </" ++ String.ofList (closingName s.rest) ++ ">")
        (s.cursor.spanTo (s.cursor.advance (2 + (closingName s.rest).length))))
  /-- A closing tag does not belong to the innermost element. -/
  | strayClosingTag {markup : MarkupFrame} {below : List Frame} {tagEnd : Cursor}
      {elements : OpenElements} {e : TemplateError} (hf : s.frames = .markup markup :: below)
      (ht : markup.inText = false) (hn : closingName s.rest ≠ [])
      (hs : (trimStart (s.rest.drop (2 + (closingName s.rest).length))).head? = some '>')
      (he : tagEnd = (s.cursor.advance (2 + (closingName s.rest).length)).advance
        ((leadingBlanks (s.rest.drop (2 + (closingName s.rest).length))).length + 1))
      (hc : markup.elements.close (String.ofList (closingName s.rest)) (s.cursor.spanTo tagEnd) =
        (.error e, elements)) : Fault s e
  /-- An opening tag has no end. -/
  | tag {name : String} {span : Span} {below : List Frame} (hf : s.frames = .tag name span :: below)
      (hs : s.rest.dropWhile (!stopsTag ·) = []) : Fault s (.unclosed .tag span)
  /-- An attribute value has no end. -/
  | attributeValue {quote : Char} {openedAt : Nat} {below : List Frame}
      (hf : s.frames = .attributeValue quote openedAt :: below)
      (hs : s.rest.dropWhile (!stopsValue quote ·) = []) :
      Fault s (.unclosed .attributeValue (.ofLength openedAt 1))

/-- A clause cannot be opened only where its body is not found. -/
theorem fault_of_openClause {keyword : Keyword} {t : State} (h : t.openClause keyword = .error e) :
    t.clauseBody keyword = .error e := by
  unfold openClause at h
  split at h <;> cases h
  assumption

/-- Of the directives, those can fail that search for an end, and the brace that closes a block. -/
theorem fault_of_atSign (hs : s.rest.head? = some '@') (h : s.atSign = .error e) : s.Fault e := by
  unfold atSign at h
  split at h
  case h_4 hd =>
    unfold passComment at h
    split at h <;> cases h
    next hc => exact .comment ⟨hs, hd⟩ hc
  case h_5 hd =>
    simp only [explicitExpression] at h
    split at h <;> cases h
    next hc => exact .explicit ⟨hs, hd⟩ hc
  case h_6 hd =>
    simp only [implicitExpression] at h
    split at h <;> cases h
    next hc => exact .implicit ⟨hs, hd⟩ hc
  case h_7 hd => exact .clause ⟨hs, hd⟩ (fault_of_openClause h)
  case h_9 hd =>
    unfold closeInnermost at h
    split at h
    · cases h
    · next hf =>
      split at h <;> cases h
      next hu => exact .closeInnermost ⟨hs, hd⟩ hf hu
  all_goals cases h

/-- What goes on behind a block fails where a keyword stands whose clause has no body. -/
theorem fault_of_continueClause {keyword : Keyword} {t : State}
    (h : t.continueClause keyword = .error e) :
    ∃ next, Keyword.ofLetters? (takeName (trimStart t.rest)) = some next ∧
      t.skipBlanks.clauseBody next = .error e := by
  simp only [continueClause] at h
  split at h
  · cases h
  · next next hn =>
    split at h
    · unfold Outcome.precede at h
      split at h <;> cases h
      next ho => exact ⟨next, hn, fault_of_openClause ho⟩
    · cases h

/-- In a block an at sign, a quotation without an end or the clause that goes on can be at fault. -/
theorem fault_of_stepBlock {block : BlockFrame} {below : List Frame}
    (hf : s.frames = .block block :: below) (h : s.stepBlock id block below = .error e) :
    s.Fault e := by
  unfold stepBlock at h
  split at h
  · cases h
  · next hr =>
    cases h
    exact .quotation hf hr
  · next kind text rest hr =>
    split at h
    · next hk => exact fault_of_atSign (head?_of_read_at (hk ▸ hr)) h
    · split at h
      · cases h
      · simp only at h
        split at h
        · next hc =>
          unfold Outcome.precede at h
          split at h <;> cases h
          next ho =>
            change (s.outOf text below).afterBlock _ = _ at ho
            unfold afterBlock at ho
            split at ho
            · cases ho
            · next keyword hw =>
              obtain ⟨next, hn, hb⟩ := fault_of_continueClause ho
              rw [rest_outOf hr] at hn
              exact .nextClause hf hr hc hw hn hb
        · cases h

/-- A closing tag is at fault in one of three ways: it has no end, it has more than a name, or it
ends another element than the innermost one. -/
theorem fault_of_closingTag {markup : MarkupFrame} {below : List Frame}
    (hf : s.frames = .markup markup :: below) (ht : markup.inText = false)
    (hn : closingName s.rest ≠ [])
    (h : s.closingTag id (closingName s.rest) = .error e) : s.Fault e := by
  have hrest : (s.cursor.advance (2 + (closingName s.rest).length)).rest =
      s.rest.drop (2 + (closingName s.rest).length) := by simp [rest]
  simp only [closingTag, hf, hrest] at h
  split at h
  · next hc =>
    cases h
    exact .openClosingTag hf ht hn hc
  · next hc =>
    split at h <;> cases h
    next hclose => exact .strayClosingTag hf ht hn (by rw [hc]; rfl) rfl hclose
  · next hnil hgt =>
    cases h
    obtain ⟨c, tail, hc⟩ := List.exists_cons_of_ne_nil hnil
    refine .malformedTag hf ht hn (by rw [hc]; rfl) ?_
    rintro rfl
    exact hgt tail hc

/-- In markup an at sign, a comment without an end or a closing tag can be at fault. -/
theorem fault_of_stepMarkup {markup : MarkupFrame} {below : List Frame}
    (hf : s.frames = .markup markup :: below) (h : s.stepMarkup id markup below = .error e) :
    s.Fault e := by
  unfold stepMarkup at h
  split at h
  · cases h
  · next c rest hc =>
    split at h
    · cases h
    · split at h
      · next hat => exact fault_of_atSign (by simp [hc, hat]) h
      · split at h
        · unfold angle at h
          split at h
          · split at h <;> cases h
          · next ht =>
            split at h
            · cases h
            · split at h
              · next hp =>
                unfold copyComment at h
                split at h <;> cases h
                next hnone => exact .markupComment hf (List.isPrefixOf_iff_prefix.1 hp) hnone
              · split at h
                · next hn => exact fault_of_closingTag hf (by simpa using ht) hn h
                · split at h <;> cases h
        · split at h
          · cases h
          · split at h <;> cases h

/-- In a tag, an at sign can be at fault, or the tag has no end. -/
theorem fault_of_stepTag {name : String} {span : Span} {below : List Frame}
    (hf : s.frames = .tag name span :: below) (h : s.stepTag id span = .error e) : s.Fault e := by
  have hend {selfClosing : Bool} {m : Move} : endTag id selfClosing m ≠ .error e := by
    unfold endTag
    split <;> nofun
  unfold stepTag at h
  split at h
  · next hs =>
    cases h
    exact .tag hf hs
  · next hd =>
    split at h
    · cases h
    · next hpos =>
      split at h
      · next hat => exact fault_of_atSign (by rw [(eq_cons_of_plainLength hd hpos).1, hat]; rfl) h
      · split at h
        · exact absurd h hend
        · split at h
          · split at h
            · exact absurd h hend
            · cases h
          · cases h

/-- In a value, an at sign can be at fault, or the value has no end. -/
theorem fault_of_stepValue {quote : Char} {openedAt : Nat} {below : List Frame}
    (hf : s.frames = .attributeValue quote openedAt :: below) (h : s.stepValue id = .error e) :
    s.Fault e := by
  simp only [stepValue, hf] at h
  split at h
  · next hs =>
    cases h
    exact .attributeValue hf hs
  · next hd =>
    split at h
    · cases h
    · next hpos =>
      split at h
      · next hat => exact fault_of_atSign (by rw [(eq_cons_of_plainLength hd hpos).1, hat]; rfl) h
      · cases h

/-- **A step that fails finds one of these faults.** -/
theorem fault_of_step (h : s.step = .error e) : s.Fault e := by
  unfold step stepWith at h
  split at h
  · unfold stepText at h
    split at h
    · cases h
    · next hc =>
      split at h
      · next hat => exact fault_of_atSign (by simp [hc, hat]) h
      · cases h
  · next hf => exact fault_of_stepBlock hf h
  · next hf => exact fault_of_stepMarkup hf h
  · next hf => exact fault_of_stepTag hf h
  · next hf => exact fault_of_stepValue hf h
  all_goals cases h

/-! ## where faults lie -/

/-- **A fault lies ahead, or it is that something behind is still open.** -/
theorem exists_span_of_fault (h : s.Fault e) :
    s.cursor.Faces e ∨ ∃ span ∈ openings s.frames, e.span? = some span := by
  have hspan (n : Nat) {f : Span → TemplateError} (hf : ∀ span, (f span).span? = some span) :
      s.cursor.Faces (f (s.cursor.span n)) :=
    ⟨_, hf _, Nat.le_refl _, Nat.le_add_right _ _⟩
  have hspanTo {d : Cursor} (hd : s.cursor.Reaches d) {f : Span → TemplateError}
      (hf : ∀ span, (f span).span? = some span) : s.cursor.Faces (f (s.cursor.spanTo d)) :=
    ⟨_, hf _, Nat.le_refl _, hd.offset_le⟩
  cases h with
  | comment => exact .inl (hspan 2 (f := .unclosed .comment) fun _ => rfl)
  | quotation => exact .inl (hspan 1 (f := .unclosed .quotation) fun _ => rfl)
  | markupComment => exact .inl (hspan _ (f := .unclosed .comment) fun _ => rfl)
  | openClosingTag =>
    exact .inl (hspanTo (Cursor.reaches_advance _ _) (f := .unclosed .tag) fun _ => rfl)
  | malformedTag =>
    exact .inl (hspanTo (Cursor.reaches_advance _ _) (f := .malformedTag _) fun _ => rfl)
  | explicit hd hc =>
    obtain ⟨rest, hr⟩ := rest_of_introduces hd rfl
    exact .inl (faces_of_findClosing (n := 1) (by simp [show s.cursor.rest = _ from hr]) hc)
  | implicit _ hc =>
    refine .inl ((faces_of_chainEnd hc).of_reaches ?_)
    exact (Cursor.reaches_advance _ _).trans (Cursor.reaches_advance _ _)
  | clause _ hb =>
    have hfaces := faces_of_clauseBody hb
    rw [cursor_skip, cursor_yieldToCode] at hfaces
    exact .inl (hfaces.of_reaches (Cursor.reaches_advance _ _))
  | nextClause _ _ _ _ _ hb =>
    refine .inl ((faces_of_clauseBody hb).of_reaches ?_)
    exact (Cursor.reaches_advance _ _).trans (Cursor.reaches_advance _ _)
  | strayClosingTag _ _ _ _ he hc =>
    have hreach : s.cursor.Reaches _ := he ▸ (Cursor.reaches_advance _ _).trans
      (Cursor.reaches_advance _ _)
    obtain ⟨expected, rfl⟩ := OpenElements.eq_of_close_eq_error hc
    exact .inl (hspanTo hreach (f := .strayClosingTag _ _) fun _ => rfl)
  | closeInnermost _ hf hu =>
    obtain ⟨span, hspan, he⟩ := exists_opening hu
    refine .inr ⟨span, ?_, he⟩
    rw [(FrameStack.splitAtBlock?_eq_some hf).1, openings_append]
    exact List.mem_append_left _ hspan
  | tag hf =>
    rw [hf]
    exact .inr ⟨_, List.mem_cons_self, rfl⟩
  | attributeValue hf =>
    rw [hf]
    exact .inr ⟨_, List.mem_cons_self, rfl⟩

end State

end Scan

end AtTemplate
