import AtTemplate.Proofs.Headers
import AtTemplate.Proofs.Marks
import AtTemplate.Proofs.OpenElements

/-!
# AtTemplate.Proofs.Labels

The stretches of the source that errors point at, as a report underlines them.  A construct that is
left open is reported at its first byte, but for a comment, a clause and a tag, which are reported
at their mark, their keyword and their name.  So a stretch ends in a character that is visible, and
a report, which leaves out the blanks at the end of a line, shows all of it.

* `isBrief_of_findClosing`, `isBrief_of_chainEnd`, `isBrief_or_eq_of_findBody` — what the searches
  through code report;
* `legible_of_reached` — the names that frames remember are names of elements;
* `labelled_of_scan` — the stretch that an error points at ends in a visible character.
-/

namespace AtTemplate

open Code Text
open AtTemplate.Markup

variable {source inside text : List Char} {c : Cursor} {e : TemplateError}

/-! ## texts that end in a visible character -/

/-- The last character of a text is no blank. -/
def EndsVisibly (text : List Char) : Prop :=
  ∃ stem last, text = stem ++ [last] ∧ isBlank last = false

/-- A text without blanks ends visibly. -/
theorem endsVisibly_of_forall (hne : text ≠ []) (h : ∀ c ∈ text, isBlank c = false) :
    EndsVisibly text :=
  ⟨text.dropLast, text.getLast hne, (List.dropLast_append_getLast hne).symm,
    h _ (List.getLast_mem hne)⟩

/-- A text ends visibly where its last part does. -/
theorem EndsVisibly.append (h : EndsVisibly text) (before : List Char) :
    EndsVisibly (before ++ text) := by
  obtain ⟨stem, last, rfl, hlast⟩ := h
  exact ⟨before ++ stem, last, (List.append_assoc ..).symm, hlast⟩

theorem EndsVisibly.ne_nil (h : EndsVisibly text) : text ≠ [] := by
  obtain ⟨stem, last, rfl, -⟩ := h
  exact List.append_ne_nil_of_right_ne_nil _ (List.cons_ne_nil _ _)

namespace Markup

/-- A tag name is made of characters of tag names. -/
theorem isTagNameChar_of_mem_takeTagName {x : Char} (h : x ∈ takeTagName text) :
    isTagNameChar x = true := by
  unfold takeTagName at h
  split at h
  · cases h
  · split at h
    · next hx =>
      obtain rfl | hmem := List.mem_cons.1 h
      · simp [isTagNameChar, Char.isAlphanum, hx]
      · exact List.mem_takeWhile_imp hmem
    · cases h

/-- The name of an opening tag has no blanks. -/
theorem isBlank_of_mem_openingName {x : Char} (h : x ∈ openingName text) : isBlank x = false := by
  unfold openingName at h
  split at h
  · exact isBlank_of_isTagNameChar (isTagNameChar_of_mem_takeTagName h)
  · cases h

/-- The name of a closing tag has no blanks. -/
theorem isBlank_of_mem_closingName {x : Char} (h : x ∈ closingName text) : isBlank x = false := by
  unfold closingName at h
  split at h
  · exact isBlank_of_isTagNameChar (isTagNameChar_of_mem_takeTagName h)
  · cases h

/-- A tag through its name ends visibly, an opening tag as well as a closing tag. -/
theorem endsVisibly_cons {name : List Char} (h : ∀ x ∈ name, isBlank x = false) :
    EndsVisibly ('<' :: name) :=
  endsVisibly_of_forall (List.cons_ne_nil _ _)
    (List.forall_mem_cons.2 ⟨isBlank_of_visible (by decide), h⟩)

/-- The beginning of a closing tag ends visibly, with its name or with the slash. -/
theorem endsVisibly_closingName :
    EndsVisibly ('<' :: '/' :: closingName text) :=
  endsVisibly_cons (List.forall_mem_cons.2
    ⟨isBlank_of_visible (by decide), fun _ hx => isBlank_of_mem_closingName hx⟩)

end Markup

/-! ## what is reported where -/

/-- An error points at a text of the source that ends in a visible character. -/
def Labelled (source : List Char) (e : TemplateError) : Prop :=
  ∃ span inside, e.span? = some span ∧ span.Holds source inside ∧ EndsVisibly inside

/-- An error that is reported of a text ahead is labelled where that text ends visibly. -/
theorem Cursor.labelled (hp : inside <+: c.rest) (hs : e.span? = some (c.span (byteLength inside)))
    (hv : EndsVisibly inside) : Labelled c.source e :=
  ⟨_, inside, hs, Cursor.holds_span hp, hv⟩

/-- Every construct begins with a visible character. -/
theorem Construct.Begins.exists_head {construct : Construct} (h : construct.Begins text) :
    ∃ x rest, text = x :: rest ∧ isBlank x = false := by
  have hhead {x : Char} (hx : text.head? = some x) (hv : 0x21 ≤ x.toNat ∧ x.toNat ≤ 0x7E) :
      ∃ x rest, text = x :: rest ∧ isBlank x = false := by
    obtain ⟨rest, hr⟩ := List.head?_eq_some_iff.1 hx
    exact ⟨x, rest, hr, isBlank_of_visible hv⟩
  cases construct with
  | comment =>
    obtain ⟨rest, rfl⟩ | ⟨rest, rfl⟩ := h
    · exact hhead rfl (by decide)
    · exact hhead rfl (by decide)
  | parenthesis | bracket | tag => exact hhead h (by decide)
  | attributeValue =>
    obtain h | h := h
    · exact hhead h (by decide)
    · exact hhead h (by decide)
  | quotation =>
    obtain ⟨quote, rest, rfl, hq, -⟩ | ⟨rest, rfl, -⟩ := h
    · refine hhead rfl ?_
      unfold quoted? at hq
      split at hq <;> first | decide | cases hq
    · exact hhead rfl (by decide)
  | block =>
    obtain ⟨rest, rfl⟩ | ⟨keyword, hk⟩ := h
    · exact hhead rfl (by decide)
    · rw [← takeName_append_drop text, hk]
      cases keyword <;> exact ⟨_, _, rfl, isBlank_of_visible (by decide)⟩

/-- A construct is not closed, and it is reported at its first byte. -/
def TemplateError.IsBrief (e : TemplateError) : Prop :=
  ∃ construct span, e = .unclosed construct span ∧ span.stop ≤ span.start + 1

/-- The first byte of a construct is its first character, which is visible. -/
theorem TemplateError.IsBrief.labelled (h : e.IsBrief) (hs : Shown source e) :
    Labelled source e := by
  obtain ⟨construct, span, rfl, hle⟩ := h
  obtain ⟨c, inside, rfl, hne, hp, hspan, hfits⟩ := hs
  cases hspan
  refine Cursor.labelled hp rfl ?_
  have hlength : inside.length ≤ 1 := by
    have hbytes : byteLength inside ≤ 1 := Nat.le_of_add_le_add_left hle
    exact Nat.le_trans (length_le_byteLength inside) hbytes
  obtain ⟨x, tail, rfl⟩ := List.exists_cons_of_ne_nil hne
  obtain rfl : tail = [] := List.length_eq_zero_iff.1 (by simpa using hlength)
  obtain ⟨back, hback⟩ := hp
  obtain ⟨y, rest, hy, hvisible⟩ := Construct.Begins.exists_head hfits
  rw [← hback] at hy
  cases hy
  exact ⟨[], x, rfl, hvisible⟩

/-! ## searches through code -/

namespace Code

/-- A group that is not closed is reported at its opening delimiter, and so is a token within it. -/
theorem isBrief_of_findClosing {kind : Delimiter} (h : findClosing kind c = .error e) :
    e.IsBrief := by
  have hnone : ∀ q, ¬ kind.Closes c q := by
    intro q hq
    rw [findClosing_eq_ok_iff.2 hq] at h
    cases h
  obtain ⟨d, -, herror⟩ | ⟨-, herror⟩ := findClosing_eq_error hnone
  · rw [h] at herror
    cases herror
    exact ⟨_, _, rfl, Nat.le_refl _⟩
  · rw [h] at herror
    cases herror
    exact ⟨_, _, rfl, Nat.le_add_of_sub_le (Nat.le_refl _)⟩

/-- A clause without a body is reported at its keyword, or at a token behind it. -/
theorem isBrief_or_eq_of_findBody {keyword : Span} (h : findBody keyword c = .error e) :
    e.IsBrief ∨ e = .unclosed .block keyword := by
  have hnone : ∀ p, ¬ BodyAt c p := by
    intro p hp
    rw [findBody_eq_ok_iff.2 hp] at h
    cases h
  obtain ⟨d, -, herror⟩ | ⟨-, herror⟩ := findBody_eq_error keyword hnone
  · rw [h] at herror
    cases herror
    exact .inl ⟨_, _, rfl, Nat.le_refl _⟩
  · rw [h] at herror
    cases herror
    exact .inr rfl

end Code

namespace Scan

variable {s : State} {m : Move} {frame : Frame}

/-- A chain is reported at a group of one of its links. -/
theorem isBrief_of_chainEnd (h : chainEnd c = .error e) : e.IsBrief := by
  fun_induction chainEnd c with
  | case1 | case2 | case4 => cases h
  | case3 _ _ _ _ ih => exact ih h
  | case5 _ _ _ _ _ _ _ e' hc =>
    cases h
    exact isBrief_of_findClosing hc
  | case6 _ _ _ _ _ _ _ _ _ ih => exact ih h

/-- A clause without a body is reported at its keyword. -/
theorem labelled_of_clauseBody {keyword : Keyword} (hk : takeName s.rest = keyword.letters)
    (h : s.clauseBody keyword = .error e) : Labelled s.cursor.source e := by
  obtain hbrief | rfl := isBrief_or_eq_of_findBody h
  · exact hbrief.labelled (shown_of_clauseBody hk h)
  · have hp : keyword.letters <+: s.rest := ⟨_, hk ▸ takeName_append_drop s.rest⟩
    refine Cursor.labelled hp ?_ ?_
    · exact congrArg some (Cursor.spanTo_advance_of_prefix hp)
    · exact endsVisibly_of_forall keyword.letters_ne_nil
        fun x hx => isBlank_of_isAlphanum (Keyword.isAlphanum_of_mem_letters x hx)

end Scan

/-! ## frames -/

/-- The names that a frame remembers have no blanks. -/
def Frame.Legible : Frame → Prop
  | .markup m => ∀ e ∈ m.elements.elements, ∀ x ∈ e.name.toList, isBlank x = false
  | .tag name _ => ∀ x ∈ name.toList, isBlank x = false
  | _ => True

namespace Scan

variable {s : State} {m : Move} {frame : Frame}

/-- **A step remembers no name with blanks.** -/
theorem legible_of_turn (h : ∀ frame ∈ s.frames, frame.Legible) (ht : s.Turn m) :
    ∀ frame ∈ m.state.frames, frame.Legible := by
  have hyield : ∀ frame ∈ s.yieldToCode.frames, frame.Legible :=
    fun frame hframe => h frame (State.mem_of_mem_yieldToCode hframe)
  cases ht with
  | doubled | plain | lineEscape | comment | closeNothing | copy | explicit | implicit => exact h
  | clause | openBlock => exact List.forall_mem_cons.2 ⟨trivial, hyield⟩
  | openMarkup =>
    unfold State.openMarkup
    split
    · exact List.forall_mem_cons.2 ⟨nofun, hyield⟩
    · split <;> exact hyield
  | closeInnermost _ hf =>
    rw [(FrameStack.splitAtBlock?_eq_some hf).1, List.forall_mem_append] at h
    exact (List.forall_mem_cons.1 h.2).2
  | enterMarkup => exact List.forall_mem_cons.2 ⟨nofun, h⟩
  | openValue => exact List.forall_mem_cons.2 ⟨trivial, h⟩
  | token hf | openText hf | closeText hf =>
    rw [hf, List.forall_mem_cons] at h
    exact List.forall_mem_cons.2 h
  | lastToken hf | endLine hf | leaveMarkup hf | endSelfClosing hf | closeValue hf | loseTag hf
    | loseWhole hf =>
    rw [hf, List.forall_mem_cons] at h
    exact h.2
  | nextClause hf =>
    rw [hf, List.forall_mem_cons] at h
    exact List.forall_mem_cons.2 ⟨trivial, h.2⟩
  | closingTag hf _ _ _ _ hc =>
    rw [hf, List.forall_mem_cons] at h
    obtain ⟨helements, hbelow⟩ := h
    rw [Frame.Legible, (eq_cons_of_close hc).1, List.forall_mem_cons] at helements
    exact List.forall_mem_cons.2 ⟨helements.2, hbelow⟩
  | openingTag =>
    refine List.forall_mem_cons.2 ⟨?_, h⟩
    rw [Frame.Legible, String.toList_ofList]
    exact fun _ hx => isBlank_of_mem_openingName hx
  | endTag hf =>
    rw [hf, List.forall_mem_cons, List.forall_mem_cons] at h
    obtain ⟨htag, helements, houter⟩ := h
    exact List.forall_mem_cons.2 ⟨List.forall_mem_cons.2 ⟨htag, helements⟩, houter⟩

/-- Every frame of a scan is legible. -/
theorem legible_of_reached {source : String} (h : Reached source s) :
    ∀ frame ∈ s.frames, frame.Legible :=
  h.preserves (P := fun s => ∀ frame ∈ s.frames, frame.Legible) nofun
    fun _ _ _ hlegible hs hm => legible_of_turn hlegible (State.turn_of_step hs hm)

/-- What is left open is reported at the first byte, or at a tag through its name. -/
theorem labelled_of_unclosed? (hrec : frame.Recorded source) (hl : frame.Legible)
    (hw : frame.isWhole = false) (he : frame.unclosed? = some e) : Labelled source e := by
  have htag {name : String} {span : Span} (hh : span.Holds source ('<' :: name.toList))
      (hn : ∀ x ∈ name.toList, isBlank x = false) : Labelled source (.unclosed .tag span) :=
    ⟨span, _, rfl, hh, endsVisibly_cons hn⟩
  have hbrief (h : e.IsBrief) : Labelled source e := h.labelled (shown_of_unclosed? hrec hw he)
  cases frame with
  | block | attributeValue =>
    cases he
    exact hbrief ⟨_, _, rfl, Nat.le_refl _⟩
  | markup m =>
    simp only [Frame.unclosed?] at he
    split at he
    · next element hinner =>
      cases he
      have hmem := List.mem_of_mem_head? hinner
      exact htag (hrec.2 element hmem) (hl element hmem)
    · split at he <;> cases he
      exact hbrief ⟨_, _, rfl, Nat.le_refl _⟩
  | tag name span =>
    cases he
    exact htag hrec hl
  | expression | comment | lineEscape => cases hw

/-- What is reported of open frames is labelled where each of them is recorded and legible. -/
theorem labelled_of_findSome? {frames : List Frame} (hrec : ∀ frame ∈ frames, frame.Recorded source)
    (hl : ∀ frame ∈ frames, frame.Legible) (hw : ∀ frame ∈ frames, frame.isWhole = false)
    (he : frames.findSome? Frame.unclosed? = some e) : Labelled source e := by
  obtain ⟨frame, hmem, he⟩ := List.exists_of_findSome?_eq_some he
  exact labelled_of_unclosed? (hrec frame hmem) (hl frame hmem) (hw frame hmem) he

/-- **What a step that fails points at ends in a visible character.** -/
theorem labelled_of_fault (hn : Nested s.frames)
    (hrec : ∀ frame ∈ s.frames, frame.Recorded s.cursor.source)
    (hl : ∀ frame ∈ s.frames, frame.Legible) (h : s.Fault e) : Labelled s.cursor.source e := by
  have hbrief (hb : e.IsBrief) : Labelled s.cursor.source e :=
    hb.labelled (shown_of_fault hn hrec h)
  cases h with
  | explicit _ hc => exact hbrief (isBrief_of_findClosing hc)
  | implicit _ hc => exact hbrief (isBrief_of_chainEnd hc)
  | quotation | attributeValue => exact hbrief ⟨_, _, rfl, Nat.le_refl _⟩
  | comment hd =>
    obtain ⟨rest, hr⟩ := rest_of_introduces hd rfl
    have hp : ['@', '*'] <+: s.cursor.rest := ⟨rest, hr.symm⟩
    exact Cursor.labelled hp rfl ⟨['@'], '*', rfl, isBlank_of_visible (by decide)⟩
  | markupComment _ hp =>
    exact Cursor.labelled hp rfl ⟨['<', '!', '-'], '-', rfl, isBlank_of_visible (by decide)⟩
  | clause hd hb =>
    have hlabel := labelled_of_clauseBody (State.takeName_of_introduces hd) hb
    rwa [State.cursor_skip, State.cursor_yieldToCode, Cursor.source_advance] at hlabel
  | nextClause _ hr _ _ hk hb =>
    have hlabel := labelled_of_clauseBody ?_ hb
    · rwa [State.cursor_skipBlanks, State.cursor_outOf, Cursor.source_advance,
        Cursor.source_advance] at hlabel
    · rw [State.rest_skipBlanks, State.rest_outOf hr]
      exact (Keyword.ofLetters?_eq_some_iff.1 hk).symm
  | closeInnermost _ hf hu =>
    rw [(FrameStack.splitAtBlock?_eq_some hf).1] at hn hrec hl
    refine labelled_of_findSome? (List.forall_mem_append.1 hrec).1 (List.forall_mem_append.1 hl).1
      ?_ hu
    exact fun frame hmem => hn.isWhole_of_mem frame (List.mem_append_left _ hmem)
  | openClosingTag _ _ hname | malformedTag _ _ hname =>
    refine Cursor.labelled (cons_closingName_isPrefix hname) ?_ endsVisibly_closingName
    exact congrArg some (spanTo_closingName hname)
  | @strayClosingTag _ _ tagEnd _ _ _ _ hname hgt he hc =>
    obtain ⟨expected, rfl⟩ := OpenElements.eq_of_close_eq_error hc
    obtain ⟨blanks, -, hp, hlen⟩ := exists_closingTag hname hgt
    refine Cursor.labelled hp ?_ ?_
    · rw [TemplateError.span?, he, Cursor.advance_advance, ← hlen,
        Cursor.spanTo_advance_of_prefix hp]
    · exact ⟨'<' :: '/' :: (closingName s.rest ++ blanks), '>', by simp,
        isBlank_of_visible (by decide)⟩
  | tag hf =>
    rw [hf, List.forall_mem_cons] at hrec hl
    exact labelled_of_unclosed? hrec.1 hl.1 rfl rfl

/-- **What the error of a scan points at ends in a visible character.** -/
theorem labelled_of_scan {source : String} (h : scan source = .error e) :
    Labelled source.toList e := by
  obtain ⟨s, hr, ⟨-, he⟩ | ⟨-, he⟩⟩ := scan_eq_error_iff.1 h
  · exact labelled_of_findSome? (recorded_of_reached hr) (legible_of_reached hr)
      (nested_of_reached hr).isWhole_of_mem he
  · have hrec := recorded_of_reached hr
    rw [← hr.source_eq] at hrec ⊢
    exact labelled_of_fault (nested_of_reached hr) hrec (legible_of_reached hr)
      (State.fault_of_step he)

end Scan

end AtTemplate
