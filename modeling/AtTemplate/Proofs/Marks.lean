import AtTemplate.Proofs.Offsets
import AtTemplate.Proofs.Places

/-!
# AtTemplate.Proofs.Marks

What stands where an error points.  Some errors point ahead of the step that finds them.  The others
are about a frame that is left open, and a frame keeps no more than the offset at which it was
opened; that the mark of its construct stands there is an invariant of the scan.

* `read_eq_unclosed_iff` — code that cannot be read begins with a quotation or a comment without an
  end;
* `recorded_of_turn` — frames are opened at the marks of their constructs;
* `shown_of_fault` — a step that fails points at what it names;
* `shown_of_scan` — and so does a scan.
-/

namespace AtTemplate

open Code Text
open AtTemplate.Markup

/-! ## places of a source -/

/-- A place of the source lies at a byte offset, and the text from there on has a property. -/
def HoldsAt (source : List Char) (offset : Nat) (p : List Char → Prop) : Prop :=
  ∃ c : Cursor, c.source = source ∧ c.offset = offset ∧ p c.rest

/-- The text that stands in a stretch of a source. -/
def Span.Holds (span : Span) (source inside : List Char) : Prop :=
  ∃ front back, source = front ++ (inside ++ back) ∧ byteLength front = span.start ∧
    byteLength (front ++ inside) = span.stop

variable {source inside text : List Char} {c d : Cursor} {e : TemplateError}

/-- There is one place at an offset, the one that the text can be cut at. -/
theorem holdsAt_iff {offset : Nat} {p : List Char → Prop} :
    HoldsAt source offset p ↔
      ∃ before text, Offsets.divide? source offset = some (before, text) ∧ p text := by
  constructor
  · rintro ⟨c, rfl, rfl, hp⟩
    refine ⟨c.before.reverse, c.rest, Offsets.divide?_eq_some_iff.2 ⟨rfl, ?_⟩, hp⟩
    rw [byteLength_reverse, c.offset_eq]
  · rintro ⟨before, text, hd, hp⟩
    obtain ⟨rfl, rfl⟩ := Offsets.divide?_eq_some_iff.1 hd
    refine ⟨⟨before.reverse, text, byteLength before, (byteLength_reverse before).symm⟩, ?_, rfl,
      hp⟩
    rw [Cursor.source, List.reverse_reverse]

/-- What stands ahead of a cursor fills a stretch of as many bytes. -/
theorem Cursor.holds_span (h : inside <+: c.rest) :
    (c.span (byteLength inside)).Holds c.source inside := by
  obtain ⟨back, hback⟩ := h
  refine ⟨c.before.reverse, back, ?_, ?_, ?_⟩
  · rw [hback, Cursor.source]
  · rw [byteLength_reverse, ← c.offset_eq]
    rfl
  · rw [byteLength_append, byteLength_reverse, ← c.offset_eq]
    rfl

/-- The way to the end of a text that stands ahead is as long as the text. -/
theorem Cursor.spanTo_advance_of_prefix (h : inside <+: c.rest) :
    c.spanTo (c.advance inside.length) = c.span (byteLength inside) := by
  rw [Cursor.spanTo, Cursor.offset_advance_of_prefix h]
  rfl

/-- What fills a stretch of a source stands ahead of a cursor. -/
theorem Span.Holds.exists_cursor {span : Span} (h : span.Holds source inside) :
    ∃ c : Cursor, c.source = source ∧ inside <+: c.rest ∧ span = c.span (byteLength inside) := by
  obtain ⟨front, back, rfl, hstart, hstop⟩ := h
  have hoffset : byteLength front = byteLength front.reverse := (byteLength_reverse front).symm
  refine ⟨⟨front.reverse, inside ++ back, byteLength front, hoffset⟩, ?_, ⟨back, rfl⟩, ?_⟩
  · rw [Cursor.source, List.reverse_reverse]
  · obtain ⟨start, stop⟩ := span
    simp only at hstart hstop
    rw [byteLength_append] at hstop
    simp only [Cursor.span, Span.ofLength, hstart, ← hstop]

/-- A stretch lies between two characters of its source, and within it. -/
theorem Span.Holds.isBoundary {span : Span} (h : span.Holds source inside) :
    Offsets.IsBoundary source span.start ∧ Offsets.IsBoundary source span.stop := by
  obtain ⟨front, back, hs, hstart, hstop⟩ := h
  constructor
  · exact Offsets.isBoundary_iff.2 ⟨front, inside ++ back, hs, hstart⟩
  · exact Offsets.isBoundary_iff.2 ⟨front ++ inside, back, by rw [hs, List.append_assoc], hstop⟩

/-- A stretch that holds a character is not empty. -/
theorem Span.Holds.start_lt {span : Span} (h : span.Holds source inside) (hne : inside ≠ []) :
    span.start < span.stop := by
  obtain ⟨front, back, -, hstart, hstop⟩ := h
  have hpos := byteLength_pos_iff.2 hne
  rw [byteLength_append] at hstop
  omega

/-! ## code without an end -/

namespace Code

/-- A text begins with a quotation that is not closed. -/
def UnclosedQuotation (text : List Char) : Prop :=
  ∃ quote rest, text = quote :: rest ∧ (quoted? quote).isSome = true ∧
    closeQuotation quote rest = none

/-- A text begins with a comment of code that is not closed. -/
def UnclosedComment (text : List Char) : Prop :=
  ∃ rest, text = '/' :: '*' :: rest ∧ closeComment rest = none

/-- What is enclosed has no end where nothing closes it. -/
theorem enclosed_eq_unclosed_iff {kind : Token} {opening : List Char}
    {closed? : Option (List Char × List Char)} :
    enclosed kind opening closed? = .unclosed ↔ closed? = none := by
  cases closed? <;> simp [enclosed]

/-- Behind a slash only a comment can be without an end. -/
theorem readSlash_eq_unclosed_iff :
    readSlash text = .unclosed ↔ ∃ rest, text = '*' :: rest ∧ closeComment rest = none := by
  unfold readSlash
  split
  · simp [run]
  · simp [enclosed_eq_unclosed_iff]
  · next hstar => simpa using fun rest h => absurd h (hstar rest)

/-- **Code cannot be read exactly where a quotation or a comment begins that is not closed.** -/
theorem read_eq_unclosed_iff :
    read text = .unclosed ↔ UnclosedQuotation text ∨ UnclosedComment text := by
  constructor
  · intro h
    unfold read at h
    split at h
    · cases h
    · next x rest =>
      split at h
      · cases h
      · next hq =>
        exact .inl ⟨x, rest, rfl, by rw [hq]; rfl, enclosed_eq_unclosed_iff.1 h⟩
      · split at h
        · next hx =>
          obtain ⟨inside, rfl, hc⟩ := readSlash_eq_unclosed_iff.1 h
          exact .inr ⟨inside, by rw [hx], hc⟩
        · unfold run at h
          split at h
          · cases h
          · split at h <;> cases h
  · rintro (⟨quote, rest, rfl, hq, hc⟩ | ⟨rest, rfl, hc⟩)
    · unfold quoted? at hq
      split at hq
      · exact enclosed_eq_unclosed_iff.2 hc
      · exact enclosed_eq_unclosed_iff.2 hc
      · exact enclosed_eq_unclosed_iff.2 hc
      · cases hq
    · exact enclosed_eq_unclosed_iff.2 hc

end Code

/-! ## what an error shows -/

/-- How the text begins at which a construct is reported. -/
def Construct.Begins : Construct → List Char → Prop
  | .comment, text => ['@', '*'] <+: text ∨ commentOpening <+: text
  | .parenthesis, text => text.head? = some '('
  | .bracket, text => text.head? = some '['
  | .block, text => ['@', '{'] <+: text ∨ ∃ keyword : Keyword, takeName text = keyword.letters
  | .quotation, text => UnclosedQuotation text ∨ UnclosedComment text
  | .tag, text => text.head? = some '<'
  | .attributeValue, text => text.head? = some '"' ∨ text.head? = some '\''

/-- What an error says of the text in its stretch, and of the text from there on. -/
def TemplateError.Fits : TemplateError → List Char → List Char → Prop
  | .unclosed construct _, _, text => construct.Begins text
  | .strayClosingTag _ found _, inside, _ =>
    ∃ blanks, (∀ c ∈ blanks, isBlank c = true) ∧
      inside = '<' :: '/' :: (found.toList ++ (blanks ++ ['>']))
  | .malformedTag detail _, inside, _ =>
    ∃ name, detail = "unexpected content in closing tag </" ++ name ++ ">" ∧
      inside = '<' :: '/' :: name.toList
  | .invalidBindingName _, _, _ => False

/-- An error points at what stands ahead of a cursor. -/
structure Cursor.Shows (c : Cursor) (e : TemplateError) (inside : List Char) : Prop where
  ne_nil : inside ≠ []
  isPrefix : inside <+: c.rest
  span_eq : e.span? = some (c.span (byteLength inside))
  fits : e.Fits inside c.rest

/-- An error points at a place of the source, and what it says of it is so. -/
def Shown (source : List Char) (e : TemplateError) : Prop :=
  ∃ (c : Cursor) (inside : List Char), c.source = source ∧ c.Shows e inside

theorem Cursor.Shows.shown (h : c.Shows e inside) : Shown c.source e :=
  ⟨c, inside, rfl, h⟩

/-- A construct that begins ahead is reported at its first characters. -/
theorem Cursor.shows_unclosed {construct : Construct} (hne : inside ≠ []) (hp : inside <+: c.rest)
    (hb : construct.Begins c.rest) :
    c.Shows (.unclosed construct (c.span (byteLength inside))) inside :=
  ⟨hne, hp, rfl, hb⟩

/-- A construct that begins ahead with a character of one byte is reported at it. -/
theorem Cursor.shows_unclosed_one {construct : Construct} {x : Char} (hx : x.utf8Size = 1)
    (hr : c.rest.head? = some x) (hb : construct.Begins c.rest) :
    c.Shows (.unclosed construct (c.span 1)) [x] := by
  obtain ⟨rest, hrest⟩ := List.head?_eq_some_iff.1 hr
  have hbytes : byteLength [x] = 1 := hx
  have hp : [x] <+: c.rest := ⟨rest, hrest.symm⟩
  have h := Cursor.shows_unclosed (List.cons_ne_nil x []) hp hb
  rwa [hbytes] at h

namespace Code

variable {kind : Delimiter}

/-- Only characters of one byte begin what cannot be read. -/
theorem exists_head_of_unclosed (h : UnclosedQuotation text ∨ UnclosedComment text) :
    ∃ x, text.head? = some x ∧ x.utf8Size = 1 := by
  obtain ⟨quote, rest, rfl, hq, -⟩ | ⟨rest, rfl, -⟩ := h
  · refine ⟨quote, rfl, ?_⟩
    unfold quoted? at hq
    split at hq <;> first | rfl | cases hq
  · exact ⟨'/', rfl, rfl⟩

/-- What is reported as a string literal is shown by its first character. -/
theorem shows_quotation (h : read c.rest = .unclosed) :
    ∃ x, c.Shows (.unclosed .quotation (c.span 1)) [x] := by
  have hb := read_eq_unclosed_iff.1 h
  obtain ⟨x, hx, hsize⟩ := exists_head_of_unclosed hb
  exact ⟨x, Cursor.shows_unclosed_one hsize hx hb⟩

/-- A token without an end is shown where it begins. -/
theorem shown_of_next (h : next c = .error e) : Shown c.source e := by
  unfold next at h
  split at h <;> cases h
  next hr =>
    obtain ⟨x, hx⟩ := shows_quotation hr
    exact hx.shown

/-- A search for a closing delimiter fails at a token, which is shown. -/
theorem shown_of_closing? {depth : Nat} (h : closing? kind depth c = .error e) :
    Shown c.source e := by
  fun_induction closing? kind depth c with
  | case1 _ _ _ hn =>
    cases h
    exact shown_of_next hn
  | case2 => cases h
  | case4 => cases h
  | case3 _ _ _ hn ih | case5 _ _ _ hn _ ih | case6 _ _ _ _ hn _ _ ih =>
    rw [← (reaches_of_next hn).source_eq]
    exact ih h

/-- A search for the body of a clause fails at a token, which is shown. -/
theorem shown_of_body? {parens : Int} (h : body? parens c = .error e) : Shown c.source e := by
  fun_induction body? parens c with
  | case1 _ _ _ hn =>
    cases h
    exact shown_of_next hn
  | case2 => cases h
  | case5 => cases h
  | case3 _ _ _ _ hn ih | case4 _ _ _ _ hn ih | case6 _ _ _ _ _ hn ih
    | case7 _ _ _ _ _ hn _ _ _ ih =>
    rw [← (reaches_of_next hn).source_eq]
    exact ih h

/-- A group without an end is reported at its opening delimiter. -/
theorem shown_of_findClosing {x : Char} (hr : c.rest.head? = some x) (hx : x.utf8Size = 1)
    (hb : kind.construct.Begins c.rest) (h : findClosing kind (c.advance 1) = .error e) :
    Shown c.source e := by
  unfold findClosing at h
  split at h
  · next hc =>
    cases h
    rw [← c.source_advance 1]
    exact shown_of_closing? hc
  · cases h
  · cases h
    obtain ⟨rest, hrest⟩ := List.head?_eq_some_iff.1 hr
    rw [Cursor.offset_advance_one hrest hx, Nat.add_sub_cancel]
    exact (Cursor.shows_unclosed_one hx hr hb).shown

/-- A clause without a body is reported at its keyword. -/
theorem shown_of_findBody {keyword : Keyword} (hk : takeName c.rest = keyword.letters)
    (h : findBody (c.spanTo (c.advance keyword.letters.length))
      (c.advance keyword.letters.length) = .error e) : Shown c.source e := by
  unfold findBody at h
  split at h
  · next hb =>
    cases h
    rw [← c.source_advance keyword.letters.length]
    exact shown_of_body? hb
  · cases h
  · cases h
    have hp : keyword.letters <+: c.rest := ⟨_, hk ▸ takeName_append_drop c.rest⟩
    rw [Cursor.spanTo_advance_of_prefix hp]
    exact (Cursor.shows_unclosed keyword.letters_ne_nil hp
      (show Construct.block.Begins c.rest from .inr ⟨keyword, hk⟩)).shown

end Code

namespace Scan

variable {s : State} {m : Move}

/-- A link that is a group begins with its bracket. -/
theorem begins_of_linkGroup? {x : Char} {kind : Delimiter} (h : linkGroup? x = some kind) :
    x.utf8Size = 1 ∧ ∀ text, text.head? = some x → kind.construct.Begins text := by
  unfold linkGroup? at h
  split at h <;> cases h
  · exact ⟨rfl, fun _ hx => hx⟩
  · exact ⟨rfl, fun _ hx => hx⟩

/-- A chain breaks off at a group that is shown. -/
theorem shown_of_chainEnd (h : chainEnd c = .error e) : Shown c.source e := by
  fun_induction chainEnd c with
  | case1 => cases h
  | case2 => cases h
  | case3 c rest hname hr ih =>
    rw [← c.source_advance (1 + (takeName rest).length)]
    exact ih h
  | case4 => cases h
  | case5 c x rest hr _ kind hkind e' hc =>
    cases h
    have hx : c.rest.head? = some x := by rw [hr, List.head?_cons]
    obtain ⟨hsize, hb⟩ := begins_of_linkGroup? hkind
    exact shown_of_findClosing hx hsize (hb _ hx) hc
  | case6 c x rest hr _ kind _ close hc ih =>
    have hreach : c.Reaches (close.advance 1) :=
      ((Cursor.reaches_advance _ _).trans (reaches_of_findClosing hc).1).trans
        (Cursor.reaches_advance _ _)
    rw [← hreach.source_eq]
    exact ih h

/-- A clause without a body is shown by its keyword. -/
theorem shown_of_clauseBody {keyword : Keyword} (hk : takeName s.rest = keyword.letters)
    (h : s.clauseBody keyword = .error e) : Shown s.cursor.source e :=
  shown_of_findBody hk h

end Scan

/-! ## what frames remember -/

/-- The first letter of a keyword takes one byte. -/
theorem Keyword.exists_head (keyword : Keyword) :
    ∃ x, keyword.letters.head? = some x ∧ x.utf8Size = 1 := by
  cases keyword <;> exact ⟨_, rfl, rfl⟩

theorem Keyword.isAlphanum_of_mem_letters {keyword : Keyword} :
    ∀ c ∈ keyword.letters, c.isAlphanum = true := by
  cases keyword <;> simp [Keyword.letters]

/-- The beginning of a construct that has an end of its own. -/
inductive Beginning where
  /-- The at sign of a block, or the keyword of its clause. -/
  | block (openedAt : Nat) (clause? : Option Keyword)
  /-- An opening tag through its name.  Behind the tag it is its element that is open. -/
  | tag (name : String) (span : Span)
  /-- The quote of an attribute value. -/
  | attributeValue (quote : Char) (openedAt : Nat)
  /-- The tag of a text element. -/
  | text (openedAt : Nat)
  deriving DecidableEq, Repr

namespace Beginning

/-- Where a construct begins. -/
def offset : Beginning → Nat
  | .block openedAt _ | .attributeValue _ openedAt | .text openedAt => openedAt
  | .tag _ span => span.start

/-- What the construct is. -/
def construct : Beginning → Construct
  | .block _ _ => .block
  | .tag _ _ | .text _ => .tag
  | .attributeValue _ _ => .attributeValue

/-- Whether the construct is a text element. -/
def isText : Beginning → Bool
  | .text _ => true
  | _ => false

/-- The mark of the construct stands where it begins. -/
def Stands (source : List Char) : Beginning → Prop
  | .block openedAt none => HoldsAt source openedAt (['@', '{'] <+: ·)
  | .block openedAt (some keyword) => HoldsAt source openedAt (takeName · = keyword.letters)
  | .tag name span => span.Holds source ('<' :: name.toList)
  | .attributeValue quote openedAt =>
    HoldsAt source openedAt (·.head? = some quote) ∧ (quote = '"' ∨ quote = '\'')
  | .text openedAt => HoldsAt source openedAt (textOpening <+: ·)

end Beginning

/-- A frame was opened where the mark of its construct stands, and so were the elements of
markup. -/
def Frame.Recorded (source : List Char) : Frame → Prop
  | .block b => (Beginning.block b.openedAt b.clause?).Stands source
  | .markup m =>
    HoldsAt source m.openedAt (·.head? = some '<') ∧
      ∀ e ∈ m.elements.elements, (Beginning.tag e.name e.span).Stands source
  | .tag name span => (Beginning.tag name span).Stands source
  | .attributeValue quote openedAt => (Beginning.attributeValue quote openedAt).Stands source
  | _ => True

namespace Scan

variable {s : State} {m : Move} {frame : Frame}

/-- A clause opens its block at its keyword. -/
theorem recorded_enterClause {t : State} {keyword : Keyword} {brace : Cursor}
    (hs : t.cursor.source = source) (hk : takeName t.rest = keyword.letters)
    (h : ∀ frame ∈ t.frames, frame.Recorded source) :
    ∀ frame ∈ (t.enterClause keyword brace).state.frames, frame.Recorded source := by
  rw [State.frames_enterClause, List.forall_mem_cons]
  exact ⟨⟨t.cursor, hs, rfl, hk⟩, h⟩

/-- **A step opens frames at the marks of their constructs.** -/
theorem recorded_of_turn (hs : s.cursor.source = source)
    (h : ∀ frame ∈ s.frames, frame.Recorded source) (ht : s.Turn m) :
    ∀ frame ∈ m.state.frames, frame.Recorded source := by
  have hyield : ∀ frame ∈ s.yieldToCode.frames, frame.Recorded source :=
    fun frame hframe => h frame (State.mem_of_mem_yieldToCode hframe)
  have hopened {c : Cursor} (hc : c.source = source) (hr : c.rest.head? = some '<') :
      (Frame.markup (.opened c.offset)).Recorded source :=
    ⟨⟨c, hc, rfl, hr⟩, nofun⟩
  cases ht with
  | doubled | plain | lineEscape | comment | closeNothing | copy | explicit | implicit => exact h
  | clause hd =>
    refine recorded_enterClause ?_ (State.takeName_of_introduces hd) hyield
    rw [State.cursor_skip, State.cursor_yieldToCode, Cursor.source_advance, hs]
  | openBlock hd =>
    obtain ⟨rest, hr⟩ := rest_of_introduces hd rfl
    refine List.forall_mem_cons.2 ⟨?_, hyield⟩
    rw [State.cursor_yieldToCode]
    exact ⟨s.cursor, hs, rfl, rest, hr.symm⟩
  | openMarkup hd =>
    obtain ⟨rest, hr⟩ := rest_of_introduces hd rfl
    have hoffset : (s.cursor.advance 1).offset = s.cursor.offset + 1 :=
      Cursor.offset_advance_one hr rfl
    unfold State.openMarkup
    split
    · refine List.forall_mem_cons.2 ⟨?_, hyield⟩
      rw [State.cursor_yieldToCode, ← hoffset]
      refine hopened (by rw [Cursor.source_advance, hs]) ?_
      rw [Cursor.rest_advance, show s.cursor.rest = _ from hr]
      rfl
    · split <;> exact hyield
  | closeInnermost _ hf =>
    rw [(FrameStack.splitAtBlock?_eq_some hf).1, List.forall_mem_append] at h
    exact (List.forall_mem_cons.1 h.2).2
  | enterMarkup _ _ hm =>
    exact List.forall_mem_cons.2 ⟨hopened hs (head?_of_startsMarkup hm), h⟩
  | token hf | openText hf | closeText hf =>
    rw [hf, List.forall_mem_cons] at h
    exact List.forall_mem_cons.2 h
  | lastToken hf | endLine hf | leaveMarkup hf | endSelfClosing hf | closeValue hf | loseTag hf
    | loseWhole hf =>
    rw [hf, List.forall_mem_cons] at h
    exact h.2
  | nextClause hf hr _ _ _ hn =>
    rw [hf, List.forall_mem_cons] at h
    refine recorded_enterClause ?_ ?_ h.2
    · rw [State.cursor_skipBlanks, State.cursor_outOf, Cursor.source_advance, Cursor.source_advance,
        hs]
    · rw [State.rest_skipBlanks, State.rest_outOf hr]
      exact (Keyword.ofLetters?_eq_some_iff.1 hn).symm
  | closingTag hf _ _ _ _ hc =>
    rw [hf, List.forall_mem_cons] at h
    obtain ⟨⟨hopen, helements⟩, hbelow⟩ := h
    rw [(eq_cons_of_close hc).1, List.forall_mem_cons] at helements
    exact List.forall_mem_cons.2 ⟨⟨hopen, helements.2⟩, hbelow⟩
  | openingTag _ _ _ hn =>
    refine List.forall_mem_cons.2 ⟨?_, h⟩
    have hp : '<' :: openingName s.rest <+: s.cursor.rest := cons_openingName_isPrefix hn
    have hspan := Cursor.spanTo_advance_of_prefix hp
    rw [List.length_cons, Nat.add_comm] at hspan
    rw [Frame.Recorded, Beginning.Stands, hspan, String.toList_ofList, ← hs]
    exact Cursor.holds_span hp
  | openValue _ hr hquote => exact List.forall_mem_cons.2 ⟨⟨⟨s.cursor, hs, rfl, hr⟩, hquote⟩, h⟩
  | endTag hf =>
    rw [hf, List.forall_mem_cons, List.forall_mem_cons] at h
    obtain ⟨htag, ⟨hopen, helements⟩, houter⟩ := h
    refine List.forall_mem_cons.2 ⟨⟨hopen, ?_⟩, houter⟩
    exact List.forall_mem_cons.2 ⟨htag, helements⟩

/-- **Every frame was opened where the mark of its construct stands.** -/
theorem recorded_of_reached {source : String} (h : Reached source s) :
    ∀ frame ∈ s.frames, frame.Recorded source.toList := by
  refine h.preserves (P := fun s => ∀ frame ∈ s.frames, frame.Recorded source.toList) nofun ?_
  intro s m hr hrecorded hs hm
  exact recorded_of_turn hr.source_eq hrecorded (State.turn_of_step hs hm)

/-! ## where errors point -/

/-- What is reported of a frame that is left open is what stands where it was opened. -/
theorem shown_of_unclosed? (h : frame.Recorded source) (hw : frame.isWhole = false)
    (he : frame.unclosed? = some e) : Shown source e := by
  have htag {name : List Char} {span : Span} (h : span.Holds source ('<' :: name)) :
      Shown source (.unclosed .tag span) := by
    obtain ⟨c, rfl, hp, rfl⟩ := h.exists_cursor
    obtain ⟨back, hback⟩ := hp
    exact (Cursor.shows_unclosed (List.cons_ne_nil _ _) ⟨back, hback⟩
      (show Construct.tag.Begins c.rest by rw [← hback]; rfl)).shown
  cases frame with
  | block b =>
    cases he
    rw [Frame.Recorded] at h
    cases hclause : b.clause? with
    | none =>
      rw [hclause] at h
      obtain ⟨c, rfl, ho, rest, hr⟩ := h
      rw [← ho]
      exact (Cursor.shows_unclosed_one rfl (by rw [← hr]; rfl)
        (show Construct.block.Begins c.rest from .inl ⟨rest, hr⟩)).shown
    | some keyword =>
      rw [hclause] at h
      obtain ⟨c, rfl, ho, hmark⟩ := h
      rw [← ho]
      obtain ⟨x, hx, hsize⟩ := keyword.exists_head
      refine (Cursor.shows_unclosed_one hsize ?_
        (show Construct.block.Begins c.rest from .inr ⟨keyword, hmark⟩)).shown
      rw [← takeName_append_drop c.rest, hmark, List.head?_append, hx]
      rfl
  | markup m =>
    obtain ⟨⟨c, rfl, ho, hopen⟩, helements⟩ := h
    simp only [Frame.unclosed?] at he
    split at he
    · next element hinner =>
      cases he
      exact htag (helements element (List.mem_of_mem_head? hinner))
    · split at he
      · cases he
        have hbegins : Construct.tag.Begins c.rest := hopen
        rw [← ho]
        exact (Cursor.shows_unclosed_one rfl hopen hbegins).shown
      · cases he
  | tag name span =>
    cases he
    exact htag h
  | attributeValue quote openedAt =>
    cases he
    obtain ⟨⟨c, rfl, rfl, hopen⟩, hquote⟩ := h
    have hsize : quote.utf8Size = 1 := by obtain rfl | rfl := hquote <;> rfl
    have hb : Construct.attributeValue.Begins c.rest := by
      obtain rfl | rfl := hquote
      · exact .inl hopen
      · exact .inr hopen
    exact (Cursor.shows_unclosed_one hsize hopen hb).shown
  | expression | comment | lineEscape => cases hw

/-- What is reported of frames that are left open is what stands where one of them was opened. -/
theorem shown_of_findSome? {frames : List Frame} (h : ∀ frame ∈ frames, frame.Recorded source)
    (hw : ∀ frame ∈ frames, frame.isWhole = false)
    (he : frames.findSome? Frame.unclosed? = some e) : Shown source e := by
  obtain ⟨frame, hmem, he⟩ := List.exists_of_findSome?_eq_some he
  exact shown_of_unclosed? (h frame hmem) (hw frame hmem) he

/-- A closing tag through its name. -/
theorem spanTo_closingName (h : closingName s.rest ≠ []) :
    s.cursor.spanTo (s.cursor.advance (2 + (closingName s.rest).length)) =
      s.cursor.span (byteLength ('<' :: '/' :: closingName s.rest)) := by
  have hspan := Cursor.spanTo_advance_of_prefix (c := s.cursor) (cons_closingName_isPrefix h)
  rwa [List.length_cons, List.length_cons, Nat.add_assoc, Nat.add_comm _ 2] at hspan

/-- A closing tag through the blanks behind its name and the bracket that ends it. -/
theorem exists_closingTag (h : closingName s.rest ≠ [])
    (hgt : (trimStart (s.rest.drop (2 + (closingName s.rest).length))).head? = some '>') :
    ∃ blanks, (∀ c ∈ blanks, isBlank c = true) ∧
      '<' :: '/' :: (closingName s.rest ++ (blanks ++ ['>'])) <+: s.rest ∧
      ('<' :: '/' :: (closingName s.rest ++ (blanks ++ ['>']))).length =
        2 + (closingName s.rest).length +
          ((leadingBlanks (s.rest.drop (2 + (closingName s.rest).length))).length + 1) := by
  obtain ⟨rest, hr⟩ := cons_closingName_isPrefix h
  have hdrop : s.rest.drop (2 + (closingName s.rest).length) = rest := by
    have hlen : 2 + (closingName s.rest).length = ('<' :: '/' :: closingName s.rest).length :=
      Nat.add_comm 2 _
    rw [hlen]
    nth_rewrite 2 [← hr]
    exact List.drop_left
  rw [hdrop] at hgt ⊢
  obtain ⟨after, hafter⟩ := List.head?_eq_some_iff.1 hgt
  have hrest : rest = leadingBlanks rest ++ '>' :: after := by
    rw [← hafter, leadingBlanks_append_trimStart]
  refine ⟨leadingBlanks rest, fun c hc => List.mem_takeWhile_imp hc, ⟨after, ?_⟩, ?_⟩
  · refine Eq.trans ?_ hr
    simp only [List.cons_append, List.append_assoc, List.nil_append, ← hrest]
  · simp
    omega

/-- **A step that fails points at what it names.** -/
theorem shown_of_fault (hn : Nested s.frames)
    (hrec : ∀ frame ∈ s.frames, frame.Recorded s.cursor.source) (h : s.Fault e) :
    Shown s.cursor.source e := by
  cases h with
  | comment hd =>
    obtain ⟨rest, hr⟩ := rest_of_introduces hd rfl
    have hp : ['@', '*'] <+: s.cursor.rest := ⟨rest, hr.symm⟩
    exact (Cursor.shows_unclosed (List.cons_ne_nil _ _) hp
      (show Construct.comment.Begins s.cursor.rest from .inl hp)).shown
  | explicit hd hc =>
    obtain ⟨rest, hr⟩ := rest_of_introduces hd rfl
    have hx : (s.cursor.advance 1).rest.head? = some '(' := by
      rw [Cursor.rest_advance, show s.cursor.rest = _ from hr]
      rfl
    rw [← Cursor.advance_advance 1 1] at hc
    have hb : Delimiter.paren.construct.Begins (s.cursor.advance 1).rest := hx
    have hshown := shown_of_findClosing hx rfl hb hc
    rwa [Cursor.source_advance] at hshown
  | implicit _ hc =>
    have hshown := shown_of_chainEnd hc
    rwa [Cursor.source_advance, Cursor.source_advance] at hshown
  | clause hd hb =>
    have hshown := shown_of_clauseBody (State.takeName_of_introduces hd) hb
    rwa [State.cursor_skip, State.cursor_yieldToCode, Cursor.source_advance] at hshown
  | closeInnermost _ hf hu =>
    rw [(FrameStack.splitAtBlock?_eq_some hf).1] at hn hrec
    refine shown_of_findSome? (List.forall_mem_append.1 hrec).1 ?_ hu
    exact fun frame hmem => hn.isWhole_of_mem frame (List.mem_append_left _ hmem)
  | quotation _ hr =>
    obtain ⟨x, hx⟩ := shows_quotation hr
    exact hx.shown
  | nextClause hf hr _ _ hn hb =>
    refine Eq.mp ?_ (shown_of_clauseBody ?_ hb)
    · rw [State.cursor_skipBlanks, State.cursor_outOf, Cursor.source_advance, Cursor.source_advance]
    · rw [State.rest_skipBlanks, State.rest_outOf hr]
      exact (Keyword.ofLetters?_eq_some_iff.1 hn).symm
  | markupComment _ hp =>
    exact (Cursor.shows_unclosed (List.cons_ne_nil _ _) hp
      (show Construct.comment.Begins s.cursor.rest from .inr hp)).shown
  | openClosingTag _ _ hname =>
    have hp : '<' :: '/' :: closingName s.rest <+: s.cursor.rest := cons_closingName_isPrefix hname
    obtain ⟨rest, hr⟩ := hp
    rw [spanTo_closingName hname]
    exact (Cursor.shows_unclosed (List.cons_ne_nil _ _) ⟨rest, hr⟩
      (show Construct.tag.Begins s.cursor.rest by rw [← hr]; rfl)).shown
  | malformedTag _ _ hname =>
    refine ⟨s.cursor, '<' :: '/' :: closingName s.rest, rfl, List.cons_ne_nil _ _,
      cons_closingName_isPrefix hname, ?_, String.ofList (closingName s.rest), rfl, ?_⟩
    · rw [spanTo_closingName hname]
      rfl
    · rw [String.toList_ofList]
  | @strayClosingTag _ _ tagEnd _ _ _ _ hname hgt he hc =>
    obtain ⟨expected, rfl⟩ := OpenElements.eq_of_close_eq_error hc
    obtain ⟨blanks, hb, hp, hlen⟩ := exists_closingTag hname hgt
    have hspan : s.cursor.spanTo tagEnd = s.cursor.span (byteLength
        ('<' :: '/' :: (closingName s.rest ++ (blanks ++ ['>'])))) := by
      rw [he, Cursor.advance_advance, ← hlen]
      exact Cursor.spanTo_advance_of_prefix hp
    refine ⟨s.cursor, '<' :: '/' :: (closingName s.rest ++ (blanks ++ ['>'])), rfl,
      List.cons_ne_nil _ _, hp, ?_, blanks, hb, ?_⟩
    · rw [TemplateError.span?, hspan]
    · rw [String.toList_ofList]
  | tag hf =>
    rw [hf, List.forall_mem_cons] at hrec
    exact shown_of_unclosed? hrec.1 rfl rfl
  | attributeValue hf =>
    rw [hf, List.forall_mem_cons] at hrec
    exact shown_of_unclosed? hrec.1 rfl rfl

/-- **The error of a scan points at what it names.** -/
theorem shown_of_scan {source : String} (h : scan source = .error e) : Shown source.toList e := by
  obtain ⟨s, hr, ⟨-, he⟩ | ⟨-, he⟩⟩ := scan_eq_error_iff.1 h
  · exact shown_of_findSome? (recorded_of_reached hr) (nested_of_reached hr).isWhole_of_mem he
  · have hrec := recorded_of_reached hr
    rw [← hr.source_eq] at hrec ⊢
    exact shown_of_fault (nested_of_reached hr) hrec (State.fault_of_step he)

end Scan

end AtTemplate
