import AtTemplate.Proofs.Elements
import AtTemplate.Proofs.Embedding
import AtTemplate.Proofs.Places
import AtTemplate.Proofs.TagWord

/-!
# AtTemplate.Proofs.OpenElements

The elements of markup in code, over a whole scan.  Markup is known by the place at which it was
opened, of which there is one for each.  `tagsOf` collects its tags from the steps of a run: whole
blocks with markup of their own may lie between two of them, in the content of an element as well as
within a tag.

* `remarked_of_step` — how a step changes the markup that a place lies in;
* `leftOpen?_tagsOf` — the elements that are open are those that the tags so far leave open;
* `elements_of_scan` — in a template that is accepted the tags of all markup are well nested, and
  the first closing tag that does not fit is what a template is refused for.
-/

namespace AtTemplate

open Code Text
open AtTemplate.Markup

/-! ## closing tags -/

namespace Markup

/-- No character of a name is blank. -/
theorem isBlank_of_isTagNameChar {c : Char} (h : isTagNameChar c = true) : isBlank c = false := by
  simp only [isTagNameChar, Bool.or_eq_true, beq_iff_eq] at h
  obtain (((h | rfl) | rfl) | rfl) | rfl := h
  · exact isBlank_of_isAlphanum h
  all_goals decide

/-- The name of a closing tag ends before the blanks that may follow it. -/
theorem closingName_of_isTagName {name blanks after : List Char} (hn : IsTagName name)
    (hb : ∀ c ∈ blanks, isBlank c = true) :
    closingName ('<' :: '/' :: (name ++ (blanks ++ '>' :: after))) = name := by
  rw [closingName]
  cases blanks with
  | nil => exact hn.takeTagName_append rfl
  | cons c blanks =>
    refine hn.takeTagName_append (Bool.eq_false_iff.2 fun hc => ?_)
    have hblank := hb c List.mem_cons_self
    rw [isBlank_of_isTagNameChar hc] at hblank
    cases hblank

end Markup

/-! ## markup among frames -/

/-- The markup that a frame is. -/
def Frame.markup? : Frame → Option MarkupFrame
  | .markup m => some m
  | _ => none

/-- The markup among frames, innermost first. -/
def markups (frames : List Frame) : List MarkupFrame :=
  frames.filterMap Frame.markup?

@[simp] theorem markups_nil : markups [] = [] := rfl

@[simp] theorem markups_markup (m : MarkupFrame) (frames : List Frame) :
    markups (.markup m :: frames) = m :: markups frames := rfl

@[simp] theorem markups_block (b : BlockFrame) (frames : List Frame) :
    markups (.block b :: frames) = markups frames := rfl

@[simp] theorem markups_tag (name : String) (span : Span) (frames : List Frame) :
    markups (.tag name span :: frames) = markups frames := rfl

@[simp] theorem markups_attributeValue (quote : Char) (openedAt : Nat) (frames : List Frame) :
    markups (.attributeValue quote openedAt :: frames) = markups frames := rfl

/-- Markup remembers where it was opened. -/
theorem mem_openings_of_mem_markups {frames : List Frame} {m : MarkupFrame}
    (h : m ∈ markups frames) : .ofLength m.openedAt 1 ∈ openings frames := by
  obtain ⟨frame, hmem, hm⟩ := List.mem_filterMap.1 h
  refine List.mem_flatMap.2 ⟨frame, hmem, ?_⟩
  cases frame <;> cases hm
  exact List.mem_cons_self

/-- The names of the open elements, innermost first. -/
def MarkupFrame.names (m : MarkupFrame) : List String :=
  m.elements.elements.map Element.name

/-- In settled markup no element is open. -/
theorem MarkupFrame.names_of_isSettled {m : MarkupFrame} (h : m.isSettled = true) :
    m.names = [] := by
  simp only [isSettled, OpenElements.isEmpty, Bool.and_eq_true, List.isEmpty_iff] at h
  simp [names, h.1]

/-- What lies above a block, when it may all be left open, is at most settled markup. -/
theorem Nested.above_cases {above below : List Frame} {block : BlockFrame}
    (h : Nested (above ++ .block block :: below)) (hb : ∀ frame ∈ above, frame.isBlock = false)
    (hu : above.findSome? Frame.unclosed? = none) :
    above = [] ∨ ∃ m, m.isSettled = true ∧ above = [.markup m] := by
  cases above with
  | nil => exact .inl rfl
  | cons frame above =>
    rw [List.findSome?_eq_none_iff] at hu
    have hopen := hu frame List.mem_cons_self
    cases frame with
    | block => cases hopen
    | tag => cases hopen
    | attributeValue => cases hopen
    | expression => cases hopen
    | comment => cases hopen
    | lineEscape => cases h.isWhole_eq_false
    | markup m =>
      obtain ⟨outer, rest, hrest⟩ := h.exists_block
      have habove : above = [] := by
        cases above with
        | nil => rfl
        | cons frame' above =>
          obtain ⟨rfl, -⟩ := List.cons.inj hrest
          cases hb _ (List.mem_cons_of_mem _ List.mem_cons_self)
      refine .inr ⟨m, ?_, by rw [habove]⟩
      obtain ⟨openedAt, ⟨elements⟩, inText⟩ := m
      simp only [Frame.unclosed?, OpenElements.innermost?] at hopen
      cases elements with
      | nil => cases inText <;> simp_all [MarkupFrame.isSettled, OpenElements.isEmpty]
      | cons => cases hopen

namespace Scan

variable {s t : State} {m : Move} {trace : List Transition} {openedAt : Nat}

/-! ## the tags of a run -/

/-- The tag that ends with the step from here, and the place at which its markup was opened.  Within
a text element there is none, and an opening tag that closes itself is none. -/
def State.tag? (s : State) : Option (Nat × Tag) :=
  match s.frames with
  | .tag name _ :: .markup m :: _ =>
    if s.rest.head? = some '>' then some (m.openedAt, .opening name) else none
  | .markup m :: _ =>
    let name := closingName s.rest
    if m.inText = false ∧ name ≠ [] ∧ (trimStart (s.rest.drop (2 + name.length))).head? = some '>'
    then some (m.openedAt, .closing (String.ofList name))
    else none
  | _ => none

/-- The tags of the markup that was opened at a place, in the order of the steps. -/
def tagsOf (openedAt : Nat) (trace : List Transition) : List Tag :=
  ((trace.filterMap (·.before.tag?)).filter (·.1 = openedAt)).map (·.2)

@[simp] theorem tagsOf_nil : tagsOf openedAt [] = [] := rfl

/-- The tags of a run are those of its parts. -/
@[simp] theorem tagsOf_append (xs ys : List Transition) :
    tagsOf openedAt (xs ++ ys) = tagsOf openedAt xs ++ tagsOf openedAt ys := by
  simp [tagsOf]

/-- What stands ahead where markup without an open element is left: a line break, a closing brace,
or an at sign that closes a block or begins a block, a clause or other markup. -/
def State.HandsBack (s : State) : Prop :=
  s.rest.head? = some '\n' ∨ s.rest.head? = some '}' ∨ s.Introduces .closeBlock ∨
    s.Introduces .anonymousBlock ∨ s.Introduces .markup ∨ ∃ keyword, s.Introduces (.clause keyword)

/-- How a step changes the markup that a place lies in.  `openedAt` is the place behind the step. -/
inductive Remarked (s : State) (openedAt : Nat) : List MarkupFrame → List MarkupFrame → Prop
  /-- The markup stays. -/
  | same (outer : List MarkupFrame) (h : s.tag? = none) : Remarked s openedAt outer outer
  /-- Markup is opened. -/
  | enter (outer : List MarkupFrame) (h : s.tag? = none) :
      Remarked s openedAt outer (.opened openedAt :: outer)
  /-- Markup in which nothing is open is left. -/
  | leave {m : MarkupFrame} (outer : List MarkupFrame) (h : s.tag? = none)
      (hm : m.isSettled = true) (hs : s.HandsBack) : Remarked s openedAt (m :: outer) outer
  /-- Markup in which nothing is open is left, and other markup is opened. -/
  | reenter {m : MarkupFrame} (outer : List MarkupFrame) (h : s.tag? = none)
      (hm : m.isSettled = true) (hs : s.HandsBack) :
      Remarked s openedAt (m :: outer) (.opened openedAt :: outer)
  /-- A text element begins or ends. -/
  | text (m : MarkupFrame) (inText : Bool) (outer : List MarkupFrame) (h : s.tag? = none) :
      Remarked s openedAt (m :: outer) ({ m with inText := inText } :: outer)
  /-- An opening tag opens an element. -/
  | opening {m : MarkupFrame} {name : String} (span : Span) (outer : List MarkupFrame)
      (h : s.tag? = some (m.openedAt, .opening name)) :
      Remarked s openedAt (m :: outer)
        ({ m with elements := m.elements.openElement name span } :: outer)
  /-- A closing tag ends the innermost element. -/
  | closing {m : MarkupFrame} {element : Element} {elements : OpenElements}
      (outer : List MarkupFrame) (h : s.tag? = some (m.openedAt, .closing element.name))
      (hm : m.elements.elements = element :: elements.elements) :
      Remarked s openedAt (m :: outer) ({ m with elements := elements } :: outer)

/-! ## the steps that end a tag -/

/-- At the end of its opening tag an element is open. -/
theorem step_of_endTag {name : String} {span : Span} {markup : MarkupFrame} {outer : List Frame}
    (hf : s.frames = .tag name span :: .markup markup :: outer) (hs : s.rest.head? = some '>') :
    s.step = .ok ⟨[.text ['>']], (s.skip 1).within
      (.markup { markup with elements := markup.elements.openElement name span } :: outer)⟩ := by
  obtain ⟨rest, hr⟩ := List.head?_eq_some_iff.1 hs
  simp [State.step, State.stepWith, hf, State.stepTag, hr, State.stopsTag, State.plainLength,
    State.endTag, State.copy]

/-- Outside of text elements the name of a closing tag decides on the step. -/
theorem step_of_closingName {markup : MarkupFrame} {below : List Frame}
    (hf : s.frames = .markup markup :: below) (ht : markup.inText = false)
    (hn : closingName s.rest ≠ []) : s.step = s.closingTag id (closingName s.rest) := by
  have hr : ∃ rest, s.rest = '<' :: '/' :: rest := by
    unfold closingName at hn
    split at hn
    · next rest hr => exact ⟨rest, hr⟩
    · exact absurd rfl hn
  obtain ⟨rest, hr⟩ := hr
  have hmarks : textOpening.isPrefixOf s.rest = false ∧
      commentOpening.isPrefixOf s.rest = false := by
    rw [hr]
    exact ⟨rfl, rfl⟩
  rw [step_of_angle hf hr]
  simp [State.angle, ht, hmarks, hn]

/-- A closing tag ends the innermost element, or it is refused. -/
theorem step_of_closingTag {markup : MarkupFrame} {below : List Frame} {tagEnd : Cursor}
    (hf : s.frames = .markup markup :: below) (ht : markup.inText = false)
    (hn : closingName s.rest ≠ [])
    (hs : (trimStart (s.rest.drop (2 + (closingName s.rest).length))).head? = some '>')
    (he : tagEnd = s.cursor.advance (2 + (closingName s.rest).length +
      ((leadingBlanks (s.rest.drop (2 + (closingName s.rest).length))).length + 1))) :
    s.step = match markup.elements.close (String.ofList (closingName s.rest))
        (s.cursor.spanTo tagEnd) with
      | (.error e, _) => .error e
      | (.ok _, elements) => .ok ⟨[.text (s.cursor.textTo tagEnd)],
          ⟨tagEnd, ⟨.markup { markup with elements := elements } :: below⟩⟩⟩ := by
  obtain ⟨rest, hrest⟩ := List.head?_eq_some_iff.1 hs
  have hnameEnd : (s.cursor.advance (2 + (closingName s.rest).length)).rest =
      s.rest.drop (2 + (closingName s.rest).length) := Cursor.rest_advance _ _
  rw [step_of_closingName hf ht hn, he, ← Cursor.advance_advance]
  generalize hclosed : markup.elements.close (String.ofList (closingName s.rest)) _ = closed
  obtain ⟨element | e, elements⟩ := closed <;>
    simp only [State.closingTag, hnameEnd, hrest, hf, hclosed]

/-- A closing tag that is not refused ends with an angle bracket. -/
theorem closing_of_step {markup : MarkupFrame} {below : List Frame}
    (hf : s.frames = .markup markup :: below) (ht : markup.inText = false)
    (hn : closingName s.rest ≠ []) (hm : s.step = .ok m) :
    (trimStart (s.rest.drop (2 + (closingName s.rest).length))).head? = some '>' := by
  have hnameEnd : (s.cursor.advance (2 + (closingName s.rest).length)).rest =
      s.rest.drop (2 + (closingName s.rest).length) := Cursor.rest_advance _ _
  rw [step_of_closingName hf ht hn] at hm
  simp only [State.closingTag, hnameEnd] at hm
  split at hm
  · cases hm
  · next hrest => rw [hrest, List.head?_cons]
  · cases hm

/-- A tag ends with a step only where the step adds to the open elements or takes from them. -/
theorem tag?_cases {tag : Tag} (h : s.tag? = some (openedAt, tag)) :
    (∃ name span markup outer, s.frames = .tag name span :: .markup markup :: outer ∧
      s.rest.head? = some '>' ∧ openedAt = markup.openedAt ∧ tag = .opening name) ∨
    (∃ markup below, s.frames = .markup markup :: below ∧ markup.inText = false ∧
      closingName s.rest ≠ [] ∧
      (trimStart (s.rest.drop (2 + (closingName s.rest).length))).head? = some '>' ∧
      openedAt = markup.openedAt ∧ tag = .closing (String.ofList (closingName s.rest))) := by
  unfold State.tag? at h
  split at h
  · next hf =>
    split at h
    · next hs =>
      cases h
      exact .inl ⟨_, _, _, _, hf, hs, rfl, rfl⟩
    · cases h
  · next hf =>
    simp only at h
    split at h
    · next hc =>
      cases h
      exact .inr ⟨_, _, hf, hc.1, hc.2.1, hc.2.2, rfl, rfl⟩
    · cases h
  · cases h

/-! ## one step -/

/-- Only settled markup gives way to code. -/
theorem markups_yieldToCode (s : State) :
    markups s.yieldToCode.frames = markups s.frames ∨
      ∃ m, m.isSettled = true ∧ markups s.frames = m :: markups s.yieldToCode.frames := by
  unfold State.yieldToCode
  split
  · next markup below hf =>
    have hf : s.frames = .markup markup :: below := hf
    split
    · next hm => exact .inr ⟨markup, hm, by rw [hf]; rfl⟩
    · exact .inl rfl
  · exact .inl rfl

/-- An at sign before an angle bracket opens markup in a block only. -/
theorem remarked_openMarkup (hn : Nested s.frames) (htag : s.tag? = none)
    (hd : s.Introduces .markup) :
    Remarked s s.yieldToCode.openMarkup.state.cursor.offset (markups s.frames)
      (markups s.yieldToCode.openMarkup.state.frames) := by
  obtain ⟨rest, hr⟩ := rest_of_introduces hd rfl
  have hoffset : s.yieldToCode.openMarkup.state.cursor.offset = s.cursor.offset + 1 := by
    rw [State.cursor_openMarkup, State.cursor_yieldToCode]
    simp [show s.cursor.rest = _ from hr]
    rfl
  rw [hoffset]
  unfold State.openMarkup
  split
  · rw [State.frames_push, State.frames_skip, markups_markup, State.cursor_yieldToCode]
    obtain hsame | ⟨k, hk, hleft⟩ := markups_yieldToCode s
    · rw [hsame]
      exact .enter _ htag
    · rw [hleft]
      exact .reenter _ htag hk (.inr (.inr (.inr (.inr (.inl hd)))))
  · next hb =>
    rw [yieldToCode_eq_self hn (by simpa using hb)]
    split <;> exact .same _ htag

/-- **How a step changes the markup that a place lies in.** -/
theorem remarked_of_step (hn : Nested s.frames) (hs : s.rest ≠ []) (hm : s.step = .ok m) :
    Remarked s m.state.cursor.offset (markups s.frames) (markups m.state.frames) := by
  cases htag : s.tag? with
  | some place =>
    obtain ⟨openedAt, tag⟩ := place
    obtain ⟨name, span, markup, outer, hf, hhead, rfl, rfl⟩ |
      ⟨markup, below, hf, ht, hname, hhead, rfl, rfl⟩ := tag?_cases htag
    · rw [step_of_endTag hf hhead] at hm
      cases hm
      rw [hf]
      exact .opening span _ htag
    · rw [step_of_closingTag hf ht hname hhead rfl] at hm
      split at hm <;> cases hm
      next hclose =>
        obtain ⟨hm, hname⟩ := eq_cons_of_close hclose
        rw [hname] at htag
        rw [hf]
        exact .closing _ htag hm
  | none =>
    have hyield {d : Directive} (hd : s.Introduces d) (hback : s.HandsBack) :
        Remarked s m.state.cursor.offset (markups s.frames) (markups s.yieldToCode.frames) := by
      obtain hsame | ⟨k, hk, hleft⟩ := markups_yieldToCode s
      · rw [hsame]
        exact .same _ htag
      · rw [hleft]
        exact .leave _ htag hk hback
    cases State.turn_of_step hs hm with
    | doubled | plain | lineEscape | comment | closeNothing | copy | explicit | implicit =>
      exact .same _ htag
    | clause hd => exact hyield hd (.inr (.inr (.inr (.inr (.inr ⟨_, hd⟩)))))
    | openBlock hd => exact hyield hd (.inr (.inr (.inr (.inl hd))))
    | openMarkup hd => exact remarked_openMarkup hn htag hd
    | closeInnermost hd hf hu =>
      obtain ⟨hframes, hb⟩ := FrameStack.splitAtBlock?_eq_some hf
      rw [hframes] at hn ⊢
      obtain rfl | ⟨k, hk, rfl⟩ := hn.above_cases hb hu
      · exact .same _ htag
      · exact .leave _ htag hk (.inr (.inr (.inl hd)))
    | enterMarkup => exact .enter _ htag
    | token hf | lastToken hf | nextClause hf | closeValue hf | endSelfClosing hf =>
      rw [hf]
      exact .same _ htag
    | openingTag | openValue => exact .same _ htag
    | endLine hf hset hhead =>
      rw [hf]
      exact .leave _ htag hset (.inl hhead)
    | leaveMarkup hf hset hhead =>
      rw [hf]
      exact .leave _ htag hset (.inr (.inl hhead))
    | openText hf | closeText hf =>
      rw [hf]
      exact .text _ _ _ htag
    | closingTag hf ht _ hname =>
      -- a closing tag that does not end here is refused
      have hhead := closing_of_step hf ht hname hm
      simp [State.tag?, hf, ht, hname, hhead] at htag
    | endTag hf hhead => simp [State.tag?, hf, hhead] at htag
    | loseTag hf hb =>
      rw [hf] at hn
      obtain ⟨k, outer, rfl⟩ := hn.exists_markup
      cases hb
    | loseWhole hf hwhole =>
      rw [hf] at hn
      rw [hn.isWhole_eq_false] at hwhole
      cases hwhole

/-! ## runs -/

/-- The names of the elements that are open in the markup that was opened at a place. -/
def openNames (openedAt : Nat) (markups : List MarkupFrame) : List String :=
  markups.flatMap fun m => if m.openedAt = openedAt then m.names else []

/-- Of the markup of a place the elements that are open are listed from the innermost one on. -/
theorem openNames_cons (m : MarkupFrame) (outer : List MarkupFrame) :
    openNames openedAt (m :: outer) =
      (if m.openedAt = openedAt then m.names else []) ++ openNames openedAt outer := rfl

/-- Markup without an open element adds no name. -/
theorem openNames_cons_of_nil {m : MarkupFrame} (hm : m.names = []) (outer : List MarkupFrame) :
    openNames openedAt (m :: outer) = openNames openedAt outer := by
  simp [openNames_cons, hm]

/-- A step leaves open what was open before it and what its tag opens or closes. -/
theorem leftOpen?_of_remarked {place : Nat} {before after : List MarkupFrame}
    (h : Remarked s place before after) :
    leftOpen? (openNames openedAt before) (tagsOf openedAt [⟨s, m⟩]) =
      some (openNames openedAt after) := by
  have hnil (h : s.tag? = none) : tagsOf openedAt [⟨s, m⟩] = [] := by simp [tagsOf, h]
  have hcons {k : MarkupFrame} {tag : Tag} (h : s.tag? = some (k.openedAt, tag)) :
      tagsOf openedAt [⟨s, m⟩] = if k.openedAt = openedAt then [tag] else [] := by
    simp only [tagsOf, List.filterMap_cons, h, List.filterMap_nil, List.filter_cons,
      decide_eq_true_eq, List.filter_nil]
    split <;> rfl
  cases h with
  | same _ h => rw [hnil h, leftOpen?_nil]
  | enter _ h => rw [hnil h, leftOpen?_nil, openNames_cons_of_nil rfl]
  | leave _ h hk =>
    rw [hnil h, leftOpen?_nil, openNames_cons_of_nil (MarkupFrame.names_of_isSettled hk)]
  | reenter _ h hk =>
    rw [hnil h, leftOpen?_nil, openNames_cons_of_nil (MarkupFrame.names_of_isSettled hk),
      openNames_cons_of_nil rfl]
  | text _ _ _ h =>
    rw [hnil h, leftOpen?_nil]
    rfl
  | @opening k _ _ _ h =>
    rw [hcons h, openNames_cons, openNames_cons]
    by_cases ho : k.openedAt = openedAt <;>
      simp [ho, MarkupFrame.names, OpenElements.openElement]
  | @closing k _ _ _ h hk =>
    rw [hcons h, openNames_cons, openNames_cons]
    by_cases ho : k.openedAt = openedAt <;> simp [ho, MarkupFrame.names, hk]

/-- **The tags of a run lead from the elements that are open before it to those behind it.** -/
theorem leftOpen?_tagsOf (h : Run s trace t) (hn : Nested s.frames) (openedAt : Nat) :
    leftOpen? (openNames openedAt (markups s.frames)) (tagsOf openedAt trace) =
      some (openNames openedAt (markups t.frames)) := by
  induction h with
  | nil => exact leftOpen?_nil
  | @cons s t m trace hs hm _ ih =>
    have hstep := remarked_of_step hn hs hm
    rw [← List.singleton_append, tagsOf_append, leftOpen?_append_iff]
    exact ⟨_, leftOpen?_of_remarked hstep, ih (nested_of_turn hn (State.turn_of_step hs hm))⟩

/-! ## one place for each -/

/-- The markup that a step comes from was opened before the place behind the step. -/
theorem openedAt_lt_of_step {source : String} (h : Reached source s) (hs : s.rest ≠ [])
    (hm : s.step = .ok m) {k : MarkupFrame} (hk : k ∈ markups s.frames) :
    k.openedAt < m.state.cursor.offset :=
  past_of_turn (nested_of_reached h) hs (State.turn_of_step hs hm)
    (past_of_reached h _ (mem_openings_of_mem_markups hk))

/-- Markup that a step opens lies behind all that is open. -/
theorem pairwise_of_remarked {place : Nat} {before after : List MarkupFrame}
    (h : Remarked s place before after) (hlt : ∀ k ∈ before, k.openedAt < place)
    (hp : before.Pairwise fun k outer => outer.openedAt < k.openedAt) :
    after.Pairwise fun k outer => outer.openedAt < k.openedAt := by
  cases h with
  | same => exact hp
  | enter => exact .cons hlt hp
  | leave => exact hp.tail
  | reenter => exact .cons (fun k hk => hlt k (List.mem_cons_of_mem _ hk)) hp.tail
  | text | opening | closing =>
    exact .cons (fun k hk => (List.pairwise_cons.1 hp).1 k hk) hp.tail

/-- Markup that lies in other markup was opened behind it. -/
theorem pairwise_of_reached {source : String} (h : Reached source s) :
    (markups s.frames).Pairwise fun k outer => outer.openedAt < k.openedAt := by
  refine h.preserves (P := fun s => (markups s.frames).Pairwise _) .nil fun s m hr hp hs hm => ?_
  exact pairwise_of_remarked (remarked_of_step (nested_of_reached hr) hs hm)
    (fun k hk => openedAt_lt_of_step hr hs hm hk) hp

/-- What opens markup opens it at a place of its own. -/
theorem opened_of_remarked {place : Nat} {before after : List MarkupFrame}
    (h : Remarked s place before after) {k : MarkupFrame} (hk : k ∈ after)
    (hnew : ∀ l ∈ before, l.openedAt ≠ k.openedAt) : k = .opened place := by
  have hcons {l new : MarkupFrame} {outer : List MarkupFrame} (hk : k ∈ new :: outer)
      (hnew : ∀ l' ∈ l :: outer, l'.openedAt ≠ k.openedAt) (hsame : l.openedAt = new.openedAt) :
      k = .opened place := by
    obtain rfl | hk := List.mem_cons.1 hk
    · exact absurd hsame (hnew l List.mem_cons_self)
    · exact absurd rfl (hnew k (List.mem_cons_of_mem _ hk))
  cases h with
  | same => exact absurd rfl (hnew k hk)
  | leave => exact absurd rfl (hnew k (List.mem_cons_of_mem _ hk))
  | enter =>
    obtain rfl | hk := List.mem_cons.1 hk
    · rfl
    · exact absurd rfl (hnew k hk)
  | reenter =>
    obtain rfl | hk := List.mem_cons.1 hk
    · rfl
    · exact absurd rfl (hnew k (List.mem_cons_of_mem _ hk))
  | text | opening | closing => exact hcons hk hnew rfl

/-- Markup that is left is settled, and something ahead hands back to the code around it. -/
theorem settled_of_remarked {place : Nat} {before after : List MarkupFrame}
    (h : Remarked s place before after) {k : MarkupFrame} (hk : k ∈ before)
    (hleft : ∀ l ∈ after, l.openedAt ≠ k.openedAt) : k.isSettled = true ∧ s.HandsBack := by
  have hcons {l new : MarkupFrame} {outer : List MarkupFrame} (hk : k ∈ l :: outer)
      (hleft : ∀ l' ∈ new :: outer, l'.openedAt ≠ k.openedAt) (hsame : new.openedAt = l.openedAt) :
      k.isSettled = true ∧ s.HandsBack := by
    obtain rfl | hk := List.mem_cons.1 hk
    · exact absurd hsame (hleft new List.mem_cons_self)
    · exact absurd rfl (hleft k (List.mem_cons_of_mem _ hk))
  cases h with
  | same => exact absurd rfl (hleft k hk)
  | enter => exact absurd rfl (hleft k (List.mem_cons_of_mem _ hk))
  | leave _ _ hset hback =>
    obtain rfl | hk := List.mem_cons.1 hk
    · exact ⟨hset, hback⟩
    · exact absurd rfl (hleft k hk)
  | reenter _ _ hset hback =>
    obtain rfl | hk := List.mem_cons.1 hk
    · exact ⟨hset, hback⟩
    · exact absurd rfl (hleft k (List.mem_cons_of_mem _ hk))
  | text | opening | closing => exact hcons hk hleft rfl

/-! ## closing tags that do not fit -/

/-- The elements that are open in the innermost markup are those that its tags leave open. -/
theorem leftOpen?_of_run {source : String} {markup : MarkupFrame} {below : List Frame}
    (h : Run (.start source.toList) trace s) (hf : s.frames = .markup markup :: below) :
    leftOpen? [] (tagsOf markup.openedAt trace) = some markup.names := by
  have hp := pairwise_of_reached ⟨trace, h⟩
  rw [hf, markups_markup, List.pairwise_cons] at hp
  have houter : openNames markup.openedAt (markups below) = [] := by
    refine List.flatMap_eq_nil_iff.2 fun k hk => if_neg ?_
    exact Nat.ne_of_lt (hp.1 k hk)
  have htags := leftOpen?_tagsOf h trivial markup.openedAt
  rw [hf, markups_markup, openNames_cons, if_pos rfl, houter, List.append_nil] at htags
  exact htags

/-- A closing tag that does not fit is what the template is refused for. -/
theorem scan_of_strayClosingTag {source : String} {markup : MarkupFrame} {below : List Frame}
    {name blanks after : List Char} {e : TemplateError}
    (h : Run (.start source.toList) trace s) (hf : s.frames = .markup markup :: below)
    (ht : markup.inText = false) (hn : IsTagName name) (hb : ∀ c ∈ blanks, isBlank c = true)
    (hr : s.rest = '<' :: '/' :: (name ++ (blanks ++ '>' :: after)))
    (hc : (markup.elements.close (String.ofList name)
      (s.cursor.span (byteLength ('<' :: '/' :: (name ++ (blanks ++ ['>'])))))).1 = .error e) :
    scan source = .error e := by
  have hname : closingName s.rest = name := by
    rw [hr]
    exact closingName_of_isTagName hn hb
  have hdrop : s.rest.drop (2 + name.length) = blanks ++ '>' :: after := by
    rw [hr, Nat.add_comm 2, List.drop_succ_cons, List.drop_succ_cons, List.drop_left]
  have hblank : isBlank '>' = false := by decide
  have htrim : trimStart (blanks ++ '>' :: after) = '>' :: after := by
    rw [trimStart, List.dropWhile_append_of_pos hb, List.dropWhile_cons_of_neg (by simp [hblank])]
  have hlead : leadingBlanks (blanks ++ '>' :: after) = blanks := by
    rw [leadingBlanks, List.takeWhile_append_of_pos hb,
      List.takeWhile_cons_of_neg (by simp [hblank]), List.append_nil]
  have htake : s.rest.take (2 + name.length + (blanks.length + 1)) =
      '<' :: '/' :: (name ++ (blanks ++ ['>'])) := by
    rw [hr, show '<' :: '/' :: (name ++ (blanks ++ '>' :: after)) =
      ('<' :: '/' :: (name ++ (blanks ++ ['>']))) ++ after by simp]
    exact List.take_left' (by simp; omega)
  have hspan : s.cursor.spanTo (s.cursor.advance (2 + name.length + (blanks.length + 1))) =
      s.cursor.span (byteLength ('<' :: '/' :: (name ++ (blanks ++ ['>'])))) := by
    rw [Cursor.spanTo, Cursor.offset_advance, show s.cursor.rest = s.rest from rfl, htake]
    rfl
  have hstep := step_of_closingTag hf ht (hname ▸ hn.1) (by rw [hname, hdrop, htrim]; rfl) rfl
  rw [hname, hdrop, hlead, hspan] at hstep
  split at hstep
  · next hclose =>
    rw [hclose] at hc
    cases hc
    exact scan_eq_error_of_step ⟨trace, h⟩ (by simp [hr]) hstep
  · next hclose =>
    rw [hclose] at hc
    cases hc

/-- A closing tag of another name than that of the innermost open element is what the template is
refused for. -/
theorem scan_of_otherElement {source : String} {markup : MarkupFrame} {below : List Frame}
    {name blanks after : List Char} {u v : List Tag} {expected : String}
    (h : Run (.start source.toList) trace s) (hf : s.frames = .markup markup :: below)
    (ht : markup.inText = false) (hn : IsTagName name) (hb : ∀ c ∈ blanks, isBlank c = true)
    (hr : s.rest = '<' :: '/' :: (name ++ (blanks ++ '>' :: after)))
    (htags : tagsOf markup.openedAt trace = u ++ .opening expected :: v) (hv : WellNested v)
    (hne : expected ≠ String.ofList name) :
    scan source = .error (.strayClosingTag (some expected) (String.ofList name)
      (s.cursor.span (byteLength ('<' :: '/' :: (name ++ (blanks ++ ['>'])))))) := by
  have hleft := leftOpen?_of_run h hf
  rw [htags] at hleft
  obtain ⟨outer, hnames⟩ := leftOpen?_of_unmatched hleft hv
  obtain ⟨element, elements, he, hname, -⟩ := List.map_eq_cons_iff.1 hnames
  refine scan_of_strayClosingTag h hf ht hn hb hr ?_
  simp [OpenElements.close, he, hname, hne]

/-- So is a closing tag where no element is open. -/
theorem scan_of_noElement {source : String} {markup : MarkupFrame} {below : List Frame}
    {name blanks after : List Char} (h : Run (.start source.toList) trace s)
    (hf : s.frames = .markup markup :: below) (ht : markup.inText = false) (hn : IsTagName name)
    (hb : ∀ c ∈ blanks, isBlank c = true)
    (hr : s.rest = '<' :: '/' :: (name ++ (blanks ++ '>' :: after)))
    (hw : WellNested (tagsOf markup.openedAt trace)) :
    scan source = .error (.strayClosingTag none (String.ofList name)
      (s.cursor.span (byteLength ('<' :: '/' :: (name ++ (blanks ++ ['>'])))))) := by
  have hleft := leftOpen?_of_run h hf
  rw [wellNested_iff.1 hw] at hleft
  have he : markup.elements.elements = [] := by
    simpa [MarkupFrame.names] using (Option.some.inj hleft).symm
  refine scan_of_strayClosingTag h hf ht hn hb hr ?_
  simp [OpenElements.close, he]

/-- **The elements of markup in code.**  When a template is accepted, the tags of all its markup are
well nested: every element has a closing tag of exactly its name.  Each place at which markup is
opened is the place of one only; and markup is left only when nothing in it is open, at a line
break, before a closing brace, or at an at sign that closes a block or begins a block, a clause or
other markup.  On the other hand the first closing tag that does not have the name of the innermost
open element of its markup, or for which no element is open there, is what the template is refused
for. -/
theorem elements_of_scan (source : String) :
    (∀ segments, scan source = .ok segments → ∃ trace t, Run (.start source.toList) trace t ∧
      t.rest = [] ∧ t.frames = [] ∧ ∀ openedAt, WellNested (tagsOf openedAt trace)) ∧
    (∀ trace s m, Run (.start source.toList) trace s → s.rest ≠ [] → s.step = .ok m →
      (∀ k ∈ markups m.state.frames, (∀ l ∈ markups s.frames, l.openedAt ≠ k.openedAt) →
        k = .opened m.state.cursor.offset ∧
          ∀ x ∈ trace, ∀ l ∈ markups x.before.frames, l.openedAt ≠ k.openedAt) ∧
      ∀ k ∈ markups s.frames, (∀ l ∈ markups m.state.frames, l.openedAt ≠ k.openedAt) →
        k.isSettled = true ∧ s.HandsBack) ∧
    ∀ trace s markup below name blanks after, Run (.start source.toList) trace s →
      s.frames = .markup markup :: below → markup.inText = false → IsTagName name →
      (∀ c ∈ blanks, isBlank c = true) →
      s.rest = '<' :: '/' :: (name ++ (blanks ++ '>' :: after)) →
      (∀ u expected v, tagsOf markup.openedAt trace = u ++ .opening expected :: v →
        WellNested v → expected ≠ String.ofList name →
        scan source = .error (.strayClosingTag (some expected) (String.ofList name)
          (s.cursor.span (byteLength ('<' :: '/' :: (name ++ (blanks ++ ['>']))))))) ∧
      (WellNested (tagsOf markup.openedAt trace) →
        scan source = .error (.strayClosingTag none (String.ofList name)
          (s.cursor.span (byteLength ('<' :: '/' :: (name ++ (blanks ++ ['>']))))))) := by
  refine ⟨fun segments h => ?_, fun trace s m hrun hs hm => ?_, ?_⟩
  · obtain ⟨trace, t, hrun, ht, hu, -⟩ := scan_eq_ok_iff.1 h
    have hframes : t.frames = [] := by
      by_contra hne
      obtain ⟨frame, below, hf⟩ := List.exists_cons_of_ne_nil hne
      have hn := nested_of_reached ⟨trace, hrun⟩
      rw [hf] at hn hu
      obtain ⟨e, he⟩ := hn.exists_unclosed
      rw [hu] at he
      cases he
    refine ⟨trace, t, hrun, ht, hframes, fun openedAt => wellNested_iff.2 ?_⟩
    have htags := leftOpen?_tagsOf hrun trivial openedAt
    rw [hframes] at htags
    exact htags
  · have hstep := remarked_of_step (nested_of_reached ⟨trace, hrun⟩) hs hm
    refine ⟨fun k hk hnew => ?_, fun k hk hleft => settled_of_remarked hstep hk hleft⟩
    obtain rfl := opened_of_remarked hstep hk hnew
    refine ⟨rfl, fun x hx l hl => Nat.ne_of_lt ?_⟩
    obtain ⟨xs, ys, -, hxs, hne, hx, hys⟩ := hrun.of_mem hx
    have hlt := openedAt_lt_of_step ⟨xs, hxs⟩ hne hx hl
    have hahead := hys.reaches.offset_le
    have hturn := (State.reaches_of_turn (State.turn_of_step hs hm)).offset_le
    exact Nat.lt_of_lt_of_le hlt (Nat.le_trans hahead hturn)
  · intro trace s markup below name blanks after hrun hf ht hn hb hr
    exact ⟨fun _ _ _ htags hv hne => scan_of_otherElement hrun hf ht hn hb hr htags hv hne,
      fun hw => scan_of_noElement hrun hf ht hn hb hr hw⟩

/-- An element, behind the brace of a block. -/
theorem run_open_element (source : String)
    (h : source = "@{ <b></i >}" ∨ source = "@{ <b></b></i>}") :
    ∃ trace, Run (.start source.toList) trace (((State.start source.toList).skip 6).within
        [.markup ⟨3, ⟨[⟨"b", false, ⟨3, 5⟩⟩]⟩, false⟩, .block (.opened 0 none)]) ∧
      tagsOf 3 trace = [.opening "b"] := by
  let start := State.start source.toList
  let place (n : Nat) (frames : List Frame) : State := (start.skip n).within frames
  let block : Frame := .block (.opened 0 none)
  obtain rfl | rfl := h
  all_goals
    exact ⟨_,
      .cons (m := ⟨[.brace], place 2 [block]⟩) (by decide +kernel) (by decide +kernel) <|
      .cons (m := ⟨[.token .space [' ']], place 3 [block]⟩) (by decide +kernel)
        (by decide +kernel) <|
      .cons (m := ⟨[], place 3 [.markup (.opened 3), block]⟩) (by decide +kernel)
        (by decide +kernel) <|
      .cons (m := ⟨[.text ['<', 'b']], place 5 [.tag "b" ⟨3, 5⟩, .markup (.opened 3), block]⟩)
        (by decide +kernel) (by decide +kernel) <|
      .cons (m := ⟨[.text ['>']], place 6 [.markup ⟨3, ⟨[⟨"b", false, ⟨3, 5⟩⟩]⟩, false⟩, block]⟩)
        (by decide +kernel) (by decide +kernel) <| .nil _,
      by decide +kernel⟩

/-- Closing tags that are refused: one of another name than the open element has, and one where the
only element has been closed. -/
theorem scan_of_refused_tags :
    scan "@{ <b></i >}" = .error (.strayClosingTag (some "b") "i" ⟨6, 11⟩) ∧
      scan "@{ <b></b></i>}" = .error (.strayClosingTag none "i" ⟨10, 14⟩) := by
  have hi : IsTagName ['i'] := ⟨by decide, by decide⟩
  constructor
  · obtain ⟨trace, hrun, htags⟩ := run_open_element _ (.inl rfl)
    exact ((elements_of_scan _).2.2 trace _ _ _ ['i'] [' '] ['}'] hrun rfl rfl hi
      (List.forall_mem_singleton.2 (by decide)) (by decide +kernel)).1 [] "b" [] htags .nil
      (by decide)
  · obtain ⟨trace, hrun, htags⟩ := run_open_element _ (.inr rfl)
    let closed : State := ((State.start "@{ <b></b></i>}".toList).skip 10).within
      [.markup (.opened 3), .block (.opened 0 none)]
    have hclosed := hrun.snoc (m := ⟨[.text ['<', '/', 'b', '>']], closed⟩) (by decide +kernel)
      (by decide +kernel)
    refine ((elements_of_scan _).2.2 _ closed _ _ ['i'] [] ['}'] hclosed rfl rfl hi nofun
      (by decide +kernel)).2 ?_
    show WellNested (tagsOf 3 _)
    rw [tagsOf_append, htags]
    exact .element .nil .nil

end Scan

end AtTemplate
