import AtTemplate.Proofs.MarkupBlock

/-!
# AtTemplate.Proofs.Elements

What a scan does with the tags of an element: it copies them, and keeps track of what is open.

* `run_openingTag`, `run_endTag` — an opening tag up to its attributes, and its end;
* `run_openValue`, `run_closeValue` — the quotes of an attribute value;
* `run_closingTag` — a closing tag of the element that is open.
-/

namespace AtTemplate.Markup

/-- The name of an element: a tag name as a whole. -/
def IsTagName (name : List Char) : Prop :=
  name ≠ [] ∧ takeTagName name = name

/-- A name begins with a letter. -/
theorem IsTagName.exists_cons {name : List Char} (h : IsTagName name) :
    ∃ d tail, name = d :: tail ∧ d.isAlpha = true ∧ tail.takeWhile isTagNameChar = tail := by
  obtain ⟨hne, hname⟩ := h
  obtain ⟨d, tail, rfl⟩ := List.exists_cons_of_ne_nil hne
  rw [takeTagName] at hname
  split at hname
  · next hd => exact ⟨d, tail, rfl, hd, (List.cons.inj hname).2⟩
  · cases hname

/-- A name is read in front of a character that it cannot go on with. -/
theorem IsTagName.takeTagName_append {name rest : List Char} {c : Char} (h : IsTagName name)
    (hc : isTagNameChar c = false) : takeTagName (name ++ c :: rest) = name := by
  obtain ⟨d, tail, rfl, hd, htail⟩ := h.exists_cons
  have hall : ∀ x ∈ tail, isTagNameChar x = true := List.takeWhile_eq_self_iff.1 htail
  rw [List.cons_append, takeTagName, if_pos hd, List.takeWhile_append_of_pos hall,
    List.takeWhile_cons_of_neg (by simp [hc]), List.append_nil]

/-- An opening tag begins markup. -/
theorem IsTagName.startsMarkup {name rest : List Char} {c : Char} (h : IsTagName name)
    (hc : isTagNameChar c = false) : startsMarkup ('<' :: (name ++ c :: rest)) = true := by
  have hname : openingName ('<' :: (name ++ c :: rest)) ≠ [] := by
    rw [openingName, h.takeTagName_append hc]
    exact h.1
  simp [Markup.startsMarkup, startsTag, hname]

end AtTemplate.Markup

namespace AtTemplate.Scan

open Text
open AtTemplate.Markup

variable {s : State} {name rest : List Char} {markup : MarkupFrame} {below : List Frame} {c : Char}

/-! ## tags -/

/-- In markup, an angle bracket is looked at. -/
theorem step_of_angle (hf : s.frames = .markup markup :: below) (hr : s.rest = '<' :: rest) :
    s.step = s.angle id markup below := by
  simp [State.step, State.stepWith, hf, State.stepMarkup, hr, State.stopsText]

/-- An opening tag is copied through its name. -/
theorem run_openingTag (hf : s.frames = .markup markup :: below) (ht : markup.inText = false)
    (hn : IsTagName name) (hc : isTagNameChar c = false)
    (htext : ¬ (name = ['t', 'e', 'x', 't'] ∧ c = '>'))
    (hr : s.rest = '<' :: (name ++ c :: rest)) :
    ∃ span, WritesTo s ('<' :: name) ((s.skip (1 + name.length)).within
      (.tag (String.ofList name) span :: .markup markup :: below)) := by
  obtain ⟨d, tail, hname, hd, -⟩ := hn.exists_cons
  have hopening : openingName s.rest = name := by
    rw [hr]
    exact hn.takeTagName_append hc
  have hclosing : closingName s.rest = [] := by
    have hslash : d ≠ '/' := by rintro rfl; cases hd
    rw [hr, hname]
    simp [closingName, hslash]
  have hcomment : commentOpening.isPrefixOf s.rest = false := by
    have hbang : '!' ≠ d := by rintro rfl; cases hd
    rw [hr, hname]
    simp [commentOpening, List.isPrefixOf, hbang]
  have hopen : textOpening.isPrefixOf s.rest = false := by
    rw [Bool.eq_false_iff, Ne, List.isPrefixOf_iff_prefix]
    rintro ⟨after, ha⟩
    have hrest : ['t', 'e', 'x', 't'] ++ '>' :: after = name ++ c :: rest := by
      rw [hr] at ha
      exact (List.cons.inj ha).2
    have hword : IsTagName ['t', 'e', 'x', 't'] := ⟨by decide, by decide⟩
    have hname' : takeTagName (name ++ c :: rest) = name := hn.takeTagName_append hc
    rw [← hrest, hword.takeTagName_append rfl] at hname'
    rw [hname'] at hrest
    exact htext ⟨hname'.symm, (List.cons.inj (List.append_cancel_left hrest)).1.symm⟩
  have hstep : s.step = .ok (s.openingTag name) := by
    rw [step_of_angle hf hr]
    simp [State.angle, ht, hopen, hcomment, hclosing, hopening, hn.1]
  refine ⟨s.cursor.spanTo (s.cursor.advance (1 + name.length)), fun w => ?_⟩
  have htake : s.rest.take (1 + name.length) = '<' :: name := by
    simp [hr, Nat.add_comm 1]
  have hstack : s.stack = ⟨.markup markup :: below⟩ := congrArg FrameStack.mk hf
  rw [run_of_step (by simp [hr]) hstep, State.openingTag, htake, hstack]
  rfl

/-- An opening tag ends, and its element is open. -/
theorem run_endTag {span : Span}
    (hf : s.frames = .tag (String.ofList name) span :: .markup markup :: below)
    (hr : s.rest = '>' :: rest) :
    WritesTo s ['>'] ((s.skip 1).within (.markup { markup with
      elements := markup.elements.openElement (String.ofList name) span } :: below)) := by
  have hstep : s.step = .ok ⟨[.text ['>']], (s.skip 1).within (.markup { markup with
      elements := markup.elements.openElement (String.ofList name) span } :: below)⟩ := by
    simp [State.step, State.stepWith, hf, State.stepTag, hr, State.stopsTag, State.plainLength,
      State.endTag, State.copy]
  exact run_of_step_text (by simp [hr]) hstep

/-- A closing tag ends the element that is open. -/
theorem run_closingTag {span : Span} {elements : OpenElements}
    (hf : s.frames = .markup markup :: below) (ht : markup.inText = false) (hn : IsTagName name)
    (he : markup.elements = elements.openElement (String.ofList name) span)
    (hr : s.rest = '<' :: '/' :: (name ++ '>' :: rest)) :
    WritesTo s ('<' :: '/' :: (name ++ ['>'])) ((s.skip (2 + name.length + 1)).within
      (.markup { markup with elements := elements } :: below)) := by
  have hclosing : closingName s.rest = name := by
    rw [hr]
    exact hn.takeTagName_append rfl
  have hmarks : textOpening.isPrefixOf s.rest = false ∧
      commentOpening.isPrefixOf s.rest = false := by
    rw [hr]
    exact ⟨rfl, rfl⟩
  have hafter : (s.cursor.advance (2 + name.length)).rest = '>' :: rest := by
    rw [Cursor.rest_advance, show s.cursor.rest = _ from hr]
    simp [Nat.add_comm 2]
  have hblank : isBlank '>' = false := by decide
  have htrim : trimStart (s.cursor.advance (2 + name.length)).rest = '>' :: rest := by
    rw [hafter, trimStart, List.dropWhile_cons_of_neg (by simp [hblank])]
  have hlead : leadingBlanks (s.cursor.advance (2 + name.length)).rest = [] := by
    rw [hafter, leadingBlanks, List.takeWhile_cons_of_neg (by simp [hblank])]
  have hangle : s.angle id markup below = s.closingTag id name := by
    simp [State.angle, ht, hmarks, hclosing, hn.1]
  have htake : s.rest.take (2 + name.length + 1) = '<' :: '/' :: (name ++ ['>']) := by
    rw [hr, show 2 + name.length + 1 = name.length + 1 + 1 + 1 by omega]
    simp [List.take_append, List.take_of_length_le]
  have hstep : s.step = .ok ⟨[.text ('<' :: '/' :: (name ++ ['>']))],
      (s.skip (2 + name.length + 1)).within
        (.markup { markup with elements := elements } :: below)⟩ := by
    rw [step_of_angle hf hr, hangle]
    simp only [State.closingTag, htrim, hlead, hf, he, OpenElements.close_openElement,
      Cursor.advance_advance, Cursor.textTo_advance, List.length_nil, Nat.zero_add]
    rw [← htake]
    rfl
  exact run_of_step_text (by simp [hr]) hstep

/-! ## attributes -/

/-- A quote in a tag begins an attribute value. -/
theorem run_quote {span : Span} {tag : String} (hf : s.frames = .tag tag span :: below)
    (hr : s.rest = '"' :: rest) :
    WritesTo s ['"'] ((s.skip 1).within
      (.attributeValue '"' s.cursor.offset :: .tag tag span :: below)) := by
  have hstep : s.step =
      .ok ⟨[.text ['"']], (s.skip 1).push (.attributeValue '"' s.cursor.offset)⟩ := by
    simp [State.step, State.stepWith, hf, State.stepTag, hr, State.stopsTag, State.plainLength]
  have hstack : s.stack = ⟨.tag tag span :: below⟩ := congrArg FrameStack.mk hf
  intro w
  rw [run_of_step_text (by simp [hr]) hstep]
  simp only [State.push, State.skip, hstack]
  rfl

/-- The text of a tag up to a quote is copied, and the quote opens a value. -/
theorem run_openValue (text : List Char) {span : Span} {tag : String}
    (hf : s.frames = .tag tag span :: below) (ht : ∀ c ∈ text, State.stopsTag c = false)
    (hne : text ≠ []) (hr : s.rest = text ++ '"' :: rest) :
    ∃ openedAt, WritesTo s (text ++ ['"']) ((s.skip (text.length + 1)).within
      (.attributeValue '"' openedAt :: .tag tag span :: below)) := by
  have hplain : ∀ c ∈ text, (!State.stopsTag c) = true := fun c hc => by simp [ht c hc]
  have htake : s.rest.takeWhile (!State.stopsTag ·) = text := by
    rw [hr, List.takeWhile_append_of_pos hplain, List.takeWhile_cons_of_neg (by decide),
      List.append_nil]
  have hdrop : s.rest.dropWhile (!State.stopsTag ·) = '"' :: rest := by
    rw [hr, List.dropWhile_append_of_pos hplain, List.dropWhile_cons_of_neg (by decide)]
  have hlen : 0 < State.plainLength State.stopsTag s.rest := by
    rw [State.plainLength, htake]
    exact List.length_pos_iff.2 hne
  have hstep : s.step = .ok (s.copy text.length) := by
    simp only [State.step, State.stepWith, hf, State.stepTag, hdrop, if_pos hlen]
    rw [State.plainLength, htake]
  have hquote : (s.skip text.length).rest = '"' :: rest := by simp [hr]
  have hcopied : WritesTo s text (s.skip text.length) := by
    intro w
    rw [run_of_step_copy (by simp [hr]) hstep, hr, List.take_left]
  refine ⟨(s.skip text.length).cursor.offset, ?_⟩
  rw [← State.skip_skip]
  exact hcopied.trans (run_quote (s := s.skip text.length) hf hquote)

/-- An attribute value ends at its quote. -/
theorem run_closeValue {quote : Char} {openedAt : Nat}
    (hf : s.frames = .attributeValue quote openedAt :: below) (hq : quote ≠ '@')
    (hr : s.rest = quote :: rest) : WritesTo s [quote] ((s.skip 1).within below) := by
  have hstep : s.step = .ok ⟨[.text [quote]], (s.skip 1).within below⟩ := by
    simp [State.step, State.stepWith, hf, State.stepValue, hr, State.stopsValue, State.plainLength,
      hq, State.copy]
  exact run_of_step_text (by simp [hr]) hstep

end AtTemplate.Scan
