import AtTemplate.Proofs.Labels
import AtTemplate.Proofs.TwinRuns

/-!
# AtTemplate.Proofs.Finality

Which errors more text can cure.  A scan that comes to an angle bracket has taken the same steps
whatever follows the source.  A closing tag that is refused stands behind such a run, with all that
it is refused for, so that no text behind the source changes what is reported of it.

* `isUnclosed_or_of_fault` — what a step that fails finds;
* `step_append_of_error` — a closing tag that is refused, with text appended;
* `scan_append_of_error` — **an error that more text can change is of a construct that is not
  closed.**
-/

namespace AtTemplate

open Code Text
open AtTemplate.Markup

/-! ## errors -/

namespace TemplateError

/-- A construct is not closed. -/
def IsUnclosed (e : TemplateError) : Prop :=
  ∃ construct span, e = .unclosed construct span

/-- A closing tag is refused: it belongs to another element, or it has more than a name. -/
def RefusesTag (e : TemplateError) : Prop :=
  (∃ expected found span, e = .strayClosingTag expected found span) ∨
    ∃ detail span, e = .malformedTag detail span

/-- What is reported at its first byte is a construct that is not closed. -/
theorem IsBrief.isUnclosed {e : TemplateError} (h : e.IsBrief) : e.IsUnclosed := by
  obtain ⟨construct, span, he, -⟩ := h
  exact ⟨construct, span, he⟩

/-- An error is of a construct or of a closing tag, not of both. -/
theorem IsUnclosed.not_refusesTag {e : TemplateError} (h : e.IsUnclosed) : ¬ e.RefusesTag := by
  obtain ⟨construct, span, rfl⟩ := h
  rintro (⟨_, _, _, h⟩ | ⟨_, _, h⟩) <;> cases h

end TemplateError

namespace Scan

variable {s : State} {e : TemplateError} {text : List Char}

/-- What is reported of open frames is a construct that is not closed. -/
theorem isUnclosed_of_frames {frames : List Frame} (h : frames.findSome? Frame.unclosed? = some e) :
    e.IsUnclosed := by
  obtain ⟨frame, -, he⟩ := List.exists_of_findSome?_eq_some h
  cases frame with
  | markup m =>
    simp only [Frame.unclosed?] at he
    split at he
    · cases he
      exact ⟨_, _, rfl⟩
    · split at he <;> cases he
      exact ⟨_, _, rfl⟩
  | lineEscape => cases he
  | _ =>
    cases he
    exact ⟨_, _, rfl⟩

/-- A step that fails finds a construct that is not closed, or it is at a closing tag with text
behind its name. -/
theorem isUnclosed_or_of_fault (h : s.Fault e) :
    e.IsUnclosed ∨ ∃ markup below, s.frames = .markup markup :: below ∧ markup.inText = false ∧
      closingName s.rest ≠ [] ∧ trimStart (s.rest.drop (2 + (closingName s.rest).length)) ≠ [] := by
  cases h with
  | comment | quotation | markupComment | openClosingTag | tag | attributeValue =>
    exact .inl ⟨_, _, rfl⟩
  | explicit _ hc => exact .inl (isBrief_of_findClosing hc).isUnclosed
  | implicit _ hc => exact .inl (isBrief_of_chainEnd hc).isUnclosed
  | clause _ hb | nextClause _ _ _ _ _ hb =>
    obtain hbrief | rfl := isBrief_or_eq_of_findBody hb
    · exact .inl hbrief.isUnclosed
    · exact .inl ⟨_, _, rfl⟩
  | closeInnermost _ _ hu => exact .inl (isUnclosed_of_frames hu)
  | malformedTag hf ht hn hc | strayClosingTag hf ht hn hc =>
    refine .inr ⟨_, _, hf, ht, hn, fun hnil => ?_⟩
    rw [hnil] at hc
    cases hc

/-! ## closing tags with text appended -/

/-- A closing tag with text behind its name keeps its name whatever follows. -/
theorem closingName_append_of_drop (hn : closingName text ≠ [])
    (hne : text.drop (2 + (closingName text).length) ≠ []) (after : List Char) :
    closingName (text ++ after) = closingName text := by
  unfold closingName at hn hne ⊢
  split at hn
  · next t =>
    cases t with
    | nil => exact absurd rfl hn
    | cons c t =>
      simp only [List.cons_append, takeTagName] at hn hne ⊢
      split
      · next hc =>
        rw [if_pos hc, Nat.add_comm, List.length_cons] at hne
        simp only [List.drop_succ_cons] at hne
        have hsplit := List.takeWhile_append_dropWhile (p := isTagNameChar) (l := t)
        have hdrop : t.dropWhile isTagNameChar ≠ [] := by
          intro hnil
          rw [hnil, List.append_nil] at hsplit
          rw [hsplit, List.drop_length] at hne
          exact hne rfl
        rw [(takeWhile_append_of_dropWhile hdrop after).1]
      · rfl
  · exact absurd rfl hn

/-- A closing tag with text behind its name begins as it does with more text appended. -/
theorem startAlike_append (hn : closingName text ≠ [])
    (hne : text.drop (2 + (closingName text).length) ≠ []) (after : List Char) :
    StartAlike text (text ++ after) where
  head_eq := by
    refine List.head?_append_of_ne_nil _ ?_
    rintro rfl
    exact hn rfl
  startsMarkup_eq := by
    have hname := closingName_append_of_drop hn hne after
    simp [startsMarkup, startsTag, hname, hn]

/-- **A closing tag that is refused is refused whatever follows the source.**  What it does is
decided by the first character behind its name that is not blank. -/
theorem step_append_of_error {markup : MarkupFrame} {below : List Frame}
    (hf : s.frames = .markup markup :: below) (ht : markup.inText = false)
    (hn : closingName s.rest ≠ [])
    (hne : trimStart (s.rest.drop (2 + (closingName s.rest).length)) ≠ [])
    (he : s.step = .error e) (after : List Char) :
    State.step ⟨s.cursor.amid ⟨[], after⟩, s.stack⟩ = .error e := by
  let k : Side := ⟨[], after⟩
  let t : State := ⟨s.cursor.amid k, s.stack⟩
  have hname : closingName t.rest = closingName s.rest :=
    closingName_append_of_drop hn (fun hnil => hne (by rw [hnil]; rfl)) after
  rw [step_of_closingName hf ht hn] at he
  rw [step_of_closingName (s := t) hf ht (hname ▸ hn), hname]
  obtain ⟨c, rest, hc⟩ := List.exists_cons_of_ne_nil hne
  have hlen := length_closingName_le hn
  generalize closingName s.rest = name at hc hlen he ⊢
  rw [State.rest, ← Cursor.rest_advance] at hc
  have hhere : s = ⟨s.cursor.amid ⟨[], []⟩, ⟨.markup markup :: below⟩⟩ :=
    State.eq_of_before_rest_frames (List.append_nil _).symm (List.append_nil _).symm hf
  have hthere : t = ⟨s.cursor.amid k, ⟨.markup markup :: below⟩⟩ :=
    State.eq_of_before_rest_frames rfl rfl hf
  have hspan (d : Cursor) (after : List Char) :
      (s.cursor.amid ⟨[], after⟩).spanTo (d.amid ⟨[], after⟩) = s.cursor.spanTo d := rfl
  rw [hhere, State.closingTag_amid hlen rfl hc rfl, hspan, hspan] at he
  rw [hthere, State.closingTag_amid hlen rfl hc rfl, hspan, hspan]
  split at he
  · next hgt =>
    rw [if_pos hgt]
    generalize markup.elements.close _ _ = closed at he ⊢
    obtain ⟨e' | element, elements⟩ := closed
    · exact he
    · cases he
  · next hgt =>
    rw [if_neg hgt]
    exact he

/-- **An error that more text can change is of a construct that is not closed.**  What is reported
of a closing tag is reported whatever follows the source. -/
theorem scan_append_of_error {a : String} (h : scan a = .error e) :
    (e.RefusesTag → ∀ s, scan (a ++ s) = .error e) ∧
      ∀ s, scan (a ++ s) ≠ .error e → e.IsUnclosed := by
  have hfinal : e.IsUnclosed ∨ ∀ s, scan (a ++ s) = .error e := by
    obtain ⟨t, ⟨trace, hrun⟩, ⟨-, hopen⟩ | ⟨hne, he⟩⟩ := scan_eq_error_iff.1 h
    · exact .inl (isUnclosed_of_frames hopen)
    · refine (isUnclosed_or_of_fault (State.fault_of_step he)).imp_right ?_
      rintro ⟨markup, below, hf, ht, hn, htrim⟩ s
      have hsource : t.cursor.before.reverse ++ t.rest = a.toList := hrun.reaches.source_eq
      have hbreaks : Breaks t.rest := by
        obtain ⟨tail, htail⟩ := cons_closingName_isPrefix hn
        intro c hc
        rw [← htail] at hc
        cases hc
        exact .inr rfl
      have halike := startAlike_append hn (fun hnil => htrim (by rw [hnil]; rfl)) s.toList
      rw [← hsource] at hrun
      obtain ⟨-, xs, hrun', -⟩ := exists_run_between hrun
        (by rw [t.cursor.offset_eq, byteLength_reverse]) hbreaks halike
      rw [← List.append_assoc, hsource, ← String.toList_append] at hrun'
      have hend : (⟨.between t.cursor.before.reverse (t.rest ++ s.toList), t.stack⟩ : State) =
          ⟨t.cursor.amid ⟨[], s.toList⟩, t.stack⟩ := by
        refine State.eq_of_before_rest_frames ?_ rfl rfl
        simp [Cursor.between]
      rw [hend] at hrun'
      refine scan_eq_error_of_step ⟨_, hrun'⟩ ?_ (step_append_of_error hf ht hn htrim he s.toList)
      exact List.append_ne_nil_of_left_ne_nil hne _
  refine ⟨fun hrefused => hfinal.resolve_left fun hopen => hopen.not_refusesTag hrefused,
    fun s hs => hfinal.resolve_right fun hall => hs (hall s)⟩

/-- A closing tag of another element, with the one that is missing behind it. -/
theorem scan_append_of_stray_tag :
    scan r"@{ <b></i>" = .error (.strayClosingTag (some "b") "i" ⟨6, 10⟩) ∧
      scan (r"@{ <b></i>" ++ r"</b> }") = .error (.strayClosingTag (some "b") "i" ⟨6, 10⟩) := by
  have h : scan r"@{ <b></i>" = .error (.strayClosingTag (some "b") "i" ⟨6, 10⟩) := by
    decide +kernel
  exact ⟨h, (scan_append_of_error h).1 (.inl ⟨_, _, _, rfl⟩) _⟩

end Scan

end AtTemplate
