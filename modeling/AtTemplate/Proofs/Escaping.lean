import AtTemplate.Proofs.Elements

/-!
# AtTemplate.Proofs.Escaping

Any text can be written in a template.  Its at signs are doubled, and those within an e-mail address
may be left as they are; a scan then copies the text as it is, whatever else is in it.

* `run_spelled` — a spelling is scanned as the text that it spells;
* `scan_spelled` — in the template itself, in an element, in an attribute value and in a text
  element.
-/

namespace AtTemplate

open Code Text
open AtTemplate.Markup

/-! ## spellings -/

/-- `Spelled previous? text spelling`: the spelling stands for the text where `previous?` is the
character of the text in front of it.  Every at sign is written twice; one between the characters
of an e-mail address may be written once. -/
inductive Spelled : Option Char → List Char → List Char → Prop
  | nil (previous? : Option Char) : Spelled previous? [] []
  | char {previous? : Option Char} {c : Char} {text spelling : List Char} (hc : c ≠ '@')
      (h : Spelled (some c) text spelling) : Spelled previous? (c :: text) (c :: spelling)
  | doubled {previous? : Option Char} {text spelling : List Char}
      (h : Spelled (some '@') text spelling) :
      Spelled previous? ('@' :: text) ('@' :: '@' :: spelling)
  | single {previous? : Option Char} {text spelling : List Char}
      (hbefore : previous?.any Directive.endsMailbox = true)
      (hafter : text.head?.any isNameChar = true) (h : Spelled (some '@') text spelling) :
      Spelled previous? ('@' :: text) ('@' :: spelling)

namespace Spelled

variable {previous? : Option Char} {text spelling : List Char}

/-- A spelling has no characters but at signs that its text does not have. -/
theorem mem (h : Spelled previous? text spelling) {c : Char} (hc : c ≠ '@') (hs : c ∈ spelling) :
    c ∈ text := by
  induction h with
  | nil => exact hs
  | char _ _ ih =>
    rw [List.mem_cons] at hs ⊢
    exact hs.imp_right ih
  | doubled _ ih =>
    have hs := ((List.mem_cons.1 hs).resolve_left hc)
    exact List.mem_cons_of_mem _ (ih ((List.mem_cons.1 hs).resolve_left hc))
  | single _ _ _ ih => exact List.mem_cons_of_mem _ (ih ((List.mem_cons.1 hs).resolve_left hc))

/-- What a spelling begins with, up to its first at sign, its text begins with. -/
theorem prefix_text (h : Spelled previous? text spelling) {s : List Char} (hs : '@' ∉ s)
    (hp : s <+: spelling) : s <+: text := by
  induction s generalizing previous? text spelling with
  | nil => exact List.nil_prefix
  | cons c s ih =>
    rw [List.mem_cons, not_or] at hs
    cases h with
    | nil => cases List.prefix_nil.1 hp
    | char hc h =>
      obtain ⟨rfl, htail⟩ := List.cons_prefix_cons.1 hp
      exact (List.prefix_cons_inj c).2 (ih h hs.2 htail)
    | doubled h => exact absurd (List.cons_prefix_cons.1 hp).1.symm hs.1
    | single _ _ h => exact absurd (List.cons_prefix_cons.1 hp).1.symm hs.1

/-- A text without at signs that occurs in a spelling occurs in the text. -/
theorem infix_text (h : Spelled previous? text spelling) {s : List Char} (hs : '@' ∉ s)
    (hp : s <:+: spelling) : s <:+: text := by
  have hat {tail : List Char} (hp : s <:+: '@' :: tail) : s <:+: tail := by
    obtain hp | hp := List.infix_cons_iff.1 hp
    · cases s with
      | nil => exact List.nil_infix
      | cons c s =>
        obtain ⟨rest, hr⟩ := hp
        cases hr
        exact absurd List.mem_cons_self hs
    · exact hp
  induction h with
  | nil => exact hp
  | char hc h ih =>
    obtain hp | hp := List.infix_cons_iff.1 hp
    · have hspelled : Spelled none _ _ := .char hc h
      exact (hspelled.prefix_text hs hp).isInfix
    · exact List.infix_cons (ih hp)
  | doubled h ih => exact List.infix_cons (ih (hat (hat hp)))
  | single _ _ h ih => exact List.infix_cons (ih (hat hp))

/-- The spelling of a text that begins with a character of a name begins with it too. -/
theorem head?_of_isNameChar (h : Spelled previous? text spelling)
    (ha : text.head?.any isNameChar = true) :
    ∃ c rest, spelling = c :: rest ∧ isNameChar c = true := by
  cases h with
  | nil => cases ha
  | char hc h => exact ⟨_, _, rfl, ha⟩
  | doubled | single => exact absurd ha (show isNameChar '@' ≠ true by decide +kernel)

end Spelled

/-- Between the characters of an e-mail address an at sign is text. -/
theorem Directive.resolve_of_mailbox {previous? : Option Char} {c : Char} {rest : List Char}
    (hb : previous?.any endsMailbox = true) (hc : isNameChar c = true) :
    resolve previous? (c :: rest) = .plain := by
  rw [resolve_of_isNameChar hc, hb]
  split <;> rfl

namespace Scan

variable {previous? : Option Char} {text spelling after : List Char} {s : State}

/-- A spelling stands at the cursor, with `after` behind it, in a frame that copies all of its
characters but at signs; `previous?` is the character in front of it, if that matters. -/
structure SpelledAt (s : State) (previous? : Option Char) (spelling after : List Char) : Prop where
  rest_eq : s.rest = spelling ++ after
  previous : previous? = none ∨ s.cursor.previous? = previous?
  inBlock : s.inBlock = false
  isWhole : (s.frames.head?.any Frame.isWhole) = false
  copies : ∀ c tail, c ≠ '@' → c :: tail <:+ spelling → Copies s.frames (c :: (tail ++ after))

/-- So does what remains of the spelling behind a character of it. -/
theorem SpelledAt.skip {c : Char} (h : SpelledAt s previous? (c :: spelling) after) :
    SpelledAt (s.skip 1) (some c) spelling after where
  rest_eq := by
    rw [State.rest_skip, h.rest_eq]
    rfl
  previous := by
    have hcursor : s.cursor.rest = c :: (spelling ++ after) := h.rest_eq
    exact .inr (by simp [Cursor.previous?, hcursor])
  inBlock := h.inBlock
  isWhole := h.isWhole
  copies := fun d tail hd hs => h.copies d tail hd (hs.trans (List.suffix_cons c spelling))

/-- **A spelling is scanned as the text that it spells**, where its frame copies all characters but
at signs. -/
theorem run_spelled (h : Spelled previous? text spelling)
    (hs : SpelledAt s previous? spelling after) : WritesTo s text (s.skip spelling.length) := by
  induction h generalizing s with
  | nil => exact fun _ => rfl
  | @char _ c text spelling hc h ih =>
    have hcopy : Copies s.frames s.rest := by
      rw [hs.rest_eq]
      exact hs.copies c spelling hc List.suffix_rfl
    have hwrites : WritesTo s [c] (s.skip 1) := run_char hs.rest_eq hcopy
    have hall := hwrites.trans (ih hs.skip)
    rwa [State.skip_skip, Nat.add_comm 1] at hall
  | @doubled _ text spelling h ih =>
    have hrest := hs.rest_eq
    have hcursor : s.cursor.rest = '@' :: '@' :: (spelling ++ after) := hrest
    have hstep : s.step = .ok ⟨[.text ['@']], s.skip 2⟩ := by
      rw [step_of_at hs.isWhole (by simp [hrest]), State.atSign]
      simp [Directive.ofCursor, hcursor, Directive.resolve]
    have hwrites : WritesTo s ['@'] (s.skip 2) := run_of_step_text (by simp [hrest]) hstep
    have hbehind := hs.skip.skip
    rw [State.skip_skip] at hbehind
    have hall := hwrites.trans (ih hbehind)
    rwa [State.skip_skip, Nat.add_comm 2] at hall
  | @single previous? text spelling hbefore hafter h ih =>
    obtain ⟨c, rest, hspelling, hc⟩ := h.head?_of_isNameChar hafter
    have hrest := hs.rest_eq
    have hcursor : s.cursor.rest = '@' :: (spelling ++ after) := hrest
    have hprevious : s.cursor.previous? = previous? := by
      refine hs.previous.resolve_left ?_
      rintro rfl
      cases hbefore
    have hd : Directive.ofCursor s.cursor = .plain := by
      rw [Directive.ofCursor, hprevious, hcursor, hspelling]
      exact Directive.resolve_of_mailbox hbefore hc
    have hstep : s.step = .ok ⟨[.text ['@']], s.skip 1⟩ := by
      rw [step_of_at hs.isWhole (by simp [hrest]), State.atSign, hd]
      simp [State.plainSign, hs.inBlock]
    have hwrites : WritesTo s ['@'] (s.skip 1) := run_of_step_text (by simp [hrest]) hstep
    have hall := hwrites.trans (ih hs.skip)
    rwa [State.skip_skip, Nat.add_comm 1] at hall

/-! ## where a text may stand -/

variable {name : List Char} {markup : MarkupFrame} {below : List Frame}

/-- An element with the spelling of a text without angle brackets in it is scanned as text. -/
theorem writesTo_element (after : List Char) (h : Spelled none text spelling) (hn : IsTagName name)
    (hne : name ≠ ['t', 'e', 'x', 't']) (hlt : '<' ∉ text)
    (hf : s.frames = .markup markup :: below) (ht : markup.inText = false)
    (hr : s.rest = '<' :: (name ++ '>' :: (spelling ++ '<' :: '/' :: (name ++ '>' :: after)))) :
    ∃ t, WritesTo s ('<' :: (name ++ '>' :: (text ++ '<' :: '/' :: (name ++ ['>'])))) t ∧
      t.rest = after ∧ t.frames = .markup markup :: below := by
  obtain ⟨span, hopen⟩ := run_openingTag hf ht hn rfl (fun hno => hne hno.1) hr
  generalize htag : (s.skip (1 + name.length)).within _ = tag at hopen
  have htagRest : tag.rest = '>' :: (spelling ++ '<' :: '/' :: (name ++ '>' :: after)) := by
    rw [← htag]
    simp [hr, Nat.add_comm 1]
  have hend := run_endTag (by rw [← htag]; rfl) htagRest
  generalize hinner : (tag.skip 1).within _ = inner at hend
  have hinnerRest : inner.rest = spelling ++ '<' :: '/' :: (name ++ '>' :: after) := by
    rw [← hinner]
    simp [htagRest]
  have hframes : inner.frames = .markup { markup with
      elements := markup.elements.openElement (String.ofList name) span } :: below := by
    rw [← hinner]
    rfl
  have htext := run_spelled h (s := inner)
    { rest_eq := hinnerRest
      previous := .inl rfl
      inBlock := by simp [State.inBlock_eq, hframes, Frame.isBlock]
      isWhole := by simp [hframes, Frame.isWhole]
      copies := fun c tail hc hsuffix => by
        rw [hframes]
        refine ⟨hc, fun hcl => ?_, fun _ => rfl⟩
        exact absurd (h.mem (c := '<') (by decide) (hcl ▸ hsuffix.subset List.mem_cons_self)) hlt }
  have hclosingRest : (inner.skip spelling.length).rest = '<' :: '/' :: (name ++ '>' :: after) := by
    simp [hinnerRest]
  have hclose := run_closingTag (s := inner.skip spelling.length) hframes ht hn rfl hclosingRest
  refine ⟨_, by simpa using hopen.trans (hend.trans (htext.trans hclose)), ?_, rfl⟩
  simp [hinnerRest, Nat.add_comm 2]

/-- An element with the spelling of a text without quotes as an attribute value is scanned as
text. -/
theorem writesTo_value (key after : List Char) (h : Spelled none text spelling)
    (hn : IsTagName name)
    (ha : ∀ c ∈ key, State.stopsTag c = false) (hq : '"' ∉ text)
    (hf : s.frames = .markup markup :: below) (ht : markup.inText = false)
    (hr : s.rest = '<' :: (name ++ ' ' :: (key ++ '"' ::
      (spelling ++ '"' :: '>' :: '<' :: '/' :: (name ++ '>' :: after))))) :
    ∃ t, WritesTo s ('<' :: (name ++ ' ' :: (key ++ '"' ::
        (text ++ '"' :: '>' :: '<' :: '/' :: (name ++ ['>']))))) t ∧
      t.rest = after ∧ t.frames = .markup markup :: below := by
  obtain ⟨span, hopen⟩ := run_openingTag hf ht hn rfl (fun hno => by cases hno.2) hr
  generalize htag : (s.skip (1 + name.length)).within _ = tag at hopen
  have htagRest : tag.rest = (' ' :: key) ++ '"' ::
      (spelling ++ '"' :: '>' :: '<' :: '/' :: (name ++ '>' :: after)) := by
    rw [← htag]
    simp [hr, Nat.add_comm 1]
  obtain ⟨openedAt, hvalue⟩ := run_openValue (' ' :: key) (by rw [← htag]; rfl)
    (List.forall_mem_cons.2 ⟨rfl, ha⟩) (List.cons_ne_nil _ _) htagRest
  generalize hinner : (tag.skip ((' ' :: key).length + 1)).within _ = inner at hvalue
  have hinnerRest : inner.rest =
      spelling ++ '"' :: '>' :: '<' :: '/' :: (name ++ '>' :: after) := by
    rw [← hinner]
    simp [htagRest]
  have hframes : inner.frames = .attributeValue '"' openedAt ::
      .tag (String.ofList name) span :: .markup markup :: below := by
    rw [← hinner]
    rfl
  have htext := run_spelled h (s := inner)
    { rest_eq := hinnerRest
      previous := .inl rfl
      inBlock := by simp [State.inBlock_eq, hframes, Frame.isBlock]
      isWhole := by simp [hframes, Frame.isWhole]
      copies := fun c tail hc hsuffix => by
        rw [hframes]
        refine ⟨hc, fun hcq => ?_, '"', by simp, by decide⟩
        exact hq (h.mem (c := '"') (by decide) (hcq ▸ hsuffix.subset List.mem_cons_self)) }
  have hquoteRest : (inner.skip spelling.length).rest =
      '"' :: '>' :: '<' :: '/' :: (name ++ '>' :: after) := by
    simp [hinnerRest]
  have hquote := run_closeValue (s := inner.skip spelling.length) hframes (by decide) hquoteRest
  generalize hafter : ((inner.skip spelling.length).skip 1).within _ = behind at hquote
  have hbehind : behind.rest = '>' :: '<' :: '/' :: (name ++ '>' :: after) := by
    rw [← hafter]
    simp [hinnerRest]
  have hend := run_endTag (by rw [← hafter]; rfl) hbehind
  generalize hlast : (behind.skip 1).within _ = last at hend
  have hlastRest : last.rest = '<' :: '/' :: (name ++ '>' :: after) := by
    rw [← hlast]
    simp [hbehind]
  have hlastFrames : last.frames = .markup { markup with
      elements := markup.elements.openElement (String.ofList name) span } :: below := by
    rw [← hlast]
    rfl
  have hclose := run_closingTag hlastFrames ht hn rfl hlastRest
  refine ⟨_, by simpa using hopen.trans (hvalue.trans (htext.trans (hquote.trans
    (hend.trans hclose)))), ?_, rfl⟩
  simp [hlastRest, Nat.add_comm 2]

/-- No closing mark of a text element begins before the mark that ends it, unless it lies in the
text. -/
theorem not_textClosing_prefix {s rest : List Char} (hs : s ≠ []) (h : ¬ textClosing <+: s) :
    ¬ textClosing <+: s ++ (textClosing ++ rest) := by
  intro hp
  have hshort : s.length < textClosing.length := by
    by_contra hlen
    exact h (List.prefix_of_prefix_length_le hp (List.prefix_append _ _) (Nat.le_of_not_lt hlen))
  -- the mark would begin again within itself, but it has no second angle bracket
  have hangle : ∀ i < textClosing.length, 0 < i → textClosing[i]? ≠ some '<' := by decide
  refine hangle s.length hshort (List.length_pos_iff.2 hs) ?_
  obtain ⟨tail, htail⟩ := hp
  have hget := congrArg (·[s.length]?) htail
  rw [List.getElem?_append_left hshort, List.getElem?_append_right (Nat.le_refl _),
    Nat.sub_self] at hget
  exact hget

/-- A text element with the spelling of a text in which no text element ends is scanned as that
text. -/
theorem writesTo_textElement (after : List Char) (h : Spelled none text spelling)
    (hclosing : ¬ textClosing <:+: text)
    (hf : s.frames = .markup markup :: below) (ht : markup.inText = false)
    (hr : s.rest = textOpening ++ (spelling ++ (textClosing ++ after))) :
    ∃ t, WritesTo s text t ∧ t.rest = after ∧ t.frames = .markup markup :: below := by
  have hopen := writesTo_nil (by simp [hr, textOpening]) (step_of_openText hf ht ⟨_, hr.symm⟩)
  generalize hinner : (s.skip textOpening.length).within _ = inner at hopen
  have hinnerRest : inner.rest = spelling ++ (textClosing ++ after) := by
    rw [← hinner]
    simp [hr]
  have hframes : inner.frames = .markup { markup with inText := true } :: below := by
    rw [← hinner]
    rfl
  have htext := run_spelled h (s := inner)
    { rest_eq := hinnerRest
      previous := .inl rfl
      inBlock := by simp [State.inBlock_eq, hframes, Frame.isBlock]
      isWhole := by simp [hframes, Frame.isWhole]
      copies := fun c tail hc hsuffix => by
        rw [hframes]
        refine copies_of_holdsText rfl hc (.inr ?_)
        refine not_textClosing_prefix (s := c :: tail) (List.cons_ne_nil _ _) fun hp => ?_
        exact hclosing (h.infix_text (by decide) (hp.isInfix.trans hsuffix.isInfix)) }
  have hlast : (inner.skip spelling.length).rest = textClosing ++ after := by simp [hinnerRest]
  have hclose := writesTo_nil (s := inner.skip spelling.length) (by simp [hlast, textClosing])
    (step_of_closeText hframes rfl ⟨_, hlast.symm⟩)
  refine ⟨_, by simpa using hopen.trans (htext.trans hclose), by simp [hinnerRest], ?_⟩
  rw [← ht]
  rfl

/-- A spelling is scanned as one text. -/
theorem scan_of_spelled {t spelled : String} (h : Spelled none t.toList spelled.toList) :
    scan spelled = .ok (if t = "" then [] else [.literal t]) := by
  have hstart : SpelledAt (.start spelled.toList) none spelled.toList [] :=
    ⟨(List.append_nil _).symm, .inl rfl, rfl, rfl, fun _ _ hc _ => hc⟩
  have hwrites := run_spelled h hstart
  have hend : ((State.start spelled.toList).skip spelled.toList.length).rest = [] := by
    rw [State.rest_skip]
    exact List.drop_length
  have hframes : ((State.start spelled.toList).skip spelled.toList.length).frames = [] := rfl
  rw [scan_eq_map, hwrites, run_of_rest_eq_nil hend, hframes, String.ofList_toList]
  by_cases ht : t = "" <;>
    simp [Except.map, Segments.empty, Segments.addLiteral, Segments.toList, ht]

/-- **Any text can be written in a template.**  Its spellings are scanned as the text itself: in
the template, in an element if it has no angle bracket, in an attribute value if it has no quote,
and in a text element if it does not have the mark that ends one. -/
theorem scan_spelled {t spelled : String} (h : Spelled none t.toList spelled.toList) :
    scan spelled = .ok (if t = "" then [] else [.literal t]) ∧
    (∀ name : String, IsTagName name.toList → name ≠ "text" → '<' ∉ t.toList →
      scan (r"@{ <" ++ name ++ ">" ++ spelled ++ "</" ++ name ++ ">\n" ++ r"}") =
        .ok [.code r"{ ", .literal ("<" ++ name ++ ">" ++ t ++ "</" ++ name ++ ">\n"),
          .code r"}"]) ∧
    ('"' ∉ t.toList → scan (r#"@{ <a x=""# ++ spelled ++ "\"></a>\n" ++ r"}") =
      .ok [.code r"{ ", .literal ("<a x=\"" ++ t ++ "\"></a>\n"), .code r"}"]) ∧
    (¬ textClosing <:+: t.toList → scan (r"@{ <text>" ++ spelled ++ "</text>\n" ++ r"}") =
      .ok [.code r"{ ", .literal (t ++ "\n"), .code r"}"]) := by
  have ha : IsTagName ['a'] := ⟨by decide, by decide⟩
  refine ⟨scan_of_spelled h, fun name hn hne hlt => ?_, fun hq => ?_, fun hclosing => ?_⟩
  · have hname : name.toList ≠ ['t', 'e', 'x', 't'] := fun hname =>
      hne (String.toList_inj.1 hname)
    refine scan_of_markup
      ('<' :: (name.toList ++ '>' :: (spelled.toList ++ '<' :: '/' :: (name.toList ++ ['>']))))
      ('<' :: (name.toList ++ '>' :: (t.toList ++ '<' :: '/' :: (name.toList ++ ['>']))))
      (by simp) (by simp) (by simpa using hn.startsMarkup rfl) fun s openedAt below hr hf => ?_
    obtain ⟨u, hw, hrest, hframes⟩ := writesTo_element ['\n', '}'] h hn hname hlt hf rfl
      (by simpa using hr)
    exact ⟨u, _, hw, hrest, hframes, rfl⟩
  · refine scan_of_markup
      ('<' :: 'a' :: ' ' :: 'x' :: '=' :: '"' :: (spelled.toList ++ ['"', '>', '<', '/', 'a', '>']))
      ('<' :: 'a' :: ' ' :: 'x' :: '=' :: '"' :: (t.toList ++ ['"', '>', '<', '/', 'a', '>']))
      (by simp) (by simp) (ha.startsMarkup rfl) fun s openedAt below hr hf => ?_
    obtain ⟨u, hw, hrest, hframes⟩ := writesTo_value ['x', '='] ['\n', '}'] h ha
      (by simp [State.stopsTag]) hq hf rfl (by simpa using hr)
    exact ⟨u, _, hw, hrest, hframes, rfl⟩
  · have htext : IsTagName ['t', 'e', 'x', 't'] := ⟨by decide, by decide⟩
    refine scan_of_markup (textOpening ++ (spelled.toList ++ textClosing)) t.toList
      (by simp [textOpening, textClosing]) (by simp) (htext.startsMarkup rfl)
      fun s openedAt below hr hf => ?_
    obtain ⟨u, hw, hrest, hframes⟩ := writesTo_textElement ['\n', '}'] h hclosing hf rfl
      (by simpa using hr)
    exact ⟨u, _, hw, hrest, hframes, rfl⟩

/-- A text with an e-mail address, an at sign before a brace, quotes and brackets. -/
theorem scan_spelled_address :
    Spelled none r"a@b @{'}".toList r"a@b @@{'}".toList ∧
      scan r"a@b @@{'}" = .ok [.literal r"a@b @{'}"] ∧
      IsTagName "h-1".toList ∧
      scan (r"@{ <h-1>a@b @@{'}</h-1>" ++ "\n" ++ r"}") =
        .ok [.code r"{ ", .literal (r"<h-1>a@b @{'}</h-1>" ++ "\n"), .code r"}"] ∧
      scan (r#"@{ <a x="a@b @@{'}"></a>"# ++ "\n" ++ r"}") =
        .ok [.code r"{ ", .literal (r#"<a x="a@b @{'}"></a>"# ++ "\n"), .code r"}"] ∧
      scan (r"@{ <text>a@b @@{'}</text>" ++ "\n" ++ r"}") =
        .ok [.code r"{ ", .literal (r"a@b @{'}" ++ "\n"), .code r"}"] := by
  have h : Spelled none r"a@b @{'}".toList r"a@b @@{'}".toList := by
    refine .char (by decide) (.single (by decide +kernel) (by decide +kernel) (.char (by decide)
      (.char (by decide) (.doubled (.char (by decide) (.char (by decide) (.char (by decide)
        (.nil _))))))))
  have hn : IsTagName "h-1".toList := ⟨by decide, by decide⟩
  have hne : "h-1" ≠ "text" := by decide
  have hlt : '<' ∉ r"a@b @{'}".toList := by decide
  have hq : '"' ∉ r"a@b @{'}".toList := by decide
  have hclosing : ¬ textClosing <:+: r"a@b @{'}".toList := by decide +kernel
  obtain ⟨hplain, helement, hvalue, htext⟩ := scan_spelled h
  have helement := helement "h-1" hn hne hlt
  have hvalue := hvalue hq
  have htext := htext hclosing
  simp only [String.reduceAppend] at helement hvalue htext ⊢
  exact ⟨h, hplain, hn, helement, hvalue, htext⟩

end Scan

end AtTemplate
