import AtTemplate.Proofs.Bounded
import AtTemplate.Proofs.Chains
import AtTemplate.Proofs.Copying
import AtTemplate.Proofs.Lexing
import AtTemplate.Proofs.Relocation

/-!
# AtTemplate.Proofs.Twins

Two sources that share a stretch of text.  What is read from the stretch is the same in both, as
long as it ends within the stretch.  Behind the stretch either both go on alike, with an at sign or
an angle bracket or not at all; or the one ends there, and in the other comes a text of which
nothing before it takes anything.

* `ofCursor_twins` — an at sign introduces the same;
* `next_twins`, `findClosing_twins`, `findBody_twins`, `chainEnd_twins` — the same tokens, groups
  and chains are read.
-/

namespace AtTemplate

open Code Text
open AtTemplate.Markup

variable {text after after' : List Char}

/-! ## what ends within a text -/

/-- A run of a class that ends within a text is the same before any text with the same head, and so
is the character behind it. -/
theorem takeWhile_append_of_head {p : Char → Bool} (h : after'.head? = after.head?)
    (hle : ((text ++ after).takeWhile p).length ≤ text.length) :
    (text ++ after').takeWhile p = (text ++ after).takeWhile p ∧
      ((text ++ after').dropWhile p).head? = ((text ++ after).dropWhile p).head? := by
  induction text with
  | nil =>
    cases after with
    | nil => simp [List.head?_eq_none_iff.1 h]
    | cons c after =>
      obtain ⟨rest, rfl⟩ := List.head?_eq_some_iff.1 h
      by_cases hc : p c = true
      · simp [hc] at hle
      · simp [hc]
  | cons c text ih =>
    rw [List.cons_append] at hle ⊢
    by_cases hc : p c = true
    · simp only [List.takeWhile_cons_of_pos hc, List.length_cons] at hle
      simp [hc, ih (Nat.le_of_succ_le_succ hle)]
    · simp [hc]

/-- A first line that ends within a text is the same before any text with the same head. -/
theorem firstLine_append_of_head (h : after'.head? = after.head?)
    (hle : (firstLine (text ++ after)).length ≤ text.length) :
    firstLine (text ++ after') = firstLine (text ++ after) := by
  induction text with
  | nil =>
    cases after with
    | nil => rw [List.head?_eq_none_iff.1 h]
    | cons c after =>
      rw [List.nil_append, firstLine] at hle
      split at hle <;> simp at hle
  | cons c text ih =>
    simp only [List.cons_append, firstLine] at hle ⊢
    split
    · rfl
    · next hc =>
      rw [if_neg hc] at hle
      rw [ih (Nat.le_of_succ_le_succ hle)]

/-- A token that ends within a text is read there before any text with the same head. -/
theorem Code.read_append_of_head {kind : Token} {token rest : List Char}
    (h : after'.head? = after.head?) (hr : read (text ++ after) = .token kind token rest)
    (hle : token.length ≤ text.length) :
    rest = text.drop token.length ++ after ∧
      read (text ++ after') = .token kind token (text.drop token.length ++ after') := by
  obtain ⟨hself, hends⟩ := read_self hr
  have hsplit := Reading.append_of_read hr
  have htoken : token = text.take token.length := by
    have htake := congrArg (List.take token.length) hsplit
    rwa [List.take_left, List.take_append_of_le_length hle] at htake
  have hrest : rest = text.drop token.length ++ after := by
    have hdrop := congrArg (List.drop token.length) hsplit
    rwa [List.drop_left, List.drop_append_of_le_length hle] at hdrop
  refine ⟨hrest, ?_⟩
  have htext : text ++ after' = token ++ (text.drop token.length ++ after') := by
    rw [← List.append_assoc]
    conv_lhs => rw [← List.take_append_drop token.length text]
    rw [← htoken]
  rw [htext]
  refine read_append hself fun c hc => hends c ?_
  rw [hrest, ← hc]
  cases text.drop token.length with
  | nil => exact h.symm
  | cons d rest => rfl

/-- A token is read again in front of a detached text, unless it is a comment to the end of a line
that has no end. -/
theorem Code.read_append_of_detached {kind : Token} {token rest : List Char}
    (h : Detached after) (hr : read text = .token kind token rest)
    (hk : rest ≠ [] ∨ kind ≠ .lineComment) :
    read (text ++ after) = .token kind token (rest ++ after) := by
  obtain ⟨hself, hends⟩ := read_self hr
  rw [← Reading.append_of_read hr, List.append_assoc]
  refine read_append hself ?_
  by_cases hne : rest = []
  · have hk : kind ≠ .lineComment := hk.resolve_left (fun h => h hne)
    rw [hne, List.nil_append]
    intro d hd
    obtain rfl | rfl := h.head d hd <;> cases kind <;> first | rfl | exact absurd rfl hk
  · exact (Token.EndsBefore.of_append hne).2 hends

/-! ## two sources -/

/-- What stands around a stretch of text: the text before it, nearest character first, and the text
behind it. -/
structure Side where
  before : List Char
  after : List Char

/-- The number of bytes before the stretch. -/
def Side.bytes (k : Side) : Nat :=
  byteLength k.before

/-- Texts that cannot be told apart from before them: they begin with the same character, and markup
begins with both or with neither. -/
structure StartAlike (after after' : List Char) : Prop where
  head_eq : after'.head? = after.head?
  startsMarkup_eq : startsMarkup after' = startsMarkup after

/-- Two sources that share a stretch of text: what stands around it in either, where the places of
the one are found in the other, and the frames of text that lie under those of the stretch there. -/
structure Twins where
  here : Side
  there : Side
  place : Nat → Nat
  outer : List Frame
  breaks : Breaks here.after
  goes_on : StartAlike here.after there.after ∨ here.after = [] ∧ Detached there.after
  mailbox_eq : there.before.head?.any Directive.endsMailbox =
    here.before.head?.any Directive.endsMailbox
  place_add : ∀ n, place (n + here.bytes) = n + there.bytes
  outer_text : HoldsText outer

namespace Twins

variable {k : Twins}

/-- Both sources go on alike behind the stretch. -/
abbrev Alike (k : Twins) : Prop :=
  StartAlike k.here.after k.there.after

/-- Both sources end with the stretch. -/
def End (k : Twins) : Prop :=
  k.here.after = [] ∧ k.there.after = []

/-- At their end both sources have the same text left. -/
theorem End.after_eq (h : k.End) : k.there.after = k.here.after :=
  h.2.trans h.1.symm

/-- Sources that end with the stretch go on alike. -/
theorem End.alike (h : k.End) : k.Alike where
  head_eq := by rw [h.after_eq]
  startsMarkup_eq := by rw [h.after_eq]

/-- What follows the stretch in the one source bounds it. -/
theorem bounded (k : Twins) : Bounded k.here.after :=
  k.breaks.bounded

/-- What follows the stretch in the other source bounds it too. -/
theorem bounded_there (k : Twins) : Bounded k.there.after := by
  obtain halike | ⟨-, hdetached⟩ := k.goes_on
  · exact Breaks.bounded fun c hc => k.breaks c (halike.head_eq ▸ hc)
  · exact hdetached.bounded

/-- Where the sources do not go on alike, the one ends with the stretch. -/
theorem eq_nil_of_not_alike (h : ¬ k.Alike) : k.here.after = [] ∧ Detached k.there.after :=
  k.goes_on.resolve_left h

/-! ## what ends within the stretch -/

/-- A run of a class that ends within the stretch is the same in both sources, and so is the
character behind it.  Where the sources do not go on alike, there has to be one. -/
theorem takeWhile_twins {p : Char → Bool}
    (hle : ((text ++ k.here.after).takeWhile p).length ≤ text.length)
    (h : k.Alike ∨ (text ++ k.here.after).dropWhile p ≠ []) :
    (text ++ k.there.after).takeWhile p = (text ++ k.here.after).takeWhile p ∧
      ((text ++ k.there.after).dropWhile p).head? = ((text ++ k.here.after).dropWhile p).head? := by
  by_cases halike : k.Alike
  · exact takeWhile_append_of_head halike.head_eq hle
  · have hne := h.resolve_left halike
    rw [(eq_nil_of_not_alike halike).1, List.append_nil] at hne ⊢
    obtain ⟨htake, hdrop⟩ := takeWhile_append_of_dropWhile hne k.there.after
    exact ⟨htake, by rw [hdrop, List.head?_append_of_ne_nil _ hne]⟩

/-- A first line that ends within the stretch is the same in both sources, and so it is at the end
of the stretch where these go on alike. -/
theorem firstLine_twins (hle : (firstLine (text ++ k.here.after)).length ≤ text.length)
    (h : k.Alike ∨ (text ++ k.here.after).drop (firstLine (text ++ k.here.after)).length ≠ []) :
    firstLine (text ++ k.there.after) = firstLine (text ++ k.here.after) := by
  by_cases halike : k.Alike
  · exact firstLine_append_of_head halike.head_eq hle
  · have hne := h.resolve_left halike
    rw [(eq_nil_of_not_alike halike).1, List.append_nil] at hne ⊢
    exact firstLine_append hne k.there.after

/-- A token that ends within the stretch is read in both sources, but for a comment to the end of
its line, which may go on where the sources do not go on alike. -/
theorem read_twins {kind : Token} {token rest : List Char}
    (hr : read (text ++ k.here.after) = .token kind token rest) (hle : token.length ≤ text.length)
    (h : k.Alike ∨ rest ≠ [] ∨ kind ≠ .lineComment) :
    ∃ rest', read (text ++ k.there.after) = .token kind token rest' := by
  by_cases halike : k.Alike
  · exact ⟨_, (read_append_of_head halike.head_eq hr hle).2⟩
  · obtain ⟨hnil, hdetached⟩ := eq_nil_of_not_alike halike
    rw [hnil, List.append_nil] at hr
    exact ⟨_, read_append_of_detached hdetached hr (h.resolve_left halike)⟩

end Twins

namespace Cursor

variable {c d : Cursor} {k : Side}

/-- The place of a cursor in a source that the stretch is part of. -/
def amid (k : Side) (c : Cursor) : Cursor :=
  ⟨c.before ++ k.before, c.rest ++ k.after, c.offset + k.bytes, by simp [c.offset_eq, Side.bytes]⟩

@[simp] theorem rest_amid : (c.amid k).rest = c.rest ++ k.after := rfl

@[simp] theorem before_amid : (c.amid k).before = c.before ++ k.before := rfl

@[simp] theorem offset_amid : (c.amid k).offset = c.offset + k.bytes := rfl

/-- A place within the stretch is as many characters ahead in the source. -/
theorem amid_advance {n : Nat} (h : n ≤ c.rest.length) :
    (c.advance n).amid k = (c.amid k).advance n := by
  apply eq_of_before_rest
  · simp [List.take_append_of_le_length h]
  · simp [List.drop_append_of_le_length h]

/-- A cursor that is not beyond the end of the stretch has moved within it. -/
theorem le_of_advance_amid {n : Nat} (hn : n ≤ (c.amid k).rest.length)
    (h : k.after.length ≤ ((c.amid k).advance n).rest.length) : n ≤ c.rest.length := by
  simp only [rest_advance, rest_amid, List.length_drop, List.length_append] at hn h
  omega

/-- Different places of the stretch are different places of a source. -/
theorem amid_injective (h : c.amid k = d.amid k) : c = d :=
  eq_of_before_rest (List.append_cancel_right (congrArg before h))
    (List.append_cancel_right (congrArg rest h))

/-- Of two places of the stretch, the one that is ahead in a source is ahead in the stretch. -/
theorem reaches_of_amid (h : (c.amid k).Reaches (d.amid k)) : c.Reaches d := by
  obtain ⟨n, hn, hd⟩ := h.exists_advance
  have hlen := congrArg (·.rest.length) hd
  simp only [rest_amid, rest_advance, List.length_drop, List.length_append] at hlen hn
  rw [← amid_advance (by omega)] at hd
  exact ⟨n, amid_injective hd⟩

/-- The text between two places of the stretch is the same in the source. -/
theorem Reaches.textTo_amid (h : c.Reaches d) : (c.amid k).textTo (d.amid k) = c.textTo d := by
  obtain ⟨n, hn, rfl⟩ := h.exists_advance
  rw [amid_advance hn, textTo_advance, textTo_advance, rest_amid,
    List.take_append_of_le_length hn]

/-- A place of the stretch is found in the other source where it is. -/
theorem place_offset {k : Twins} : k.place (c.amid k.here).offset = (c.amid k.there).offset := by
  simp only [offset_amid, k.place_add]

/-- A stretch between two places is found in the other source where they are. -/
theorem spanTo_there {k : Twins} :
    ((c.amid k.here).spanTo (d.amid k.here)).relocate k.place =
      (c.amid k.there).spanTo (d.amid k.there) := by
  simp only [spanTo, Span.relocate, offset_amid, k.place_add, Span.mk.injEq, true_and]
  omega

/-- The same number of bytes from the cursor on, in both sources. -/
theorem span_there {k : Twins} (n : Nat) :
    ((c.amid k.here).span n).relocate k.place = (c.amid k.there).span n := by
  simp only [span, Span.relocate_ofLength, offset_amid, k.place_add]

/-- **An at sign introduces the same in both sources.** -/
theorem ofCursor_twins {k : Twins} (h : c.rest ≠ []) :
    Directive.ofCursor (c.amid k.there) = Directive.ofCursor (c.amid k.here) := by
  have hprevious : (c.amid k.there).previous?.any Directive.endsMailbox =
      (c.amid k.here).previous?.any Directive.endsMailbox := by
    simp only [previous?, before_amid]
    cases c.before with
    | nil => exact k.mailbox_eq
    | cons x before => rfl
  obtain ⟨x, rest, hr⟩ := List.exists_cons_of_ne_nil h
  rw [Directive.ofCursor, Directive.ofCursor, Directive.resolve_congr hprevious, rest_amid,
    rest_amid, hr]
  simp only [List.cons_append, List.tail_cons]
  cases rest with
  | nil =>
    obtain ⟨hhead, -⟩ | ⟨hnil, hdetached⟩ := k.goes_on
    · cases hafter : k.here.after with
      | nil =>
        rw [hafter] at hhead
        rw [List.head?_eq_none_iff.1 hhead]
      | cons d after =>
        rw [hafter] at hhead
        obtain ⟨after', hafter'⟩ := List.head?_eq_some_iff.1 hhead
        rw [hafter']
        obtain rfl | rfl := k.breaks d (by rw [hafter]; rfl) <;> rfl
    · rw [hnil]
      exact hdetached.resolve_eq _
  | cons d rest =>
    exact Directive.resolve_cons_congr ((k.bounded_there.takeName_append (d :: rest)).trans
      (k.bounded.takeName_append (d :: rest)).symm) _

end Cursor

/-! ## results -/

namespace Twins

variable {α β : Type} {k : Twins}

/-- The place is not behind the stretch. -/
def Holds (k : Twins) (c : Cursor) : Prop :=
  k.here.after.length ≤ c.rest.length

/-- Where the sources end with the stretch nothing is behind it. -/
theorem End.holds (h : k.End) (c : Cursor) : k.Holds c := by
  rw [Holds, h.1]
  exact Nat.zero_le _

/-- A result that lies within the stretch.  Only where both sources end with the stretch it may be
an error. -/
structure Kept (k : Twins) (within : α → Prop) (r : Except TemplateError α) : Prop where
  ok : ∀ a, r = .ok a → within a
  error : ∀ e, r = .error e → k.End

/-- The same result in both sources. -/
inductive Same (k : Twins) (here there : α → β) :
    Except TemplateError β → Except TemplateError β → Prop
  | ok (a : α) : Same k here there (.ok (here a)) (.ok (there a))
  | error (e : TemplateError) : Same k here there (.error e) (.error (e.relocate k.place))

/-- The same result is a place of the stretch, or an error that moves with it. -/
theorem Same.cases {here there : α → β} {r r' : Except TemplateError β}
    (h : k.Same here there r r') :
    (∃ a, r = .ok (here a) ∧ r' = .ok (there a)) ∨
      ∃ e, r = .error e ∧ r' = .error (e.relocate k.place) := by
  cases h with
  | ok a => exact .inl ⟨a, rfl, rfl⟩
  | error e => exact .inr ⟨e, rfl, rfl⟩

/-- What lies before the place of a result that is kept is not behind the stretch. -/
theorem Kept.holds {f : α → Cursor} {r : Except TemplateError α} {c : Cursor}
    (h : k.Kept (fun a => k.Holds (f a)) r) (hr : ∀ a, r = .ok a → c.Reaches (f a)) :
    k.Holds c := by
  cases r with
  | error e => exact (h.error e rfl).holds c
  | ok a => exact Nat.le_trans (h.ok a rfl) (hr a rfl).length_le

/-- A place that is found first is kept where the result that goes on from it is. -/
theorem Kept.of_continued {f : α → Cursor} {r : Except TemplateError Cursor}
    {r' : Except TemplateError α} (h : k.Kept (fun a => k.Holds (f a)) r')
    (herror : ∀ e, r = .error e → r' = .error e)
    (hok : ∀ c, r = .ok c → ∀ a, r' = .ok a → c.Reaches (f a)) : k.Kept k.Holds r where
  ok c hc := h.holds (hok c hc)
  error e he := h.error e (herror e he)

end Twins

/-! ## tokens and groups of code -/

namespace Code

variable {k : Twins} {c : Cursor} {kind : Token} {delimiter : Delimiter}

/-- The next token lies within the stretch, and ends there; none is left only where both sources
end with the stretch. -/
def HoldsNext (k : Twins) : Option (Token × Cursor) → Prop
  | none => k.End
  | some (kind, d) => k.Holds d ∧ (k.Alike ∨ d.rest ≠ [] ∨ kind ≠ .lineComment)

/-- The place that was looked for lies within the stretch; there is none only where both sources end
with the stretch. -/
def HoldsFound (k : Twins) : Option Cursor → Prop
  | none => k.End
  | some d => k.Holds d

/-- The next token in a source that the stretch is part of. -/
def nextAmid (s : Side) (r : Option (Token × Cursor)) : Option (Token × Cursor) :=
  r.map fun (kind, d) => (kind, d.amid s)

/-- A single character that is neither an at sign nor an angle bracket is not read behind the end
of the stretch. -/
theorem length_le_of_next {x : Char} {d : Cursor} (hx : single? x = some kind)
    (hat : x ≠ '@' ∧ x ≠ '<') (h : next (c.amid k.here) = .ok (some (kind, d))) : k.Holds d := by
  obtain ⟨text, rest, hr, rfl, -⟩ := next_eq_some h
  obtain ⟨rfl, htext⟩ := Reading.eq_of_read_single hx hr
  rw [Cursor.rest_amid] at htext
  cases hrest : c.rest with
  | nil =>
    rw [hrest, List.nil_append] at htext
    exact absurd (k.breaks x (by rw [htext]; rfl)) (by simp [hat])
  | cons y tail => simp [Twins.Holds, hrest]

/-- **The same token is read in both sources.** -/
theorem next_twins (h : k.Kept (HoldsNext k) (next (c.amid k.here))) :
    k.Same (nextAmid k.here) (nextAmid k.there) (next (c.amid k.here)) (next (c.amid k.there)) := by
  have hthere (hend : k.End) : (c.amid k.there).rest = (c.amid k.here).rest := by
    rw [Cursor.rest_amid, Cursor.rest_amid, hend.after_eq]
  cases hr : read (c.amid k.here).rest with
  | finished =>
    have hnext : next (c.amid k.here) = .ok none := by simp only [next, hr]
    rw [hnext, next, hthere (h.ok _ hnext), hr]
    exact .ok none
  | unclosed =>
    have hnext : next (c.amid k.here) = .error (.unclosed .quotation ((c.amid k.here).span 1)) := by
      simp only [next, hr]
    rw [hnext, next, hthere (h.error _ hnext), hr, ← Cursor.span_there]
    exact .error _
  | token kind text rest =>
    have hnext : next (c.amid k.here) = .ok (some (kind, (c.amid k.here).advance text.length)) := by
      simp only [next, hr]
    have hsplit := Reading.append_of_read hr
    have hlen : text.length ≤ (c.amid k.here).rest.length := by
      rw [← hsplit, List.length_append]
      exact Nat.le_add_right _ _
    obtain ⟨hholds, hends⟩ := h.ok _ hnext
    rw [Cursor.rest_advance, ← hsplit, List.drop_left] at hends
    have hle := Cursor.le_of_advance_amid hlen hholds
    obtain ⟨rest', hread⟩ := Twins.read_twins hr hle hends
    rw [hnext, next, Cursor.rest_amid, hread, ← Cursor.amid_advance hle]
    dsimp only
    rw [← Cursor.amid_advance hle]
    exact .ok (some (kind, c.advance text.length))

/-- A token that is read in the stretch leads ahead in it. -/
theorem length_lt_of_next {s : Side} {d : Cursor}
    (h : next (c.amid s) = .ok (some (kind, d.amid s))) : d.rest.length < c.rest.length := by
  have hlt := next_lt h
  simp only [Cursor.rest_amid, List.length_append] at hlt
  omega

/-- The next token is kept where it leads to what is kept: it is what was looked for, or it stands
before that. -/
theorem kept_next {r : Except TemplateError (Option Cursor)} (h : k.Kept (HoldsFound k) r)
    (herror : ∀ e, next (c.amid k.here) = .error e → r = .error e)
    (hnone : next (c.amid k.here) = .ok none → r = .ok none)
    (hsome : ∀ kind d, next (c.amid k.here) = .ok (some (kind, d)) →
      (k.Holds d ∧ kind ≠ .lineComment) ∨ ∀ e, r = .ok (some e) → d.Reaches e ∧ e.rest ≠ []) :
    k.Kept (HoldsNext k) (next (c.amid k.here)) where
  ok
    | none, hn => h.ok none (hnone hn)
    | some (kind, d), hn => by
      obtain ⟨hholds, hkind⟩ | hahead := hsome kind d hn
      · exact ⟨hholds, .inr (.inr hkind)⟩
      · have hend (hend : k.End) : HoldsNext k (some (kind, d)) :=
          ⟨hend.holds d, .inl hend.alike⟩
        match r, h, hahead with
        | .error e, h, _ => exact hend (h.error e rfl)
        | .ok none, h, _ => exact hend (h.ok none rfl)
        | .ok (some e), h, hahead =>
          obtain ⟨hreach, hne⟩ := hahead e rfl
          exact ⟨Nat.le_trans (h.ok (some e) rfl) hreach.length_le,
            .inr (.inl (hreach.rest_ne_nil hne))⟩
  error e hn := h.error e (herror e hn)

/-- A place that was looked for is kept where the search that found it is. -/
theorem kept_found {found : Except TemplateError (Option Cursor)} {r : Except TemplateError Cursor}
    (h : k.Kept k.Holds r) (herror : ∀ e, found = .error e → r = .error e)
    (hnone : found = .ok none → ∃ e, r = .error e)
    (hsome : ∀ d, found = .ok (some d) → r = .ok d) : k.Kept (HoldsFound k) found where
  ok
    | none, hf => by
      obtain ⟨e, he⟩ := hnone hf
      exact h.error e he
    | some d, hf => h.ok d (hsome d hf)
  error e he := h.error e (herror e he)

/-- The closing delimiter is the same in both sources, by induction on the text that is left. -/
theorem closing?_twins (depth : Nat)
    (h : k.Kept (HoldsFound k) (closing? delimiter depth (c.amid k.here))) :
    k.Same (Option.map (Cursor.amid k.here)) (Option.map (Cursor.amid k.there))
      (closing? delimiter depth (c.amid k.here)) (closing? delimiter depth (c.amid k.there)) := by
  have hchar : ∃ x, single? x = some delimiter.closing ∧ x ≠ '@' ∧ x ≠ '<' := by
    cases delimiter
    · exact ⟨')', by decide, by decide⟩
    · exact ⟨']', by decide, by decide⟩
    · exact ⟨'}', by decide, by decide⟩
  obtain ⟨x, hx, hat⟩ := hchar
  have hkind : delimiter.closing ≠ .lineComment := by cases delimiter <;> decide
  induction hlen : c.rest.length using Nat.strongRecOn generalizing c depth with
  | ind n ih =>
    subst hlen
    rw [closing?_eq] at h ⊢
    have hnext : k.Kept (HoldsNext k) (next (c.amid k.here)) := by
      refine kept_next h (fun e hn => by rw [hn]) (fun hn => by rw [hn]) fun kind d hn => ?_
      by_cases hclose : kind = delimiter.closing
      · subst hclose
        exact .inl ⟨length_le_of_next hx hat hn, hkind⟩
      · refine .inr fun e he => ?_
        simp only [hn, if_neg hclose] at he
        split at he <;>
          exact ⟨(reaches_of_closing? he).1, (reaches_of_closing? he).2.rest_ne_nil⟩
    rw [closing?_eq delimiter depth (c.amid k.there)]
    generalize hhere : next (c.amid k.here) = here at h hnext ⊢
    generalize hthere : next (c.amid k.there) = there
    have hsame := next_twins (k := k) (c := c) (by rw [hhere]; exact hnext)
    rw [hhere, hthere] at hsame
    cases hsame with
    | error e => exact .error e
    | ok r =>
      cases r with
      | none => exact .ok none
      | some r =>
        obtain ⟨kind, d⟩ := r
        have hlt := length_lt_of_next hhere
        simp only [nextAmid, Option.map_some] at h ⊢
        split
        · next hopen =>
          rw [if_pos hopen] at h
          exact ih _ hlt _ h rfl
        · next hopen =>
          rw [if_neg hopen] at h
          split
          · next hclose =>
            rw [if_pos hclose] at h
            cases depth with
            | zero => exact .ok (some c)
            | succ depth => exact ih _ hlt _ h rfl
          · next hclose =>
            rw [if_neg hclose] at h
            exact ih _ hlt _ h rfl

/-- **The end of a group is found at the same place in both sources.** -/
theorem findClosing_twins (hc : 0 < c.offset)
    (h : k.Kept k.Holds (findClosing delimiter (c.amid k.here))) :
    k.Same (Cursor.amid k.here) (Cursor.amid k.there) (findClosing delimiter (c.amid k.here))
      (findClosing delimiter (c.amid k.there)) := by
  unfold findClosing at h ⊢
  have hkept : k.Kept (HoldsFound k) (closing? delimiter 0 (c.amid k.here)) :=
    kept_found h (fun e he => by rw [he]) (fun hn => ⟨_, by rw [hn]⟩) fun d hd => by rw [hd]
  obtain ⟨r, hr, hr'⟩ | ⟨e, he, he'⟩ := (closing?_twins 0 hkept).cases
  · rw [hr, hr']
    cases r with
    | some d => exact .ok d
    | none =>
      obtain ⟨n, hn⟩ := Nat.exists_eq_succ_of_ne_zero (Nat.ne_of_gt hc)
      have hspan : (Span.mk ((c.amid k.here).offset - 1) (c.amid k.here).offset).relocate k.place =
          ⟨(c.amid k.there).offset - 1, (c.amid k.there).offset⟩ := by
        simp only [Span.relocate, Cursor.offset_amid, hn, Nat.succ_add, Nat.succ_sub_one,
          k.place_add, Span.mk.injEq, true_and]
        omega
      simp only [Option.map_none, ← hspan]
      exact .error (.unclosed delimiter.construct _)
  · rw [he, he']
    exact .error e

/-- The body of a clause begins at the same brace in both sources, by induction on the text that is
left. -/
theorem body?_twins (parens : Int)
    (h : k.Kept (HoldsFound k) (body? parens (c.amid k.here))) :
    k.Same (Option.map (Cursor.amid k.here)) (Option.map (Cursor.amid k.there))
      (body? parens (c.amid k.here)) (body? parens (c.amid k.there)) := by
  induction hlen : c.rest.length using Nat.strongRecOn generalizing c parens with
  | ind n ih =>
    subst hlen
    rw [body?_eq] at h ⊢
    have hnext : k.Kept (HoldsNext k) (next (c.amid k.here)) := by
      refine kept_next h (fun e hn => by rw [hn]) (fun hn => by rw [hn]) fun kind d hn => ?_
      by_cases hopen : kind = .braceOpen
      · subst hopen
        exact .inl ⟨length_le_of_next (x := '{') rfl (by decide) hn, by decide⟩
      · refine .inr fun e he => ?_
        have hahead {parens : Int} (he : body? parens d = .ok (some e)) :
            d.Reaches e ∧ e.rest ≠ [] :=
          ⟨(reaches_of_body? he).1, (reaches_of_body? he).2.rest_ne_nil⟩
        simp only [hn] at he
        split at he
        · exact hahead he
        · exact hahead he
        · exact absurd rfl hopen
        · exact hahead he
    rw [body?_eq parens (c.amid k.there)]
    generalize hhere : next (c.amid k.here) = here at h hnext ⊢
    generalize hthere : next (c.amid k.there) = there
    have hsame := next_twins (k := k) (c := c) (by rw [hhere]; exact hnext)
    rw [hhere, hthere] at hsame
    cases hsame with
    | error e => exact .error e
    | ok r =>
      cases r with
      | none => exact .ok none
      | some r =>
        obtain ⟨kind, d⟩ := r
        have hlt := length_lt_of_next hhere
        simp only [nextAmid, Option.map_some] at h ⊢
        split
        · exact ih _ hlt _ h rfl
        · exact ih _ hlt _ h rfl
        · next hbrace =>
          split
          · exact .ok (some c)
          · next hp =>
            simp only [if_neg hp] at h
            exact ih _ hlt _ h rfl
        · next hopen hclose hbrace =>
          cases kind with
          | parenOpen => exact absurd rfl hopen
          | parenClose => exact absurd rfl hclose
          | braceOpen => exact absurd rfl hbrace
          | _ => exact ih _ hlt _ h rfl

/-- **The body of a clause is found at the same place in both sources.** -/
theorem findBody_twins {keyword : Span} (h : k.Kept k.Holds (findBody keyword (c.amid k.here))) :
    k.Same (Cursor.amid k.here) (Cursor.amid k.there) (findBody keyword (c.amid k.here))
      (findBody (keyword.relocate k.place) (c.amid k.there)) := by
  unfold findBody at h ⊢
  have hkept : k.Kept (HoldsFound k) (body? 0 (c.amid k.here)) :=
    kept_found h (fun e he => by rw [he]) (fun hn => ⟨_, by rw [hn]⟩) fun d hd => by rw [hd]
  obtain ⟨r, hr, hr'⟩ | ⟨e, he, he'⟩ := (body?_twins 0 hkept).cases
  · rw [hr, hr']
    cases r with
    | some d => exact .ok d
    | none => exact .error (.unclosed .block keyword)
  · rw [he, he']
    exact .error e

end Code

/-! ## chains -/

namespace Scan

variable {k : Twins} {c : Cursor}

/-- With a bounded text no chain goes on. -/
theorem chainEnd_of_bounded {d : Cursor} (h : Bounded d.rest) : chainEnd d = .ok d := by
  refine chainEnd_of_endsChain (endsChain_of_head fun x hx hlink => ?_)
  have hseparator := h.head x hx
  simp only [List.mem_cons, List.not_mem_nil, or_false] at hlink
  obtain rfl | rfl | rfl := hlink <;> exact absurd hseparator (by decide +kernel)

/-- **The same chain is read in both sources.** -/
theorem chainEnd_twins (h : k.Kept k.Holds (chainEnd (c.amid k.here))) :
    k.Same (Cursor.amid k.here) (Cursor.amid k.there) (chainEnd (c.amid k.here))
      (chainEnd (c.amid k.there)) := by
  induction hlen : c.rest.length using Nat.strongRecOn generalizing c with
  | ind n ih =>
    subst hlen
    cases hr : c.rest with
    | nil =>
      have hrest (s : Side) : (c.amid s).rest = s.after := by simp [hr]
      rw [chainEnd_of_bounded (by rw [hrest]; exact k.bounded),
        chainEnd_of_bounded (by rw [hrest]; exact k.bounded_there)]
      exact .ok c
    | cons x rest =>
      have hone : 1 ≤ c.rest.length := by simp [hr]
      rw [chainEnd_eq, Cursor.rest_amid, hr] at h ⊢
      rw [chainEnd_eq (c.amid k.there), Cursor.rest_amid, hr]
      simp only [List.cons_append, k.bounded.takeName_append, k.bounded_there.takeName_append,
        ← Cursor.amid_advance hone] at h ⊢
      split
      · next hx =>
        rw [if_pos hx] at h
        split
        · exact .ok c
        · next hname =>
          have hlen : 1 + (takeName rest).length ≤ c.rest.length := by
            have := length_takeName_le rest
            simp [hr]
            omega
          rw [if_neg hname, ← Cursor.amid_advance hlen] at h
          rw [← Cursor.amid_advance hlen, ← Cursor.amid_advance hlen]
          refine ih _ ?_ h rfl
          rw [Cursor.rest_advance, List.length_drop]
          omega
      · next hx =>
        rw [if_neg hx] at h
        cases hlink : linkGroup? x with
        | none => exact .ok c
        | some kind =>
          simp only [hlink] at h
          have hgroup : k.Kept k.Holds (findClosing kind ((c.advance 1).amid k.here)) := by
            refine h.of_continued (f := id) (fun e he => by rw [he]) fun close hclose d hd => ?_
            rw [hclose] at hd
            exact (Cursor.reaches_advance 1 close).trans (reaches_of_chainEnd hd)
          have hne : c.rest ≠ [] := by simp [hr]
          obtain ⟨close, hc, hc'⟩ | ⟨e, he, he'⟩ :=
            (findClosing_twins (offset_advance_one_pos hne) hgroup).cases
          · rw [hc] at h
            obtain ⟨hreach, hstands⟩ := reaches_of_findClosing hc
            have hfits : 1 ≤ close.rest.length :=
              Cursor.le_of_advance_amid (List.length_pos_iff.2 hstands.rest_ne_nil)
                (h.holds (f := id) fun d hd => reaches_of_chainEnd hd)
            have hlt : (close.advance 1).rest.length < c.rest.length := by
              have hle := hreach.length_le
              simp only [Cursor.rest_amid, Cursor.rest_advance, List.length_append,
                List.length_drop] at hle ⊢
              omega
            simp only [hc, hc', ← Cursor.amid_advance hfits] at h ⊢
            exact ih _ hlt h rfl
          · simp only [he, he']
            exact .error e

end Scan

end AtTemplate
