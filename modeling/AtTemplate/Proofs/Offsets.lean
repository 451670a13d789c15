import AtTemplate.Error
import AtTemplate.Markup.TagName
import AtTemplate.Name
import AtTemplate.Proofs.Braces
import AtTemplate.Source.Cursor
import AtTemplate.Text.Blank
import AtTemplate.Text.Search
import Mathlib.Data.List.TakeWhile

/-!
# AtTemplate.Proofs.Offsets

A text that is cut at byte offsets.  A cursor cannot leave its text; an offset can: it may lie
beyond the end or inside a character, a length may be taken from a smaller one, and a number of
fixed width may be counted out of its range.  `Checked` is for programs that would break off in
such a case, and every operation here that can break off says so.

* `divide?_eq_some_iff` — where a text can be cut;
* `slice_eq_pure_iff` — what is cut out of a text between two offsets;
* `after_offset`, `slice_textTo` — a text can be cut at each of its cursors.
-/

namespace AtTemplate

open Text

/-- What a program with checked operations comes to: a result or an error of the template, or
nothing at all when an operation is not defined for what it is given, or when a loop goes on for
more rounds than it may. -/
abbrev Checked (α : Type) := ExceptT TemplateError Option α

namespace Checked

variable {α : Type}

/-- The operation is not defined. -/
def fault : Checked α :=
  ExceptT.mk none

/-- The operation is defined, and comes to this. -/
def of (r : Except TemplateError α) : Checked α :=
  ExceptT.mk (some r)

@[simp] theorem of_ok (a : α) : of (.ok a) = pure a := rfl

theorem pure_injective {a b : α} (h : (pure a : Checked α) = pure b) : a = b :=
  Except.ok.inj (Option.some.inj h)

theorem fault_ne_pure (a : α) : (fault : Checked α) ≠ pure a := by
  intro h
  cases h

/-- Goes on only where the condition holds. -/
def guarded (p : Prop) [Decidable p] (c : Checked α) : Checked α :=
  if p then c else fault

theorem guarded_of {p : Prop} [Decidable p] (h : p) (c : Checked α) : guarded p c = c :=
  if_pos h

end Checked

namespace Offsets

open Checked

variable {text s t u : List Char} {i j n : Nat}

/-! ## cutting a text -/

/-- The text before a byte offset and the text after it; none if the offset lies beyond the end or
inside a character. -/
def divide? : List Char → Nat → Option (List Char × List Char)
  | text, 0 => some ([], text)
  | [], _ + 1 => none
  | c :: text, n + 1 =>
    if c.utf8Size ≤ n + 1 then
      (divide? text (n + 1 - c.utf8Size)).map fun (s, t) => (c :: s, t)
    else none

/-- A text is divided at the length of its first part. -/
theorem divide?_append (s t : List Char) : divide? (s ++ t) (byteLength s) = some (s, t) := by
  induction s with
  | nil => simp [divide?]
  | cons c s ih =>
    obtain ⟨n, hn⟩ := exists_byteLength_cons c s
    have hle : c.utf8Size ≤ n + 1 := by rw [← hn, byteLength_cons]; exact Nat.le_add_right _ _
    have hrest : n + 1 - c.utf8Size = byteLength s := by
      rw [← hn, byteLength_cons, Nat.add_sub_cancel_left]
    rw [List.cons_append, hn, divide?, if_pos hle, hrest, ih]
    rfl

/-- A text can be cut at the offsets at which one of its characters begins, and at its end. -/
theorem divide?_eq_some_iff : divide? text i = some (s, t) ↔ text = s ++ t ∧ byteLength s = i := by
  constructor
  · intro h
    fun_induction divide? text i generalizing s with
    | case1 text => cases h; exact ⟨rfl, rfl⟩
    | case2 => cases h
    | case3 c text n hle ih =>
      obtain ⟨⟨s', t'⟩, hd, he⟩ := Option.map_eq_some_iff.1 h
      cases he
      obtain ⟨rfl, hn⟩ := ih hd
      exact ⟨rfl, by rw [byteLength_cons, hn]; omega⟩
    | case4 => cases h
  · rintro ⟨rfl, rfl⟩
    exact divide?_append s t

/-- Whether a text can be cut at a byte offset. -/
def IsBoundary (text : List Char) (i : Nat) : Prop :=
  (divide? text i).isSome

instance (text : List Char) (i : Nat) : Decidable (IsBoundary text i) :=
  inferInstanceAs (Decidable (_ = true))

/-- The boundaries of a text are the lengths of its beginnings. -/
theorem isBoundary_iff : IsBoundary text i ↔ ∃ s t, text = s ++ t ∧ byteLength s = i := by
  unfold IsBoundary
  rw [Option.isSome_iff_exists]
  constructor
  · rintro ⟨⟨s, t⟩, h⟩
    exact ⟨s, t, divide?_eq_some_iff.1 h⟩
  · rintro ⟨s, t, h⟩
    exact ⟨(s, t), divide?_eq_some_iff.2 h⟩

/-- These are the offsets that strings of the standard library take for valid. -/
theorem isBoundary_toList_iff {source : String} :
    IsBoundary source.toList i ↔ String.Pos.Raw.IsValid source ⟨i⟩ := by
  rw [String.Pos.Raw.isValid_iff_exists_append, isBoundary_iff]
  constructor
  · rintro ⟨s, t, h, rfl⟩
    refine ⟨String.ofList s, String.ofList t, ?_, ?_⟩
    · rw [← String.ofList_append, ← h, String.ofList_toList]
    · rw [String.Pos.Raw.ext_iff, String.byteIdx_rawEndPos, utf8ByteSize_ofList]
  · rintro ⟨s, t, rfl, h⟩
    refine ⟨s.toList, t.toList, String.toList_append, ?_⟩
    rw [byteLength_toList, ← String.byteIdx_rawEndPos, ← h]

/-- No boundary lies beyond the end of the text. -/
theorem IsBoundary.le (h : IsBoundary text i) : i ≤ byteLength text := by
  obtain ⟨s, t, rfl, rfl⟩ := isBoundary_iff.1 h
  rw [byteLength_append]
  exact Nat.le_add_right _ _

/-- The text after an offset. -/
def after (text : List Char) (i : Nat) : Checked (List Char) :=
  match divide? text i with
  | some (_, t) => pure t
  | none => fault

/-- The text before an offset. -/
def upTo (text : List Char) (j : Nat) : Checked (List Char) :=
  match divide? text j with
  | some (s, _) => pure s
  | none => fault

/-- The text between two offsets, in this order. -/
def slice (text : List Char) (i j : Nat) : Checked (List Char) :=
  guarded (i ≤ j) do upTo (← after text i) (j - i)

/-- Behind its first part a text is its second part. -/
theorem after_append (s t : List Char) : after (s ++ t) (byteLength s) = pure t := by
  rw [after, divide?_append]

/-- Up to its second part a text is its first part. -/
theorem upTo_append (s t : List Char) : upTo (s ++ t) (byteLength s) = pure s := by
  rw [upTo, divide?_append]

/-- Between its outer parts a text is its inner one. -/
theorem slice_append (s u t : List Char) :
    slice (s ++ u ++ t) (byteLength s) (byteLength (s ++ u)) = pure u := by
  have hlen : byteLength (s ++ u) - byteLength s = byteLength u := by simp
  rw [slice, guarded_of (by simp), List.append_assoc, after_append, pure_bind, hlen, upTo_append]

/-- What stands behind an offset is what a beginning of that length leaves. -/
theorem after_eq_pure_iff : after text i = pure t ↔ ∃ s, text = s ++ t ∧ byteLength s = i := by
  constructor
  · intro h
    unfold after at h
    split at h
    · next s t' hd =>
      obtain rfl := pure_injective h
      exact ⟨s, divide?_eq_some_iff.1 hd⟩
    · exact absurd h (fault_ne_pure t)
  · rintro ⟨s, rfl, rfl⟩
    exact after_append s t

/-- **A slice is defined between boundaries only**, the first not behind the second, and is then
the text between them. -/
theorem slice_eq_pure_iff : slice text i j = pure u ↔
    ∃ s t, text = s ++ u ++ t ∧ byteLength s = i ∧ byteLength (s ++ u) = j := by
  constructor
  · intro h
    unfold slice guarded at h
    split at h
    · next hij =>
      unfold after at h
      split at h
      · next s rest hd =>
        obtain ⟨rfl, rfl⟩ := divide?_eq_some_iff.1 hd
        rw [pure_bind] at h
        unfold upTo at h
        split at h
        · next u' t hd' =>
          obtain ⟨rfl, hu⟩ := divide?_eq_some_iff.1 hd'
          obtain rfl := pure_injective h
          exact ⟨s, t, (List.append_assoc s u' t).symm, rfl, by rw [byteLength_append]; omega⟩
        · exact absurd h (fault_ne_pure u)
      · exact absurd h (fault_ne_pure u)
    · exact absurd h (fault_ne_pure u)
  · rintro ⟨s, t, rfl, rfl, rfl⟩
    exact slice_append s u t

/-! ## numbers -/

/-- The difference of two offsets; there is none below zero. -/
def minus (a b : Nat) : Checked Nat :=
  guarded (b ≤ a) (pure (a - b))

/-- A number of 32 bits with a sign: at least minus two to the power of 31, and less than two to
the power of 31. -/
def count (n : Int) : Checked Int :=
  guarded (-2147483648 ≤ n ∧ n ≤ 2147483647) (pure n)

/-- The length of a text without the text that it ends with. -/
theorem minus_append (s t : List Char) :
    minus (byteLength (s ++ t)) (byteLength t) = pure (byteLength s) := by
  rw [minus, guarded_of (by simp)]
  simp

/-- A count that fits 32 bits is kept. -/
theorem count_eq {k : Int} (h : k.natAbs ≤ Code.Balance.maxCount) : count k = pure k := by
  unfold Code.Balance.maxCount at h
  rw [count, guarded_of (by omega)]

/-! ## looking for a place -/

/-- The offset of the first character of a class. -/
def offsetOf? (p : Char → Bool) (text : List Char) : Option Nat :=
  if text.any p then some (byteLength (text.takeWhile (!p ·))) else none

/-- The offset of the first occurrence of a mark. -/
def offsetOfText? (mark text : List Char) : Option Nat :=
  (before? mark text).map byteLength

/-- The length of the name that a text begins with. -/
def nameLength (text : List Char) : Nat :=
  match text with
  | [] => 0
  | c :: _ =>
    if isNameStart c then (offsetOf? (!isNameChar ·) text).getD (byteLength text) else 0

/-- The length of the name of an element that a text begins with. -/
def tagNameLength (text : List Char) : Nat :=
  match text with
  | [] => 0
  | c :: rest =>
    if c.isAlpha then
      ((offsetOf? (!Markup.isTagNameChar ·) rest).map (c.utf8Size + ·)).getD (byteLength text)
    else 0

/-- The first character of a class is found behind those that are not of it. -/
theorem offsetOf?_append {p : Char → Bool} {c : Char} (hs : ∀ d ∈ s, p d = false)
    (hc : p c = true) : offsetOf? p (s ++ c :: t) = some (byteLength s) := by
  have hall : ∀ d ∈ s, (!p d) = true := by simpa using hs
  rw [offsetOf?, if_pos (by simp [hc]), List.takeWhile_append_of_pos hall]
  simp [hc]

/-- No offset is found where no character is looked for. -/
theorem offsetOf?_eq_none {p : Char → Bool} (h : ∀ c ∈ text, p c = false) :
    offsetOf? p text = none := by
  rw [offsetOf?, if_neg]
  simpa using h

/-- Either no character is of a class, or the first one is found behind those that are not. -/
theorem offsetOf?_cases (p : Char → Bool) (text : List Char) :
    (∀ c ∈ text, p c = false) ∧ offsetOf? p text = none ∨
      ∃ s c t, text = s ++ c :: t ∧ (∀ d ∈ s, p d = false) ∧ p c = true ∧
        offsetOf? p text = some (byteLength s) := by
  induction text with
  | nil => exact .inl ⟨List.forall_mem_nil _, rfl⟩
  | cons c text ih =>
    cases hc : p c with
    | true => exact .inr ⟨[], c, text, rfl, List.forall_mem_nil _, hc, offsetOf?_append
        (List.forall_mem_nil _) hc⟩
    | false =>
      obtain ⟨hall, -⟩ | ⟨s, d, t, rfl, hall, hd, -⟩ := ih
      · have hall : ∀ d ∈ c :: text, p d = false := List.forall_mem_cons.2 ⟨hc, hall⟩
        exact .inl ⟨hall, offsetOf?_eq_none hall⟩
      · have hall : ∀ d ∈ c :: s, p d = false := List.forall_mem_cons.2 ⟨hc, hall⟩
        exact .inr ⟨c :: s, d, t, rfl, hall, hd, offsetOf?_append hall hd⟩

/-- Up to the first character of a class, or to the end, go those that are of another one. -/
theorem getD_offsetOf? (p : Char → Bool) (text : List Char) :
    (offsetOf? (!p ·) text).getD (byteLength text) = byteLength (text.takeWhile p) := by
  unfold offsetOf?
  split
  · simp
  · next h =>
    have hall : ∀ c ∈ text, p c := by simpa using h
    rw [Option.getD_none, List.takeWhile_eq_self_iff.2 hall]

/-- The length of a name is that of its characters. -/
theorem nameLength_eq (text : List Char) : nameLength text = byteLength (takeName text) := by
  cases text with
  | nil => rfl
  | cons c text =>
    simp only [nameLength, takeName]
    split
    · next hc => rw [getD_offsetOf?, List.takeWhile_cons_of_pos (isNameChar_of_isNameStart hc)]
    · rfl

/-- The length of a tag name is counted in bytes. -/
theorem tagNameLength_eq (text : List Char) :
    tagNameLength text = byteLength (Markup.takeTagName text) := by
  cases text with
  | nil => rfl
  | cons c text =>
    simp only [tagNameLength, Markup.takeTagName]
    split
    · rw [byteLength_cons, byteLength_cons, ← getD_offsetOf?]
      cases offsetOf? (!Markup.isTagNameChar ·) text <;> rfl
    · rfl

end Offsets

/-! ## cursors -/

namespace Cursor

open Checked Offsets

variable {c d : Cursor} {source : List Char} {n : Nat}

/-- A text can be cut at each of its cursors. -/
theorem isBoundary_offset (h : c.source = source) : IsBoundary source c.offset := by
  rw [isBoundary_iff]
  exact ⟨c.before.reverse, c.rest, h.symm, by rw [byteLength_reverse, c.offset_eq]⟩

/-- What stands behind the offset of a cursor is what it has left. -/
theorem after_offset (h : c.source = source) : after source c.offset = pure c.rest := by
  rw [after_eq_pure_iff]
  exact ⟨c.before.reverse, h.symm, by rw [byteLength_reverse, c.offset_eq]⟩

/-- What stands before the offset of a cursor is what it has passed. -/
theorem upTo_offset (h : c.source = source) :
    upTo source c.offset = pure c.before.reverse := by
  rw [← h, c.offset_eq, ← byteLength_reverse, Cursor.source, upTo_append]

/-- What the text after a cursor takes of the source is what its offset leaves. -/
theorem byteLength_rest (h : c.source = source) :
    byteLength source = c.offset + byteLength c.rest := by
  rw [← h, Cursor.source, byteLength_append, byteLength_reverse, c.offset_eq]

/-- The offset of a cursor is what the source is longer than what is left. -/
theorem minus_rest (h : c.source = source) :
    minus (byteLength source) (byteLength c.rest) = pure c.offset := by
  rw [minus, byteLength_rest h, guarded_of (Nat.le_add_left _ _), Nat.add_sub_cancel]

/-- The text between two cursors is the slice between their offsets. -/
theorem slice_textTo (h : c.source = source) (hd : c.Reaches d) :
    slice source c.offset d.offset = pure (c.textTo d) := by
  rw [slice_eq_pure_iff]
  refine ⟨c.before.reverse, d.rest, ?_, by rw [byteLength_reverse, c.offset_eq], ?_⟩
  · rw [List.append_assoc, hd.textTo_append_rest, ← h, Cursor.source]
  · obtain ⟨n, rfl⟩ := hd
    rw [byteLength_append, byteLength_reverse, ← c.offset_eq, textTo_advance, offset_advance]

/-- Behind a text that stands at a cursor lies the cursor at its end. -/
theorem offset_advance_of_prefix {s : List Char} (h : s <+: c.rest) :
    (c.advance s.length).offset = c.offset + byteLength s := by
  rw [offset_advance, ← List.prefix_iff_eq_take.1 h]

/-- A character of one byte is one byte long. -/
theorem offset_advance_one {x : Char} {rest : List Char} (h : c.rest = x :: rest)
    (hx : x.utf8Size = 1) : (c.advance 1).offset = c.offset + 1 := by
  rw [offset_advance, h]
  simp [hx]

/-- Two characters of one byte are two bytes long. -/
theorem offset_advance_two {x y : Char} {rest : List Char} (h : c.rest = x :: y :: rest)
    (hx : x.utf8Size = 1) (hy : y.utf8Size = 1) : (c.advance 2).offset = c.offset + 2 := by
  rw [offset_advance, h]
  simp [hx, hy]

end Cursor

end AtTemplate
