import AtTemplate.Source.Span
import AtTemplate.Text.Bytes

/-!
# AtTemplate.Source.Cursor

A place between two characters of a source.  A cursor holds the text on either side of it, so
that no operation can leave the source or split a character, and it knows its byte offset.

* `source_advance` — moving changes no text;
* `textTo_advance` — the text between a cursor and a later one is what was moved over.
-/

namespace AtTemplate

open Text

/-- A place in a source: the text `before` it, nearest character first, the text after it
(`rest`), and the number of bytes before it. -/
structure Cursor where
  before : List Char
  rest : List Char
  offset : Nat
  offset_eq : offset = byteLength before
  deriving DecidableEq

namespace Cursor

/-- The place before the first character of a text. -/
def start (text : List Char) : Cursor :=
  ⟨[], text, 0, rfl⟩

/-- The whole text that the cursor stands in. -/
def source (c : Cursor) : List Char :=
  c.before.reverse ++ c.rest

/-- The character just before the cursor. -/
def previous? (c : Cursor) : Option Char :=
  c.before.head?

/-- The cursor `n` characters further on, or at the end of the text. -/
def advance : Nat → Cursor → Cursor
  | 0, c => c
  | _ + 1, ⟨before, [], offset, h⟩ => ⟨before, [], offset, h⟩
  | n + 1, ⟨before, x :: rest, offset, h⟩ =>
    advance n ⟨x :: before, rest, offset + x.utf8Size, by simp [h, Nat.add_comm]⟩

/-- Two cursors with the same text on either side are at the same offset. -/
theorem eq_of_before_rest {c d : Cursor} (hb : c.before = d.before) (hr : c.rest = d.rest) :
    c = d := by
  obtain ⟨_, _, _, hc⟩ := c
  obtain ⟨_, _, _, hd⟩ := d
  simp_all

@[simp] theorem rest_start (text : List Char) : (start text).rest = text := rfl

@[simp] theorem advance_zero (c : Cursor) : c.advance 0 = c := rfl

@[simp] theorem rest_advance (n : Nat) (c : Cursor) : (c.advance n).rest = c.rest.drop n := by
  fun_induction advance n c <;> simp_all

@[simp] theorem before_advance (n : Nat) (c : Cursor) :
    (c.advance n).before = (c.rest.take n).reverse ++ c.before := by
  fun_induction advance n c <;> simp_all

@[simp] theorem offset_advance (n : Nat) (c : Cursor) :
    (c.advance n).offset = c.offset + byteLength (c.rest.take n) := by
  rw [(c.advance n).offset_eq, before_advance, c.offset_eq]
  simp [Nat.add_comm]

/-- Moving changes no text. -/
@[simp] theorem source_advance (n : Nat) (c : Cursor) : (c.advance n).source = c.source := by
  simp [source]

theorem advance_advance (m n : Nat) (c : Cursor) :
    (c.advance m).advance n = c.advance (m + n) := by
  apply eq_of_before_rest
  · simp [List.take_add]
  · simp

/-! ## The cursors ahead -/

/-- The second cursor lies ahead of the first, or is the same. -/
def Reaches (c d : Cursor) : Prop :=
  ∃ n, d = c.advance n

theorem Reaches.refl (c : Cursor) : c.Reaches c :=
  ⟨0, rfl⟩

theorem Reaches.trans {c d e : Cursor} (h : c.Reaches d) (h' : d.Reaches e) : c.Reaches e := by
  obtain ⟨m, rfl⟩ := h
  obtain ⟨n, rfl⟩ := h'
  exact ⟨m + n, advance_advance m n c⟩

theorem reaches_advance (n : Nat) (c : Cursor) : c.Reaches (c.advance n) :=
  ⟨n, rfl⟩

/-- A cursor stays in its source. -/
theorem Reaches.source_eq {c d : Cursor} (h : c.Reaches d) : d.source = c.source := by
  obtain ⟨n, rfl⟩ := h
  simp

/-- A cursor that is ahead has no more text left. -/
theorem Reaches.length_le {c d : Cursor} (h : c.Reaches d) : d.rest.length ≤ c.rest.length := by
  obtain ⟨n, rfl⟩ := h
  simp

/-- A cursor ahead is some way ahead that does not lead beyond the end. -/
theorem Reaches.exists_advance {c d : Cursor} (h : c.Reaches d) :
    ∃ n ≤ c.rest.length, d = c.advance n := by
  obtain ⟨n, rfl⟩ := h
  refine ⟨min n c.rest.length, Nat.min_le_right _ _, eq_of_before_rest ?_ ?_⟩
  · simp [← List.take_eq_take_min]
  · simp [← List.drop_eq_drop_min]

/-- Where something stands ahead, something stands. -/
theorem Reaches.rest_ne_nil {c d : Cursor} (h : c.Reaches d) (hd : d.rest ≠ []) : c.rest ≠ [] := by
  have hle := h.length_le
  have hpos := List.length_pos_iff.2 hd
  exact List.length_pos_iff.1 (by omega)

/-! ## The text between two cursors -/

/-- Moves the characters of `before` that make up `bytes` bytes in front of `text`. -/
def backOver : List Char → Nat → List Char → List Char
  | [], _, text => text
  | x :: before, bytes, text =>
    if bytes = 0 then text else backOver before (bytes - x.utf8Size) (x :: text)

/-- The text from a cursor to a later one of the same source. -/
def textTo (c d : Cursor) : List Char :=
  backOver d.before (d.offset - c.offset) []

/-- The stretch from a cursor to a later one of the same source. -/
def spanTo (c d : Cursor) : Span :=
  ⟨c.offset, d.offset⟩

/-- The stretch of `n` bytes after a cursor. -/
def span (c : Cursor) (n : Nat) : Span :=
  Span.ofLength c.offset n

/-- Going back over a text puts it in front of what is left. -/
theorem backOver_append (s before text : List Char) :
    backOver (s ++ before) (byteLength s) text = s.reverse ++ text := by
  induction s generalizing text with
  | nil => cases before <;> simp [backOver]
  | cons x s ih =>
    have := x.utf8Size_pos
    rw [List.cons_append, backOver, if_neg (by simp; omega)]
    simp [ih]

/-- The text between a cursor and the place `n` characters further on is what was moved
over. -/
@[simp] theorem textTo_advance (n : Nat) (c : Cursor) : c.textTo (c.advance n) = c.rest.take n := by
  have h := backOver_append (c.rest.take n).reverse c.before []
  simpa [textTo] using h

@[simp] theorem textTo_self (c : Cursor) : c.textTo c = [] :=
  textTo_advance 0 c

/-- The text between two cursors and the text after the second make up the text after the
first. -/
theorem Reaches.textTo_append_rest {c d : Cursor} (h : c.Reaches d) :
    c.textTo d ++ d.rest = c.rest := by
  obtain ⟨n, rfl⟩ := h
  rw [textTo_advance, rest_advance, List.take_append_drop]

/-- The text between two cursors may be divided at a third one in between. -/
theorem Reaches.textTo_append {c d e : Cursor} (h : c.Reaches d) (h' : d.Reaches e) :
    c.textTo d ++ d.textTo e = c.textTo e := by
  obtain ⟨m, rfl⟩ := h
  obtain ⟨n, rfl⟩ := h'
  rw [textTo_advance, textTo_advance, advance_advance, textTo_advance, rest_advance, List.take_add]

/-- The cursor at a byte offset of a text, unless the offset lies inside a character or beyond
the end. -/
def ofOffset? (text : List Char) (offset : Nat) : Option Cursor :=
  let rec go : List Char → Cursor → Option Cursor
    | [], c => if c.offset = offset then some c else none
    | _ :: rest, c =>
      if c.offset = offset then some c
      else if offset < c.offset then none
      else go rest (c.advance 1)
  go text (start text)

end Cursor

end AtTemplate
