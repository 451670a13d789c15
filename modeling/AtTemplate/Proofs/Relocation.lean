import AtTemplate.Frame

/-!
# AtTemplate.Proofs.Relocation

Frames and errors of a scan that are found elsewhere in another source.  A stretch moves with its
first byte; no other part of a frame or an error depends on the place where it lies.

* `OpenElements.close_relocate` — a closing tag ends the same element wherever the tags lie;
* `splitAtBlock?_relocate` — the innermost block is the same wherever the frames lie;
* `findSome?_unclosed?_relocate` — what is left open is reported where it has moved to;
* `TemplateError.shift` — the errors of a text that stands further on in a source.
-/

namespace AtTemplate

open Markup

/-- The stretch moved to where its first byte is. -/
def Span.relocate (place : Nat → Nat) (s : Span) : Span :=
  ⟨place s.start, s.stop + place s.start - s.start⟩

variable {place : Nat → Nat}

/-- A stretch is relocated by its beginning and keeps its length. -/
@[simp] theorem Span.relocate_ofLength (start n : Nat) :
    (Span.ofLength start n).relocate place = .ofLength (place start) n := by
  simp only [relocate, ofLength, Span.mk.injEq, true_and]
  omega

/-- A stretch whose first byte stays where it is does not move. -/
theorem Span.relocate_eq_self {s : Span} (h : place s.start = s.start) : s.relocate place = s := by
  rw [relocate, h, Nat.add_sub_cancel]

/-- The error with its stretch moved. -/
def TemplateError.relocate (place : Nat → Nat) : TemplateError → TemplateError
  | .unclosed construct span => .unclosed construct (span.relocate place)
  | .strayClosingTag expected found span => .strayClosingTag expected found (span.relocate place)
  | .malformedTag detail span => .malformedTag detail (span.relocate place)
  | .invalidBindingName name => .invalidBindingName name

/-- The element with its tag moved. -/
def Markup.Element.relocate (place : Nat → Nat) (e : Element) : Element :=
  { e with span := e.span.relocate place }

/-- The open elements with their tags moved. -/
def Markup.OpenElements.relocate (place : Nat → Nat) (o : OpenElements) : OpenElements :=
  ⟨o.elements.map (Element.relocate place)⟩

/-- A closing tag ends the same element wherever the tags lie. -/
theorem Markup.OpenElements.close_relocate (o : OpenElements) (name : String) (span : Span) :
    (o.relocate place).close name (span.relocate place) =
      match o.close name span with
      | (.error e, elements) => (.error (e.relocate place), elements.relocate place)
      | (.ok e, elements) => (.ok (e.relocate place), elements.relocate place) := by
  obtain ⟨elements⟩ := o
  cases elements with
  | nil => rfl
  | cons e elements =>
    by_cases he : e.name = name <;>
      simp [relocate, close, Element.relocate, TemplateError.relocate, he]

/-- The block with its opening moved. -/
def BlockFrame.relocate (place : Nat → Nat) (b : BlockFrame) : BlockFrame :=
  { b with openedAt := place b.openedAt }

@[simp] theorem BlockFrame.balance_relocate (b : BlockFrame) :
    (b.relocate place).balance = b.balance := rfl

/-- The markup with its opening and its tags moved. -/
def MarkupFrame.relocate (place : Nat → Nat) (m : MarkupFrame) : MarkupFrame :=
  { m with openedAt := place m.openedAt, elements := m.elements.relocate place }

@[simp] theorem MarkupFrame.isSettled_relocate (m : MarkupFrame) :
    (m.relocate place).isSettled = m.isSettled := by
  simp [relocate, isSettled, OpenElements.relocate, OpenElements.isEmpty]

namespace Frame

/-- The frame with all that it remembers moved. -/
def relocate (place : Nat → Nat) : Frame → Frame
  | .block b => .block (b.relocate place)
  | .markup m => .markup (m.relocate place)
  | .tag name span => .tag name (span.relocate place)
  | .attributeValue quote openedAt => .attributeValue quote (place openedAt)
  | .expression openedAt => .expression (place openedAt)
  | .comment openedAt => .comment (place openedAt)
  | .lineEscape openedAt => .lineEscape (place openedAt)

variable {frame : Frame}

@[simp] theorem relocate_block (b : BlockFrame) :
    (block b).relocate place = .block (b.relocate place) := rfl

@[simp] theorem relocate_markup (m : MarkupFrame) :
    (markup m).relocate place = .markup (m.relocate place) := rfl

@[simp] theorem relocate_tag (name : String) (span : Span) :
    (tag name span).relocate place = .tag name (span.relocate place) := rfl

@[simp] theorem isBlock_relocate : (frame.relocate place).isBlock = frame.isBlock := by
  cases frame <;> rfl

@[simp] theorem isMarkup_relocate : (frame.relocate place).isMarkup = frame.isMarkup := by
  cases frame <;> rfl

/-- What a frame reports when it is left open moves with it. -/
theorem unclosed?_relocate :
    (frame.relocate place).unclosed? = frame.unclosed?.map (TemplateError.relocate place) := by
  cases frame with
  | markup m =>
    obtain ⟨openedAt, ⟨elements⟩, inText⟩ := m
    cases elements with
    | nil =>
      cases inText <;> simp [relocate, unclosed?, MarkupFrame.relocate, OpenElements.innermost?,
        OpenElements.relocate, TemplateError.relocate]
    | cons e elements => rfl
  | block | attributeValue | expression | comment =>
    simp [relocate, unclosed?, BlockFrame.relocate, TemplateError.relocate]
  | tag | lineEscape => rfl

end Frame

/-- The innermost frame that may not be left open is the same wherever the frames lie. -/
theorem findSome?_unclosed?_relocate (frames : List Frame) :
    (frames.map (Frame.relocate place)).findSome? Frame.unclosed? =
      (frames.findSome? Frame.unclosed?).map (TemplateError.relocate place) := by
  induction frames with
  | nil => rfl
  | cons frame frames ih =>
    rw [List.map_cons, List.findSome?_cons, List.findSome?_cons, Frame.unclosed?_relocate, ih]
    cases frame.unclosed? <;> rfl

/-- The innermost block divides the frames alike wherever they lie. -/
theorem FrameStack.splitAtBlock?_relocate (frames : List Frame) :
    splitAtBlock? (frames.map (Frame.relocate place)) =
      (splitAtBlock? frames).map fun (above, b, below) =>
        (above.map (Frame.relocate place), b.relocate place, below.map (Frame.relocate place)) := by
  induction frames with
  | nil => rfl
  | cons frame frames ih =>
    cases frame with
    | block b => rfl
    | _ =>
      simp only [List.map_cons, Frame.relocate, splitAtBlock?, ih, Option.map_map]
      rfl

/-! ## errors -/

namespace TemplateError

variable {e : TemplateError} {span : Span} {n : Nat}

/-- The error moved `n` bytes to the right. -/
def shift (n : Nat) : TemplateError → TemplateError
  | .unclosed construct span => .unclosed construct (span.shift n)
  | .strayClosingTag expected found span => .strayClosingTag expected found (span.shift n)
  | .malformedTag detail span => .malformedTag detail (span.shift n)
  | .invalidBindingName name => .invalidBindingName name

/-- To move an error to the right is to relocate it. -/
theorem shift_eq_relocate (n : Nat) (e : TemplateError) : e.shift n = e.relocate (· + n) := by
  have hspan (s : Span) : s.shift n = s.relocate (· + n) := by
    simp only [Span.shift, Span.relocate, Span.mk.injEq, true_and]
    omega
  cases e <;> simp only [shift, relocate, hspan]

/-- An error whose stretch does not move stays the same. -/
theorem relocate_eq_self (h : e.span? = some span) (hp : place span.start = span.start) :
    e.relocate place = e := by
  cases e <;> cases h <;> simp [relocate, Span.relocate_eq_self hp]

/-- An error whose stretch begins behind the first `n` bytes is one that moved by as many. -/
theorem exists_shift (h : e.span? = some span) (hn : n ≤ span.start)
    (hle : span.start ≤ span.stop) : ∃ e', e = TemplateError.shift n e' := by
  have hspan : (Span.mk (span.start - n) (span.stop - n)).shift n = span := by
    rw [Span.shift, Nat.sub_add_cancel hn, Nat.sub_add_cancel (Nat.le_trans hn hle)]
  cases e with
  | unclosed construct => cases h; exact ⟨.unclosed construct _, congrArg _ hspan.symm⟩
  | strayClosingTag expected found =>
    cases h
    exact ⟨.strayClosingTag expected found _, congrArg _ hspan.symm⟩
  | malformedTag detail => cases h; exact ⟨.malformedTag detail _, congrArg _ hspan.symm⟩
  | invalidBindingName => cases h

/-- Where places move from behind `n` bytes to behind `n'` bytes, so do errors. -/
theorem relocate_shift {n' : Nat} (h : ∀ m, place (m + n) = m + n') :
    (e.shift n).relocate place = e.shift n' := by
  have hspan (s : Span) : (s.shift n).relocate place = s.shift n' := by
    simp only [Span.shift, Span.relocate, h, Span.mk.injEq, true_and]
    omega
  cases e <;> simp [relocate, shift, hspan]

end TemplateError

end AtTemplate
