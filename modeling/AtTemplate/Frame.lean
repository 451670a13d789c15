import AtTemplate.Code.Balance
import AtTemplate.Directive.Keyword
import AtTemplate.Markup.Element

/-!
# AtTemplate.Frame

What a place of a template lies in.  Markup in code in markup, to any depth, is described by
a stack of frames, innermost first.  The template's own text lies under every stack; it is no
frame, so it is never removed and never on top of one.
-/

namespace AtTemplate

open Code Markup

/-- How a place of a template is read. -/
inductive Mode where
  | markup
  | block
  | expression
  | attributeValue
  | comment
  | lineEscape
  deriving DecidableEq, Repr

/-- A block of code. -/
structure BlockFrame where
  openedAt : Nat
  balance : Balance
  /-- The keyword of its clause; none for a block of its own. -/
  clause? : Option Keyword
  deriving DecidableEq, Repr

/-- Markup within a block of code. -/
structure MarkupFrame where
  openedAt : Nat
  elements : OpenElements
  /-- Whether a text element is open, within which tags are plain text. -/
  inText : Bool
  deriving DecidableEq, Repr

/-- The block of code that has just been opened. -/
def BlockFrame.opened (openedAt : Nat) (clause? : Option Keyword) : BlockFrame :=
  ⟨openedAt, .block, clause?⟩

/-- The markup that has just been opened. -/
def MarkupFrame.opened (openedAt : Nat) : MarkupFrame :=
  ⟨openedAt, .empty, false⟩

/-- Whether nothing is open in the markup, so that code may go on. -/
def MarkupFrame.isSettled (m : MarkupFrame) : Bool :=
  m.elements.isEmpty && !m.inText

/-- What a place of a template lies in. -/
inductive Frame where
  | block (block : BlockFrame)
  | markup (markup : MarkupFrame)
  /-- An opening tag after its name. -/
  | tag (name : String) (span : Span)
  | attributeValue (quote : Char) (openedAt : Nat)
  | expression (openedAt : Nat)
  | comment (openedAt : Nat)
  | lineEscape (openedAt : Nat)
  deriving DecidableEq, Repr

namespace Frame

/-- How a place in a frame is read. -/
def mode : Frame → Mode
  | .block _ => .block
  | .markup _ => .markup
  | .tag _ _ => .markup
  | .attributeValue _ _ => .attributeValue
  | .expression _ => .expression
  | .comment _ => .comment
  | .lineEscape _ => .lineEscape

/-- Whether the frame is a block of code. -/
def isBlock : Frame → Bool
  | .block _ => true
  | _ => false

/-- Whether the frame is markup within code. -/
def isMarkup : Frame → Bool
  | .markup _ => true
  | _ => false

/-- Whether the frame is of a construct that is read as a whole. -/
def isWhole : Frame → Bool
  | .expression _ | .comment _ | .lineEscape _ => true
  | _ => false

/-- What is reported when the template ends within the frame; none if it may end there. -/
def unclosed? : Frame → Option TemplateError
  | .block b => some (.unclosed .block (.ofLength b.openedAt 1))
  | .markup m =>
    match m.elements.innermost? with
    | some e => some (.unclosed .tag e.span)
    | none => if m.inText then some (.unclosed .tag (.ofLength m.openedAt 1)) else none
  | .tag _ span => some (.unclosed .tag span)
  | .attributeValue _ openedAt => some (.unclosed .attributeValue (.ofLength openedAt 1))
  | .expression openedAt => some (.unclosed .parenthesis (.ofLength openedAt 1))
  | .comment openedAt => some (.unclosed .comment (.ofLength openedAt 2))
  | .lineEscape _ => none

end Frame

/-- The frames that a place lies in, innermost first. -/
structure FrameStack where
  frames : List Frame
  deriving DecidableEq, Repr

namespace FrameStack

/-- The stack of the template's own text. -/
def empty : FrameStack :=
  ⟨[]⟩

/-- Enters a frame. -/
def push (s : FrameStack) (frame : Frame) : FrameStack :=
  ⟨frame :: s.frames⟩

/-- Leaves the innermost frame; the template's own text is never left. -/
def pop (s : FrameStack) : Option Frame × FrameStack :=
  match s.frames with
  | [] => (none, s)
  | frame :: frames => (some frame, ⟨frames⟩)

/-- The innermost frame; none in the template's own text. -/
def top? (s : FrameStack) : Option Frame :=
  s.frames.head?

/-- How the innermost place is read. -/
def topMode (s : FrameStack) : Mode :=
  (s.top?.map Frame.mode).getD .markup

/-- The number of frames, and one for the template's own text. -/
def depth (s : FrameStack) : Nat :=
  s.frames.length + 1

/-- Whether the stack is that of the template's own text. -/
def isSettled (s : FrameStack) : Bool :=
  s.frames.isEmpty

/-- How the places around are read, from the innermost outwards. -/
def modesInnermostFirst (s : FrameStack) : List Mode :=
  s.frames.map Frame.mode ++ [.markup]

/-- How the places around are read, from the outermost inwards. -/
def modes (s : FrameStack) : List Mode :=
  s.modesInnermostFirst.reverse

/-- The innermost block of code, the frames above it and those below it. -/
def splitAtBlock? : List Frame → Option (List Frame × BlockFrame × List Frame)
  | [] => none
  | .block b :: frames => some ([], b, frames)
  | frame :: frames =>
    (splitAtBlock? frames).map fun (above, b, below) => (frame :: above, b, below)

/-- The level of the innermost block of code, counted from the template's own text. -/
def innermostBlock? (s : FrameStack) : Option Nat :=
  (splitAtBlock? s.frames).map fun (_, _, below) => below.length + 1

/-- The innermost block divides the stack, and no frame above it is a block. -/
theorem splitAtBlock?_eq_some {frames above below : List Frame} {b : BlockFrame}
    (h : splitAtBlock? frames = some (above, b, below)) :
    frames = above ++ .block b :: below ∧ ∀ f ∈ above, f.isBlock = false := by
  induction frames generalizing above with
  | nil => simp [splitAtBlock?] at h
  | cons frame frames ih =>
    cases frame <;> grind [splitAtBlock?, Frame.isBlock, Option.map_eq_some_iff]

/-- The first block under frames that are none divides the stack. -/
theorem splitAtBlock?_append_block {above : List Frame} (h : ∀ f ∈ above, f.isBlock = false)
    (b : BlockFrame) (below : List Frame) :
    splitAtBlock? (above ++ .block b :: below) = some (above, b, below) := by
  induction above with
  | nil => rfl
  | cons frame above ih =>
    have hframe := h frame List.mem_cons_self
    have habove := ih fun f hf => h f (List.mem_cons_of_mem _ hf)
    cases frame with
    | block => cases hframe
    | _ => simp [splitAtBlock?, habove]

/-- The innermost block divides the frames alike, whatever they lie in. -/
theorem splitAtBlock?_append {frames above below : List Frame} {b : BlockFrame}
    (outer : List Frame) (h : splitAtBlock? frames = some (above, b, below)) :
    splitAtBlock? (frames ++ outer) = some (above, b, below ++ outer) := by
  induction frames generalizing above with
  | nil => cases h
  | cons frame frames ih =>
    cases frame with
    | block c =>
      cases h
      rfl
    | _ =>
      obtain ⟨⟨above', b', below'⟩, hf, he⟩ := Option.map_eq_some_iff.1 h
      cases he
      simp only [List.cons_append, splitAtBlock?, ih hf, Option.map_some]

/-- A stack without an innermost block has no block. -/
theorem splitAtBlock?_eq_none_iff {frames : List Frame} :
    splitAtBlock? frames = none ↔ ∀ f ∈ frames, f.isBlock = false := by
  induction frames with
  | nil => simp [splitAtBlock?]
  | cons frame frames ih => cases frame <;> simp [splitAtBlock?, Frame.isBlock, ih]

end FrameStack

end AtTemplate
