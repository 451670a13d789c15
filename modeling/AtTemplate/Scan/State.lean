import AtTemplate.Frame
import AtTemplate.Scan.Piece
import AtTemplate.Source.Cursor

/-!
# AtTemplate.Scan.State

Where a scan stands: a place of the source and the frames that it lies in.  A step of the
scan is a move to another such state, together with the pieces of the template that it writes.
-/

namespace AtTemplate.Scan

/-- A place of the source and what it lies in. -/
structure State where
  cursor : Cursor
  stack : FrameStack
  deriving DecidableEq

/-- What a step writes, and where it leaves the scan. -/
structure Move where
  written : List Piece
  state : State
  deriving DecidableEq

/-- A step leads on, or it finds the template at fault. -/
abbrev Outcome := Except TemplateError Move

/-- What becomes of a step that does not find the frame it is for.  Steps are defined for any
such rule; a scan goes on in silence, and never has to. -/
abbrev Recovery := Outcome → Outcome

namespace State

/-- The state before the first character of a text. -/
def start (text : List Char) : State :=
  ⟨.start text, .empty⟩

/-- The text that is still to be read. -/
def rest (s : State) : List Char :=
  s.cursor.rest

/-- The frames, innermost first. -/
def frames (s : State) : List Frame :=
  s.stack.frames

/-- The state `n` characters further on. -/
def skip (n : Nat) (s : State) : State :=
  { s with cursor := s.cursor.advance n }

/-- The state in one more frame. -/
def push (frame : Frame) (s : State) : State :=
  { s with stack := s.stack.push frame }

/-- The state in other frames. -/
def within (frames : List Frame) (s : State) : State :=
  { s with stack := ⟨frames⟩ }

/-- The state without the innermost frame. -/
def dropFrame (s : State) : State :=
  { s with stack := s.stack.pop.2 }

/-- Copies the next `n` characters as text. -/
def copy (n : Nat) (s : State) : Move :=
  ⟨[.text (s.rest.take n)], s.skip n⟩

@[simp] theorem frames_mk (cursor : Cursor) (frames : List Frame) :
    State.frames ⟨cursor, ⟨frames⟩⟩ = frames := rfl

@[simp] theorem cursor_skip (n : Nat) (s : State) : (s.skip n).cursor = s.cursor.advance n := rfl

@[simp] theorem cursor_push (frame : Frame) (s : State) : (s.push frame).cursor = s.cursor := rfl

@[simp] theorem cursor_within (frames : List Frame) (s : State) :
    (s.within frames).cursor = s.cursor := rfl

@[simp] theorem rest_skip (n : Nat) (s : State) : (s.skip n).rest = s.rest.drop n := by
  simp [skip, rest]

@[simp] theorem frames_skip (n : Nat) (s : State) : (s.skip n).frames = s.frames := rfl

@[simp] theorem rest_push (frame : Frame) (s : State) : (s.push frame).rest = s.rest := rfl

@[simp] theorem frames_push (frame : Frame) (s : State) :
    (s.push frame).frames = frame :: s.frames := rfl

@[simp] theorem rest_within (frames : List Frame) (s : State) :
    (s.within frames).rest = s.rest := rfl

@[simp] theorem frames_within (frames : List Frame) (s : State) :
    (s.within frames).frames = frames := rfl

@[simp] theorem state_copy (n : Nat) (s : State) : (s.copy n).state = s.skip n := rfl

end State

namespace Move

/-- The move that writes nothing and leads nowhere. -/
def stay (s : State) : Move :=
  ⟨[], s⟩

/-- The move that writes `pieces` first. -/
def precede (pieces : List Piece) (m : Move) : Move :=
  { m with written := pieces ++ m.written }

@[simp] theorem state_stay (s : State) : (stay s).state = s := rfl

@[simp] theorem state_precede (pieces : List Piece) (m : Move) :
    (m.precede pieces).state = m.state := rfl

end Move

/-- The outcome that writes `pieces` first. -/
def Outcome.precede (pieces : List Piece) : Outcome → Outcome
  | .error e => .error e
  | .ok m => .ok (m.precede pieces)

/-- Writing something first neither makes a step fail nor keeps it from failing. -/
theorem Outcome.precede_eq_ok_iff {pieces : List Piece} {o : Outcome} {m : Move} :
    o.precede pieces = .ok m ↔ ∃ m', o = .ok m' ∧ m = m'.precede pieces := by
  cases o <;> simp [Outcome.precede, eq_comm]

end AtTemplate.Scan
