import AtTemplate.Scan.Measure

/-!
# AtTemplate.Scan

Dividing a template into segments: literal text, expressions and code.  The scan goes over
the source once, step by step, and never looks into the code further than it has to in order
to see where the code ends.
-/

namespace AtTemplate

namespace Scan

/-- Scans from a state to the end of the source, and writes behind `written`.  What is still
open at the end must not be. -/
def State.run (s : State) (written : Segments) : Except TemplateError Segments :=
  match _hs : s.rest with
  | [] =>
    match s.frames.findSome? Frame.unclosed? with
    | some e => .error e
    | none => .ok written
  | _ :: _ =>
    match _h : s.step with
    | .error e => .error e
    | .ok m => run m.state (written.addAll (m.written.map Piece.segment))
termination_by s.measure
decreasing_by exact State.measure_lt_of_step (by simp [_hs]) _h

end Scan

/-- The segments of a template. -/
def scan (source : String) : Except TemplateError (List Segment) :=
  match (Scan.State.start source.toList).run .empty with
  | .error e => .error e
  | .ok segments => .ok segments.toList

end AtTemplate
