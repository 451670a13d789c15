import AtTemplate.Scan.Markup

/-!
# AtTemplate.Scan.Step

One step of a scan, by the frame that it stands in.  A step may stay where it is: code gives way
to markup before an angle bracket, and markup gives way to code before a closing brace.
-/

namespace AtTemplate.Scan

open Code Text
open AtTemplate.Markup

namespace State

/-- A step in the template's own text. -/
def stepText (s : State) : Outcome :=
  match s.rest with
  | [] => .ok (.stay s)
  | c :: _ =>
    if c = '@' then s.atSign else .ok (s.copy (s.rest.takeWhile (· ≠ '@')).length)

/-- A step in a block of code.  Markup is looked for outside of parentheses only, where an
angle bracket may compare numbers. -/
def stepBlock (recover : Recovery) (block : BlockFrame) (below : List Frame) (s : State) :
    Outcome :=
  match Code.read s.rest with
  | .finished => .ok (.stay s)
  | .unclosed => .error (.unclosed .quotation (s.cursor.span 1))
  | .token kind text _ =>
    if kind = .at then s.atSign
    else if kind = .angleOpen ∧ !block.balance.inParens ∧ startsMarkup s.rest then
      .ok ⟨[], s.push (.markup (.opened s.cursor.offset))⟩
    else
      let block := { block with balance := block.balance.feed kind }
      let next := (s.skip text.length).within (.block block :: below)
      let written := [.token kind text]
      if block.balance.isClosed then (next.closeBlock recover).precede written
      else .ok ⟨written, next⟩

/-- One step of a scan.  A construct that is read as a whole leaves no frame, so no step is for
the frames of these. -/
def stepWith (recover : Recovery) (s : State) : Outcome :=
  match s.frames with
  | [] => s.stepText
  | .block block :: below => s.stepBlock recover block below
  | .markup markup :: below => s.stepMarkup recover markup below
  | .tag _ span :: _ => s.stepTag recover span
  | .attributeValue _ _ :: _ => s.stepValue recover
  | .expression _ :: _ | .comment _ :: _ | .lineEscape _ :: _ =>
    recover (.ok (.stay s.dropFrame))

/-- One step of a scan, which goes on in silence where it does not find the frame it is for. -/
def step (s : State) : Outcome :=
  s.stepWith id

end State

end AtTemplate.Scan
