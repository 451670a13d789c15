import AtTemplate.Directive.Basic
import AtTemplate.Scan.Clause
import AtTemplate.Scan.Expression
import AtTemplate.Text.Search

/-!
# AtTemplate.Scan.AtSign

What a scan does at an at sign.
-/

namespace AtTemplate.Scan

open Code Text

namespace State

/-- Leaves markup in which nothing is open, so that what follows belongs to the block around
it. -/
def yieldToCode (s : State) : State :=
  match s.frames with
  | .markup m :: below => if m.isSettled then s.within below else s
  | _ => s

@[simp] theorem cursor_yieldToCode (s : State) : s.yieldToCode.cursor = s.cursor := by
  unfold yieldToCode
  split
  · split <;> rfl
  · rfl

@[simp] theorem rest_yieldToCode (s : State) : s.yieldToCode.rest = s.rest := by
  simp only [rest, cursor_yieldToCode]

/-- Giving way to code leaves no frame that was not there before. -/
theorem mem_of_mem_yieldToCode {s : State} {frame : Frame} (h : frame ∈ s.yieldToCode.frames) :
    frame ∈ s.frames := by
  unfold yieldToCode at h
  split at h
  · next markup below hf =>
    have hf : s.frames = .markup markup :: below := hf
    split at h
    · rw [hf]
      exact List.mem_cons_of_mem _ h
    · exact h
  · exact h

/-- Whether the innermost frame is a block of code. -/
def inBlock (s : State) : Bool :=
  (s.stack.top?.map Frame.isBlock).getD false

/-- Whether the innermost frame is markup within code. -/
def inMarkup (s : State) : Bool :=
  (s.stack.top?.map Frame.isMarkup).getD false

/-- An at sign that introduces nothing: text, but code within code. -/
def plainSign (s : State) : Move :=
  ⟨[if s.inBlock then .sign else .text ['@']], s.skip 1⟩

/-- The rest of the line is text, its line break included. -/
def escapeLine (s : State) : Move :=
  let line := firstLine (s.rest.drop 2)
  ⟨[.text line], s.skip (2 + line.length)⟩

/-- A comment is left out, up to the first closing mark. -/
def passComment (s : State) : Outcome :=
  match before? ['*', '@'] (s.rest.drop 2) with
  | none => .error (.unclosed .comment (s.cursor.span 2))
  | some comment => .ok ⟨[], s.skip (2 + (comment.length + 2))⟩

/-- An expression in parentheses. -/
def explicitExpression (s : State) : Outcome :=
  let inside := s.cursor.advance 2
  match findClosing .paren inside with
  | .error e => .error e
  | .ok close =>
    .ok ⟨[.expression (inside.textTo close)], ⟨close.advance 1, s.stack⟩⟩

/-- An expression that begins with a name. -/
def implicitExpression (s : State) : Outcome :=
  let name := s.cursor.advance 1
  match chainEnd (name.advance (takeName name.rest).length) with
  | .error e => .error e
  | .ok stop => .ok ⟨[.expression (name.textTo stop)], ⟨stop, s.stack⟩⟩

/-- A block of code without a clause. -/
def openBlock (s : State) : Move :=
  ⟨[.brace], (s.skip 2).push (.block (.opened s.cursor.offset none))⟩

/-- Markup after an at sign, which opens a frame of its own only in code.  Outside of code the
sign is text. -/
def openMarkup (s : State) : Move :=
  if s.inBlock then ⟨[], (s.skip 1).push (.markup (.opened (s.cursor.offset + 1)))⟩
  else if s.inMarkup then ⟨[], s.skip 1⟩
  else ⟨[.text ['@']], s.skip 1⟩

/-- What an at sign introduces. -/
def atSign (s : State) : Outcome :=
  match Directive.ofCursor s.cursor with
  | .doubled => .ok ⟨[.text ['@']], s.skip 2⟩
  | .plain => .ok s.plainSign
  | .lineEscape => .ok s.escapeLine
  | .comment => s.passComment
  | .explicit => s.explicitExpression
  | .implicit => s.implicitExpression
  | .clause keyword => (s.yieldToCode.skip 1).openClause keyword
  | .anonymousBlock => .ok s.yieldToCode.openBlock
  | .closeBlock => s.closeInnermost
  | .markup => .ok s.yieldToCode.openMarkup

end State

end AtTemplate.Scan
