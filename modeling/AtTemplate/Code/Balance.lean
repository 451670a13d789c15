import AtTemplate.Code.Token

/-!
# AtTemplate.Code.Balance

How many parentheses and braces of a block of code are open.  Either count may fall below
zero, since code is not parsed.
-/

namespace AtTemplate.Code

/-- The parentheses and braces opened less those closed. -/
structure Balance where
  parens : Int
  braces : Int
  deriving DecidableEq, Repr

namespace Balance

/-- Nothing is open. -/
def empty : Balance :=
  ⟨0, 0⟩

/-- The balance of a block whose opening brace has just been read. -/
def block : Balance :=
  ⟨0, 1⟩

/-- The balance after one more token. -/
def feed (b : Balance) : Token → Balance
  | .parenOpen => { b with parens := b.parens + 1 }
  | .parenClose => { b with parens := b.parens - 1 }
  | .braceOpen => { b with braces := b.braces + 1 }
  | .braceClose => { b with braces := b.braces - 1 }
  | _ => b

/-- Whether a parenthesis is open. -/
def inParens (b : Balance) : Bool :=
  decide (0 < b.parens)

/-- Whether the brace that opened the block has been closed. -/
def isClosed (b : Balance) : Bool :=
  decide (b.braces ≤ 0)

end Balance

end AtTemplate.Code
