import AtTemplate.Code.Token
import AtTemplate.Segment

/-!
# AtTemplate.Scan.Piece

The pieces of a template as the steps of a scan write them.  A segment joins neighbouring
pieces of one kind; a piece still says what of the template it stands for.
-/

namespace AtTemplate.Scan

open Code

/-- What a step writes at once. -/
inductive Piece where
  /-- Literal text. -/
  | text (chars : List Char)
  /-- An expression. -/
  | expression (chars : List Char)
  /-- A token of a block of code. -/
  | token (kind : Token) (chars : List Char)
  /-- An at sign in a block of code that introduces nothing. -/
  | sign
  /-- The blanks between a block and the clause that continues its statement. -/
  | blanks (chars : List Char)
  /-- A clause, from its keyword through the brace that opens its body. -/
  | header (chars : List Char)
  /-- The brace that opens a block without a clause. -/
  | brace
  /-- The braces that close a block all at once. -/
  | closing (braces : Nat)
  deriving DecidableEq, Repr

namespace Piece

/-- The characters of a piece. -/
def chars : Piece → List Char
  | .text chars | .expression chars | .token _ chars | .blanks chars | .header chars => chars
  | .sign => ['@']
  | .brace => ['{']
  | .closing braces => List.replicate braces '}'

/-- The segment that a piece makes up on its own. -/
def segment (p : Piece) : Segment :=
  match p with
  | .text _ => .literal (String.ofList p.chars)
  | .expression _ => .expression (String.ofList p.chars)
  | _ => .code (String.ofList p.chars)

end Piece

end AtTemplate.Scan
