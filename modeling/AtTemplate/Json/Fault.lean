import AtTemplate.Text.Quoted

/-!
# AtTemplate.Json.Fault

What is wrong with a text that is not JSON, where, and the words for it.
-/

namespace AtTemplate.Json

open Text

/-- What is wrong with a JSON text. -/
inductive Fault where
  | endInValue
  | endInArray
  | endInObject
  | noColon
  | noArrayEnd
  | noObjectEnd
  | badWord
  | noValue
  | badNumber
  | numberTooGreat
  | noName
  | trailingComma
  | trailingText
  | tooDeep
  | quoted (fault : Quoted.Fault)
  deriving DecidableEq, Repr

/-- A fault, and the place where it was found: `past` bytes behind the start of `rest`. -/
structure Failure where
  fault : Fault
  rest : List Char
  past : Nat
  deriving DecidableEq, Repr

/-- A fault in a quoted text as a fault of the JSON text around it. -/
def Failure.ofQuoted (f : Quoted.Failure) : Failure :=
  ⟨.quoted f.fault, f.rest, f.past⟩

/-- The fault in words. -/
def Fault.message : Fault → String
  | .endInValue => "EOF while parsing a value"
  | .endInArray => "EOF while parsing a list"
  | .endInObject => "EOF while parsing an object"
  | .noColon => "expected `:`"
  | .noArrayEnd => "expected `,` or `]`"
  | .noObjectEnd => r"expected `,` or `}`"
  | .badWord => "expected ident"
  | .noValue => "expected value"
  | .badNumber => "invalid number"
  | .numberTooGreat => "number out of range"
  | .noName => "key must be a string"
  | .trailingComma => "trailing comma"
  | .trailingText => "trailing characters"
  | .tooDeep => "recursion limit exceeded"
  | .quoted .endOfText => "EOF while parsing a string"
  | .quoted .control =>
    "control character (\\u0000-\\u001F) found while parsing a string"
  | .quoted .badEscape => "invalid escape"
  | .quoted .loneSurrogate => "lone leading surrogate in hex escape"
  | .quoted .brokenPair => "unexpected end of hex escape"

/-- The line of a byte offset, and the bytes between the start of that line and the offset.
`offset` is the offset of the text at hand, in line `line`, which begins at `start`. -/
def positionFrom (place line start offset : Nat) : List Char → Nat × Nat
  | [] => (line, place - start)
  | c :: text =>
    if place ≤ offset then (line, place - start)
    else if c = '\n' then positionFrom place (line + 1) (offset + 1) (offset + 1) text
    else positionFrom place line start (offset + c.utf8Size) text

/-- A failure to read a text, in words. -/
def Failure.message (f : Failure) (source : List Char) : String :=
  let total := byteLength source
  let place := min total (total - byteLength f.rest + f.past)
  let (line, column) := positionFrom place 1 0 0 source
  f.fault.message ++ " at line " ++ toString line ++ " column " ++ toString column

end AtTemplate.Json
