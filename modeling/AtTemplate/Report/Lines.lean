/-!
# AtTemplate.Report.Lines

The lines of a source as a report numbers them.  A line ends with any of the line breaks of
Unicode; a carriage return and the line feed behind it are one break.  Places are counted in
characters.
-/

namespace AtTemplate.Report

/-- A line with the line break that ends it. -/
structure Line where
  /-- The number of characters before the line. -/
  offset : Nat
  text : List Char
  deriving DecidableEq, Repr

namespace Line

/-- The number of characters of the line, its break included. -/
def length (l : Line) : Nat :=
  l.text.length

/-- The place just behind the line. -/
def stop (l : Line) : Nat :=
  l.offset + l.length

/-- Whether a place lies in the line. -/
def contains (l : Line) (place : Nat) : Bool :=
  decide (l.offset ≤ place ∧ place < l.stop)

end Line

/-- A character that ends a line. -/
def isLineBreak (c : Char) : Bool :=
  decide (c.toNat ∈ [0x0A, 0x0B, 0x0C, 0x0D, 0x85, 0x2028, 0x2029])

/-- Divides a text into lines.  `current` is the line at hand, its last character first, and
begins at `offset`. -/
def splitFrom (offset : Nat) (current : List Char) : List Char → List Line
  | [] => if current.isEmpty then [] else [⟨offset, current.reverse⟩]
  | [c] => [⟨offset, (c :: current).reverse⟩]
  | c :: d :: text =>
    if c = '\r' ∧ d = '\n' then
      ⟨offset, (d :: c :: current).reverse⟩ :: splitFrom (offset + (current.length + 2)) [] text
    else if isLineBreak c then
      ⟨offset, (c :: current).reverse⟩ :: splitFrom (offset + (current.length + 1)) [] (d :: text)
    else splitFrom offset (c :: current) (d :: text)

/-- The lines of a text; a text without characters has none. -/
def splitLines (text : List Char) : List Line :=
  splitFrom 0 [] text

/-- The last line that begins at a place or before it, and the number of lines before that
one.  There is none for a place beyond the end. -/
def lineAt? (lines : List Line) (place : Nat) : Option (Line × Nat) :=
  match (lines.zipIdx.takeWhile (·.1.offset ≤ place)).getLast? with
  | none => none
  | some (line, index) => if place ≤ line.stop then some (line, index) else none

end AtTemplate.Report
