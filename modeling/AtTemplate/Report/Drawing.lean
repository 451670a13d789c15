import AtTemplate.Report.Lines
import AtTemplate.Text.Blank
import AtTemplate.Text.Width

/-!
# AtTemplate.Report.Drawing

The drawing of a label below the lines of a source.  A label within one line underlines its
characters; one over several lines is drawn as a bracket from its first line to its last, and
the lines between are left out.
-/

namespace AtTemplate.Report

open Text

/-- A stretch of the source, in characters, and what is noted about it. -/
structure Label where
  start : Nat
  stop : Nat
  note : String
  deriving DecidableEq, Repr

/-- The place of the last character of a label; its only place if it has no character. -/
def Label.last (l : Label) : Nat :=
  max l.start (l.stop - 1)

/-! ## Characters in columns -/

/-- The columns from one tab stop to the next. -/
def tabWidth : Nat := 4

/-- The columns of the character at index `i` of a line.  A tab fills up to the next tab stop,
as if each character before it took one column. -/
def cellWidth (c : Char) (i : Nat) : Nat :=
  if c = '\t' then (i / tabWidth + 1) * tabWidth - i
  else if isBlank c then 1
  else columns c

/-- The columns of the first `n` characters of a line, blanks at its end left out; one column
for each character that the line lacks. -/
def cellWidths (text : List Char) (n : Nat) : List Nat :=
  let widths := (trimEnd text).zipIdx.map fun (c, i) => cellWidth c i
  (widths ++ List.replicate (n - widths.length) 1).take n

/-- A line as it is shown: blanks at its end are left out and all others become spaces. -/
def shownLine (text : List Char) : List Char :=
  (trimEnd text).zipIdx.flatMap fun (c, i) =>
    if isBlank c then List.replicate (cellWidth c i) ' ' else [c]

/-- A mark for one character of a line: what is drawn in its first column and in the others. -/
structure Mark where
  first : Char
  others : Char
  deriving DecidableEq, Repr

/-- The mark that is the same in every column. -/
def Mark.uniform (c : Char) : Mark :=
  ⟨c, c⟩

/-- Draws a mark for each character of a line, in the columns that the character takes. -/
def drawMarks (widths : List Nat) (mark : Nat → Mark) : List Char :=
  widths.zipIdx.flatMap fun (width, i) =>
    (List.replicate width (mark i).others).set 0 (mark i).first

/-! ## Rows -/

/-- The margin of a row that shows line number `number`, with numbers of `width` digits. -/
def numberedMargin (width number : Nat) : String :=
  let digits := toString number
  " " ++ String.ofList (List.replicate (width - digits.length) ' ') ++ digits ++ " │ "

/-- The margin of a row without a line of its own. -/
def plainMargin (width : Nat) (bar : String) : String :=
  String.ofList (List.replicate (width + 2) ' ') ++ bar ++ " "

/-- The rows of a label within one line. -/
def inlineRows (width : Nat) (line : Line) (number : Nat) (label : Label) : List String :=
  let widths := cellWidths line.text (label.stop - line.offset + 2)
  let arm := (label.start + label.stop) / 2 - line.offset
  let isUnder (i : Nat) : Bool := label.start ≤ line.offset + i ∧ line.offset + i < label.stop
  let underline (i : Nat) : Mark :=
    if i = arm then if isUnder i then ⟨'┬', '─'⟩ else ⟨'│', ' '⟩
    else if isUnder i then .uniform '─'
    else .uniform ' '
  let arrow (i : Nat) : Mark :=
    if i = arm then ⟨'╰', '─'⟩ else if arm < i then .uniform '─' else .uniform ' '
  [numberedMargin width number ++ String.ofList (shownLine line.text),
    plainMargin width "│" ++ String.ofList (drawMarks widths underline),
    plainMargin width "│" ++ String.ofList (drawMarks widths arrow) ++ " " ++ label.note]

/-- The row of the first line of a label over several lines. -/
def openingRow (width : Nat) (line : Line) (number : Nat) : String :=
  numberedMargin width number ++ "╭─▶ " ++ String.ofList (shownLine line.text)

/-- The rows of the last line of a label over several lines. -/
def closingRows (width : Nat) (line : Line) (number : Nat) (label : Label) : List String :=
  let widths := cellWidths line.text (line.length + 2)
  [numberedMargin width number ++ "├─▶ " ++ String.ofList (shownLine line.text),
    plainMargin width "│" ++ "│   " ++ String.ofList (drawMarks widths fun _ => .uniform ' '),
    plainMargin width "│" ++ "╰───" ++ String.ofList (drawMarks widths fun _ => .uniform '─')
      ++ " " ++ label.note]

/-- The row that stands for the lines between the first and the last one of a label. -/
def gapRow (width : Nat) : String :=
  plainMargin width "┆" ++ "┆   "

/-- The rows of a label that begins in line `first` and ends in line `last`; the lines are
given with the number of lines before each.  A label that reaches beyond the end of the source
has no place in its last line. -/
def labelRows (width : Nat) (first last : Line × Nat) (label : Label) : List String :=
  if first.2 = last.2 then
    if label.stop ≤ first.1.stop then inlineRows width first.1 (first.2 + 1) label
    else [plainMargin width "│"]
  else
    let isEnded := last.1.contains label.last
    let hasGap := first.2 + 1 < last.2 ∨ !isEnded
    openingRow width first.1 (first.2 + 1) :: (if hasGap then [gapRow width] else [])
      ++ (if isEnded then closingRows width last.1 (last.2 + 1) label else [])

/-- The framed rows for one label of a source.  There are none when the source has no line at
either end of the label. -/
def frameRows (filename : String) (source : List Char) (label : Label) : List String :=
  let lines := splitLines source
  match lineAt? lines label.start, lineAt? lines label.last with
  | some first, some last =>
    let width := (toString (last.2 + 1)).length
    let pad := String.ofList (List.replicate (width + 2) ' ')
    let column := label.start - first.1.offset + 1
    [pad ++ "╭─[" ++ filename ++ ":" ++ toString (first.2 + 1) ++ ":" ++ toString column ++ "]",
      pad ++ "│"]
      ++ labelRows width first last label
      ++ [String.ofList (List.replicate (width + 2) '─') ++ "╯"]
  | _, _ => []

end AtTemplate.Report
