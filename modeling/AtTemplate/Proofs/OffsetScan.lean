import AtTemplate.Proofs.OffsetCode
import AtTemplate.Scan

/-!
# AtTemplate.Proofs.OffsetScan

The scan by byte offsets.  It holds an offset of the source where `State` holds a cursor, and cuts
out of the source what it writes.  Whatever could go wrong is checked: an offset is a boundary of
the source before every step, a slice has its ends in order and at boundaries, no length is taken
from a smaller one, and the open parentheses and braces are counted with 32 bits.
-/

namespace AtTemplate.Offsets

open Checked Code Text
open AtTemplate.Markup
open AtTemplate.Scan.State (stopsText stopsTag stopsValue)

/-- A byte offset of the source, what it lies in, and what is written so far. -/
structure Scanner where
  pos : Nat
  stack : FrameStack
  out : Segments

namespace Scanner

/-- Writes literal text. -/
def literal (text : List Char) (s : Scanner) : Scanner :=
  { s with out := s.out.add (.literal (String.ofList text)) }

/-- Writes an expression. -/
def expression (text : List Char) (s : Scanner) : Scanner :=
  { s with out := s.out.add (.expression (String.ofList text)) }

/-- Writes code. -/
def code (text : List Char) (s : Scanner) : Scanner :=
  { s with out := s.out.add (.code (String.ofList text)) }

/-- Goes to another offset. -/
def moveTo (pos : Nat) (s : Scanner) : Scanner :=
  { s with pos := pos }

/-- Goes into one more frame. -/
def push (frame : Frame) (s : Scanner) : Scanner :=
  { s with stack := s.stack.push frame }

/-- Goes into other frames. -/
def within (frames : List Frame) (s : Scanner) : Scanner :=
  { s with stack := ⟨frames⟩ }

/-- Leaves the innermost frame. -/
def dropFrame (s : Scanner) : Scanner :=
  { s with stack := s.stack.pop.2 }

/-- Changes the innermost frame if it is markup. -/
def mapMarkup (f : MarkupFrame → MarkupFrame) (s : Scanner) : Scanner :=
  match s.stack.frames with
  | .markup markup :: below => s.within (.markup (f markup) :: below)
  | _ => s

/-- Leaves markup in which nothing is open. -/
def yieldToCode (s : Scanner) : Scanner :=
  match s.stack.frames with
  | .markup markup :: below => if markup.isSettled then s.within below else s
  | _ => s

section

variable (source : List Char)

/-- Copies the next `length` bytes as text. -/
def copy (length : Nat) (s : Scanner) : Checked Scanner := do
  let text ← slice source s.pos (s.pos + length)
  pure ((s.literal text).moveTo (s.pos + length))

/-! ## at signs -/

/-- An at sign that introduces nothing. -/
def plainSign (s : Scanner) : Scanner :=
  match s.stack.frames with
  | .block _ :: _ => (s.code ['@']).moveTo (s.pos + 1)
  | _ => (s.literal ['@']).moveTo (s.pos + 1)

/-- The end of the line that begins at an offset with the text `rest`, its line break included. -/
def lineEnd (start : Nat) (rest : List Char) : Nat :=
  match offsetOf? (· == '\n') rest with
  | some i => start + i + 1
  | none => byteLength source

/-- The rest of the line is text. -/
def escapeLine (s : Scanner) : Checked Scanner := do
  let start := s.pos + 2
  let rest ← after source start
  let stop := lineEnd source start rest
  let text ← slice source start stop
  pure ((s.literal text).moveTo stop)

/-- A comment is left out. -/
def passComment (s : Scanner) : Checked Scanner := do
  let start := s.pos + 2
  let rest ← after source start
  match offsetOfText? ['*', '@'] rest with
  | some stop => pure (s.moveTo (start + stop + 2))
  | none => throw (.unclosed .comment ⟨s.pos, start⟩)

/-- An expression in parentheses. -/
def explicitExpression (s : Scanner) : Checked Scanner := do
  let start := s.pos + 2
  let close ← findClosing source .paren start
  let text ← slice source start close
  pure ((s.expression text).moveTo (close + 1))

/-- An expression that begins with a name. -/
def implicitExpression (s : Scanner) : Checked Scanner := do
  let start := s.pos + 1
  let rest ← after source start
  let stop ← chainEnd source (byteLength source + 1) (start + nameLength rest)
  let text ← slice source start stop
  pure ((s.expression text).moveTo stop)

/-- Copies the clause at an offset through the brace that opens its body, and enters its block. -/
def openClause (start : Nat) (keyword : Keyword) (s : Scanner) : Checked Scanner := do
  let span := Span.ofLength start (byteLength keyword.letters)
  let brace ← findBody source span.stop span
  let text ← slice source start (brace + 1)
  pure (((s.code text).push (.block (.opened start (some keyword)))).moveTo (brace + 1))

/-- A block of code without a clause. -/
def openBlock (s : Scanner) : Scanner :=
  ((s.code ['{']).push (.block (.opened s.pos none))).moveTo (s.pos + 2)

/-- Closes the innermost block with the braces that it lacks. -/
def closeInnermost (s : Scanner) : Checked Scanner :=
  match FrameStack.splitAtBlock? s.stack.frames with
  | none => pure ((s.literal ['@', '}']).moveTo (s.pos + 2))
  | some (above, block, below) =>
    match above.findSome? Frame.unclosed? with
    | some e => throw e
    | none =>
      let braces := List.replicate (max block.balance.braces 1).toNat '}'
      pure (((s.code braces).within below).moveTo (s.pos + 2))

/-- Markup after an at sign. -/
def openMarkup (s : Scanner) : Scanner :=
  match s.stack.frames with
  | .block _ :: _ => (s.push (.markup (.opened (s.pos + 1)))).moveTo (s.pos + 1)
  | .markup _ :: _ => s.moveTo (s.pos + 1)
  | _ => (s.literal ['@']).moveTo (s.pos + 1)

/-- What an at sign introduces. -/
def atSign (s : Scanner) : Checked Scanner := do
  let directive ← resolve source s.pos
  let s := if directive.opensBlock then s.yieldToCode else s
  match directive with
  | .doubled => pure ((s.literal ['@']).moveTo (s.pos + 2))
  | .plain => pure s.plainSign
  | .lineEscape => s.escapeLine source
  | .comment => s.passComment source
  | .explicit => s.explicitExpression source
  | .implicit => s.implicitExpression source
  | .clause keyword => s.openClause source (s.pos + 1) keyword
  | .anonymousBlock => pure s.openBlock
  | .closeBlock => s.closeInnermost
  | .markup => pure s.yieldToCode.openMarkup

/-- A step in the template's own text. -/
def stepText (s : Scanner) : Checked Scanner := do
  let rest ← after source s.pos
  match offsetOf? (· == '@') rest with
  | some 0 => s.atSign source
  | some offset => s.copy source offset
  | none => s.copy source (byteLength rest)

/-! ## blocks of code -/

/-- Goes on with the statement of a clause that has just been closed. -/
def continueClause (keyword : Keyword) (s : Scanner) : Checked Scanner := do
  let rest ← after source s.pos
  let wordStart ← minus (byteLength rest) (byteLength (trimStart rest))
  let trimmed ← after rest wordStart
  let wordEnd := wordStart + nameLength trimmed
  let word ← slice rest wordStart wordEnd
  match Keyword.ofLetters? word with
  | none => pure s
  | some next =>
    if keyword.continuedBy next then
      let head ← after rest wordEnd
      if next.headsClause head then
        let blanks ← upTo rest wordStart
        (s.code blanks).openClause source (s.pos + wordStart) next
      else pure s
    else pure s

/-- Closes the innermost frame, a block whose last brace has just been read. -/
def closeBlock (s : Scanner) : Checked Scanner :=
  match s.stack.frames with
  | .block block :: below =>
    match block.clause? with
    | some keyword => (s.within below).continueClause source keyword
    | none => pure (s.within below)
  | _ => pure s.dropFrame

/-- The balance after one more token. -/
def feed (balance : Balance) (kind : Token) : Checked Balance :=
  match kind with
  | .parenOpen => do pure { balance with parens := ← count (balance.parens + 1) }
  | .parenClose => do pure { balance with parens := ← count (balance.parens - 1) }
  | .braceOpen => do pure { balance with braces := ← count (balance.braces + 1) }
  | .braceClose => do pure { balance with braces := ← count (balance.braces - 1) }
  | _ => pure balance

/-- A token of code is copied, and closes its block if it was the last one. -/
def copyToken (kind : Token) (span : Span) (s : Scanner) : Checked Scanner := do
  let text ← slice source span.start span.stop
  let s := (s.code text).moveTo span.stop
  match s.stack.frames with
  | .block block :: below =>
    let balance ← feed block.balance kind
    let s := s.within (.block { block with balance := balance } :: below)
    if balance.isClosed then s.closeBlock source else pure s
  | _ => pure s

/-- Whether markup takes over from code before a token. -/
def markupBegins (kind : Token) (span : Span) (s : Scanner) : Checked Bool :=
  match s.stack.frames with
  | .block block :: _ =>
    if kind = .angleOpen ∧ !block.balance.inParens then do
      let rest ← after source span.start
      pure (startsMarkup rest)
    else pure false
  | _ => pure false

/-- A step in a block of code. -/
def stepBlock (s : Scanner) : Checked Scanner := do
  match ← next source s.pos with
  | none => pure (s.moveTo (byteLength source))
  | some (kind, span) =>
    if kind = .at then s.atSign source
    else if ← s.markupBegins source kind span then
      pure (s.push (.markup (.opened span.start)))
    else s.copyToken source kind span

/-! ## markup within code -/

/-- A comment of the markup is text as a whole. -/
def copyComment (s : Scanner) : Checked Scanner := do
  let start := s.pos + byteLength commentOpening
  let rest ← after source start
  match offsetOfText? commentClosing rest with
  | none => throw (.unclosed .comment ⟨s.pos, start⟩)
  | some stop =>
    let length ← minus (start + stop + byteLength commentClosing) s.pos
    s.copy source length

/-- Ends the innermost element of the markup. -/
def closeElement (name : String) (span : Span) (s : Scanner) : Checked Scanner :=
  match s.stack.frames with
  | .markup markup :: below =>
    match markup.elements.close name span with
    | (.error e, _) => throw e
    | (.ok _, elements) =>
      pure (s.within (.markup { markup with elements := elements } :: below))
  | _ => pure s

/-- A closing tag ends the innermost element. -/
def closingTag (name : List Char) (s : Scanner) : Checked Scanner := do
  let nameEnd := s.pos + 2 + byteLength name
  let rest ← after source nameEnd
  let trimmed := trimStart rest
  if trimmed.head? = some '>' then
    let start ← minus (byteLength source) (byteLength trimmed)
    let stop := start + 1
    let s ← s.closeElement (String.ofList name) ⟨s.pos, stop⟩
    let text ← slice source s.pos stop
    pure ((s.literal text).moveTo stop)
  else if trimmed = [] then throw (.unclosed .tag ⟨s.pos, nameEnd⟩)
  else
    throw (.malformedTag
      ("unexpected content in closing tag </" ++ String.ofList name ++ ">") ⟨s.pos, nameEnd⟩)

/-- An opening tag through its name; without a name the angle bracket is text. -/
def openingTag (rest : List Char) (s : Scanner) : Checked Scanner := do
  let behind ← after rest 1
  if tagNameLength behind = 0 then s.copy source 1
  else
    let stop := s.pos + 1 + tagNameLength behind
    let text ← slice source s.pos stop
    let name ← slice source (s.pos + 1) stop
    pure (((s.literal text).push (.tag (String.ofList name) ⟨s.pos, stop⟩)).moveTo stop)

/-- What an angle bracket begins in markup. -/
def angle (s : Scanner) : Checked Scanner := do
  let rest ← after source s.pos
  let inText : Bool :=
    match s.stack.frames with
    | .markup markup :: _ => markup.inText
    | _ => false
  if inText then
    if textClosing.isPrefixOf rest then
      pure ((s.mapMarkup ({ · with inText := false })).moveTo (s.pos + byteLength textClosing))
    else s.copy source 1
  else if textOpening.isPrefixOf rest then
    pure ((s.mapMarkup ({ · with inText := true })).moveTo (s.pos + byteLength textOpening))
  else if commentOpening.isPrefixOf rest then s.copyComment source
  else
    match rest with
    | '<' :: '/' :: behind =>
      if 0 < tagNameLength behind then
        let name ← upTo behind (tagNameLength behind)
        s.closingTag source name
      else s.openingTag source rest
    | _ => s.openingTag source rest

/-- The line break that ends the markup, with the indentation of the next line. -/
def endLine (rest : List Char) (s : Scanner) : Checked Scanner := do
  let nextLine ← after rest 1
  let trimmed := nextLine.dropWhile fun c => c == ' ' || c == '\t'
  let indent ← minus (byteLength nextLine) (byteLength trimmed)
  let s ← s.copy source (1 + indent)
  pure s.dropFrame

/-- A step in markup within code. -/
def stepMarkup (s : Scanner) : Checked Scanner := do
  let rest ← after source s.pos
  match offsetOf? stopsText rest with
  | none => s.copy source (byteLength rest)
  | some offset =>
    if 0 < offset then s.copy source offset
    else
      let settled : Bool :=
        match s.stack.frames with
        | .markup markup :: _ => markup.isSettled
        | _ => false
      match rest with
      | [] => fault
      | c :: _ =>
        if c = '@' then s.atSign source
        else if c = '<' then s.angle source
        else if c = '\n' ∧ settled then s.endLine source rest
        else if c = '}' ∧ settled then pure s.dropFrame
        else s.copy source 1

/-- Leaves an opening tag, whose element is open from then on unless it closed itself. -/
def endTag (selfClosing : Bool) (s : Scanner) : Scanner :=
  match s.stack.frames with
  | .tag name span :: _ =>
    s.dropFrame.mapMarkup fun markup =>
      if selfClosing then markup
      else { markup with elements := markup.elements.openElement name span }
  | _ => s.dropFrame

/-- A step in an opening tag after its name. -/
def stepTag (s : Scanner) : Checked Scanner := do
  let rest ← after source s.pos
  match offsetOf? stopsTag rest with
  | none =>
    match s.stack.frames with
    | .tag _ span :: _ => throw (.unclosed .tag span)
    | _ => throw (.unclosed .tag ⟨s.pos, s.pos⟩)
  | some offset =>
    if 0 < offset then s.copy source offset
    else
      match rest with
      | [] => fault
      | c :: behind =>
        if c = '@' then s.atSign source
        else if c = '"' ∨ c = '\'' then (s.push (.attributeValue c s.pos)).copy source 1
        else if c = '/' ∧ behind.head? = some '>' then do
          let s ← s.copy source 2
          pure (s.endTag true)
        else if c = '>' then do
          let s ← s.copy source 1
          pure (s.endTag false)
        else s.copy source 1

/-- A step in an attribute value. -/
def stepValue (s : Scanner) : Checked Scanner :=
  match s.stack.frames with
  | .attributeValue quote openedAt :: _ => do
    let rest ← after source s.pos
    match offsetOf? (stopsValue quote) rest with
    | none => throw (.unclosed .attributeValue (.ofLength openedAt 1))
    | some offset =>
      if 0 < offset then s.copy source offset
      else if rest.head? = some '@' then s.atSign source
      else do
        let s ← s.copy source 1
        pure s.dropFrame
  | _ => pure s.dropFrame

/-! ## the scan -/

/-- One step of a scan. -/
def step (s : Scanner) : Checked Scanner :=
  match s.stack.frames with
  | [] => s.stepText source
  | .block _ :: _ => s.stepBlock source
  | .markup _ :: _ => s.stepMarkup source
  | .tag _ _ :: _ => s.stepTag source
  | .attributeValue _ _ :: _ => s.stepValue source
  | .expression _ :: _ | .comment _ :: _ | .lineEscape _ :: _ => pure s.dropFrame

/-- What is still open at the end must not be. -/
def finish (s : Scanner) : Checked (List Segment) :=
  match s.stack.frames.findSome? Frame.unclosed? with
  | some e => throw e
  | none => pure s.out.toList

/-- Scans to the end of the source. -/
def run (rounds : Nat) (s : Scanner) : Checked (List Segment) :=
  match rounds with
  | 0 => fault
  | rounds + 1 =>
    guarded (IsBoundary source s.pos) do
      if s.pos < byteLength source then
        let s ← s.step source
        run rounds s
      else s.finish

end

end Scanner

/-- The segments of a template, in at most four steps for each byte and three more. -/
def scan (source : String) : Checked (List Segment) :=
  Scanner.run source.toList (4 * byteLength source.toList + 3) ⟨0, .empty, .empty⟩

end AtTemplate.Offsets
