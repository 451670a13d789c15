import AtTemplate.Markup.TagName
import AtTemplate.Scan.AtSign

/-!
# AtTemplate.Scan.Markup

The steps of a scan in markup within code: text, tags, attribute values and comments of the
markup.  Markup in which nothing is open ends with its line, or before a closing brace.
-/

namespace AtTemplate.Scan

open Code Text
open AtTemplate.Markup

namespace State

/-! ## Text and tags -/

/-- A character at which text within code needs a closer look. -/
def stopsText (c : Char) : Bool :=
  c == '@' || c == '<' || c == '\n' || c == '}'

/-- The number of characters before the first one that needs a closer look. -/
def plainLength (stops : Char → Bool) (text : List Char) : Nat :=
  (text.takeWhile (!stops ·)).length

theorem plainLength_le (stops : Char → Bool) (text : List Char) :
    plainLength stops text ≤ text.length :=
  (List.takeWhile_prefix _).length_le

/-- Behind a run of plain text stands the first character that is not. -/
theorem drop_plainLength (stops : Char → Bool) (text : List Char) :
    text.drop (plainLength stops text) = text.dropWhile (!stops ·) := by
  have h := congrArg (List.drop (plainLength stops text))
    (List.takeWhile_append_dropWhile (p := (!stops ·)) (l := text))
  rw [plainLength, List.drop_left] at h
  exact h.symm

/-- A character at which an opening tag needs a closer look. -/
def stopsTag (c : Char) : Bool :=
  c == '>' || c == '"' || c == '\'' || c == '@' || c == '/'

/-- The line break that ends the markup, with the indentation of the next line. -/
def endLine (below : List Frame) (s : State) : Move :=
  let indent := s.rest.tail.takeWhile fun c => c == ' ' || c == '\t'
  ⟨[.text (s.rest.take (1 + indent.length))], (s.skip (1 + indent.length)).within below⟩

/-- A comment of the markup is text as a whole. -/
def copyComment (s : State) : Outcome :=
  match before? commentClosing (s.rest.drop commentOpening.length) with
  | none => .error (.unclosed .comment (s.cursor.span commentOpening.length))
  | some comment =>
    .ok (s.copy (commentOpening.length + (comment.length + commentClosing.length)))

/-- A closing tag ends the innermost element.  Nothing but blanks may follow its name. -/
def closingTag (recover : Recovery) (name : List Char) (s : State) : Outcome :=
  let nameEnd := s.cursor.advance (2 + name.length)
  let blanks := leadingBlanks nameEnd.rest
  match trimStart nameEnd.rest with
  | [] => .error (.unclosed .tag (s.cursor.spanTo nameEnd))
  | '>' :: _ =>
    let tagEnd := nameEnd.advance (blanks.length + 1)
    let written := [.text (s.cursor.textTo tagEnd)]
    match s.frames with
    | .markup markup :: below =>
      match markup.elements.close (String.ofList name) (s.cursor.spanTo tagEnd) with
      | (.error e, _) => .error e
      | (.ok _, elements) =>
        .ok ⟨written, ⟨tagEnd, ⟨.markup { markup with elements := elements } :: below⟩⟩⟩
    | _ => recover (.ok ⟨written, ⟨tagEnd, s.stack⟩⟩)
  | _ =>
    .error (.malformedTag
      ("unexpected content in closing tag </" ++ String.ofList name ++ ">")
      (s.cursor.spanTo nameEnd))

/-- A closing tag is refused for a character behind its name that does not end it. -/
theorem closingTag_of_ne {recover : Recovery} {name rest : List Char} {c : Char} {s : State}
    (hs : trimStart (s.cursor.advance (2 + name.length)).rest = c :: rest) (hc : c ≠ '>') :
    s.closingTag recover name = .error (.malformedTag
      ("unexpected content in closing tag </" ++ String.ofList name ++ ">")
      (s.cursor.spanTo (s.cursor.advance (2 + name.length)))) := by
  simp only [closingTag, hs]
  split
  · next heq => cases heq
  · next heq => exact absurd (List.cons.inj heq).1 hc
  · rfl

/-- An opening tag through its name. -/
def openingTag (name : List Char) (s : State) : Move :=
  let nameEnd := s.cursor.advance (1 + name.length)
  ⟨[.text (s.rest.take (1 + name.length))],
    ⟨nameEnd, s.stack.push (.tag (String.ofList name) (s.cursor.spanTo nameEnd))⟩⟩

/-- What an angle bracket begins in markup. -/
def angle (recover : Recovery) (markup : MarkupFrame) (below : List Frame) (s : State) :
    Outcome :=
  if markup.inText then
    if textClosing.isPrefixOf s.rest then
      let markup := { markup with inText := false }
      .ok ⟨[], (s.skip textClosing.length).within (.markup markup :: below)⟩
    else .ok (s.copy 1)
  else if textOpening.isPrefixOf s.rest then
    .ok ⟨[], (s.skip textOpening.length).within (.markup { markup with inText := true } :: below)⟩
  else if commentOpening.isPrefixOf s.rest then s.copyComment
  else if closingName s.rest ≠ [] then s.closingTag recover (closingName s.rest)
  else if openingName s.rest ≠ [] then .ok (s.openingTag (openingName s.rest))
  else .ok (s.copy 1)

/-- A step in markup within code. -/
def stepMarkup (recover : Recovery) (markup : MarkupFrame) (below : List Frame) (s : State) :
    Outcome :=
  match s.rest with
  | [] => .ok (.stay s)
  | c :: _ =>
    if !stopsText c then .ok (s.copy (plainLength stopsText s.rest))
    else if c = '@' then s.atSign
    else if c = '<' then s.angle recover markup below
    else if !markup.isSettled then .ok (s.copy 1)
    else if c = '\n' then .ok (s.endLine below)
    else .ok ⟨[], s.within below⟩

/-- Leaves an opening tag.  Its element is open from then on unless it closed itself. -/
def endTag (recover : Recovery) (selfClosing : Bool) (m : Move) : Outcome :=
  match m.state.frames with
  | .tag name span :: .markup markup :: outer =>
    let elements :=
      if selfClosing then markup.elements else markup.elements.openElement name span
    .ok { m with state := m.state.within (.markup { markup with elements := elements } :: outer) }
  | _ => recover (.ok { m with state := m.state.dropFrame })

/-- A step in an opening tag after its name. -/
def stepTag (recover : Recovery) (span : Span) (s : State) : Outcome :=
  match s.rest.dropWhile (!stopsTag ·) with
  | [] => .error (.unclosed .tag span)
  | c :: after =>
    if 0 < plainLength stopsTag s.rest then .ok (s.copy (plainLength stopsTag s.rest))
    else if c = '@' then s.atSign
    else if c = '>' then endTag recover false (s.copy 1)
    else if c = '/' then
      if after.head? = some '>' then endTag recover true (s.copy 2)
      else .ok (s.copy 1)
    else .ok ⟨[.text [c]], (s.skip 1).push (.attributeValue c s.cursor.offset)⟩

/-- A character at which an attribute value needs a closer look. -/
def stopsValue (quote c : Char) : Bool :=
  c == quote || c == '@'

/-- A step in an attribute value. -/
def stepValue (recover : Recovery) (s : State) : Outcome :=
  match s.frames with
  | .attributeValue quote openedAt :: below =>
    match s.rest.dropWhile (!stopsValue quote ·) with
    | [] => .error (.unclosed .attributeValue (.ofLength openedAt 1))
    | c :: _ =>
      if 0 < plainLength (stopsValue quote) s.rest then
        .ok (s.copy (plainLength (stopsValue quote) s.rest))
      else if c = '@' then s.atSign
      else .ok ⟨(s.copy 1).written, (s.skip 1).within below⟩
  | _ => recover (.ok (.stay s.dropFrame))

end State

end AtTemplate.Scan
