import AtTemplate.Text.Parsed
import AtTemplate.Toml.Quotation
import AtTemplate.Toml.Scalar

/-!
# AtTemplate.Toml.Reader

Reading TOML documents.  Values nest up to 79 levels, and a dotted key has 79 parts at most.
-/

namespace AtTemplate.Toml

open Text

/-- The levels of arrays and tables that a value may have, and the parts of a dotted key. -/
def maxDepth : Nat := 79

/-! ## Blanks and comments -/

/-- A blank within a line. -/
def isBlankInLine (c : Char) : Bool :=
  c == ' ' || c == '\t'

/-- The text behind the blanks within its first line. -/
def skipBlanks (text : List Char) : List Char :=
  text.dropWhile isBlankInLine

theorem length_skipBlanks_le (text : List Char) : (skipBlanks text).length ≤ text.length :=
  (List.dropWhile_sublist _).length_le

/-- The text behind blanks, line breaks and comments.  `inComment` tells whether the text begins
within a comment; a comment ends with its line. -/
def skipTrivia? (inComment : Bool) : List Char → Option (List Char)
  | [] => if inComment then none else some []
  | '\r' :: '\n' :: text => skipTrivia? false text
  | c :: text =>
    if c = '\n' then skipTrivia? false text
    else if inComment then if isPlain c then skipTrivia? true text else none
    else if isBlankInLine c then skipTrivia? false text
    else if c = '#' then skipTrivia? true text
    else some (c :: text)

theorem length_skipTrivia?_le {inComment : Bool} {text rest : List Char}
    (h : skipTrivia? inComment text = some rest) : rest.length ≤ text.length := by
  fun_induction skipTrivia? inComment text <;> grind

/-- The text behind a line break or at the end of the document. -/
def endLine? : List Char → Option (List Char)
  | [] => some []
  | text => afterBreak? text

theorem length_endLine?_le {text rest : List Char} (h : endLine? text = some rest) :
    rest.length ≤ text.length := by
  unfold endLine? at h
  split at h
  · simp_all
  · exact Nat.le_of_lt (length_afterBreak?_lt h)

/-- The text behind a comment and the line that it stands in. -/
def endComment? (text : List Char) : Option (List Char) :=
  endLine? (text.dropWhile isPlain)

/-- The text behind the blanks, the comment and the break that may follow a line's content. -/
def endContent? (text : List Char) : Option (List Char) :=
  match skipBlanks text with
  | '#' :: comment => endComment? comment
  | text => endLine? text

theorem length_endComment?_le {text rest : List Char} (h : endComment? text = some rest) :
    rest.length ≤ text.length := by
  have h1 := length_endLine?_le h
  have h2 := (List.dropWhile_sublist isPlain (l := text)).length_le
  omega

theorem length_endContent?_le {text rest : List Char} (h : endContent? text = some rest) :
    rest.length ≤ text.length := by
  have hs := length_skipBlanks_le text
  unfold endContent? at h
  split at h
  · next hc =>
    have := length_endComment?_le h
    rw [hc] at hs
    simp only [List.length_cons] at hs
    omega
  · have := length_endLine?_le h
    omega

/-! ## Keys -/

/-- A character of a key without quotes. -/
def isKeyChar (c : Char) : Bool :=
  c.isAlphanum || c == '-' || c == '_'

/-- Reads one part of a key. -/
def readKeyPart? (text : List Char) : Option (Parsed String text) :=
  match text with
  | [] => none
  | c :: quoted =>
    if c = '"' ∨ c = '\'' then
      match h : readLine? c [] quoted with
      | none => none
      | some (s, rest) =>
        some ⟨String.ofList s, rest, by
          have := length_readLine?_lt h
          simp only [List.length_cons]; omega⟩
    else if hc : isKeyChar c then
      some ⟨String.ofList (c :: quoted.takeWhile isKeyChar), quoted.dropWhile isKeyChar, by
        have := (List.dropWhile_sublist isKeyChar (l := quoted)).length_le
        simp only [List.length_cons]; omega⟩
    else none

/-- Reads the parts of a key, with blanks around each. -/
def readKey? (text : List Char) : Option (Parsed (List Key) text) :=
  have hs := length_skipBlanks_le text
  match readKeyPart? (skipBlanks text) with
  | none => none
  | some part =>
    let key : Key := ⟨part.value, ⟨skipBlanks text, part.rest⟩⟩
    have hp := part.lt
    have hb := length_skipBlanks_le part.rest
    match hd : skipBlanks part.rest with
    | '.' :: after =>
      have ha : after.length < (skipBlanks part.rest).length := by simp [hd]
      match readKey? after with
      | none => none
      | some more => some ⟨key :: more.value, more.rest, by have := more.lt; omega⟩
    | rest => some ⟨[key], rest, by have := congrArg List.length hd; omega⟩
termination_by text.length

/-- Reads a key and divides its last part from the path before it. -/
def readPath? (text : List Char) : Option (Parsed (List Key × Key) text) :=
  match readKey? text with
  | none => none
  | some key =>
    match key.value.getLast? with
    | none => none
    | some last =>
      if key.value.length ≤ maxDepth then some ⟨(key.value.dropLast, last), key.rest, key.lt⟩
      else none

/-! ## Values -/

/-- A character of an unquoted value. -/
def isScalarChar (c : Char) : Bool :=
  c.isAlphanum || c == '+' || c == '-' || c == '_' || c == '.' || c == ':'

/-- Reads an unquoted value.  A date and a time may be divided by a blank. -/
def readScalar? (c : Char) (text : List Char) : Option (Parsed Value (c :: text)) :=
  if isScalarChar c then
    let word := c :: text.takeWhile isScalarChar
    have hr := (List.dropWhile_sublist isScalarChar (l := text)).length_le
    match hm : text.dropWhile isScalarChar with
    | ' ' :: after =>
      if isDate word ∧ isZonedTime (after.takeWhile isScalarChar) then
        some ⟨.datetime, after.dropWhile isScalarChar, by
          have := (List.dropWhile_sublist isScalarChar (l := after)).length_le
          simp only [hm, List.length_cons] at hr ⊢; omega⟩
      else
        (scalar? word).map fun v =>
          ⟨v, ' ' :: after, by simp only [hm, List.length_cons] at hr ⊢; omega⟩
    | rest =>
      (scalar? word).map fun v =>
        ⟨v, rest, by rw [hm] at hr; simp only [List.length_cons]; omega⟩
  else none

/-- What reads a value at the head of a text. -/
abbrev ValueReader := (text : List Char) → Option (Parsed Value text)

/-- Reads the items of an array behind `found`, the last one first, through the closing bracket.
A comma may follow the last item. -/
def readItems? (read : ValueReader) (found : List (Extent × Value)) (text : List Char) :
    Option (Parsed (List (Extent × Value)) text) :=
  match h : skipTrivia? false text with
  | none => none
  | some [] => none
  | some (c :: after) =>
    have hl := length_skipTrivia?_le h
    if c = ']' then some ⟨found.reverse, after, by simp only [List.length_cons] at hl; omega⟩
    else
      match read (c :: after) with
      | none => none
      | some p =>
        have hp := p.lt
        let found := (⟨c :: after, p.rest⟩, p.value) :: found
        match h' : skipTrivia? false p.rest with
        | none => none
        | some [] => none
        | some (d :: rest) =>
          have hl' := length_skipTrivia?_le h'
          have hr : rest.length < text.length := by
            simp only [List.length_cons] at hl hl' hp; omega
          if d = ']' then some ⟨found.reverse, rest, hr⟩
          else if d = ',' then
            match readItems? read found rest with
            | none => none
            | some q => some ⟨q.value, q.rest, by have := q.lt; omega⟩
          else none
termination_by text.length

/-- A key and the value that it is given. -/
structure Entry where
  path : List Key
  key : Key
  extent : Extent
  value : Value

/-- Reads a key, the equals sign and a value. -/
def readEntry? (read : ValueReader) (text : List Char) : Option (Parsed Entry text) :=
  match readPath? text with
  | none => none
  | some path =>
    have hp := path.lt
    match hb : path.rest with
    | '=' :: after =>
      have ha := length_skipBlanks_le after
      match read (skipBlanks after) with
      | none => none
      | some p =>
        some ⟨⟨path.value.1, path.value.2, ⟨skipBlanks after, p.rest⟩, p.value⟩, p.rest, by
          have := p.lt
          simp only [hb, List.length_cons] at hp; omega⟩
    | _ => none

/-- Reads the entries of a table between braces into `table`, through the closing brace. -/
def readEntries? (read : ValueReader) (table : Table) (text : List Char) :
    Option (Parsed Table text) :=
  match readEntry? read text with
  | none => none
  | some p =>
    have hp := p.lt
    match table.enter p.value.path p.value.key.name p.value.extent p.value.value with
    | none => none
    | some table =>
      have hb := length_skipBlanks_le p.rest
      match hs : skipBlanks p.rest with
      | [] => none
      | c :: rest =>
        have hr : rest.length < text.length := by
          simp only [hs, List.length_cons] at hb; omega
        if c = '}' then some ⟨table, rest, hr⟩
        else if c = ',' then
          match readEntries? read table rest with
          | none => none
          | some q => some ⟨q.value, q.rest, by have := q.lt; omega⟩
        else none
termination_by text.length

/-- Reads a table between braces, behind the opening one. -/
def readBraces? (read : ValueReader) (text : List Char) : Option (Parsed Table text) :=
  have hb := length_skipBlanks_le text
  match hs : skipBlanks text with
  | '}' :: rest =>
    some ⟨⟨.braces, []⟩, rest, by simp only [hs, List.length_cons] at hb; omega⟩
  | _ => readEntries? read ⟨.braces, []⟩ text

/-- Reads a value that may have `depth` levels. -/
def readValue? (depth : Nat) (text : List Char) : Option (Parsed Value text) :=
  match text with
  | [] => none
  | c :: after =>
    if c = '"' ∨ c = '\'' then
      match h : readQuotation? c after with
      | none => none
      | some (s, rest) =>
        some ⟨.string s, rest, by
          have := length_readQuotation?_lt h
          simp only [List.length_cons]; omega⟩
    else if c = '[' then
      match depth with
      | 0 => none
      | depth + 1 => (readItems? (readValue? depth) [] after).map (·.widen .array (by simp))
    else if c = '{' then
      match depth with
      | 0 => none
      | depth + 1 =>
        (readBraces? (readValue? depth) after).map
          (·.widen (fun t => .table t.origin t.entries) (by simp))
    else readScalar? c after

/-! ## Documents -/

/-- Reads a header: its path and the text behind its line. -/
def readHeader? (closing : List Char) (text : List Char) :
    Option (Parsed (List Key × List Char) text) :=
  match readPath? text with
  | none => none
  | some path =>
    if closing.isPrefixOf path.rest then
      let stop := path.rest.drop closing.length
      match h : endContent? stop with
      | none => none
      | some rest =>
        some ⟨(path.value.1 ++ [path.value.2], stop), rest, by
          have h1 := path.lt
          have h2 := length_endContent?_le h
          simp only [stop, List.length_drop] at h2
          omega⟩
    else none

/-- Reads the lines of a document behind `d`. -/
def readDocument? (d : Document) (text : List Char) : Option Document :=
  have hs := length_skipBlanks_le text
  match hb : skipBlanks text with
  | [] => some d
  | '[' :: '[' :: after =>
    match readHeader? [']', ']'] after with
    | none => none
    | some header =>
      have := header.lt
      have : header.rest.length < text.length := by simp only [hb, List.length_cons] at hs; omega
      match d.openOneOfSeveral header.value.1 ⟨'[' :: '[' :: after, header.value.2⟩ with
      | none => none
      | some d => readDocument? d header.rest
  | '[' :: after =>
    match readHeader? [']'] after with
    | none => none
    | some header =>
      have := header.lt
      have : header.rest.length < text.length := by simp only [hb, List.length_cons] at hs; omega
      match d.openTable header.value.1 ⟨'[' :: after, header.value.2⟩ with
      | none => none
      | some d => readDocument? d header.rest
  | c :: after =>
    if c = '#' then
      match he : endComment? after with
      | none => none
      | some rest =>
        have : rest.length < text.length := by
          have := length_endComment?_le he
          simp only [hb, List.length_cons] at hs; omega
        readDocument? d rest
    else
      match he : afterBreak? (c :: after) with
      | some rest =>
        have : rest.length < text.length := by
          have := length_afterBreak?_lt he
          simp only [hb] at hs; omega
        readDocument? d rest
      | none =>
        match readEntry? (readValue? maxDepth) (c :: after) with
        | none => none
        | some p =>
          match he : endContent? p.rest with
          | none => none
          | some rest =>
            have : rest.length < text.length := by
              have h1 := p.lt
              have h2 := length_endContent?_le he
              simp only [hb] at hs; omega
            match d.enter p.value.path p.value.key.name p.value.extent p.value.value with
            | none => none
            | some d => readDocument? d rest
termination_by text.length

/-- Reads a document, which may begin with a byte order mark. -/
def Table.ofText? (text : List Char) : Option Table :=
  let text := if text.head? = some '\ufeff' then text.tail else text
  (readDocument? .empty text).bind Document.closeTable

end AtTemplate.Toml
