import AtTemplate.Json.Fault
import AtTemplate.Json.Number
import AtTemplate.Text.Parsed

/-!
# AtTemplate.Json.Reader

Reading JSON.  A value may hold 127 levels of arrays and objects.  Each reader of a part
returns the rest of the text with the fact that it is shorter, so that reading comes to an end.
-/

namespace AtTemplate.Json

open Text

/-- A blank between the parts of a JSON text. -/
def isJsonBlank (c : Char) : Bool :=
  c == ' ' || c == '\t' || c == '\n' || c == '\r'

/-- The text behind its leading blanks. -/
def skipBlanks (text : List Char) : List Char :=
  text.dropWhile isJsonBlank

theorem length_skipBlanks_le (text : List Char) : (skipBlanks text).length ≤ text.length :=
  (List.dropWhile_sublist _).length_le

/-! ## Words and numbers -/

/-- The text behind a word, of which the letters `letters` are still to come. -/
def readLetters : List Char → List Char → Except Failure (List Char)
  | [], text => .ok text
  | _ :: _, [] => .error ⟨.endInValue, [], 0⟩
  | letter :: letters, c :: text =>
    if c = letter then readLetters letters text else .error ⟨.badWord, c :: text, 1⟩

theorem length_readLetters_le {letters text rest : List Char}
    (h : readLetters letters text = .ok rest) : rest.length ≤ text.length := by
  fun_induction readLetters letters text <;> grind

/-- Divides a text behind its leading digits. -/
def takeDigits (text : List Char) : List Char × List Char :=
  (text.takeWhile Char.isDigit, text.dropWhile Char.isDigit)

/-- Reads the digits before the point.  A zero stands alone. -/
def readWhole : List Char → Except Failure (List Char × List Char)
  | [] => .error ⟨.endInValue, [], 0⟩
  | c :: text =>
    if c = '0' then
      if (text.head?.any Char.isDigit) then .error ⟨.badNumber, text, 1⟩ else .ok ([c], text)
    else if c.isDigit then .ok (takeDigits (c :: text))
    else .error ⟨.badNumber, c :: text, 1⟩

/-- Reads the point and the digits behind it, when there is a point. -/
def readFraction : List Char → Except Failure (Option (List Char) × List Char)
  | '.' :: text =>
    match takeDigits text with
    | ([], []) => .error ⟨.endInValue, [], 0⟩
    | ([], rest) => .error ⟨.badNumber, rest, 1⟩
    | (digits, rest) => .ok (some digits, rest)
  | text => .ok (none, text)

/-- Divides the sign of an exponent from its digits. -/
def takeSign : List Char → Bool × List Char
  | '+' :: text => (false, text)
  | '-' :: text => (true, text)
  | text => (false, text)

/-- Reads an exponent, when there is one. -/
def readExponent (text : List Char) :
    Except Failure (Option (Bool × List Char) × List Char) :=
  match text with
  | [] => .ok (none, text)
  | c :: after =>
    if c = 'e' ∨ c = 'E' then
      let (isNegative, unsigned) := takeSign after
      match takeDigits unsigned with
      | ([], []) => .error ⟨.endInValue, [], 0⟩
      | ([], rest) => .error ⟨.badNumber, rest, 1⟩
      | (digits, rest) => .ok (some (isNegative, digits), rest)
    else .ok (none, text)

/-- The digits of an exponent behind the first one that makes it too great. -/
def digitsBeyond (exponent : Nat) : List Char → List Char
  | [] => []
  | c :: digits =>
    if maxExponent < exponent * 10 + digitValue c then digits
    else digitsBeyond (exponent * 10 + digitValue c) digits

theorem length_takeDigits_le (text : List Char) :
    (takeDigits text).2.length ≤ text.length :=
  (List.dropWhile_sublist _).length_le

theorem length_readWhole_lt {text whole rest : List Char} (h : readWhole text = .ok (whole, rest)) :
    rest.length < text.length := by
  unfold readWhole at h
  split at h
  · simp at h
  · next c text =>
    have hd : c.isDigit = true → (takeDigits (c :: text)).2.length < (c :: text).length := by
      intro hc
      have := (List.dropWhile_sublist Char.isDigit (l := text)).length_le
      simp only [takeDigits, List.dropWhile_cons, hc, if_true, List.length_cons]
      omega
    grind

theorem length_readFraction_le {text rest : List Char} {fraction? : Option (List Char)}
    (h : readFraction text = .ok (fraction?, rest)) : rest.length ≤ text.length := by
  unfold readFraction at h
  split at h
  · next text => have := length_takeDigits_le text; grind
  · grind

theorem length_readExponent_le {text rest : List Char} {exponent? : Option (Bool × List Char)}
    (h : readExponent text = .ok (exponent?, rest)) : rest.length ≤ text.length := by
  unfold readExponent at h
  split at h
  · grind
  · next c after =>
    have hs : (takeSign after).2.length ≤ after.length := by unfold takeSign; grind
    have := length_takeDigits_le (takeSign after).2
    grind

/-- Divides the sign of a number from its digits. -/
def takeMinus : List Char → Bool × List Char
  | '-' :: text => (true, text)
  | text => (false, text)

theorem length_takeMinus_le (text : List Char) : (takeMinus text).2.length ≤ text.length := by
  unfold takeMinus
  grind

/-- Reads a number. -/
def readNumber (text : List Char) : Except Failure (Parsed Value text) :=
  match hw : readWhole (takeMinus text).2 with
  | .error e => .error e
  | .ok (whole, afterWhole) =>
    match hf : readFraction afterWhole with
    | .error e => .error e
    | .ok (fraction?, afterFraction) =>
      match he : readExponent afterFraction with
      | .error e => .error e
      | .ok (exponent?, rest) =>
        match Literal.value? ⟨(takeMinus text).1, whole, fraction?, exponent?⟩ with
        | none =>
          let unread := exponent?.elim [] fun (_, digits) => digitsBeyond 0 digits
          .error ⟨.numberTooGreat, unread ++ rest, 0⟩
        | some value =>
          .ok ⟨value, rest, by
            have := length_takeMinus_le text
            have := length_readWhole_lt hw
            have := length_readFraction_le hf
            have := length_readExponent_le he
            omega⟩

/-! ## Items of arrays and objects -/

/-- What stands before an item. -/
inductive Next where
  /-- The closing bracket, and the text behind it. -/
  | closed (rest : List Char)
  /-- The item. -/
  | item (text : List Char)

/-- The text that is still to be read. -/
def Next.rest : Next → List Char
  | .closed rest => rest
  | .item text => text

/-- Finds the next item before the bracket `closing`.  All but the first follow a comma. -/
def nextItem (closing : Char) (atEnd atOther : Fault) (isFirst : Bool) (text : List Char) :
    Except Failure Next :=
  match skipBlanks text with
  | [] => .error ⟨atEnd, [], 0⟩
  | c :: rest =>
    if c = closing then .ok (.closed rest)
    else if isFirst then .ok (.item (c :: rest))
    else if c = ',' then
      match skipBlanks rest with
      | [] => .error ⟨.endInValue, [], 0⟩
      | d :: rest =>
        if d = closing then .error ⟨.trailingComma, d :: rest, 1⟩ else .ok (.item (d :: rest))
    else .error ⟨atOther, c :: rest, 1⟩

theorem length_nextItem_closed {closing : Char} {atEnd atOther : Fault} {isFirst : Bool}
    {text rest : List Char} (h : nextItem closing atEnd atOther isFirst text = .ok (.closed rest)) :
    rest.length < text.length := by
  have := length_skipBlanks_le text
  unfold nextItem at h
  grind

theorem length_nextItem_item {closing : Char} {atEnd atOther : Fault} {isFirst : Bool}
    {text rest : List Char} (h : nextItem closing atEnd atOther isFirst text = .ok (.item rest)) :
    rest.length ≤ text.length := by
  have := length_skipBlanks_le text
  have := length_skipBlanks_le (skipBlanks text).tail
  unfold nextItem at h
  grind

/-- Reads the items of an array behind `found`, the last one first, through the closing
bracket. -/
def readItems (read : (t : List Char) → Except Failure (Parsed Value t)) (isFirst : Bool)
    (found : List Value) (text : List Char) : Except Failure (Parsed (List Value) text) :=
  match hn : nextItem ']' .endInArray .noArrayEnd isFirst text with
  | .error e => .error e
  | .ok (.closed rest) => .ok ⟨found.reverse, rest, length_nextItem_closed hn⟩
  | .ok (.item item) =>
    match read item with
    | .error e => .error e
    | .ok p =>
      have := length_nextItem_item hn
      have := p.lt
      match readItems read false (p.value :: found) p.rest with
      | .error e => .error e
      | .ok q => .ok ⟨q.value, q.rest, by have := q.lt; omega⟩
termination_by text.length

/-- Reads the name of a field and the colon behind it. -/
def readName (text : List Char) : Except Failure (Parsed String text) :=
  match text with
  | [] => .error ⟨.endInValue, [], 0⟩
  | c :: quoted =>
    if c = '"' then
      match hq : Quoted.read quoted with
      | .error e => .error (.ofQuoted e)
      | .ok (name, rest) =>
        match hb : skipBlanks rest with
        | [] => .error ⟨.endInObject, [], 0⟩
        | d :: after =>
          if d = ':' then
            .ok ⟨String.ofList name, after, by
              have := Quoted.length_lt_of_readFrom hq
              have hl := length_skipBlanks_le rest
              rw [hb] at hl
              simp only [List.length_cons] at hl ⊢
              omega⟩
          else .error ⟨.noColon, d :: after, 1⟩
    else .error ⟨.noName, c :: quoted, 1⟩

/-- Reads the fields of an object behind `found`, the last one first, through the closing
brace. -/
def readFields (read : (t : List Char) → Except Failure (Parsed Value t)) (isFirst : Bool)
    (found : List (String × Value)) (text : List Char) :
    Except Failure (Parsed (List (String × Value)) text) :=
  match hn : nextItem '}' .endInObject .noObjectEnd isFirst text with
  | .error e => .error e
  | .ok (.closed rest) => .ok ⟨found.reverse, rest, length_nextItem_closed hn⟩
  | .ok (.item item) =>
    match readName item with
    | .error e => .error e
    | .ok name =>
      match read name.rest with
      | .error e => .error e
      | .ok p =>
        have := length_nextItem_item hn
        have := name.lt
        have := p.lt
        match readFields read false ((name.value, p.value) :: found) p.rest with
        | .error e => .error e
        | .ok q => .ok ⟨q.value, q.rest, by have := q.lt; omega⟩
termination_by text.length

/-! ## Values -/

/-- Reads a word behind its first letter. -/
def readWord (value : Value) (letters : List Char) (c : Char) (text : List Char) :
    Except Failure (Parsed Value (c :: text)) :=
  match h : readLetters letters text with
  | .error e => .error e
  | .ok rest =>
    .ok ⟨value, rest, by
      have := length_readLetters_le h
      simp only [List.length_cons]
      omega⟩

/-- Reads a string behind its opening quote. -/
def readString (c : Char) (text : List Char) : Except Failure (Parsed Value (c :: text)) :=
  match h : Quoted.read text with
  | .error e => .error (.ofQuoted e)
  | .ok (s, rest) =>
    .ok ⟨.string (String.ofList s), rest, by
      have := Quoted.length_lt_of_readFrom h
      simp only [List.length_cons]
      omega⟩

/-- Reads a value that may hold `depth` levels of arrays and objects. -/
def readValue (depth : Nat) (text : List Char) : Except Failure (Parsed Value text) :=
  match hb : skipBlanks text with
  | [] => .error ⟨.endInValue, [], 0⟩
  | c :: rest =>
    have hle : (c :: rest).length ≤ text.length := hb ▸ length_skipBlanks_le text
    let within (p : Except Failure (Parsed Value (c :: rest))) :
        Except Failure (Parsed Value text) :=
      p.map (·.widen id hle)
    if c = 'n' then within (readWord .null ['u', 'l', 'l'] c rest)
    else if c = 't' then within (readWord (.bool true) ['r', 'u', 'e'] c rest)
    else if c = 'f' then within (readWord (.bool false) ['a', 'l', 's', 'e'] c rest)
    else if c = '-' ∨ c.isDigit then within (readNumber (c :: rest))
    else if c = '"' then within (readString c rest)
    else if c = '[' then
      match depth with
      | 0 => .error ⟨.tooDeep, c :: rest, 1⟩
      | depth + 1 =>
        (readItems (readValue depth) true [] rest).map
          (·.widen .array (by simp only [List.length_cons] at hle; omega))
    else if c = '{' then
      match depth with
      | 0 => .error ⟨.tooDeep, c :: rest, 1⟩
      | depth + 1 =>
        (readFields (readValue depth) true [] rest).map
          (·.widen (.object ∘ orderFields) (by simp only [List.length_cons] at hle; omega))
    else .error ⟨.noValue, c :: rest, 1⟩

/-- The levels of arrays and objects that a text may hold. -/
def maxDepth : Nat := 127

/-- Reads a text that is a single value. -/
def Value.ofText (text : List Char) : Except Failure Value := do
  let p ← readValue maxDepth text
  match skipBlanks p.rest with
  | [] => return p.value
  | rest => throw ⟨.trailingText, rest, 1⟩

end AtTemplate.Json
