/-!
# AtTemplate.Toml.Quotation

TOML strings.  A basic string has escapes, a literal one has none; either may go over several
lines between triple quotes, where a line break behind the opening quotes does not count.
-/

namespace AtTemplate.Toml

/-- A character that may stand in a string or a comment as it is. -/
def isPlain (c : Char) : Bool :=
  c == '\t' || (decide (0x20 ≤ c.toNat) && c.toNat != 0x7F)

/-- The number that hexadecimal digits stand for. -/
def hexNumber? (digits : List Char) : Option Nat :=
  digits.foldlM (fun n c =>
    if c.isDigit then some (n * 16 + (c.toNat - '0'.toNat))
    else if 'a' ≤ c.toLower ∧ c.toLower ≤ 'f' then
      some (n * 16 + (c.toLower.toNat - 'a'.toNat + 10))
    else none) 0

/-- The character whose code point is given by exactly `count` hexadecimal digits. -/
def codePoint? (count : Nat) (text : List Char) : Option (Char × List Char) :=
  if text.length < count then none
  else
    match hexNumber? (text.take count) with
    | none => none
    | some n => if n.isValidChar then some (Char.ofNat n, text.drop count) else none

/-- The character that an escape stands for, behind its backslash. -/
def readEscape? : List Char → Option (Char × List Char)
  | [] => none
  | c :: text =>
    if c = 'b' then some ('\x08', text)
    else if c = 't' then some ('\t', text)
    else if c = 'n' then some ('\n', text)
    else if c = 'f' then some ('\x0c', text)
    else if c = 'r' then some ('\r', text)
    else if c = '"' ∨ c = '\\' then some (c, text)
    else if c = 'u' then codePoint? 4 text
    else if c = 'U' then codePoint? 8 text
    else none

theorem length_codePoint?_le {count : Nat} {text rest : List Char} {c : Char}
    (h : codePoint? count text = some (c, rest)) : rest.length ≤ text.length := by
  unfold codePoint? at h
  grind [List.length_drop]

theorem length_readEscape?_lt {text rest : List Char} {c : Char}
    (h : readEscape? text = some (c, rest)) : rest.length < text.length := by
  unfold readEscape? at h
  grind [→ length_codePoint?_le]

/-- Reads a string within one line through its closing quote; `done` is read already, last
character first. -/
def readLine? (quote : Char) (done : List Char) (text : List Char) :
    Option (List Char × List Char) :=
  match text with
  | [] => none
  | c :: text =>
    if c = quote then some (done.reverse, text)
    else if c = '\\' ∧ quote = '"' then
      match _h : readEscape? text with
      | none => none
      | some (d, rest) => readLine? quote (d :: done) rest
    else if isPlain c then readLine? quote (c :: done) text
    else none
termination_by text.length
decreasing_by
  · have := length_readEscape?_lt _h
    simp only [List.length_cons]; omega
  · simp

/-- The text behind blanks and line breaks. -/
def skipBlankLines : List Char → List Char
  | [] => []
  | '\r' :: '\n' :: text => skipBlankLines text
  | c :: text =>
    if c = ' ' ∨ c = '\t' ∨ c = '\n' then skipBlankLines text else c :: text

/-- The text behind a line break. -/
def afterBreak? : List Char → Option (List Char)
  | '\n' :: text => some text
  | '\r' :: '\n' :: text => some text
  | _ => none

/-- The text behind a backslash at the end of a line, and behind all blanks and line breaks
after it. -/
def continuedLine? (text : List Char) : Option (List Char) :=
  (afterBreak? (text.dropWhile fun c => c == ' ' || c == '\t')).map skipBlankLines

theorem length_skipBlankLines_le (text : List Char) :
    (skipBlankLines text).length ≤ text.length := by
  fun_induction skipBlankLines text <;> grind

theorem length_afterBreak?_lt {text rest : List Char} (h : afterBreak? text = some rest) :
    rest.length < text.length := by
  unfold afterBreak? at h
  grind

theorem length_continuedLine?_lt {text rest : List Char} (h : continuedLine? text = some rest) :
    rest.length < text.length := by
  obtain ⟨line, hl, rfl⟩ := Option.map_eq_some_iff.1 h
  have h1 := length_afterBreak?_lt hl
  have h2 := length_skipBlankLines_le line
  have h3 := (List.dropWhile_sublist (fun c => c == ' ' || c == '\t') (l := text)).length_le
  omega

/-- Reads a string over several lines through its closing quotes.  Up to two quotes may stand
anywhere in it, also before the closing ones. -/
def readLines? (quote : Char) (done : List Char) (text : List Char) :
    Option (List Char × List Char) :=
  match text with
  | [] => none
  | c :: text =>
    if c = quote then
      let quotes := 1 + (text.takeWhile (· == quote)).length
      if 3 ≤ quotes then
        let more := min (quotes - 3) 2
        some (done.reverse ++ List.replicate more quote, text.drop (2 + more))
      else readLines? quote (c :: done) text
    else if c = '\\' ∧ quote = '"' then
      match _hc : continuedLine? text with
      | some rest => readLines? quote done rest
      | none =>
        match _he : readEscape? text with
        | none => none
        | some (d, rest) => readLines? quote (d :: done) rest
    else if c = '\n' then readLines? quote ('\n' :: done) text
    else if c = '\r' then
      match text with
      | '\n' :: text => readLines? quote ('\n' :: done) text
      | _ => none
    else if isPlain c then readLines? quote (c :: done) text
    else none
termination_by text.length
decreasing_by
  · simp
  · have := length_continuedLine?_lt _hc
    simp only [List.length_cons]; omega
  · have := length_readEscape?_lt _he
    simp only [List.length_cons]; omega
  · simp
  · simp only [List.length_cons]; omega
  · simp

/-- Reads a string behind its opening quote. -/
def readQuotation? (quote : Char) (text : List Char) : Option (String × List Char) :=
  let found :=
    if text.take 2 = [quote, quote] then
      let body := text.drop 2
      readLines? quote [] ((afterBreak? body).getD body)
    else readLine? quote [] text
  found.map fun (s, rest) => (String.ofList s, rest)

theorem length_readLine?_lt {quote : Char} {done text s rest : List Char}
    (h : readLine? quote done text = some (s, rest)) : rest.length < text.length := by
  fun_induction readLine? quote done text <;> grind [→ length_readEscape?_lt]

theorem length_readLines?_lt {quote : Char} {done text s rest : List Char}
    (h : readLines? quote done text = some (s, rest)) : rest.length < text.length := by
  fun_induction readLines? quote done text <;>
    grind [→ length_readEscape?_lt, → length_continuedLine?_lt, List.length_drop]

theorem length_readQuotation?_lt {quote : Char} {text rest : List Char} {s : String}
    (h : readQuotation? quote text = some (s, rest)) : rest.length < text.length := by
  obtain ⟨⟨s', rest'⟩, hf, he⟩ := Option.map_eq_some_iff.1 h
  simp only [Prod.mk.injEq] at he
  obtain ⟨_, rfl⟩ := he
  split at hf
  · have h1 := length_readLines?_lt hf
    have h2 : ((afterBreak? (text.drop 2)).getD (text.drop 2)).length ≤ text.length := by
      cases hb : afterBreak? (text.drop 2) with
      | none => simp
      | some t => have := length_afterBreak?_lt hb; simp at this ⊢; omega
    omega
  · exact length_readLine?_lt hf

end AtTemplate.Toml
