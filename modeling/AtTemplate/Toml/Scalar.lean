import AtTemplate.Toml.Value

/-!
# AtTemplate.Toml.Scalar

The unquoted TOML values: booleans, numbers, dates and times.  Such a value is a run of
letters, digits and a few marks, and is recognized as a whole.
-/

namespace AtTemplate.Toml

/-! ## Digits -/

/-- The digits of a group in which single underscores may stand between digits. -/
def groupedDigits? (isDigit : Char → Bool) : List Char → Option (List Char)
  | [] => none
  | [c] => if isDigit c then some [c] else none
  | c :: '_' :: text =>
    if isDigit c then (groupedDigits? isDigit text).map (c :: ·) else none
  | c :: d :: text =>
    if isDigit c then (groupedDigits? isDigit (d :: text)).map (c :: ·) else none

/-- A digit of a number in the given base, at most sixteen. -/
def isDigitOf (base : Nat) (c : Char) : Bool :=
  ((List.range base).map Nat.digitChar).contains c.toLower

/-- The value of a digit. -/
def digitOf (c : Char) : Nat :=
  if c.isDigit then c.toNat - '0'.toNat else c.toLower.toNat - 'a'.toNat + 10

/-- The number that digits in a base stand for. -/
def ofDigits (base : Nat) (digits : List Char) : Nat :=
  digits.foldl (fun n c => n * base + digitOf c) 0

/-- Divides the sign of a number from the rest; there may be none. -/
def takeSign : List Char → Bool × List Char
  | '-' :: text => (true, text)
  | '+' :: text => (false, text)
  | text => (false, text)

/-- The digits of a decimal number: without a zero in front, unless it is the only digit. -/
def decimalDigits? (text : List Char) : Option (List Char) :=
  if text.head? = some '0' ∧ text ≠ ['0'] then none else groupedDigits? Char.isDigit text

/-! ## Numbers -/

/-- The integers of 64 bits. -/
def fits (n : Int) : Bool :=
  decide (-9223372036854775808 ≤ n ∧ n ≤ 9223372036854775807)

/-- The number in some base that grouped digits stand for. -/
def numberIn? (base : Nat) (text : List Char) : Option Int :=
  (groupedDigits? (isDigitOf base) text).map fun digits => (ofDigits base digits : Int)

/-- The integer in some base that a text is as a whole. -/
def integer? (text : List Char) : Option Int := do
  let n ← match text with
    | '0' :: 'x' :: digits => numberIn? 16 digits
    | '0' :: 'o' :: digits => numberIn? 8 digits
    | '0' :: 'b' :: digits => numberIn? 2 digits
    | _ =>
      let (isNegative, digits) := takeSign text
      (decimalDigits? digits).map fun d =>
        if isNegative then -(ofDigits 10 d : Int) else (ofDigits 10 d : Int)
  guard (fits n)
  return n

/-- Divides a text before the first character of a class; the character itself is left out. -/
def splitAt? (isMark : Char → Bool) (text : List Char) : Option (List Char × List Char) :=
  match text.dropWhile (!isMark ·) with
  | [] => none
  | _ :: rest => some (text.takeWhile (!isMark ·), rest)

/-- The double nearest to `digits * 10 ^ exponent`. -/
def doubleOf (digits : List Char) (exponent : Int) : Float :=
  let n := ofDigits 10 digits
  let magnitude : Int := digits.length + exponent
  if n = 0 ∨ magnitude < -400 then 0
  else if 400 + digits.length < magnitude then 1 / 0
  else if exponent < 0 then Float.ofScientific n true exponent.natAbs
  else Float.ofScientific n false exponent.natAbs

/-- The double that a text is as a whole.  One that is too great is refused. -/
def float? (text : List Char) : Option Float := do
  let (isNegative, unsigned) := takeSign text
  let signed (x : Float) : Float := if isNegative then -x else x
  if unsigned = ['i', 'n', 'f'] then return signed (1 / 0)
  if unsigned = ['n', 'a', 'n'] then return 0 / 0
  let (mantissa, exponent) ← match splitAt? (fun c => c == 'e' || c == 'E') unsigned with
    | none => do
      guard (unsigned.contains '.')
      pure (unsigned, (0 : Int))
    | some (mantissa, text) => do
      let (isNegative, digits) := takeSign text
      let digits ← groupedDigits? Char.isDigit digits
      let n : Int := ofDigits 10 digits
      pure (mantissa, if isNegative then -n else n)
  let (whole, fraction) ← match splitAt? (· == '.') mantissa with
    | none => do pure (← decimalDigits? mantissa, [])
    | some (whole, fraction) => do
      pure (← decimalDigits? whole, ← groupedDigits? Char.isDigit fraction)
  let x := signed (doubleOf (whole ++ fraction) (exponent - fraction.length))
  guard (x != 1 / 0)
  return x

/-! ## Dates and times -/

/-- The number that a text of exactly `n` digits stands for. -/
def fixedNumber? (n : Nat) (text : List Char) : Option Nat := do
  guard (text.length = n ∧ text.all Char.isDigit)
  return ofDigits 10 text

/-- The days of a month. -/
def daysOf (year month : Nat) : Nat :=
  if month = 2 then
    if year % 4 = 0 ∧ (year % 100 ≠ 0 ∨ year % 400 = 0) then 29 else 28
  else if month ∈ [4, 6, 9, 11] then 30
  else 31

/-- Whether a text is a date. -/
def isDate (text : List Char) : Bool :=
  match fixedNumber? 4 (text.take 4), fixedNumber? 2 ((text.drop 5).take 2),
      fixedNumber? 2 (text.drop 8) with
  | some year, some month, some day =>
    text[4]? = some '-' ∧ text[7]? = some '-' ∧ 1 ≤ month ∧ month ≤ 12 ∧ 1 ≤ day
      ∧ day ≤ daysOf year month
  | _, _, _ => false

/-- Whether a text is a time of the day in hours and minutes. -/
def isHourMinute (text : List Char) : Bool :=
  match fixedNumber? 2 (text.take 2), fixedNumber? 2 (text.drop 3) with
  | some hour, some minute => text[2]? = some ':' ∧ hour < 24 ∧ minute < 60
  | _, _ => false

/-- Whether a text is the part of a second behind its point, or empty. -/
def isFraction : List Char → Bool
  | [] => true
  | '.' :: digits => digits ≠ [] ∧ digits.all Char.isDigit
  | _ => false

/-- Whether a text is a time of the day. -/
def isTime (text : List Char) : Bool :=
  match fixedNumber? 2 ((text.drop 6).take 2) with
  | some second =>
    isHourMinute (text.take 5) ∧ text[5]? = some ':' ∧ second ≤ 60 ∧ isFraction (text.drop 8)
  | none => false

/-- Whether a text is a time of the day, perhaps with its distance from universal time. -/
def isZonedTime (text : List Char) : Bool :=
  let isClock (c : Char) : Bool := c.isDigit || c == ':' || c == '.'
  isTime (text.takeWhile isClock) &&
    match text.dropWhile isClock with
    | [] => true
    | ['Z'] | ['z'] => true
    | c :: distance => (c == '+' || c == '-') && isHourMinute distance

/-- Whether a text without blanks is a date, a time or both. -/
def isDatetime (text : List Char) : Bool :=
  isDate text || isTime text ||
    (isDate (text.take 10) && (text[10]? = some 'T' || text[10]? = some 't')
      && isZonedTime (text.drop 11))

/-- The unquoted value that a text is as a whole. -/
def scalar? (text : List Char) : Option Value :=
  if text = ['t', 'r', 'u', 'e'] then some (.boolean true)
  else if text = ['f', 'a', 'l', 's', 'e'] then some (.boolean false)
  else if isDatetime text then some .datetime
  else (integer? text).map .integer <|> (float? text).map .float

end AtTemplate.Toml
