import AtTemplate.Json.Value

/-!
# AtTemplate.Json.Number

The value of a number from its digits.  Nineteen to twenty significant digits are taken up in
64 bits, further digits only count as places, and a double is the product of these digits and
a power of ten.
-/

namespace AtTemplate.Json

/-- The greatest number that 64 bits hold. -/
def maxSignificand : Nat := 18446744073709551615

/-- The greatest magnitude of a negative integer in 64 bits. -/
def maxNegative : Nat := 9223372036854775808

/-- The greatest exponent that 31 bits hold. -/
def maxExponent : Nat := 2147483647

/-- The digits taken up so far, and the power of ten that they count. -/
structure Parts where
  significand : Nat
  exponent : Int
  deriving DecidableEq, Repr

/-- The value of a decimal digit. -/
def digitValue (c : Char) : Nat :=
  c.toNat - '0'.toNat

/-- Takes up the digits before the point.  From the first digit on that 64 bits do not hold,
every digit counts as a place; the flag tells whether there is one. -/
def takeWhole (significand : Nat) : List Char → Parts × Bool
  | [] => (⟨significand, 0⟩, false)
  | c :: digits =>
    if maxSignificand < significand * 10 + digitValue c then
      (⟨significand, digits.length + 1⟩, true)
    else takeWhole (significand * 10 + digitValue c) digits

/-- Takes up the digits behind the point.  From the first digit on that 64 bits do not hold,
digits are left out. -/
def takeFraction (parts : Parts) : List Char → Parts
  | [] => parts
  | c :: digits =>
    if maxSignificand < parts.significand * 10 + digitValue c then parts
    else takeFraction ⟨parts.significand * 10 + digitValue c, parts.exponent - 1⟩ digits

/-- The power of ten as a double, for exponents up to 308. -/
def tenTo (n : Nat) : Float :=
  Float.ofScientific 1 false n

/-- Divides by a power of ten, in steps that are themselves doubles. -/
def divideByTenTo (x : Float) (n : Nat) : Float :=
  if n ≤ 308 then x / tenTo n
  else if x == 0 then x
  else divideByTenTo (x / tenTo 308) (n - 308)
termination_by n

/-- The double that some parts stand for; none when it is too great. -/
def Parts.toFloat? (p : Parts) : Option Float :=
  let x := (UInt64.ofNat p.significand).toFloat
  if p.exponent < 0 then some (divideByTenTo x p.exponent.natAbs)
  else if 308 < p.exponent then if x == 0 then some x else none
  else
    let y := x * tenTo p.exponent.toNat
    if y.isInf then none else some y

/-- A number as it is written. -/
structure Literal where
  isNegative : Bool
  /-- The digits before the point. -/
  whole : List Char
  /-- The digits behind the point. -/
  fraction? : Option (List Char)
  /-- Whether the exponent is negative, and its digits. -/
  exponent? : Option (Bool × List Char)
  deriving DecidableEq, Repr

/-- The digits of an exponent as a number. -/
def exponentOf (digits : List Char) : Nat :=
  digits.foldl (fun n c => n * 10 + digitValue c) 0

/-- The value of a number; none when it is too great for a double. -/
def Literal.value? (l : Literal) : Option Value :=
  let signed (x : Float) : Value := .double (if l.isNegative then -x else x)
  let (whole, isLong) := takeWhole 0 l.whole
  match l.fraction?, l.exponent?, isLong with
  | none, none, false =>
    if !l.isNegative then some (.integer whole.significand)
    else if whole.significand = 0 ∨ maxNegative < whole.significand then
      some (signed (UInt64.ofNat whole.significand).toFloat)
    else some (.integer (-whole.significand))
  | fraction?, exponent?, _ =>
    let parts := takeFraction whole (fraction?.getD [])
    match exponent? with
    | none => parts.toFloat?.map signed
    | some (isNegative, digits) =>
      let exponent := exponentOf digits
      if maxExponent < exponent then
        if parts.significand ≠ 0 ∧ !isNegative then none else some (signed 0)
      else
        let shifted := if isNegative then parts.exponent - exponent else parts.exponent + exponent
        (Parts.toFloat? ⟨parts.significand, shifted⟩).map signed

end AtTemplate.Json
