/-!
# AtTemplate.Decimal.Shortest

The shortest decimal that reads back as a given double.  A positive double is `m * 2 ^ q`; the
reals that round to it lie in an interval around it, whose ends belong to it when `m` is even.
On the grids of one, two and more significant digits the two neighbours of the double are
tried, and the first grid with a neighbour in the interval gives the digits.
-/

namespace AtTemplate.Decimal

/-- A positive double, `mantissa * 2 ^ exponent`.  Below the first double of a power of two the
gap to the next one is half as wide as above it. -/
structure Dyadic where
  mantissa : Nat
  exponent : Int
  isFirst : Bool
  deriving DecidableEq, Repr

/-- The decimal `digits * 10 ^ exponent`. -/
structure Scaled where
  digits : Nat
  exponent : Int
  deriving DecidableEq, Repr

/-- The number of decimal digits of a number. -/
def digitCount (n : Nat) : Nat :=
  (Nat.toDigits 10 n).length

/-- The exponent of the first significant digit of a double.  A half is five tenths, so with
`places` binary places behind the point the double has as many decimal ones. -/
def Dyadic.leading (x : Dyadic) : Int :=
  let places := (-x.exponent).toNat
  let digits := (x.mantissa <<< x.exponent.toNat) * Nat.pow 5 places
  (digitCount digits : Int) - 1 - places

/-- The nearest decimal on the grid of `n` significant digits, if it reads back as the double.
Of two that are equally near, the even one is taken when `tieToEven` holds, else the greater
one. -/
def Dyadic.onGrid? (x : Dyadic) (tieToEven : Bool) (n : Nat) : Option Scaled :=
  let e := x.leading - n + 1
  -- in fourths of the last binary place, `k` on the grid is `k * unit / scale`
  let unit := Nat.pow 10 e.toNat <<< (2 - x.exponent).toNat
  let scale := Nat.pow 10 (-e).toNat <<< (x.exponent - 2).toNat
  let value := 4 * x.mantissa * scale
  let low := (4 * x.mantissa - if x.isFirst then 1 else 2) * scale
  let high := (4 * x.mantissa + 2) * scale
  let isInside (k : Nat) : Bool :=
    if x.mantissa % 2 = 0 then low ≤ k * unit ∧ k * unit ≤ high
    else low < k * unit ∧ k * unit < high
  let k := value / unit
  let below := value - k * unit
  let above := (k + 1) * unit - value
  let takesBelow := below < above ∨ (below = above ∧ tieToEven ∧ k % 2 = 0)
  match isInside k, isInside (k + 1) with
  | true, true => some ⟨if takesBelow then k else k + 1, e⟩
  | true, false => some ⟨k, e⟩
  | false, true => some ⟨k + 1, e⟩
  | false, false => none

/-- The shortest decimal that reads back as a double.  Seventeen digits always do. -/
def Dyadic.shortest (x : Dyadic) (tieToEven : Bool) : Scaled :=
  ((List.range 17).findSome? fun n => x.onGrid? tieToEven (n + 1)).getD ⟨0, 0⟩

/-- A double by its kind. -/
inductive Kind where
  | notANumber
  | infinite (isNegative : Bool)
  | zero (isNegative : Bool)
  | finite (isNegative : Bool) (magnitude : Dyadic)
  deriving DecidableEq, Repr

/-- The kind of a double, read off its bits. -/
def Kind.ofBits (bits : Nat) : Kind :=
  let isNegative := bits.testBit 63
  let biased := (bits >>> 52) % 2048
  let fraction := bits % (1 <<< 52)
  if biased = 2047 then if fraction = 0 then .infinite isNegative else .notANumber
  else if biased = 0 then
    if fraction = 0 then .zero isNegative else .finite isNegative ⟨fraction, -1074, false⟩
  else
    .finite isNegative
      ⟨(1 <<< 52) + fraction, (biased : Int) - 1075, decide (fraction = 0 ∧ 1 < biased)⟩

/-- The decisions that a format for doubles takes.  The exponent meant is that of the first
significant digit. -/
structure Format where
  /-- Whether a number with this exponent is written without an exponent. -/
  isPlain : Int → Bool
  /-- Whether an exponent of zero or more has a sign. -/
  signsExponent : Bool
  /-- Whether of two shortest decimals that are equally near the even one is taken. -/
  tieToEven : Bool
  infinity : String
  notANumber : String

/-- Writes significant digits, of which the first has the exponent `leading`.  A point and a
zero mark a whole number. -/
def Format.layout (f : Format) (digits : List Char) (leading : Int) : List Char :=
  let zeros (n : Nat) := List.replicate n '0'
  if f.isPlain leading then
    if leading < 0 then ['0', '.'] ++ zeros (-leading - 1).toNat ++ digits
    else
      let whole := (leading + 1).toNat
      if digits.length ≤ whole then digits ++ zeros (whole - digits.length) ++ ['.', '0']
      else digits.take whole ++ '.' :: digits.drop whole
  else
    let sign := if leading < 0 then ['-'] else if f.signsExponent then ['+'] else []
    let point := if digits.length = 1 then [] else '.' :: digits.drop 1
    digits.take 1 ++ point ++ 'e' :: sign ++ Nat.toDigits 10 leading.natAbs

/-- The digits of a number without the zeros at its end. -/
def significant (n : Nat) : List Char :=
  ((Nat.toDigits 10 n).reverse.dropWhile (· == '0')).reverse

/-- Writes a double. -/
def Format.write (f : Format) (x : Float) : String :=
  let signed (isNegative : Bool) (s : String) := if isNegative then "-" ++ s else s
  match Kind.ofBits x.toBits.toNat with
  | .notANumber => f.notANumber
  | .infinite isNegative => signed isNegative f.infinity
  | .zero isNegative => signed isNegative "0.0"
  | .finite isNegative magnitude =>
    let s := magnitude.shortest f.tieToEven
    let leading := s.exponent + (digitCount s.digits : Int) - 1
    signed isNegative (String.ofList (f.layout (significant s.digits) leading))

end AtTemplate.Decimal
