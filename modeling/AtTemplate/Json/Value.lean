import AtTemplate.Decimal.Shortest
import AtTemplate.Text.Quoted

/-!
# AtTemplate.Json.Value

JSON values, and the two forms in which they are written: without any blanks, and with one
item to a line.
-/

namespace AtTemplate.Json

open Text

/-- A JSON value.  A number is an integer where its text has neither a point nor an exponent
and it fits into 64 bits, and a double otherwise.  The fields of an object are in the order of
their names. -/
inductive Value where
  | null
  | bool (b : Bool)
  | integer (n : Int)
  | double (x : Float)
  | string (s : String)
  | array (items : List Value)
  | object (fields : List (String × Value))

/-- Doubles are written positionally from `1e-5` to below `1e16`, and their exponent has a
sign. -/
def doubleFormat : Decimal.Format where
  isPlain e := decide (-5 ≤ e ∧ e < 16)
  signsExponent := true
  tieToEven := true
  infinity := "null"
  notANumber := "null"

/-- Writes a string. -/
def quote (s : String) : String :=
  String.ofList (Quoted.encode s.toList)

namespace Value

mutual

/-- Writes a value without blanks. -/
def compact : Value → String
  | .null => "null"
  | .bool b => if b then "true" else "false"
  | .integer n => toString n
  | .double x => doubleFormat.write x
  | .string s => quote s
  | .array items => "[" ++ ",".intercalate (compactItems items) ++ "]"
  | .object fields => r"{" ++ ",".intercalate (compactFields fields) ++ r"}"

/-- Writes the items of an array. -/
def compactItems : List Value → List String
  | [] => []
  | item :: items => item.compact :: compactItems items

/-- Writes the fields of an object. -/
def compactFields : List (String × Value) → List String
  | [] => []
  | (name, value) :: fields => (quote name ++ ":" ++ value.compact) :: compactFields fields

end

/-- Joins the items of a list between brackets, each on a line of its own. -/
def bracketed (opening closing : String) (indent : String) : List String → String
  | [] => opening ++ closing
  | items =>
    opening ++ "\n" ++ ",\n".intercalate (items.map (indent ++ "  " ++ ·)) ++ "\n" ++ indent
      ++ closing

mutual

/-- Writes a value with one item to a line; lines after the first begin with `indent`, and
with two more blanks for each level within the value. -/
def spread (indent : String) : Value → String
  | .array items => bracketed "[" "]" indent (spreadItems (indent ++ "  ") items)
  | .object fields => bracketed r"{" r"}" indent (spreadFields (indent ++ "  ") fields)
  | .null => "null"
  | .bool b => if b then "true" else "false"
  | .integer n => toString n
  | .double x => doubleFormat.write x
  | .string s => quote s

/-- Writes the items of an array, one to a line. -/
def spreadItems (indent : String) : List Value → List String
  | [] => []
  | item :: items => item.spread indent :: spreadItems indent items

/-- Writes the fields of an object, one to a line. -/
def spreadFields (indent : String) : List (String × Value) → List String
  | [] => []
  | (name, value) :: fields =>
    (quote name ++ ": " ++ value.spread indent) :: spreadFields indent fields

end

end Value

/-- The fields of an object in the order of their names.  Of fields with one name the last one
stays. -/
def orderFields (fields : List (String × Value)) : List (String × Value) :=
  let sorted := fields.mergeSort fun a b => decide (a.1 ≤ b.1)
  let rec lastOfEach : List (String × Value) → List (String × Value)
    | [] => []
    | [field] => [field]
    | a :: b :: rest => if a.1 = b.1 then lastOfEach (b :: rest) else a :: lastOfEach (b :: rest)
  lastOfEach sorted

end AtTemplate.Json
