import AtTemplate.Decimal.Shortest
import AtTemplate.Script.Binding
import AtTemplate.Text.Bytes
import AtTemplate.Text.Shown
import AtTemplate.Toml.Reader

/-!
# AtTemplate.Settings

Settings of the command line, read from TOML.  The table `template` gives the name of the model
and whether its fields are in scope; keys that are left out keep their defaults, and other keys
do not count.
-/

namespace AtTemplate

open Text

/-- The settings of the command line. -/
structure Settings where
  binding : Script.Binding
  deriving DecidableEq, Repr

/-- Why a text is not settings. -/
inductive SettingsError where
  /-- The text is not TOML. -/
  | malformed
  /-- A value is of another type than its key asks for. -/
  | wrongType (found expected : String) (extent : Toml.Extent)

namespace SettingsError

/-- The error as one line of text. -/
def message : SettingsError → String
  | .malformed => "the text is not valid TOML"
  | .wrongType found expected _ => "invalid type: " ++ found ++ ", expected " ++ expected

/-- The line of a byte offset, counted from zero, its text, and the column of the offset in
characters. -/
def locate (source : List Char) (place : Nat) : Nat × List Char × Nat :=
  let rec go (number column offset : Nat) (line text : List Char) : Nat × List Char × Nat :=
    match text with
    | [] => (number, line, column)
    | c :: text =>
      if place ≤ offset then (number, line, column)
      else if c = '\n' then go (number + 1) 0 (offset + 1) text text
      else go number (column + 1) (offset + c.utf8Size) line text
  let (number, line, column) := go 0 0 0 source source
  (number, line.takeWhile (· ≠ '\n'), column)

/-- The error with the line of the source that it was found in. -/
def report (e : SettingsError) (source : String) : String :=
  match e with
  | .malformed => "TOML parse error\n" ++ e.message ++ "\n"
  | .wrongType _ _ extent =>
    let chars := source.toList
    let start := byteLength chars - byteLength extent.start
    let stop := byteLength chars - byteLength extent.stop
    let (index, line, column) := locate chars start
    let number := toString (index + 1)
    let pad := String.ofList (List.replicate (number.length + 1) ' ')
    let marks := max 1 (min (stop - start) (byteLength line - column))
    "TOML parse error at line " ++ number ++ ", column " ++ toString (column + 1) ++ "\n"
      ++ pad ++ "|\n" ++ number ++ " | " ++ String.ofList line ++ "\n" ++ pad ++ "|"
      ++ String.ofList (List.replicate (column + 1) ' ' ++ List.replicate marks '^') ++ "\n"
      ++ e.message ++ "\n"

end SettingsError

namespace Settings

/-- The settings where nothing is set. -/
def default : Settings :=
  ⟨.default⟩

/-- How messages write a double. -/
def doubleFormat : Decimal.Format where
  isPlain _ := true
  signsExponent := false
  tieToEven := false
  infinity := "inf"
  notANumber := "NaN"

/-- What kind of value is found, in words. -/
def describe : Toml.Value → String
  | .string s => "string " ++ shown s
  | .integer n => "integer `" ++ toString n ++ "`"
  | .float x => "floating point `" ++ doubleFormat.write x ++ "`"
  | .boolean b => "boolean `" ++ (if b then "true" else "false") ++ "`"
  | .array _ | .tables _ => "sequence"
  | .datetime | .table _ _ => "map"

/-- Sets the name of the model. -/
def setName (s : Settings) (extent : Toml.Extent) : Toml.Value → Except SettingsError Settings
  | .string name => .ok { s with binding := { s.binding with name := name } }
  | value => .error (.wrongType (describe value) "a string" extent)

/-- Sets whether the fields of the model are in scope. -/
def setScope (s : Settings) (extent : Toml.Extent) : Toml.Value → Except SettingsError Settings
  | .boolean b => .ok { s with binding := { s.binding with implicitScope := b } }
  | value => .error (.wrongType (describe value) "a boolean" extent)

/-- Sets what the entries of a table say, in their order. -/
def setEntries (s : Settings) (entries : List (String × Toml.Extent × Toml.Value)) :
    Except SettingsError Settings :=
  entries.foldlM (fun s (key, extent, value) =>
    if key = "binding_name" then s.setName extent value
    else if key = "implicit_scope" then s.setScope extent value
    else .ok s) s

/-- Sets what the items of a list say: the name first, then the scope. -/
def setItems (s : Settings) : List (Toml.Extent × Toml.Value) → Except SettingsError Settings
  | [] => .ok s
  | [(extent, name)] => s.setName extent name
  | (extent, name) :: (extent', scope) :: _ => do
    let s ← s.setName extent name
    s.setScope extent' scope

/-- Sets what the value of `template` says.  A list gives the values without their keys, and a
date sets nothing. -/
def setTemplate (s : Settings) (extent : Toml.Extent) : Toml.Value → Except SettingsError Settings
  | .table _ entries => s.setEntries entries
  | .array items | .tables items => s.setItems items
  | .datetime => .ok s
  | value => .error (.wrongType (describe value) "struct TemplateSettings" extent)

/-- Reads settings. -/
def ofText (text : String) : Except SettingsError Settings :=
  match Toml.Table.ofText? text.toList with
  | none => .error .malformed
  | some table =>
    match table.find? "template" with
    | none => .ok .default
    | some (extent, value) => Settings.default.setTemplate extent value

end Settings

end AtTemplate
