import AtTemplate.Error
import AtTemplate.Name

/-!
# AtTemplate.Script.Binding

How the model reaches the embedded code: the name that it is bound to, and whether its fields
are in scope themselves.
-/

namespace AtTemplate.Script

/-- The name of the list of output texts in a procedure. -/
def bufferName : String := "__vout"

/-- The words that the embedded language keeps for itself. -/
def reservedWords : List String :=
  ["await", "break", "case", "catch", "class", "const", "continue", "debugger", "default",
    "delete", "do", "else", "enum", "export", "extends", "false", "finally", "for", "function",
    "if", "implements", "import", "in", "instanceof", "interface", "let", "new", "null",
    "package", "private", "protected", "public", "return", "static", "super", "switch", "this",
    "throw", "true", "try", "typeof", "var", "void", "while", "with", "yield"]

/-- Whether a text is a name as a whole. -/
def isName (name : String) : Bool :=
  match name.toList with
  | [] => false
  | c :: rest => isNameStart c && rest.all isNameChar

/-- Whether the model can be bound to a name: one that is neither a reserved word nor that of
the output. -/
def isBindingName (name : String) : Bool :=
  isName name && !reservedWords.contains name && name != bufferName

/-- How the model reaches the embedded code. -/
structure Binding where
  /-- The name of the model. -/
  name : String
  /-- Whether the fields of the model are in scope without its name. -/
  implicitScope : Bool
  deriving DecidableEq, Repr

namespace Binding

/-- The model is bound to `model`, and its fields are in scope. -/
def default : Binding :=
  ⟨"model", true⟩

/-- Refuses a name that the model cannot be bound to. -/
def check (b : Binding) : Except TemplateError Unit :=
  if isBindingName b.name then .ok () else .error (.invalidBindingName b.name)

end Binding

end AtTemplate.Script
