import AtTemplate.Script.Binding
import AtTemplate.Segment
import AtTemplate.Text.Quoted

/-!
# AtTemplate.Script.Procedure

The procedure that renders a template.  It collects output texts in a list and returns them
joined; each segment is one statement, and code is taken over as it is.
-/

namespace AtTemplate.Script

open Text

/-- A function of the model: the name of its parameter and its body. -/
structure Procedure where
  bindingName : String
  body : String
  deriving DecidableEq, Repr

namespace Procedure

/-- The procedure as a function expression. -/
def functionSource (p : Procedure) : String :=
  "(function (" ++ p.bindingName ++ r") {" ++ "\n" ++ p.body ++ r"})"

/-- The call of the procedure with a model that is written as an expression. -/
def invocationSource (p : Procedure) (model : String) : String :=
  p.functionSource ++ "(" ++ model ++ ")"

end Procedure

/-- A text as a string literal. -/
def stringLiteral (text : String) : String :=
  String.ofList (Quoted.encode text.toList)

/-- What stands before the statements.  The scope inherits the fields of the model and owns
the output, so that no field hides it. -/
def prologue (b : Binding) : String :=
  "var " ++ bufferName ++ " = [];\n" ++
    if b.implicitScope then
      r"with ({ __proto__: " ++ b.name ++ ", " ++ bufferName ++ ": " ++ bufferName
        ++ r" }) {" ++ "\n"
    else ""

/-- What stands behind the statements. -/
def epilogue (b : Binding) : String :=
  (if b.implicitScope then r"}" ++ "\n" else "") ++ "return " ++ bufferName ++ ".join(\"\");\n"

/-- The statement of a segment. -/
def statement : Segment → String
  | .literal text => bufferName ++ ".push(" ++ stringLiteral text ++ ");\n"
  | .expression text => bufferName ++ ".push((" ++ text ++ "));\n"
  | .code text => text ++ "\n"

/-- The procedure of some segments, whatever the name of the model is. -/
def Procedure.ofSegments (b : Binding) (segments : List Segment) : Procedure :=
  ⟨b.name, prologue b ++ String.join (segments.map statement) ++ epilogue b⟩

/-- The procedure of some segments, for a name that the model can be bound to. -/
def generate (b : Binding) (segments : List Segment) : Except TemplateError Procedure :=
  b.check.map fun _ => .ofSegments b segments

end AtTemplate.Script
