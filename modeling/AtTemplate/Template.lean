import AtTemplate.Scan
import AtTemplate.Script.Runtime

/-!
# AtTemplate.Template

Compiled templates.  Compiling scans the source, writes the procedure and has the runtime load
it; the template then renders any number of models.
-/

namespace AtTemplate

open Script

/-- How a template is compiled: how the model reaches the code, and what carries it out. -/
structure CompileOptions where
  binding : Binding
  runtime : Runtime

/-- Why a template cannot be compiled or rendered. -/
inductive Failure where
  | template (error : TemplateError)
  | script (error : ScriptError)
  deriving DecidableEq, Repr

/-- What stands before the message of an error in a template. -/
def Failure.templateOpening : String := "compile error: "

/-- The failure in words. -/
def Failure.message : Failure → String
  | .template error => templateOpening ++ error.message
  | .script error => "script error: " ++ error.message

/-- A compiled template. -/
structure Template where
  procedure : Procedure
  runtime : Runtime

namespace Template

/-- Compiles a template.  The source is scanned first; then the name of the model is checked,
and last the procedure is loaded. -/
def compile (options : CompileOptions) (source : String) : Except Failure Template := do
  let segments ← (scan source).mapError .template
  let procedure ← (generate options.binding segments).mapError .template
  (options.runtime.check procedure).mapError .script
  return ⟨procedure, options.runtime⟩

/-- Renders a model. -/
def render (t : Template) (model : Json.Value) : Except Failure String :=
  (t.runtime.run t.procedure model).mapError .script

/-- Renders the model without any fields. -/
def renderEmpty (t : Template) : Except Failure String :=
  t.render (.object [])

end Template

end AtTemplate
