import AtTemplate.CommandLine.Arguments
import AtTemplate.Json.Reader
import AtTemplate.Report.Basic
import AtTemplate.Settings
import AtTemplate.Template

/-!
# AtTemplate.CommandLine.Run

What the command line does, up to how files are read.  Settings are read first, then the
template, and the model last, once the template is compiled.
-/

namespace AtTemplate.CommandLine

open Script

/-- How files and the standard input are read; a failure comes with its reason. -/
structure Console (m : Type → Type) where
  textOf : String → m (Except String String)
  input : m (Except String String)

/-- What a run leaves: its exit code and what it printed. -/
structure Result where
  code : Nat
  stdout : String
  stderr : String
  deriving DecidableEq, Repr

namespace Result

/-- The run went well and printed a text. -/
def printed (text : String) : Result :=
  ⟨0, text, ""⟩

/-- The run failed with a report. -/
def failed (report : String) : Result :=
  ⟨1, "", report⟩

/-- The arguments cannot be understood. -/
def misused : Result :=
  ⟨2, "", "error: invalid arguments\n"⟩

end Result

/-- A segment in JSON. -/
def segmentValue (s : Segment) : Json.Value :=
  let kind :=
    match s with
    | .literal _ => "literal"
    | .expression _ => "expression"
    | .code _ => "code"
  .object [("kind", .string kind), ("text", .string s.text)]

/-- Segments in JSON, one field to a line. -/
def segmentListing (segments : List Segment) : String :=
  (Json.Value.array (segments.map segmentValue)).spread "" ++ "\n"

/-- A failure to do something, in words. -/
def failure (action subject reason : String) : String :=
  "Error " ++ action ++ " '" ++ subject ++ "': " ++ reason ++ "\n"

/-- The report of a template that cannot be compiled or rendered. -/
def failureReport (source filename : String) : Failure → String
  | .template e => e.report source filename
  | .script e => "Error: " ++ e.message ++ "\n"

/-- How the model reaches the code: as the settings say, unless the arguments say otherwise. -/
def bindingOf (settings : Settings) (a : Arguments) : Binding where
  name := a.binding?.getD settings.binding.name
  implicitScope := settings.binding.implicitScope && !a.noImplicitScope

section

variable {m : Type → Type} [Monad m]

/-- Reads the settings that the arguments name. -/
def readSettings (console : Console m) (a : Arguments) : ExceptT String m Settings := do
  match a.config? with
  | none => return .default
  | some path =>
    match ← ExceptT.lift (console.textOf path) with
    | .error reason =>
      throw (failure "loading settings" path ("Failed to read settings file: " ++ reason))
    | .ok text =>
      match Settings.ofText text with
      | .ok settings => return settings
      | .error e =>
        throw (failure "loading settings" path ("Failed to parse settings TOML: " ++ e.report text))

/-- Reads the template, and tells where from. -/
def readTemplate (console : Console m) (a : Arguments) : ExceptT String m (String × String) := do
  match a.template? with
  | none =>
    match ← ExceptT.lift console.input with
    | .ok text => return (text, "<stdin>")
    | .error reason => throw ("Error reading from stdin: " ++ reason ++ "\n")
  | some path =>
    match ← ExceptT.lift (console.textOf path) with
    | .ok text => return (text, path)
    | .error reason => throw (failure "reading file" path reason)

/-- Reads the model; the empty object if the arguments name none. -/
def readModel (console : Console m) (a : Arguments) : ExceptT String m Json.Value := do
  match a.model? with
  | none => return .object []
  | some path =>
    match ← ExceptT.lift (console.textOf path) with
    | .error reason => throw (failure "reading model" path reason)
    | .ok text =>
      match Json.Value.ofText text.toList with
      | .ok model => return model
      | .error e => throw (failure "parsing model" path (e.message text.toList))

/-- What a run prints, or the report of its failure. -/
def execute (runtime : Runtime) (console : Console m) (a : Arguments) :
    ExceptT String m String := do
  let settings ← readSettings console a
  let (source, filename) ← readTemplate console a
  let report := failureReport source filename
  let compiled := (Template.compile ⟨bindingOf settings a, runtime⟩ source).mapError report
  match a.emit?.getD .output with
  | .segments =>
    segmentListing <$> liftExcept ((scan source).mapError (report ∘ .template))
  | .source => return (← liftExcept compiled).procedure.functionSource ++ "\n"
  | .output =>
    let template ← liftExcept compiled
    let model ← readModel console a
    liftExcept ((template.render model).mapError report)
where
  /-- A result without effects. -/
  liftExcept {α : Type} (e : Except String α) : ExceptT String m α :=
    ExceptT.mk (pure e)

/-- Runs the command line. -/
def run (runtime : Runtime) (console : Console m) (arguments : List String) : m Result := do
  match Arguments.ofList? arguments with
  | none => return .misused
  | some a =>
    match ← (execute runtime console a).run with
    | .ok text => return .printed text
    | .error report => return .failed report

end

end AtTemplate.CommandLine
