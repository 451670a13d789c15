import AtTemplate.Json.Value
import AtTemplate.Script.Procedure

/-!
# AtTemplate.Script.Runtime

What carries procedures out.  A runtime loads a procedure and runs it for a model; either may
fail.  `literalRuntime` runs the procedures that only write text.
-/

namespace AtTemplate.Script

open Text

/-- Why a procedure cannot be loaded or run. -/
inductive ScriptError where
  | load (reason : String)
  | evaluation (reason : String)
  deriving DecidableEq, Repr

/-- The error in words. -/
def ScriptError.message : ScriptError → String
  | .load reason => "generated code failed to load: " ++ reason
  | .evaluation reason => "template raised an error: " ++ reason

/-- What carries procedures out. -/
structure Runtime where
  check : Procedure → Except ScriptError Unit
  run : Procedure → Json.Value → Except ScriptError String

/-- The text that a statement writes, when the statement stands at the head of some source and
writes a literal, and the source behind it. -/
def takeLiteral? (source : List Char) : Option (List Char × List Char) := do
  let opening := (bufferName ++ ".push(\"").toList
  guard (opening.isPrefixOf source)
  match Quoted.read (source.drop opening.length) with
  | .ok (text, ')' :: ';' :: '\n' :: rest) => some (text, rest)
  | _ => none

/-- The texts that the statements before `stop` write, when all of them write literals.  There
is at most one statement for each character. -/
def literalsBefore? (stop : List Char) : Nat → List Char → Option (List Char)
  | 0, _ => none
  | n + 1, source =>
    if source = stop then some []
    else do
      let (text, rest) ← takeLiteral? source
      return text ++ (← literalsBefore? stop n rest)

/-- The text that a procedure writes, when it writes literals only. -/
def Procedure.literalText? (p : Procedure) : Option String := do
  let body := p.body.toList
  let ofBinding (b : Binding) : Option (List Char) := do
    let start := (prologue b).toList
    guard (start.isPrefixOf body)
    literalsBefore? (epilogue b).toList (body.length + 1) (body.drop start.length)
  let text ← ofBinding ⟨p.bindingName, true⟩ <|> ofBinding ⟨p.bindingName, false⟩
  return String.ofList text

/-- Loads every procedure, and runs those that only write text. -/
def literalRuntime : Runtime where
  check _ := .ok ()
  run p _ :=
    match p.literalText? with
    | some text => .ok text
    | none => .error (.evaluation "only literal text can be rendered")

end AtTemplate.Script
