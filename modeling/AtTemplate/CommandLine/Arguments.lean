/-!
# AtTemplate.CommandLine.Arguments

The arguments of the command line: at most one template, and options in their long and short
forms.  The value of an option follows it, is joined to it by an equals sign, or stands right
behind its letter.
-/

namespace AtTemplate.CommandLine

/-- What is printed. -/
inductive Emit where
  /-- The rendered template. -/
  | output
  /-- The segments of the template. -/
  | segments
  /-- The procedure that renders the template. -/
  | source
  deriving DecidableEq, Repr

/-- The thing to print that a word names. -/
def Emit.ofWord? (word : String) : Option Emit :=
  if word = "output" then some .output
  else if word = "segments" then some .segments
  else if word = "source" then some .source
  else none

/-- What the arguments say.  A template that is not named is read from the standard input. -/
structure Arguments where
  template? : Option String
  model? : Option String
  config? : Option String
  binding? : Option String
  noImplicitScope : Bool
  emit? : Option Emit
  verbose : Bool
  deriving DecidableEq, Repr

/-- The options. -/
inductive Flag where
  | model
  | config
  | binding
  | emit
  | noImplicitScope
  | verbose
  deriving DecidableEq, Repr

namespace Flag

/-- The option with a long name. -/
def ofName? (name : String) : Option Flag :=
  if name = "model" then some .model
  else if name = "config" then some .config
  else if name = "binding" then some .binding
  else if name = "emit" then some .emit
  else if name = "no-implicit-scope" then some .noImplicitScope
  else if name = "verbose" then some .verbose
  else none

/-- The option with a letter. -/
def ofLetter? : Char → Option Flag
  | 'm' => some .model
  | 'c' => some .config
  | 'b' => some .binding
  | 'e' => some .emit
  | 'v' => some .verbose
  | _ => none

/-- Whether the option has a value. -/
def hasValue : Flag → Bool
  | .noImplicitScope | .verbose => false
  | _ => true

end Flag

namespace Arguments

/-- No arguments. -/
def none : Arguments :=
  ⟨.none, .none, .none, .none, false, .none, false⟩

/-- Sets a path, which must not be empty, unless it is set already. -/
def path? (old : Option String) (value : String) : Option (Option String) :=
  if old.isNone ∧ value ≠ "" then some (some value) else .none

/-- Takes an option with its value.  No option may be given twice. -/
def set? (a : Arguments) (flag : Flag) (value : String) : Option Arguments :=
  match flag with
  | .model => (path? a.model? value).map ({ a with model? := · })
  | .config => (path? a.config? value).map ({ a with config? := · })
  | .binding => if a.binding?.isNone then some { a with binding? := some value } else .none
  | .emit =>
    match Emit.ofWord? value with
    | some emit => if a.emit?.isNone then some { a with emit? := some emit } else .none
    | .none => .none
  | .noImplicitScope => if a.noImplicitScope then .none else some { a with noImplicitScope := true }
  | .verbose => if a.verbose then .none else some { a with verbose := true }

/-- Takes the template. -/
def setTemplate? (a : Arguments) (path : String) : Option Arguments :=
  (path? a.template? path).map ({ a with template? := · })

/-- What a cluster of letters says: the options without a value, and the last option with what
stands behind its letter. -/
def letters? (a : Arguments) : List Char → Option (Arguments × Option (Flag × List Char))
  | [] => some (a, .none)
  | c :: rest => do
    let flag ← Flag.ofLetter? c
    if flag.hasValue then return (a, some (flag, rest))
    else letters? (← a.set? flag "") rest

/-- Divides a text before an equals sign. -/
def splitEquals (text : List Char) : List Char × Option (List Char) :=
  match text.dropWhile (· ≠ '=') with
  | [] => (text, .none)
  | _ :: value => (text.takeWhile (· ≠ '='), some value)

/-- Whether an argument can be a value of its own: it does not begin like an option. -/
def isValue (argument : String) : Bool :=
  argument = "-" || argument.toList.head? ≠ some '-'

/-- Takes an option that still needs its value from the arguments that follow. -/
def takeValue? (a : Arguments) (flag : Flag) : List String → Option (Arguments × List String)
  | value :: rest => do
    guard (isValue value)
    return (← a.set? flag value, rest)
  | [] => .none

/-- Takes one argument, and perhaps the value behind it. -/
def takeOne? (a : Arguments) (argument : String) (rest : List String) :
    Option (Arguments × List String) :=
  match argument.toList with
  | '-' :: '-' :: name => do
    let (name, value?) := splitEquals name
    let flag ← Flag.ofName? (String.ofList name)
    match flag.hasValue, value? with
    | true, some value => return (← a.set? flag (String.ofList value), rest)
    | true, .none => a.takeValue? flag rest
    | false, .none => return (← a.set? flag "", rest)
    | false, some _ => .none
  | '-' :: c :: letters => do
    match ← a.letters? (c :: letters) with
    | (a, .none) => return (a, rest)
    | (a, some (flag, [])) => a.takeValue? flag rest
    | (a, some (flag, '=' :: value)) => return (← a.set? flag (String.ofList value), rest)
    | (a, some (flag, value)) => return (← a.set? flag (String.ofList value), rest)
  | _ => do return (← a.setTemplate? argument, rest)

/-- Takes all arguments; `fuel` bounds their number.  Behind two dashes there are no options. -/
def takeAll? (fuel : Nat) (a : Arguments) : List String → Option Arguments
  | [] => some a
  | "--" :: rest => rest.foldlM setTemplate? a
  | argument :: rest =>
    match fuel with
    | 0 => .none
    | fuel + 1 => do
      let (a, rest) ← a.takeOne? argument rest
      takeAll? fuel a rest

/-- What the arguments say; none when they cannot be understood. -/
def ofList? (arguments : List String) : Option Arguments :=
  takeAll? arguments.length none arguments

end Arguments

end AtTemplate.CommandLine
