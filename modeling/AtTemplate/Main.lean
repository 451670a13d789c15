import AtTemplate.CommandLine.Run

/-!
# AtTemplate.Main

The program: the command line with the files of the system.
-/

namespace AtTemplate

/-- Why a file cannot be read, in words. -/
def readFailure : IO.Error → String
  | .noFileOrDirectory _ _ _ => "No such file or directory (os error 2)"
  | e => toString e

/-- The files and the standard input of the system. -/
def systemConsole : CommandLine.Console IO where
  textOf path := do
    match ← (IO.FS.readFile path).toBaseIO with
    | .ok text => return .ok text
    | .error e => return .error (readFailure e)
  input := do
    let input ← IO.getStdin
    match ← input.readToEnd.toBaseIO with
    | .ok text => return .ok text
    | .error e => return .error (readFailure e)

end AtTemplate

/-- Renders the template that the arguments name. -/
def main (arguments : List String) : IO UInt32 := do
  let result ← AtTemplate.CommandLine.run AtTemplate.Script.literalRuntime
    AtTemplate.systemConsole arguments
  IO.print result.stdout
  IO.eprint result.stderr
  return result.code.toUInt32
