import RuleScript.CommandLine

/-!
# The program

Reads the file that the arguments name, if they name one, and writes what
`RuleScript.Invocation.respond` answers.
-/

namespace RuleScript

/-- More levels of recursion than the stack of a process holds. -/
def recursionLimit : Nat := 1000000000

/-- The reason why a file could not be read, with the number the system gives
it. -/
def readFailure : IO.Error → String
  | .noFileOrDirectory _ code _ => "No such file or directory (os error " ++ toString code ++ ")"
  | .permissionDenied _ code _ => "Permission denied (os error " ++ toString code ++ ")"
  | e => toString e

/-- The bytes of a file, or the reason why it could not be read. -/
def readFile (path : String) : IO (Except String ByteArray) := do
  try
    return .ok (← IO.FS.readBinFile path)
  catch e =>
    return .error (readFailure e)

/-- The bytes of the file that the arguments ask for. -/
def readNamedFile (args : List String) : IO (Except String ByteArray) :=
  match Invocation.ofArgs 0 args with
  | some (.perform _ file _) => readFile file
  | _ => return .error ""

end RuleScript

/-- Answers the arguments. -/
def main (args : List String) : IO UInt32 := do
  let file ← RuleScript.readNamedFile args
  let exit := RuleScript.Invocation.respond RuleScript.recursionLimit (fun _ => file) args
  IO.print exit.stdout
  IO.eprint exit.stderr
  return exit.code.toUInt32
