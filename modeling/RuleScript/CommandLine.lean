import RuleScript.Session
import RuleScript.Diagnostic
import RuleScript.Syntax.Dump

/-!
# The command line

What the program does with its arguments, as a function: `Invocation.ofArgs`
reads the arguments, and `Invocation.respond` gives the exit status and the two
texts to write, given a way to read files. Reading and writing is all that is
left to do elsewhere.

The exit status is zero if all went well, one if the source is no program or
the program stopped, and two if the program was called in a wrong way or the
file could not be read.
-/

namespace RuleScript

/-- What to do with a source file. -/
inductive Task where
  /-- run it, and show the value of the program if asked to -/
  | run (showResult : Bool)
  /-- list its tokens -/
  | tokens
  /-- dump its syntax tree -/
  | parse
  deriving DecidableEq, Repr

/-- What the arguments ask for. -/
inductive Invocation where
  /-- the version of the program -/
  | version
  /-- how to call the program -/
  | help
  /-- something to do with a file, and how much to tell about it -/
  | perform (task : Task) (file : String) (verbosity : Nat)
  deriving DecidableEq, Repr

/-- What the program leaves behind. -/
structure Exit where
  /-- the exit status -/
  code : Nat
  /-- the text for standard output -/
  stdout : String
  /-- the text for standard error -/
  stderr : String
  deriving DecidableEq, Repr

namespace Invocation

/-! ### Reading arguments -/

/-- What an argument that begins with a dash asks for. -/
inductive Flag where
  | version
  | help
  | verbose (times : Nat)
  | showResult
  deriving DecidableEq, Repr

/-- What a cluster of one-letter flags asks for. -/
def clusterFlag : Nat → List Char → Option Flag
  | times, [] => some (.verbose times)
  | times, 'v' :: cs => clusterFlag (times + 1) cs
  | _, 'V' :: _ => some .version
  | _, 'h' :: _ => some .help
  | _, _ => none

/-- What an argument that begins with a dash asks for, if it is known. -/
def flag? (arg : String) : Option Flag :=
  match arg.toList with
  | '-' :: '-' :: name =>
    if name = "version".toList then some .version
    else if name = "help".toList then some .help
    else if name = "verbose".toList then some (.verbose 1)
    else if name = "show-result".toList then some .showResult
    else none
  | '-' :: cs => clusterFlag 0 cs
  | _ => none

/-- Whether an argument is to be read as a flag. A dash alone is not. -/
def isFlag (arg : String) : Bool :=
  match arg.toList with
  | '-' :: _ :: _ => true
  | _ => false

/-- Reads what follows the task. There is one file, which is not empty; flags
may stand before and after it, up to two dashes by themselves. -/
def ofTask (task : Task) (verbosity : Nat) : Option String → Bool → List String → Option Invocation
  | none, _, [] => none
  | some file, _, [] => some (.perform task file verbosity)
  | file, true, arg :: args =>
    if isFlag arg then
      if arg = "--" then ofTask task verbosity file false args
      else
        match flag? arg with
        | some (.verbose times) => ofTask task (verbosity + times) file true args
        | some .help => some .help
        | some .showResult =>
          match task with
          | .run false => ofTask (.run true) verbosity file true args
          | _ => none
        | _ => none
    else if file.isSome || arg.isEmpty then none
    else ofTask task verbosity (some arg) true args
  | file, false, arg :: args =>
    if file.isSome || arg.isEmpty then none
    else ofTask task verbosity (some arg) false args

/-- The task of a name. -/
def task? (name : String) : Option Task :=
  if name = "run" then some (.run false)
  else if name = "tokens" then some .tokens
  else if name = "parse" then some .parse
  else none

/-- Reads what follows the word that asks for help: nothing, or the one thing
that help is wanted with, a task or help itself. Flags have no place there. -/
def ofTopics : List String → Option Invocation
  | [] => some .help
  | [topic] => if topic = "help" || (task? topic).isSome then some .help else none
  | _ => none

/-- Reads the arguments. Before the task only flags may stand. -/
def ofArgs (verbosity : Nat) : List String → Option Invocation
  | [] => none
  | arg :: args =>
    if isFlag arg then
      match flag? arg with
      | some .version => some .version
      | some .help => some .help
      | some (.verbose times) => ofArgs (verbosity + times) args
      | _ => none
    else if arg = "help" then ofTopics args
    else
      match task? arg with
      | some task => ofTask task verbosity none true args
      | none => none

/-! ### Files -/

/-- The parts of a path that name something. -/
def pathParts (path : String) : List String :=
  (path.splitOn "/").filter fun part => part ≠ "" ∧ part ≠ "."

/-- The extension of the file that a path names: what follows the last point of
its name. A name that begins with its only point has none. -/
def extension? (path : String) : Option String :=
  match (pathParts path).getLast? with
  | none => none
  | some name =>
    if name = ".." then none
    else
      match (name.splitOn ".").reverse with
      | last :: before :: more =>
        if before.isEmpty && more.isEmpty then none else some last
      | _ => none

/-- The extension of source files. -/
def sourceExtension : String := "cisp"

/-! ### Doing it -/

/-- The version of the program. -/
def versionText : String := "cisp 0.1.0\n"

/-- How to call the program. -/
def usageText : String :=
  "Interpreter for the cisp rule language\n\n"
    ++ "Usage: cisp [-v]... <COMMAND>\n\n"
    ++ "Commands:\n"
    ++ "  run [--show-result] FILE  Evaluate a program by invoking its `main` rule\n"
    ++ "  tokens FILE               Dump the token stream\n"
    ++ "  parse FILE                Dump the parsed program\n\n"
    ++ "Options:\n"
    ++ "  -v, --verbose  Raise log verbosity (-v debug, -vv trace)\n"
    ++ "  -h, --help     Print help\n"
    ++ "  -V, --version  Print version\n"

/-- An event as one line. -/
def eventLine (e : Event) : String :=
  let field (f : String × String) : String := " " ++ f.1 ++ "=" ++ f.2
  e.level ++ " " ++ e.message ++ String.join (e.fields.map field) ++ "\n"

/-- The events that are told at a verbosity. -/
def log (verbosity : Nat) (events : List Event) : String :=
  let told (e : Event) : Bool := 2 ≤ verbosity || (verbosity == 1 && e.level == "DEBUG")
  String.join ((events.filter told).map eventLine)

/-- Lists the tokens of a source. -/
def listTokens (source : String) : Exit :=
  let (tokens, failure) := (Cursor.ofString source).tokens
  let listing := String.join (tokens.map fun t => t.display ++ "\n")
  match failure with
  | none => ⟨0, listing, ""⟩
  | some e => ⟨1, listing, e.diagnostic.render⟩

/-- Dumps the syntax tree of a source. -/
def dumpTree (verbosity : Nat) (source : String) : Exit :=
  match RuleScript.parse source with
  | .ok p => ⟨0, p.dump ++ "\n", log verbosity [.parsedProgram p.items.length]⟩
  | .error e => ⟨1, "", e.diagnostic.render⟩

/-- Runs a source. -/
def runProgram (depth : Nat) (showResult : Bool) (verbosity : Nat) (source : String) : Exit :=
  match (runSource depth source (.empty none)).1 with
  | .error e => ⟨1, "", e.diagnostic.render⟩
  | .ok report =>
    let told := log verbosity report.events
    match report.outcome with
    | .done value =>
      ⟨0, report.output ++ (if showResult then value.display ++ "\n" else ""), told⟩
    | .failed fault => ⟨1, report.output, told ++ fault.diagnostic.render⟩
    | .exhausted => ⟨1, report.output, told ++ "recursion is too deep\n"⟩

/-- Does a task for a source. -/
def doTask (depth : Nat) (verbosity : Nat) (source : String) : Task → Exit
  | .run showResult => runProgram depth showResult verbosity source
  | .tokens => listTokens source
  | .parse => dumpTree verbosity source

/-- Does a task for a file. The extension is looked at before the file is. -/
def doFile (depth : Nat) (read : String → Except String ByteArray) (task : Task) (file : String)
    (verbosity : Nat) : Exit :=
  if extension? file ≠ some sourceExtension then
    ⟨2, "", "Invalid file extension. Only .cisp files are allowed.\n"⟩
  else
    let failure (reason : String) : Exit :=
      ⟨2, "", "Failed to access " ++ file ++ ": " ++ reason ++ "\n"⟩
    match read file with
    | .error reason => failure reason
    | .ok bytes =>
      match String.fromUTF8? bytes with
      | none => failure "stream did not contain valid UTF-8"
      | some source => doTask depth verbosity source task

/-- Does what the arguments ask for, with a way to read files. -/
def respond (depth : Nat) (read : String → Except String ByteArray) (args : List String) : Exit :=
  match ofArgs 0 args with
  | none => ⟨2, "", usageText⟩
  | some .version => ⟨0, versionText, ""⟩
  | some .help => ⟨0, usageText, ""⟩
  | some (.perform task file verbosity) => doFile depth read task file verbosity

end Invocation

end RuleScript
