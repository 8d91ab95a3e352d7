import RuleScript.Fault
import RuleScript.SyntaxError

/-!
# Diagnostics

A syntax error or a fault, ready to be shown beside its source: a message with
its family in front, help if there is any, and labels on the text to blame. A
label gives bytes: where the text begins, and how long it is.
-/

namespace RuleScript

/-- A remark on a stretch of source. -/
structure Label where
  /-- the remark -/
  text : String
  /-- bytes before the stretch -/
  offset : Nat
  /-- bytes in it -/
  len : Nat
  deriving DecidableEq, Repr

/-- A remark on a span. -/
def Label.on (text : String) (span : Span) : Label := ⟨text, span.start.pos, span.len⟩

/-- What there is to show. -/
structure Diagnostic where
  /-- what went wrong -/
  message : String
  /-- what to do about it -/
  help : Option String
  /-- where to look -/
  labels : List Label
  deriving DecidableEq, Repr

/-- What there is to show of a syntax error. -/
def SyntaxError.diagnostic (e : SyntaxError) : Diagnostic where
  message := e.cause.family ++ ": " ++ e.message
  help := e.help
  labels := [.on "here" e.span]

/-- The remark on the part of a program that a fault blames. -/
def Fault.labelText : Fault → String
  | .duplicateDefinition .. => "redefined here"
  | _ => "here"

/-- What there is to show of a fault. -/
def Fault.diagnostic (f : Fault) : Diagnostic where
  message := f.category.title ++ ": " ++ f.message
  help := f.help
  labels :=
    (f.span?.map (Label.on f.labelText)).toList
      ++ (f.previous?.map (Label.on "previous definition")).toList

/-- A diagnostic as plain text, a line for each of its parts. -/
def Diagnostic.render (d : Diagnostic) : String :=
  let label (l : Label) : String :=
    "  " ++ l.text ++ ": " ++ toString l.len ++ " byte(s) at offset " ++ toString l.offset ++ "\n"
  d.message ++ "\n" ++ String.join (d.labels.map label)
    ++ String.join (d.help.toList.map fun h => "  help: " ++ h ++ "\n")

end RuleScript
