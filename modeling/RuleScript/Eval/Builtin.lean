import RuleScript.Eval.World

/-!
# Builtins

What can be called without being defined. A rule of the same name that can be
seen from the call goes before.
-/

namespace RuleScript

/-- The builtins. -/
inductive Builtin where
  /-- prints a value on a line of its own, and gives it back -/
  | print
  deriving DecidableEq, Repr

namespace Builtin

/-- The name a builtin is called by. -/
def name : Builtin → String
  | .print => "print"

/-- The builtin of a name. -/
def ofName? (name : String) : Option Builtin :=
  if name = "print" then some .print else none

/-- The reason given when a sink takes no more. -/
def sinkFull : String := "sink full"

/-- Prints the one argument on a line of its own and gives it back. -/
def printLine (args : List Value) (span : Span) (sink : Sink) : Except Fault Value × Sink :=
  match args with
  | [value] =>
    match sink.write (value.display ++ "\n") with
    | (true, sink') => (.ok value, sink')
    | (false, sink') => (.error (.output sinkFull span), sink')
  | args => (.error (.arityMismatch print.name 1 args.length span), sink)

/-- The result of calling a builtin, and the sink afterwards. -/
def call (b : Builtin) (args : List Value) (span : Span) (sink : Sink) :
    Except Fault Value × Sink :=
  match b with
  | .print => printLine args span sink

end Builtin

end RuleScript
