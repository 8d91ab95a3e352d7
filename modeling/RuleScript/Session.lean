import RuleScript.Eval.Semantics
import RuleScript.Parse

/-!
# Running programs

A `Report` is what running a program leaves behind: how it ended, what it
printed and what it did. Several programs can be run one after another on one
sink, each in a world of its own; the sink's limit then counts for all of them
together.
-/

namespace RuleScript

/-- What is left after a program was run. -/
structure Report where
  /-- how it ended -/
  outcome : Outcome Fault Value
  /-- what it printed -/
  output : String
  /-- what it did -/
  events : List Event

/-- Runs a program on a sink, and gives the sink back. The output of the report
is what this program printed. -/
def Program.report (depth : Nat) (p : Program) (sink : Sink) : Report × Sink :=
  let (outcome, w) := (Eval.program depth p).run (.start sink)
  (⟨outcome, w.sink.textFrom sink.written.size, w.events.toList⟩, w.sink)

/-- Reads and runs a source on a sink, and gives the sink back. Reading is the
first thing recorded. -/
def runSource (depth : Nat) (source : String) (sink : Sink) : Except SyntaxError Report × Sink :=
  match parse source with
  | .error e => (.error e, sink)
  | .ok p =>
    let (report, sink') := p.report depth sink
    let events := .parsedProgram p.items.length :: report.events
    (.ok ⟨report.outcome, report.output, events⟩, sink')

/-- Reads and runs sources one after another on one sink. -/
def runSources (depth : Nat) : List String → Sink → List (Except SyntaxError Report)
  | [], _ => []
  | source :: more, sink =>
    let (result, sink') := runSource depth source sink
    result :: runSources depth more sink'

end RuleScript
