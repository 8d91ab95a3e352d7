import RuleScript.Store
import RuleScript.Fault
import RuleScript.Process

/-!
# The world of a running program

Everything a running program changes: its scopes, what it has printed, and the
record of what it did.

* A `Sink` takes what is printed. It may have a limit, and then takes as many
  bytes as fit and refuses the rest.
* An `Event` is one entry of the record.
* `Eval` is a computation over the world that may stop with a fault. The world
  stays as the fault left it.
-/

namespace RuleScript

/-! ### Printing -/

/-- Where printed text goes. -/
structure Sink where
  /-- how many bytes it takes in all, if that is limited -/
  limit : Option Nat
  /-- the bytes it has taken -/
  written : ByteArray

namespace Sink

/-- An empty sink with or without a limit. -/
def empty (limit : Option Nat) : Sink := ⟨limit, ByteArray.empty⟩

/-- The bytes that can still be taken, if that is limited. -/
def room (s : Sink) : Option Nat := s.limit.map (· - s.written.size)

/-- Takes a text, or as much of it as there is room for, and tells whether all
of it was taken. -/
def write (s : Sink) (text : String) : Bool × Sink :=
  let bytes := text.toUTF8
  match s.room with
  | none => (true, ⟨s.limit, s.written ++ bytes⟩)
  | some room =>
    (decide (bytes.size ≤ room), ⟨s.limit, s.written ++ bytes.extract 0 room⟩)

/-- The text taken after so many bytes. -/
def textFrom (s : Sink) (start : Nat) : String :=
  (String.fromUTF8? (s.written.extract start s.written.size)).getD ""

end Sink

/-! ### The record -/

/-- Something worth recording. -/
inductive Event where
  /-- a source was read as a program -/
  | parsedProgram (items : Nat)
  /-- a rule was defined, so many scopes deep -/
  | registeredRule (rule : String) (depth : Nat)
  /-- a rule was defined twice -/
  | duplicateRule (rule : String) (previous : Location)
  /-- a program is begun -/
  | invokingMain (rules : Nat)
  /-- a rule is called -/
  | invokingRule (rule : String) (args : Nat)
  /-- a rule was left by a return -/
  | returned (rule : String)
  /-- a return leaves the rule it is in -/
  | unwinding (value : Value)
  /-- a builtin is called -/
  | callingBuiltin (builtin : String) (args : Nat)

namespace Event

/-- How much detail one has to ask for to see an event. -/
def level : Event → String
  | .parsedProgram _ => "DEBUG"
  | .registeredRule _ _ => "DEBUG"
  | .duplicateRule _ _ => "DEBUG"
  | .invokingMain _ => "DEBUG"
  | .invokingRule _ _ => "TRACE"
  | .returned _ => "TRACE"
  | .unwinding _ => "TRACE"
  | .callingBuiltin _ _ => "TRACE"

/-- What happened. -/
def message : Event → String
  | .parsedProgram _ => "parsed program"
  | .registeredRule _ _ => "registered rule"
  | .duplicateRule _ _ => "duplicate rule definition"
  | .invokingMain _ => "invoking main"
  | .invokingRule _ _ => "invoking rule"
  | .returned _ => "returned"
  | .unwinding _ => "unwinding @return"
  | .callingBuiltin _ _ => "calling builtin"

/-- The particulars, each under its name. -/
def fields : Event → List (String × String)
  | .parsedProgram items => [("items", toString items)]
  | .registeredRule rule depth => [("rule", rule), ("depth", toString depth)]
  | .duplicateRule rule previous => [("rule", rule), ("previous", previous.display)]
  | .invokingMain rules => [("rules", toString rules)]
  | .invokingRule rule args => [("rule", rule), ("args", toString args)]
  | .returned rule => [("rule", rule)]
  | .unwinding value => [("value", value.display)]
  | .callingBuiltin builtin args => [("builtin", builtin), ("args", toString args)]

end Event

/-! ### The world -/

/-- What a running program changes. -/
structure World where
  /-- its scopes -/
  store : Store
  /-- what it has printed -/
  sink : Sink
  /-- what it has done -/
  events : Array Event

/-- The world before a program is run: no scopes, and nothing recorded. -/
def World.start (sink : Sink) : World := ⟨.empty, sink, #[]⟩

/-- A computation over the world that may stop with a fault. -/
abbrev Eval (α : Type) : Type := Process World Fault α

namespace Eval

/-- Records an event. -/
def record (event : Event) : Eval Unit :=
  Process.update fun w => ⟨w.store, w.sink, w.events.push event⟩

/-- Gives the store. -/
def store : Eval Store := ⟨fun w => (.done w.store, w)⟩

/-- Defines a rule in a scope, or gives the one of that name that is already
there. -/
def defineRule (scope : ScopeId) (rule : Rule) : Eval (Option Rule) where
  run w :=
    match w.store.define scope rule with
    | .ok store => (.done none, ⟨store, w.sink, w.events⟩)
    | .error existing => (.done (some existing), w)

/-- Adds a scope and gives its name. -/
def addScope (parent : Option ScopeId) : Eval ScopeId :=
  ⟨fun w => (.done w.store.frames.size, ⟨w.store.add parent, w.sink, w.events⟩)⟩

/-- Sets a variable in a scope. -/
def setVariable (scope : ScopeId) (name : String) (value : Value) : Eval Unit :=
  Process.update fun w => ⟨w.store.setVariable scope name value, w.sink, w.events⟩

end Eval

end RuleScript
