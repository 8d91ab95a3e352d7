import Std.Data.ExtTreeMap
import RuleScript.Syntax.Tree
import RuleScript.Value
import RuleScript.Text.Quoted

/-!
# The store of scopes

Variables and rules live in **scopes**. A scope has its own variables and
rules and, unless it is a root, a scope around it, in which names are looked up
that it does not have itself. Scopes are only ever added to a store, and the
scope around a scope never changes.

* A scope is named by a `ScopeId`, its index in the store. `Store.outward`, a
  part of the type, says that the scope around a scope was added before it: so
  there are no cycles, and `Store.chain`, the scopes from one outward, is a
  finite list.
* Looking a name up is a search along that chain (`Store.valueOf?`,
  `Store.rule?`). A rule is found together with the scope that holds it.
* A variable can be set again; a rule, once it is there, stays as it is
  (`Store.define`).
-/

namespace RuleScript

/-- The name of a scope in a store. -/
abbrev ScopeId := Nat

/-- One scope. -/
structure Frame where
  /-- its own variables -/
  values : Std.ExtTreeMap String Value
  /-- its own rules -/
  rules : Std.ExtTreeMap String Rule
  /-- the scope around it -/
  parent : Option ScopeId

/-- A scope in which nothing has been declared. -/
def Frame.within (parent : Option ScopeId) : Frame := ⟨∅, ∅, parent⟩

/-- All scopes there are, in the order in which they were added. -/
structure Store where
  /-- the scopes -/
  frames : Array Frame
  /-- the scope around a scope was there before it -/
  outward : ∀ (i : ScopeId) (f : Frame), frames[i]? = some f → ∀ p, f.parent = some p → p < i

/-- Why a name could not be looked up. -/
inductive LookupError where
  /-- there is no such variable -/
  | unboundVariable (name : String)
  /-- there is no such rule, though there may be a variable of that name -/
  | unboundFunction (name : String) (isVariable : Bool)
  deriving DecidableEq, Repr

/-- What went wrong. -/
def LookupError.message : LookupError → String
  | .unboundVariable name => "unbound variable " ++ quoteCode name
  | .unboundFunction name _ => "unbound function " ++ quoteCode name

namespace Store

/-- The store without scopes. -/
def empty : Store := ⟨#[], by simp⟩

instance : Inhabited Store := ⟨empty⟩

/-- Adds a scope. One around it has to be there already, and is left away
otherwise. -/
def add (s : Store) (parent : Option ScopeId) : Store where
  frames := s.frames.push (.within (parent.filter (· < s.frames.size)))
  outward := by
    intro i f hf p hp
    rw [Array.getElem?_push] at hf
    split at hf
    · next h =>
      cases hf
      simp only [Frame.within, Option.filter_eq_some_iff] at hp
      exact h ▸ of_decide_eq_true hp.2
    · exact s.outward i f hf p hp

/-- Changes what a scope declares, and not the scope around it. -/
def modify (s : Store) (id : ScopeId) (change : Frame → Frame)
    (h : ∀ f, (change f).parent = f.parent) : Store where
  frames := s.frames.modify id change
  outward := by
    intro i f hf p hp
    rw [Array.getElem?_modify] at hf
    split at hf
    · obtain ⟨g, hg, rfl⟩ := Option.map_eq_some_iff.1 hf
      exact s.outward i g hg p (by rw [← h g, hp])
    · exact s.outward i f hf p hp

/-! ### Scopes around a scope -/

/-- The scope around a scope. -/
def parent? (s : Store) (id : ScopeId) : Option ScopeId :=
  s.frames[id]?.bind Frame.parent

/-- The scope around a scope was added before it. -/
theorem parent?_lt {s : Store} {id p : ScopeId} (h : s.parent? id = some p) : p < id := by
  obtain ⟨f, hf, hp⟩ := Option.bind_eq_some_iff.1 h
  exact s.outward id f hf p hp

/-- The scopes from one outward. -/
def chain (s : Store) (id : ScopeId) : List ScopeId :=
  match h : s.parent? id with
  | none => [id]
  | some p =>
    have := parent?_lt h
    id :: s.chain p
termination_by id

/-- How many scopes there are around a scope. -/
def depth (s : Store) (id : ScopeId) : Nat := (s.chain id).length - 1

/-! ### Variables and rules -/

/-- Sets a variable in a scope. -/
def setVariable (s : Store) (id : ScopeId) (name : String) (value : Value) : Store :=
  s.modify id (fun f => ⟨f.values.insert name value, f.rules, f.parent⟩) fun _ => rfl

/-- The value of a variable in the nearest scope that has it. -/
def valueOf? (s : Store) (id : ScopeId) (name : String) : Option Value :=
  (s.chain id).findSome? fun i => s.frames[i]?.bind fun f => f.values[name]?

/-- The rule that a scope itself has under a name. -/
def ownRule? (s : Store) (id : ScopeId) (name : String) : Option Rule :=
  s.frames[id]?.bind fun f => f.rules[name]?

/-- The rule of a name in the nearest scope that has one, and that scope. -/
def rule? (s : Store) (id : ScopeId) (name : String) : Option (Rule × ScopeId) :=
  (s.chain id).findSome? fun i => (s.ownRule? i name).map fun r => (r, i)

/-- Defines a rule in a scope. A rule of that name which the scope already has
stays, and is given instead. -/
def define (s : Store) (id : ScopeId) (rule : Rule) : Except Rule Store :=
  match s.ownRule? id rule.name with
  | some existing => .error existing
  | none =>
    .ok (s.modify id (fun f => ⟨f.values, f.rules.insert rule.name rule, f.parent⟩) fun _ => rfl)

/-- Reads a variable. -/
def readVariable (s : Store) (id : ScopeId) (name : String) : Except LookupError Value :=
  match s.valueOf? id name with
  | some value => .ok value
  | none => .error (.unboundVariable name)

/-- Finds a rule and the scope that holds it. -/
def findRule (s : Store) (id : ScopeId) (name : String) : Except LookupError (Rule × ScopeId) :=
  match s.rule? id name with
  | some found => .ok found
  | none => .error (.unboundFunction name (s.valueOf? id name).isSome)

/-- What a scope is, in one line: how deep it lies, and the names of its own
variables and rules in the order of their code points. -/
def describe (s : Store) (id : ScopeId) : String :=
  let own := s.frames[id]?.getD (.within none)
  "Environment \x7b depth: " ++ toString (s.depth id)
    ++ ", variables: " ++ Quoted.encodeList own.values.keys
    ++ ", functions: " ++ Quoted.encodeList own.rules.keys ++ " \x7d"

end Store

end RuleScript
