import RuleScript.Eval.Builtin
import RuleScript.Operator

/-!
# Evaluation

Programs are evaluated by walking their trees. A rule runs in a fresh scope
inside the scope that **holds its definition**, never inside the scope of its
caller, so what a name means can be read off the program text.

The three functions that call each other, `expr`, `statement` and `invoke`,
take the depth of recursion they may use; a program that needs more is
exhausted, which is the only way in which a result depends on that depth.
Everything else is written once for any evaluator of the parts: `arguments`,
`sequence`, `bindParameters`.

What operators with two operands compute is not written here. The evaluator is
given `Operators`, and programs are run with those of the language.
-/

namespace RuleScript

/-- What a name can be called as. -/
inductive Callee where
  /-- a rule, and the scope that holds it -/
  | rule (r : Rule) (scope : ScopeId)
  /-- a builtin -/
  | builtin (b : Builtin)

/-- How a statement ended. -/
inductive Flow where
  /-- with a value, and the next statement follows -/
  | next (value : Value)
  /-- with a return, which leaves the rule -/
  | returned (value : Value)

/-- The value that a literal stands for. -/
def Literal.value : Literal → Value
  | .bool b => .bool b
  | .int n => .int n
  | .float x => .float x
  | .string text => .string text

/-- What is asked for the result of an operator on the values of its operands. -/
class Operators where
  /-- the result, or a fault that is blamed on the span -/
  binary : BinaryOp → Value → Value → Span → Except Fault Value

/-- The operators of the language. -/
instance : Operators := ⟨Operator.binary⟩

namespace Eval

/-! ### Names -/

/-- The fault of a failed lookup. -/
def lookupFault (span : Span) : LookupError → Fault
  | .unboundVariable name => .unboundVariable name span
  | .unboundFunction name isVariable => .unboundFunction name isVariable span

/-- What a name can be called as in a scope: a rule first, else a builtin. -/
def callee (s : Store) (scope : ScopeId) (name : Name) : Except Fault Callee :=
  match s.findRule scope name.text with
  | .ok (rule, holder) => .ok (.rule rule holder)
  | .error e =>
    match Builtin.ofName? name.text with
    | some b => .ok (.builtin b)
    | none => .error (lookupFault name.span e)

/-- What a name that stands where a value should turns out to name. -/
def usage (s : Store) (scope : ScopeId) (name : Name) : NameUsage :=
  if (s.rule? scope name.text).isSome || (Builtin.ofName? name.text).isSome then .callable
  else if (s.valueOf? scope name.variableName).isSome then .readable
  else .unresolved

/-- The value of a variable. -/
def variableValue (s : Store) (scope : ScopeId) (name : Name) (span : Span) :
    Except Fault Value :=
  match s.readVariable scope name.variableName with
  | .ok value => .ok value
  | .error e => .error (lookupFault span e)

/-- Resolves a name that is called. -/
def resolve (scope : ScopeId) (name : Name) : Eval Callee := do
  let s ← store
  Process.ofExcept (callee s scope name)

/-! ### Parts, for any evaluator of what they are made of -/

/-- The values of expressions, in order. -/
def arguments (expr : Expr → Eval Value) : List Expr → Eval (List Value)
  | [] => return []
  | e :: es => do
    let value ← expr e
    let values ← arguments expr es
    return value :: values

/-- The truth value of an operand of a logical operator. -/
def condition (expr : Expr → Eval Value) (op : BinaryOp) (e : Expr) : Eval Bool := do
  let value ← expr e
  match value with
  | .bool b => return b
  | v => Process.fail (.typeMismatch (.logicalOperand op v.type) e.span)

/-- Statements in order, up to the first return. The value is that of the last
one, or the value given if there is none. -/
def sequence (statement : Statement → Eval Flow) (last : Value) : List Statement → Eval Flow
  | [] => return .next last
  | st :: sts => do
    let flow ← statement st
    match flow with
    | .next value => sequence statement value sts
    | .returned value => return .returned value

/-- The value of a parameter: its argument, or its default if there is no
argument or an absent value. -/
def parameterValue (expr : Expr → Eval Value) (rule : String) (span : Span) (p : Parameter)
    (arg : Option Value) : Eval Value :=
  match arg.filter (!·.isNil), p.default with
  | some value, _ => return value
  | none, some e => expr e
  | none, none => Process.fail (.missingParameter p.name.variableName rule span)

/-- Sets the parameters of a rule in its scope, in order. -/
def bindParameters (expr : Expr → Eval Value) (rule : String) (span : Span) (scope : ScopeId) :
    List Parameter → List Value → Eval Unit
  | [], _ => return ()
  | p :: ps, args => do
    let value ← parameterValue expr rule span p args.head?
    setVariable scope p.name.variableName value
    bindParameters expr rule span scope ps args.tail

/-- Defines a rule in a scope. -/
def define (scope : ScopeId) (rule : Rule) : Eval Unit := do
  let taken ← defineRule scope rule
  match taken with
  | none => do
    let s ← store
    record (.registeredRule rule.name (s.depth scope))
  | some existing => do
    record (.duplicateRule rule.name existing.selector.name.span.start)
    Process.fail
      (.duplicateDefinition rule.name rule.selector.name.span existing.selector.name.span)

/-- Calls a builtin. -/
def callBuiltin (b : Builtin) (args : List Value) (span : Span) : Eval Value := do
  record (.callingBuiltin b.name args.length)
  ⟨fun w =>
    match b.call args span w.sink with
    | (.ok value, sink) => (.done value, ⟨w.store, sink, w.events⟩)
    | (.error fault, sink) => (.failed fault, ⟨w.store, sink, w.events⟩)⟩

/-- The one parameter that an at-rule takes. -/
def onlyParameter (a : AtRule) : Eval Expr :=
  match a.parameters with
  | [e] => return e
  | es => Process.fail (.invalidAtRule a.name.text (.parameterCount es.length) a.span)

/-- The block that an at-rule needs. -/
def requiredBody (a : AtRule) : Eval (List Statement) :=
  match a.body with
  | some body => return body
  | none => Process.fail (.invalidAtRule a.name.text .needsBlock a.span)

/-! ### Expressions, statements and calls -/

variable [Operators]

mutual

/-- The value of an expression in a scope. Operands and arguments are evaluated
from left to right, and a call finds its callee after its arguments; the right
operand of a logical operator is left out where the left one decides. -/
def expr : Nat → ScopeId → Expr → Eval Value
  | 0, _, _ => Process.exhaust
  | depth + 1, scope, e =>
    match e with
    | .literal literal _ => return literal.value
    | .bare name => do
      let s ← store
      Process.fail (.nameAsValue name.text (usage s scope name) name.span)
    | .deref name span => do
      let s ← store
      Process.ofExcept (variableValue s scope name span)
    | .call name args span => do
      let values ← arguments (expr depth scope) args
      let target ← resolve scope name
      match target with
      | .rule rule holder => invoke depth rule holder values span
      | .builtin b => callBuiltin b values span
    | .unary op operand span => do
      let value ← expr depth scope operand
      Process.ofExcept (Operator.unary op value span)
    | .binary op left right span =>
      match op with
      | .and => do
        let b ← condition (expr depth scope) op left
        if b then
          let c ← condition (expr depth scope) op right
          return .bool c
        else
          return .bool false
      | .or => do
        let b ← condition (expr depth scope) op left
        if b then
          return .bool true
        else
          let c ← condition (expr depth scope) op right
          return .bool c
      | op => do
        let a ← expr depth scope left
        let b ← expr depth scope right
        Process.ofExcept (Operators.binary op a b span)

/-- Runs a statement in a scope. A call statement finds its callee before its
arguments are evaluated. The block of an `@if` has a scope of its own, in which
what it declares is forgotten afterwards; its form is checked before its
condition is evaluated. -/
def statement : Nat → ScopeId → Statement → Eval Flow
  | 0, _, _ => Process.exhaust
  | depth + 1, scope, st =>
    match st with
    | .rule rule => do
      define scope rule
      return .next .nil
    | .declaration d =>
      if d.property.isVariable then
        match d.values with
        | [e] => do
          let value ← expr depth scope e
          setVariable scope d.property.variableName value
          return .next value
        | es => Process.fail (.arityMismatch d.property.text 1 es.length d.span)
      else do
        let target ← resolve scope d.property
        let values ← arguments (expr depth scope) d.values
        match target with
        | .rule rule holder => do
          let value ← invoke depth rule holder values d.span
          return .next value
        | .builtin b => do
          let value ← callBuiltin b values d.span
          return .next value
    | .atRule a =>
      if a.name.text = "if" then do
        let e ← onlyParameter a
        let body ← requiredBody a
        let value ← expr depth scope e
        match value with
        | .bool true => do
          let inner ← addScope (some scope)
          sequence (statement depth inner) .nil body
        | .bool false => return .next .nil
        | v => Process.fail (.typeMismatch (.condition v.type) e.span)
      else if a.name.text = "return" then
        match a.body with
        | some _ => Process.fail (.invalidAtRule a.name.text .takesNoBlock a.span)
        | none => do
          let e ← onlyParameter a
          let value ← expr depth scope e
          record (.unwinding value)
          return .returned value
      else
        Process.fail (.unsupportedAtRule a.name.text a.name.span)

/-- Calls a rule that is held by a scope. The call is recorded first, then the
number of arguments is checked. Defaults are evaluated in the scope that holds
the rule, so they see no parameter. The value is the one returned, or else that
of the last statement. -/
def invoke : Nat → Rule → ScopeId → List Value → Span → Eval Value
  | 0, _, _, _, _ => Process.exhaust
  | depth + 1, rule, holder, args, span => do
    record (.invokingRule rule.name args.length)
    let params := rule.selector.parameters
    if params.length < args.length then
      Process.fail (.arityMismatch rule.name params.length args.length span)
    else
      let scope ← addScope (some holder)
      bindParameters (expr depth holder) rule.name span scope params args
      let flow ← sequence (statement depth scope) .nil rule.body
      match flow with
      | .next value => return value
      | .returned value => do
        record (.returned rule.name)
        return value

end

/-! ### Programs -/

/-- Defines the rules of a program in a scope, in order. -/
def register (root : ScopeId) : List Item → Eval Unit
  | [] => return ()
  | .rule rule :: more => do
    define root rule
    register root more
  | .atRule a :: _ => Process.fail (.globalAtRule a.name.text a.span)

/-- The name of the rule a program begins with. -/
def mainName : String := "main"

/-- Runs a program: defines its rules in a fresh scope, and calls the main one
without arguments. -/
def program (depth : Nat) (p : Program) : Eval Value := do
  let root ← addScope none
  register root p.items
  let s ← store
  match s.rule? root mainName with
  | none => Process.fail .missingMain
  | some (rule, holder) => do
    record (.invokingMain p.items.length)
    invoke depth rule holder [] rule.selector.span

end Eval

end RuleScript
