import RuleScript.Syntax.Tree
import RuleScript.Value

/-!
# Faults

Why a program stops. A fault is a cause with the span of program it is blamed
on; category, message and help are read off it, so the wording of every fault
stands in this module. Only `missingMain` blames no part of the program.
-/

namespace RuleScript

/-- Two types that do not go together, or one that does not fit. -/
inductive TypeClash where
  /-- the condition of an `@if` is no truth value -/
  | condition (found : ValueType)
  /-- an operand of a logical operator is no truth value -/
  | logicalOperand (op : BinaryOp) (found : ValueType)
  /-- the operands of a logical operator are not both truth values -/
  | logicalOperands (op : BinaryOp) (left right : ValueType)
  /-- the operand of an operator in front of it does not fit -/
  | unaryOperand (op : UnaryOp) (found : ValueType)
  /-- the operands of an arithmetic operator are not both numbers -/
  | numericOperands (op : BinaryOp) (left right : ValueType)
  /-- two values cannot be compared in this way -/
  | comparison (op : BinaryOp) (left right : ValueType)
  /-- an operator that is not arithmetic was to be computed with -/
  | notArithmetic (op : BinaryOp)
  deriving DecidableEq, Repr

/-- The wording of a clash. -/
def TypeClash.message : TypeClash → String
  | .condition found => "`@if` condition must be a boolean, found " ++ found.name
  | .logicalOperand op found =>
    quoteCode op.symbol.text ++ " expects boolean operands, found " ++ found.name
  | .logicalOperands op left right =>
    quoteCode op.symbol.text ++ " expects boolean operands, found " ++ left.name ++ " and "
      ++ right.name
  | .unaryOperand op found =>
    "cannot apply unary " ++ quoteCode op.symbol.text ++ " to " ++ found.name
  | .numericOperands op left right =>
    quoteCode op.symbol.text ++ " expects numeric operands, found " ++ left.name ++ " and "
      ++ right.name
  | .comparison op left right =>
    "cannot compare " ++ left.name ++ " with " ++ right.name ++ " using "
      ++ quoteCode op.symbol.text
  | .notArithmetic op => quoteCode op.symbol.text ++ " is not an arithmetic operator"

/-- What is wrong with the form of an at-rule. -/
inductive AtRuleProblem where
  /-- it takes one parameter and has another number of them -/
  | parameterCount (found : Nat)
  /-- it lacks its block -/
  | needsBlock
  /-- it has a block that it does not take -/
  | takesNoBlock
  deriving DecidableEq, Repr

/-- The wording of a problem. -/
def AtRuleProblem.message : AtRuleProblem → String
  | .parameterCount found => "expects exactly one parameter, found " ++ toString found
  | .needsBlock => "requires a block"
  | .takesNoBlock => "does not take a block"

/-- What a name that stands where a value should turns out to name. -/
inductive NameUsage where
  /-- something that can be called -/
  | callable
  /-- something that can be dereferenced -/
  | readable
  /-- nothing -/
  | unresolved
  deriving DecidableEq, Repr

/-- The wording for a name that stands where a value should. -/
def NameUsage.message (name : String) : NameUsage → String
  | .callable =>
    quoteCode name ++ " is a rule and cannot be used as a value; call it as "
      ++ quoteCode (name ++ "(...)")
  | .readable =>
    "bare identifier " ++ quoteCode name ++ " is not a value; dereference the variable as "
      ++ quoteCode ("$" ++ name)
  | .unresolved => "cannot resolve identifier " ++ quoteCode name

/-- The families of faults. -/
inductive FaultCategory where
  | name
  | arity
  | type
  | eval
  deriving DecidableEq, Repr

/-- The name of a family, as reports use it. -/
def FaultCategory.title : FaultCategory → String
  | .name => "NameError"
  | .arity => "ArityError"
  | .type => "TypeError"
  | .eval => "EvalError"

/-- Why a program stops. -/
inductive Fault where
  /-- a variable is read that was not declared -/
  | unboundVariable (name : String) (span : Span)
  /-- something is called that does not exist; there may be a variable of that
  name -/
  | unboundFunction (name : String) (isVariable : Bool) (span : Span)
  /-- a rule is defined twice in one block -/
  | duplicateDefinition (name : String) (span previous : Span)
  /-- a parameter has neither a value nor a default -/
  | missingParameter (name rule : String) (span : Span)
  /-- a call has the wrong number of arguments -/
  | arityMismatch (name : String) (expected received : Nat) (span : Span)
  /-- a value has the wrong type -/
  | typeMismatch (clash : TypeClash) (span : Span)
  /-- a name stands where a value should -/
  | nameAsValue (name : String) (usage : NameUsage) (span : Span)
  /-- an at-rule has the wrong form -/
  | invalidAtRule (name : String) (problem : AtRuleProblem) (span : Span)
  /-- there is no at-rule of this name -/
  | unsupportedAtRule (name : String) (span : Span)
  /-- an at-rule stands at the top level -/
  | globalAtRule (name : String) (span : Span)
  /-- there is no rule to begin with -/
  | missingMain
  /-- an integer is divided by zero -/
  | divisionByZero (span : Span)
  /-- an integer does not fit in 64 bits -/
  | overflow (op : Symbol) (span : Span)
  /-- what was printed could not be written -/
  | output (reason : String) (span : Span)
  deriving DecidableEq, Repr

namespace Fault

/-- What went wrong. -/
def message : Fault → String
  | .unboundVariable name _ => "unbound variable " ++ quoteCode ("$" ++ name)
  | .unboundFunction name _ _ => "unbound function " ++ quoteCode name
  | .duplicateDefinition name _ previous =>
    "rule " ++ quoteCode name ++ " is already defined at " ++ previous.start.display
  | .missingParameter name rule _ =>
    "missing value for parameter " ++ quoteCode name ++ " of rule " ++ quoteCode rule
  | .arityMismatch name expected received _ =>
    quoteCode name ++ " takes " ++ toString expected ++ " argument(s) but "
      ++ toString received ++ " were supplied"
  | .typeMismatch clash _ => clash.message
  | .nameAsValue name usage _ => usage.message name
  | .invalidAtRule name problem _ => quoteCode ("@" ++ name) ++ " " ++ problem.message
  | .unsupportedAtRule name _ => "unsupported at-rule " ++ quoteCode ("@" ++ name)
  | .globalAtRule name _ =>
    "at-rule " ++ quoteCode ("@" ++ name) ++ " is not allowed at the top level"
  | .missingMain => "program has no `main` rule"
  | .divisionByZero _ => "division by zero"
  | .overflow op _ => "integer overflow in " ++ quoteCode op.text
  | .output reason _ => "failed to write output: " ++ reason

/-- The family of a fault. -/
def category : Fault → FaultCategory
  | .unboundVariable .. => .name
  | .unboundFunction .. => .name
  | .duplicateDefinition .. => .name
  | .nameAsValue .. => .name
  | .missingMain => .name
  | .missingParameter .. => .arity
  | .arityMismatch .. => .arity
  | .typeMismatch .. => .type
  | .invalidAtRule .. => .eval
  | .unsupportedAtRule .. => .eval
  | .globalAtRule .. => .eval
  | .divisionByZero .. => .eval
  | .overflow .. => .eval
  | .output .. => .eval

/-- The part of the program to blame. -/
def span? : Fault → Option Span
  | .unboundVariable _ s => some s
  | .unboundFunction _ _ s => some s
  | .duplicateDefinition _ s _ => some s
  | .missingParameter _ _ s => some s
  | .arityMismatch _ _ _ s => some s
  | .typeMismatch _ s => some s
  | .nameAsValue _ _ s => some s
  | .invalidAtRule _ _ s => some s
  | .unsupportedAtRule _ s => some s
  | .globalAtRule _ s => some s
  | .missingMain => none
  | .divisionByZero s => some s
  | .overflow _ s => some s
  | .output _ s => some s

/-- The earlier part of the program that a later one is in conflict with. -/
def previous? : Fault → Option Span
  | .duplicateDefinition _ _ previous => some previous
  | _ => none

/-- What to do about it. -/
def help : Fault → Option String
  | .unboundFunction name true _ =>
    some (quoteCode name ++ " is a variable, not a rule; read it with " ++ quoteCode ("$" ++ name))
  | .unboundVariable name _ =>
    some ("declare it first with " ++ quoteCode ("--" ++ name ++ ": value;") ++ " or add a "
      ++ quoteCode ("[" ++ name ++ "]") ++ " parameter")
  | .duplicateDefinition .. => some "rename one of the rules or remove the duplicate"
  | .missingParameter name _ _ =>
    some ("pass a value for " ++ quoteCode name ++ " or give it a default like "
      ++ quoteCode ("[" ++ name ++ "=0]"))
  | .unsupportedAtRule .. => some "only `@if` and `@return` are supported"
  | .globalAtRule .. =>
    some "move the at-rule into a rule body such as `main \x7b ... \x7d`"
  | .missingMain => some "add an entry point: `main \x7b ... \x7d`"
  | _ => none

end Fault

end RuleScript
