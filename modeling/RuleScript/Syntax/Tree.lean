import RuleScript.Token

/-!
# Syntax trees

What a program is once it has been read. A program is a list of rules and
at-rules; a rule is a name with parameters and a block; a block is a list of
statements. Every node keeps the span of source it was read from.

Two readings of a name are kept apart here: a name that begins with two dashes
is the name of a **variable** (`Name.isVariable`), and `Name.variableName` is the
variable that a name stands for, with or without its dashes.
-/

namespace RuleScript

/-- A name as it is written in a program. -/
structure Name where
  /-- the spelling, dashes included -/
  text : String
  /-- where it is written -/
  span : Span
  deriving DecidableEq, Repr, Inhabited

namespace Name

/-- Whether a spelling begins with two dashes. -/
def hasDashes (text : String) : Bool :=
  match text.toList with
  | '-' :: '-' :: _ => true
  | _ => false

/-- A spelling without the two dashes in front, if it has them. -/
def withoutDashes (text : String) : String :=
  match text.toList with
  | '-' :: '-' :: rest => String.ofList rest
  | _ => text

/-- Whether a name is spelled as a variable is when it is declared. -/
def isVariable (n : Name) : Bool := hasDashes n.text

/-- The variable a name stands for. -/
def variableName (n : Name) : String := withoutDashes n.text

end Name

/-! ### Operators -/

/-- Operators with one operand. -/
inductive UnaryOp where
  | plus
  | neg
  | not
  deriving DecidableEq, Repr

/-- The spelling of an operator. -/
def UnaryOp.symbol : UnaryOp → Symbol
  | .plus => .plus
  | .neg => .minus
  | .not => .bang

/-- The operator that a symbol in front of an operand stands for. -/
def UnaryOp.ofKind? : TokenKind → Option UnaryOp
  | .symbol .minus => some .neg
  | .symbol .plus => some .plus
  | .symbol .bang => some .not
  | _ => none

/-- Operators with two operands. -/
inductive BinaryOp where
  | add
  | sub
  | mul
  | div
  | rem
  | pow
  | eq
  | notEq
  | lt
  | ltEq
  | gt
  | gtEq
  | and
  | or
  deriving DecidableEq, Repr

namespace BinaryOp

/-- The spelling of an operator. -/
def symbol : BinaryOp → Symbol
  | .add => .plus
  | .sub => .minus
  | .mul => .star
  | .div => .slash
  | .rem => .percent
  | .pow => .caret
  | .eq => .equal
  | .notEq => .notEqual
  | .lt => .less
  | .ltEq => .lessEqual
  | .gt => .greater
  | .gtEq => .greaterEqual
  | .and => .and
  | .or => .or

/-- The operator that a symbol between two operands stands for. -/
def ofKind? : TokenKind → Option BinaryOp
  | .symbol .or => some .or
  | .symbol .and => some .and
  | .symbol .equal => some .eq
  | .symbol .notEqual => some .notEq
  | .symbol .less => some .lt
  | .symbol .lessEqual => some .ltEq
  | .symbol .greater => some .gt
  | .symbol .greaterEqual => some .gtEq
  | .symbol .plus => some .add
  | .symbol .minus => some .sub
  | .symbol .star => some .mul
  | .symbol .slash => some .div
  | .symbol .percent => some .rem
  | .symbol .caret => some .pow
  | _ => none

/-- How tightly an operator binds, from one to seven. -/
def level : BinaryOp → Nat
  | .or => 1
  | .and => 2
  | .eq | .notEq => 3
  | .lt | .ltEq | .gt | .gtEq => 4
  | .add | .sub => 5
  | .mul | .div | .rem => 6
  | .pow => 7

/-- The least level of the operators that may stand unbracketed in the right
operand: only the power operator takes its own level there. -/
def rightLevel : BinaryOp → Nat
  | .pow => 7
  | op => op.level + 1

/-- An operator is read back from its spelling. -/
@[simp]
theorem ofKind?_symbol (op : BinaryOp) : ofKind? (.symbol op.symbol) = some op := by
  cases op <;> rfl

end BinaryOp

/-! ### Expressions -/

/-- A value written out in a program. -/
inductive Literal where
  | bool (value : Bool)
  | int (value : Int64)
  | float (value : Float)
  | string (text : String)

/-- An expression. -/
inductive Expr where
  /-- a value written out -/
  | literal (value : Literal) (span : Span)
  /-- a name by itself, which is no value -/
  | bare (name : Name)
  /-- a variable that is read -/
  | deref (name : Name) (span : Span)
  /-- a rule or builtin that is called -/
  | call (callee : Name) (args : List Expr) (span : Span)
  /-- an operator and its operand -/
  | unary (op : UnaryOp) (operand : Expr) (span : Span)
  /-- an operator between its operands -/
  | binary (op : BinaryOp) (left right : Expr) (span : Span)

namespace Expr

instance : Inhabited Expr := ⟨.bare default⟩

/-- Where an expression is written. -/
def span : Expr → Span
  | .literal _ s => s
  | .bare name => name.span
  | .deref _ s => s
  | .call _ _ s => s
  | .unary _ _ s => s
  | .binary _ _ _ s => s

/-- The same expression written elsewhere: brackets around an expression widen
it. The names inside a call or a dereference stay where they are. -/
def withSpan (s : Span) : Expr → Expr
  | .literal v _ => .literal v s
  | .bare name => .bare ⟨name.text, s⟩
  | .deref name _ => .deref name s
  | .call callee args _ => .call callee args s
  | .unary op operand _ => .unary op operand s
  | .binary op left right _ => .binary op left right s

@[simp]
theorem span_withSpan (s : Span) (e : Expr) : (e.withSpan s).span = s := by cases e <;> rfl

end Expr

/-! ### Statements and rules -/

/-- A parameter of a rule. -/
structure Parameter where
  /-- its name -/
  name : Name
  /-- the expression for its value when none is given -/
  default : Option Expr
  /-- where it is written, brackets included -/
  span : Span

/-- The name of a rule with its parameters. -/
structure Selector where
  /-- the name -/
  name : Name
  /-- the parameters in order -/
  parameters : List Parameter
  /-- where they are written -/
  span : Span

/-- A property with its values: the declaration of a variable, or else a call. -/
structure Declaration where
  /-- the variable or callee -/
  property : Name
  /-- the value or arguments -/
  values : List Expr
  /-- where it is written -/
  span : Span

mutual

/-- What may stand in a block. -/
inductive Statement where
  /-- a variable or a call -/
  | declaration (d : Declaration)
  /-- a condition or a return -/
  | atRule (a : AtRule)
  /-- a rule for use in the block -/
  | rule (r : Rule)

/-- A statement introduced by an at sign. -/
structure AtRule where
  /-- its name -/
  name : Name
  /-- the expressions after the name -/
  parameters : List Expr
  /-- its block, if it has one -/
  body : Option (List Statement)
  /-- where it is written -/
  span : Span

/-- A named block. -/
structure Rule where
  /-- its name and parameters -/
  selector : Selector
  /-- its statements in order -/
  body : List Statement
  /-- where it is written -/
  span : Span

end

/-- The name a rule is called by. -/
def Rule.name (r : Rule) : String := r.selector.name.text

/-- Where a statement is written. -/
def Statement.span : Statement → Span
  | .declaration d => d.span
  | .atRule a => a.span
  | .rule r => r.span

/-- What may stand at the top level. -/
inductive Item where
  /-- a rule of the program -/
  | rule (r : Rule)
  /-- an at-rule, which can be read but not run -/
  | atRule (a : AtRule)

/-- A program: its rules and at-rules in order. -/
structure Program where
  /-- the items in order -/
  items : List Item

end RuleScript
