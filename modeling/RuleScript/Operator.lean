import RuleScript.Fault

/-!
# Operators

What operators do to values. Integers are computed exactly or not at all; as
soon as one operand is a floating-point number both are taken as such. Texts
can be joined. Comparison orders integers by size and texts by code point, and
tells truth values and absent values only equal or not.
-/

namespace RuleScript.Operator

/-- The result of an operator with one operand. -/
def unary (op : UnaryOp) (value : Value) (span : Span) : Except Fault Value :=
  match op, value with
  | .plus, v => .ok v
  | .neg, .int n =>
    match Integer.neg? n with
    | some m => .ok (.int m)
    | none => .error (.overflow op.symbol span)
  | .neg, .float x => .ok (.float (-x))
  | .not, .bool b => .ok (.bool (!b))
  | op, v => .error (.typeMismatch (.unaryOperand op v.type) span)

/-! ### Arithmetic -/

/-- An integer that has to fit. -/
def fitting (op : BinaryOp) (span : Span) : Option Int64 → Except Fault Value
  | some n => .ok (.int n)
  | none => .error (.overflow op.symbol span)

/-- Arithmetic on integers. A negative exponent leads to a floating-point
number. -/
def integer (op : BinaryOp) (a b : Int64) (span : Span) : Except Fault Value :=
  match op with
  | .add => fitting op span (Integer.add? a b)
  | .sub => fitting op span (Integer.sub? a b)
  | .mul => fitting op span (Integer.mul? a b)
  | .div =>
    if b.toInt = 0 then .error (.divisionByZero span)
    else fitting op span (Integer.quotient? a b)
  | .rem =>
    if b.toInt = 0 then .error (.divisionByZero span)
    else fitting op span (Integer.remainder? a b)
  | .pow =>
    if b.toInt < 0 then .ok (.float (a.toFloat.pow b.toFloat))
    else fitting op span (Integer.power? a b.toInt.toNat)
  | _ => .error (.typeMismatch (.notArithmetic op) span)

/-- Arithmetic on floating-point numbers. -/
def float (op : BinaryOp) (a b : Float) (span : Span) : Except Fault Value :=
  match op with
  | .add => .ok (.float (a + b))
  | .sub => .ok (.float (a - b))
  | .mul => .ok (.float (a * b))
  | .div => .ok (.float (a / b))
  | .rem => .ok (.float (Binary64.remainder a b))
  | .pow => .ok (.float (a.pow b))
  | _ => .error (.typeMismatch (.notArithmetic op) span)

/-- Arithmetic on values, and the joining of texts. -/
def numeric (op : BinaryOp) (left right : Value) (span : Span) : Except Fault Value :=
  match left, right with
  | .int a, .int b => integer op a b span
  | left, right =>
    match op, left, right with
    | .add, .string a, .string b => .ok (.string (a ++ b))
    | op, left, right =>
      match left.toFloat?, right.toFloat? with
      | some a, some b => float op a b span
      | _, _ => .error (.typeMismatch (.numericOperands op left.type right.type) span)

/-! ### Comparison -/

/-- The order of two floating-point numbers, if neither is "not a number". -/
def floatOrder (a b : Float) : Option Ordering :=
  if a < b then some .lt
  else if a == b then some .eq
  else if b < a then some .gt
  else none

/-- Whether an operator asks only if two values are equal. -/
def isEquality : BinaryOp → Bool
  | .eq | .notEq => true
  | _ => false

/-- The order of two values for an operator, if they can be compared by it. No
order is known where "not a number" is compared. -/
def order? (op : BinaryOp) (left right : Value) : Option (Option Ordering) :=
  match left, right with
  | .int a, .int b => some (some (compare a.toInt b.toInt))
  | .string a, .string b => some (some (compare a b))
  | .bool a, .bool b => if isEquality op then some (some (compare a b)) else none
  | .nil, .nil => if isEquality op then some (some .eq) else none
  | left, right =>
    match left.toFloat?, right.toFloat? with
    | some a, some b => some (floatOrder a b)
    | _, _ => none

/-- Whether an order, known or not, is what a comparison asks for. -/
def verdict (op : BinaryOp) (order : Option Ordering) : Bool :=
  match op with
  | .eq => order == some .eq
  | .notEq => order != some .eq
  | .lt => order == some .lt
  | .ltEq => order == some .lt || order == some .eq
  | .gt => order == some .gt
  | .gtEq => order == some .gt || order == some .eq
  | _ => false

/-- The result of a comparison. -/
def comparison (op : BinaryOp) (left right : Value) (span : Span) : Except Fault Value :=
  match order? op left right with
  | some order => .ok (.bool (verdict op order))
  | none => .error (.typeMismatch (.comparison op left.type right.type) span)

/-! ### All operators -/

/-- A logical operator on two values that are both there. -/
def logical (op : BinaryOp) (left right : Value) (span : Span) : Except Fault Value :=
  match left, right with
  | .bool a, .bool b => .ok (.bool (if op = .and then a && b else a || b))
  | left, right => .error (.typeMismatch (.logicalOperands op left.type right.type) span)

/-- The result of an operator with two operands. -/
def binary (op : BinaryOp) (left right : Value) (span : Span) : Except Fault Value :=
  match op with
  | .add | .sub | .mul | .div | .rem | .pow => numeric op left right span
  | .eq | .notEq | .lt | .ltEq | .gt | .gtEq => comparison op left right span
  | .and | .or => logical op left right span

end RuleScript.Operator
