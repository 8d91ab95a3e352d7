import RuleScript.Parser.TokenSource
import RuleScript.Syntax.Tree

/-!
# Parsing expressions

Operators are read by **precedence climbing**: `binary depth level` reads an
operand and then as many operators of at least that level as follow, each with
its right operand. Operators of one level group to the left, except the power
operator, which groups to the right; operators in front of an operand bind
tightest of all.

The functions take the depth of recursion they may use. How much is enough is
settled in `RuleScript.Parser.Progress`.
-/

namespace RuleScript.Parser

variable {σ : Type} [TokenSource σ]

/-- Takes a name. -/
def expectName (expected : Expected) : Parser σ Name := do
  let token ← peek
  match token.kind with
  | .name text =>
    skip
    return ⟨text, token.span⟩
  | _ => Process.fail (.unexpected expected token)

mutual

/-- An operand, and the operators of at least the given level after it. -/
def binary : Nat → Nat → Parser σ Expr
  | 0, _ => Process.exhaust
  | depth + 1, level => do
    let left ← unary depth
    climb depth level left

/-- The operators of at least the given level after an operand. -/
def climb : Nat → Nat → Expr → Parser σ Expr
  | 0, _, _ => Process.exhaust
  | depth + 1, level, left => do
    let token ← peek
    match BinaryOp.ofKind? token.kind with
    | none => return left
    | some op =>
      if op.level < level then return left
      else
        skip
        let right ← binary depth op.rightLevel
        climb depth level (.binary op left right (left.span.union right.span))

/-- An operand with the operators in front of it. -/
def unary : Nat → Parser σ Expr
  | 0 => Process.exhaust
  | depth + 1 => do
    let token ← peek
    match UnaryOp.ofKind? token.kind with
    | none => primary depth
    | some op =>
      skip
      let operand ← unary depth
      return .unary op operand (token.span.union operand.span)

/-- A literal, a name, a call, a dereference or a group. -/
def primary : Nat → Parser σ Expr
  | 0 => Process.exhaust
  | depth + 1 => do
    let token ← peek
    match token.kind with
    | .int value =>
      skip
      return .literal (.int value) token.span
    | .float value =>
      skip
      return .literal (.float value) token.span
    | .string text =>
      skip
      return .literal (.string text) token.span
    | .bool value =>
      skip
      return .literal (.bool value) token.span
    | .name text =>
      skip
      let name : Name := ⟨text, token.span⟩
      if ← accept .openParen then
        let args ← arguments depth
        let close ← expect .closeParen (.callEnd text)
        return .call name args (name.span.union close.span)
      else
        return .bare name
    | .symbol .dollar =>
      skip
      let name ← expectName .variableName
      return .deref name (token.span.union name.span)
    | .symbol .openParen =>
      skip
      let inner ← binary depth 0
      let close ← expect .closeParen .groupEnd
      return inner.withSpan (token.span.union close.span)
    | _ => Process.fail (.unexpected .value token)

/-- The arguments of a call: expressions with commas between them, and at most
one comma after the last. -/
def arguments : Nat → Parser σ (List Expr)
  | 0 => Process.exhaust
  | depth + 1 => do
    if ← check .closeParen then
      return []
    else
      let arg ← binary depth 0
      if ← accept .comma then
        let more ← arguments depth
        return arg :: more
      else
        return [arg]

end

end RuleScript.Parser
