import RuleScript.Parser.Expression

/-!
# Parsing programs

Rules, at-rules and the statements of a block. One token decides what comes: an
at sign begins an at-rule, and a name begins a rule unless a colon follows, in
which case it is a declaration. Semicolons may stand between statements and
between the items of a program.
-/

namespace RuleScript.Parser

variable {σ : Type} [TokenSource σ]

/-- Whether a token begins an expression. -/
def startsValue : TokenKind → Bool
  | .name _ | .int _ | .float _ | .string _ | .bool _ => true
  | .symbol .dollar | .symbol .openParen => true
  | .symbol .minus | .symbol .plus | .symbol .bang => true
  | _ => false

/-- The arguments of a call statement, one after the other. -/
def values : Nat → Parser σ (List Expr)
  | 0 => Process.exhaust
  | depth + 1 => do
    let token ← peek
    if startsValue token.kind then
      let value ← binary depth 0
      let more ← values depth
      return value :: more
    else
      return []

/-- What ends a declaration. -/
def declarationEnd (property : Name) : Expected :=
  if property.isVariable then .variableEnd property.text else .declarationEnd property.text

/-- What follows the colon of a declaration. A variable has one value. -/
def declarationValues (depth : Nat) (property : Name) : Parser σ (List Expr) :=
  if property.isVariable then do
    let value ← binary depth 0
    return [value]
  else values depth

/-- A declaration after its property and colon. -/
def declaration (depth : Nat) (property : Name) : Parser σ Declaration := do
  let exprs ← declarationValues depth property
  let close ← expect .semicolon (declarationEnd property)
  return ⟨property, exprs, property.span.union close.span⟩

/-- The expression after an equals sign, if there is one. -/
def parameterDefault (depth : Nat) : Parser σ (Option Expr) := do
  if ← accept .assign then
    let value ← binary depth 0
    return some value
  else
    return none

/-- The parameters of a rule after those already read. No two are spelled
alike. -/
def parameters : Nat → Name → List Parameter → Parser σ (List Parameter)
  | 0, _, _ => Process.exhaust
  | depth + 1, rule, seen => do
    let token ← peek
    if token.kind.isSymbol .openBracket then
      skip
      let name ← expectName .parameterName
      if seen.any fun p => p.name.text == name.text then
        Process.fail ⟨.grammar (.duplicateParameter name.text rule.text), name.span⟩
      else
        let default ← parameterDefault depth
        let close ← expect .closeBracket .parameterEnd
        parameters depth rule (seen ++ [⟨name, default, token.span.union close.span⟩])
    else
      return seen

/-- The span of a name and the parameters after it. -/
def selectorSpan (name : Name) (params : List Parameter) : Span :=
  match params.getLast? with
  | some last => name.span.union last.span
  | none => name.span

/-- The expressions between the name of an at-rule and its block or end. -/
def atRuleParameters : Nat → Name → Parser σ (List Expr)
  | 0, _ => Process.exhaust
  | depth + 1, name => do
    let token ← peek
    match token.kind with
    | .symbol .openBrace => return []
    | .symbol .semicolon => return []
    | .eof => Process.fail (.unexpected (.atRuleEnd name.text) token)
    | _ =>
      let param ← binary depth 0
      let more ← atRuleParameters depth name
      return param :: more

mutual

/-- The statements of a block and the brace that closes it. The brace that
opened it is blamed if there is none. -/
def statements : Nat → Span → Parser σ (List Statement × Span)
  | 0, _ => Process.exhaust
  | depth + 1, opening => do
    let token ← peek
    match token.kind with
    | .symbol .closeBrace =>
      skip
      return ([], token.span)
    | .symbol .semicolon =>
      skip
      statements depth opening
    | .eof => Process.fail ⟨.grammar .unclosedBlock, opening⟩
    | _ =>
      let first ← statement depth
      let (more, close) ← statements depth opening
      return (first :: more, close)

/-- One statement. -/
def statement : Nat → Parser σ Statement
  | 0 => Process.exhaust
  | depth + 1 => do
    let token ← peek
    match token.kind with
    | .symbol .at =>
      let a ← atRule depth
      return .atRule a
    | .name text =>
      skip
      let name : Name := ⟨text, token.span⟩
      if ← accept .colon then
        let d ← declaration depth name
        return .declaration d
      else
        let r ← rule depth name
        return .rule r
    | _ => Process.fail (.unexpected .statement token)

/-- An at-rule, from its at sign. -/
def atRule : Nat → Parser σ AtRule
  | 0 => Process.exhaust
  | depth + 1 => do
    let sign ← peek
    skip
    let name ← expectName .atRuleName
    let params ← atRuleParameters depth name
    let token ← peek
    skip
    if token.kind.isSymbol .openBrace then
      let (body, close) ← statements depth token.span
      return ⟨name, params, some body, sign.span.union (token.span.union close)⟩
    else
      return ⟨name, params, none, sign.span.union token.span⟩

/-- A rule after its name. -/
def rule : Nat → Name → Parser σ Rule
  | 0, _ => Process.exhaust
  | depth + 1, name => do
    if name.isVariable then
      Process.fail ⟨.grammar (.variableAsRule name.text), name.span⟩
    else
      let params ← parameters depth name []
      let selector : Selector := ⟨name, params, selectorSpan name params⟩
      let token ← peek
      if token.kind.isSymbol .openBrace then
        skip
        let (body, close) ← statements depth token.span
        return ⟨selector, body, selector.span.union (token.span.union close)⟩
      else
        Process.fail (.unexpected (.ruleBody name.text) token)

end

/-- The items of a program up to the end of the source. -/
def items : Nat → Parser σ (List Item)
  | 0 => Process.exhaust
  | depth + 1 => do
    let token ← peek
    match token.kind with
    | .eof => return []
    | .symbol .semicolon =>
      skip
      items depth
    | .symbol .at =>
      let a ← atRule depth
      let more ← items depth
      return .atRule a :: more
    | .name text =>
      skip
      let r ← rule depth ⟨text, token.span⟩
      let more ← items depth
      return .rule r :: more
    | _ => Process.fail (.unexpected .item token)

end RuleScript.Parser
