import RuleScript.Proofs.Raising
import RuleScript.Proofs.WellFormed

/-!
# Branches that no run reaches

Operators with two operands are computed in one place, also for cases that cannot come there: the
evaluator decides logical operators by itself, and arithmetic is only asked for where an operator is
arithmetic. To say that no run **reaches** such a branch, the branch is replaced by anything else:
the programs do the same.

* `Operator.Branches`: something to do in place of these branches, and `Operator.binaryWith`, the
  operators that do so.
* `Eval.programWith`: a program run with operators that are given, and `Eval.programWith_eq`: it is
  enough that these are right where they are not logical.
* `parsed_well_formed`: what is known of programs that were read, and of every program.
-/

namespace RuleScript

/-! ### Operators with other branches -/

namespace Operator

/-- Something to do **in place of** the branches that are not reached. -/
structure Branches where
  /-- for a logical operator on two values -/
  logical : BinaryOp → Value → Value → Span → Except Fault Value
  /-- for an operator on two integers that is not arithmetic -/
  integer : BinaryOp → Int64 → Int64 → Span → Except Fault Value
  /-- for an operator on two floating-point numbers that is not arithmetic -/
  float : BinaryOp → Float → Float → Span → Except Fault Value

/-- What the operators themselves do there. -/
def Branches.own : Branches where
  logical := Operator.logical
  integer op _ _ span := .error (.typeMismatch (.notArithmetic op) span)
  float op _ _ span := .error (.typeMismatch (.notArithmetic op) span)

variable (b : Branches)

/-- Arithmetic on integers with the branch replaced. -/
def integerWith (op : BinaryOp) (x y : Int64) (span : Span) : Except Fault Value :=
  match op with
  | .add | .sub | .mul | .div | .rem | .pow => integer op x y span
  | op => b.integer op x y span

/-- Arithmetic on floating-point numbers with the branch replaced. -/
def floatWith (op : BinaryOp) (x y : Float) (span : Span) : Except Fault Value :=
  match op with
  | .add | .sub | .mul | .div | .rem | .pow => float op x y span
  | op => b.float op x y span

/-- Arithmetic on values with the branches replaced. -/
def numericWith (op : BinaryOp) (left right : Value) (span : Span) : Except Fault Value :=
  match left, right with
  | .int x, .int y => integerWith b op x y span
  | left, right =>
    match op, left, right with
    | .add, .string x, .string y => .ok (.string (x ++ y))
    | op, left, right =>
      match left.toFloat?, right.toFloat? with
      | some x, some y => floatWith b op x y span
      | _, _ => .error (.typeMismatch (.numericOperands op left.type right.type) span)

/-- The result of an operator with two operands, with the branches replaced. -/
def binaryWith (op : BinaryOp) (left right : Value) (span : Span) : Except Fault Value :=
  match op with
  | .add | .sub | .mul | .div | .rem | .pow => numericWith b op left right span
  | .eq | .notEq | .lt | .ltEq | .gt | .gtEq => comparison op left right span
  | .and | .or => b.logical op left right span

theorem integerWith_own : integerWith .own = integer := by
  funext op x y span
  cases op <;> rfl

theorem floatWith_own : floatWith .own = float := by
  funext op x y span
  cases op <;> rfl

theorem numericWith_own : numericWith .own = numeric := by
  funext op left right span
  rw [numericWith.eq_def, integerWith_own, floatWith_own]
  rfl

/-- Only these branches are replaced: with their own in place, the operators are **as they are**. -/
theorem binaryWith_own : binaryWith .own = binary := by
  funext op left right span
  rw [binaryWith.eq_def, binary.eq_def, numericWith_own]
  rfl

variable {b}

/-- The operators that are **not logical** do not reach the branches. -/
theorem binaryWith_of_not_logical {op : BinaryOp} (hand : op ≠ .and) (hor : op ≠ .or) :
    binaryWith b op = binary op := by
  funext left right span
  cases op with
  | and => exact absurd rfl hand
  | or => exact absurd rfl hor
  | add => cases left <;> cases right <;> rfl
  | _ => rfl

end Operator

/-! ### The evaluator with other operators -/

namespace Eval

/-- At one depth evaluators with different operators are the same. -/
structure EvaluatorEq (ops ops' : Operators) (depth : Nat) : Prop where
  expr : @Eval.expr ops depth = @Eval.expr ops' depth
  statement : @Eval.statement ops depth = @Eval.statement ops' depth
  invoke : @Eval.invoke ops depth = @Eval.invoke ops' depth

section Step

variable {ops ops' : Operators} {depth : Nat}
  (h : ∀ op, op ≠ .and → op ≠ .or → ops.binary op = ops'.binary op)
  (ih : EvaluatorEq ops ops' depth)

include ih

include h in
/-- The operators are asked only where they are **not logical**. -/
theorem expr_eq_succ : @Eval.expr ops (depth + 1) = @Eval.expr ops' (depth + 1) := by
  funext scope e
  rw [@Eval.expr.eq_def ops, @Eval.expr.eq_def ops']
  dsimp only
  rw [ih.expr, ih.invoke]
  cases e with
  | binary op left right span =>
    cases op with
    | and => rfl
    | or => rfl
    | _ =>
      dsimp only
      rw [h]
      · decide
      · decide
  | _ => rfl

theorem statement_eq_succ : @Eval.statement ops (depth + 1) = @Eval.statement ops' (depth + 1) := by
  funext scope st
  rw [@Eval.statement.eq_def ops, @Eval.statement.eq_def ops']
  dsimp only
  rw [ih.expr, ih.statement, ih.invoke]

theorem invoke_eq_succ : @Eval.invoke ops (depth + 1) = @Eval.invoke ops' (depth + 1) := by
  funext rule holder args span
  rw [@Eval.invoke.eq_def ops, @Eval.invoke.eq_def ops']
  dsimp only
  rw [ih.expr, ih.statement]

end Step

/-- **The evaluators are the same** at every depth: by induction on the depth, all three functions
at once. -/
theorem evaluatorEq {ops ops' : Operators}
    (h : ∀ op, op ≠ .and → op ≠ .or → ops.binary op = ops'.binary op) (depth : Nat) :
    EvaluatorEq ops ops' depth := by
  induction depth with
  | zero =>
    refine ⟨?_, ?_, ?_⟩
    · funext scope e
      rw [@Eval.expr.eq_def ops, @Eval.expr.eq_def ops']
    · funext scope st
      rw [@Eval.statement.eq_def ops, @Eval.statement.eq_def ops']
    · funext rule holder args span
      rw [@Eval.invoke.eq_def ops, @Eval.invoke.eq_def ops']
  | succ depth ih => exact ⟨expr_eq_succ h ih, statement_eq_succ ih, invoke_eq_succ ih⟩

/-- Runs a program **with operators that are given**. -/
def programWith (binary : BinaryOp → Value → Value → Span → Except Fault Value) (depth : Nat)
    (p : Program) : Eval Value :=
  @program ⟨binary⟩ depth p

/-- Operators are only used where they are **not logical**: other operators that are right there do
the same in every program. -/
theorem programWith_eq {binary : BinaryOp → Value → Value → Span → Except Fault Value}
    (h : ∀ op, op ≠ .and → op ≠ .or → binary op = Operator.binary op)
    (depth : Nat) (p : Program) : programWith binary depth p = program depth p := by
  have hsame := @evaluatorEq ⟨binary⟩ ⟨Operator.binary⟩ h depth
  rw [programWith, @program.eq_def ⟨binary⟩, hsame.invoke]
  rfl

end Eval

/-! ### Well formed programs, and branches that are not reached -/

/-- In a program that was read, no number of arguments is wrong **for a variable**: no rule has the
name of one, and each is declared with one value. -/
theorem Program.hasDashes_of_arityMismatch {source : String} {p : Program}
    (h : parse source = .ok p) {depth : Nat} {sink : Sink} {name : String} {expected received : Nat}
    {span : Span} (hfailed : (p.report depth sink).1.outcome =
      .failed (.arityMismatch name expected received span)) : Name.hasDashes name = false := by
  cases mayRaise_of_failed hfailed with
  | common hcommon => cases hcommon
  | builtin b =>
    cases b
    cbv
  | rule hr => exact ((derived_of_parse h _ hr).lawful).1
  | declaration hd hvariable hcount =>
    exact absurd ((derived_of_parse h _ hd).lawful hvariable) hcount

/-- **Programs that were read are well formed**, at every depth: a variable is declared with one
value, no rule has the name of a variable, names are names (and without their dashes have none),
and integers are not negative. So they never fail for the number of values of a variable.

**No program**, read or not, reaches the branches of operators for logical operators on two values
or for arithmetic with an operator that is not arithmetic: whatever stands there, it does the same,
and it fails with neither of the errors of these branches. -/
theorem parsed_well_formed :
    (∀ source p, parse source = .ok p →
      (∀ d, p.Has (.declaration d) → d.property.isVariable = true → d.values.length = 1) ∧
      (∀ r, p.Has (.rule r) → r.selector.name.isVariable = false) ∧
      (∀ n m, p.Has n → n.identifier? = some m →
        IsName m.text.toList ∧ m.text ≠ "true" ∧ m.text ≠ "false" ∧
          Name.hasDashes m.variableName = false) ∧
      (∀ value s, p.Has (.expr (.literal (.int value) s)) → 0 ≤ value) ∧
      ∀ depth sink name expected received span,
        (p.report depth sink).1.outcome = .failed (.arityMismatch name expected received span) →
          Name.hasDashes name = false) ∧
    Operator.binaryWith .own = Operator.binary ∧
    ∀ p depth,
      (∀ branches, Eval.programWith (Operator.binaryWith branches) depth p =
        Eval.program depth p) ∧
      ∀ sink clash span,
        (p.report depth sink).1.outcome = .failed (.typeMismatch clash span) →
          (∀ op, clash ≠ .notArithmetic op) ∧
          ∀ op left right, clash ≠ .logicalOperands op left right := by
  refine ⟨?_, Operator.binaryWith_own, ?_⟩
  · intro source p h
    refine ⟨fun d hd => (derived_of_parse h _ hd).lawful,
      fun r hr => ((derived_of_parse h _ hr).lawful).1, ?_, fun value s => integers_of_parse h, ?_⟩
    · intro n m hn hm
      have hspelled := names_of_parse h hn hm
      exact ⟨hspelled.form, hspelled.not_true, hspelled.not_false, hspelled.hasDashes_variableName⟩
    · intro depth sink name expected received span hfailed
      exact Program.hasDashes_of_arityMismatch h hfailed
  · intro p depth
    refine ⟨fun branches => ?_, fun sink clash span hfailed => ?_⟩
    · exact Eval.programWith_eq (fun _ => Operator.binaryWith_of_not_logical) depth p
    · cases Program.mayRaise_of_failed hfailed with
      | common harises =>
        constructor
        · rintro op rfl
          exact harises
        · rintro op left right rfl
          exact harises

theorem parsed_well_formed_nested :
    let source := "r \x7bs \x7b--x:1;\x7d\x7d"
    ∃ p d, parse source = .ok p ∧ p.Has (.declaration d) ∧ d.property.isVariable = true ∧
      d.values.length = 1 ∧
      (IsName d.property.text.toList ∧ d.property.text ≠ "true" ∧ d.property.text ≠ "false" ∧
        Name.hasDashes d.property.variableName = false) ∧
      ∀ depth sink received, (p.report depth sink).1.outcome ≠
        .failed (.arityMismatch d.property.text 1 received d.span) := by
  intro source
  let span (start stop : Nat) : Span := ⟨⟨start, 1, start + 1⟩, ⟨stop, 1, stop + 1⟩⟩
  let d : Declaration := ⟨⟨"--x", span 6 9⟩, [.literal (.int 1) (span 10 11)], span 6 12⟩
  let s : Rule := ⟨⟨⟨"s", span 3 4⟩, [], span 3 4⟩, [.declaration d], span 3 13⟩
  let p : Program := ⟨[.rule ⟨⟨⟨"r", span 0 1⟩, [], span 0 1⟩, [.rule s], span 0 14⟩]⟩
  have hparse : parse "r \x7bs \x7b--x:1;\x7d\x7d" = .ok p :=
    parse_of_tokens [.inLine (.name "r") 0 1, .inLine (.symbol .openBrace) 2 3,
      .inLine (.name "s") 3 4, .inLine (.symbol .openBrace) 5 6, .inLine (.name "--x") 6 9,
      .inLine (.symbol .colon) 9 10, .inLine (.int 1) 10 11, .inLine (.symbol .semicolon) 11 12,
      .inLine (.symbol .closeBrace) 12 13, .inLine (.symbol .closeBrace) 13 14] (.inLine 14 14)
      (by with_unfolding_all rfl) (by with_unfolding_all rfl)
  have hd : p.Has (.declaration d) :=
    ⟨_, .head _, .child (.tail _ (.head _)) (.child (.tail _ (.head _)) (.self _))⟩
  have hproperty : p.Has (.name d.property) :=
    ⟨_, .head _, .child (.tail _ (.head _)) (.child (.tail _ (.head _))
      (.child (.head _) (.self _)))⟩
  obtain ⟨hcount, -, hnames, -, harity⟩ := parsed_well_formed.1 source p hparse
  have hvariable : d.property.isVariable = true := by cbv
  refine ⟨p, d, hparse, hd, hvariable, hcount d hd hvariable, hnames _ _ hproperty rfl, ?_⟩
  intro depth sink received hfailed
  have hnone : d.property.isVariable = false := harity depth sink _ _ _ _ hfailed
  rw [hvariable] at hnone
  cases hnone

end RuleScript
