import Mathlib.Algebra.Group.Int.Defs
import RuleScript.Proofs.Layout
import RuleScript.Proofs.Raising

/-!
# Integers are exact

An operator between integers gives its **exact** result or none at all. Quotients are refused only
where they are out of range. Remainders and powers are refused more often than they have to be: the
remainder of the least integer by minus one is zero, and a base of size at most one has all its
powers in range.

* `Integer.quotient?_eq_none_iff`, `Integer.remainder?_eq_some_iff`, `Integer.power?_eq_some_iff`:
  which results are given.
* `Eval.expr_binary_run`: an operator whose operands evaluate to integers.
* `remainder_and_power_exact`: what `%` and `^` evaluate to.
-/

namespace RuleScript

/-! ### Quotients, remainders and powers in range -/

namespace Integer

variable {a b : Int64}

theorem exists_of_mem_range {n : Int} (h : least ≤ n ∧ n ≤ greatest) : ∃ m : Int64, m.toInt = n :=
  ⟨Int64.ofInt n, fit?_eq_some_iff.1 (if_pos h)⟩

theorem bounds_eq : least = -9223372036854775808 ∧ greatest = 9223372036854775807 := by decide

/-- The quotient of two integers is out of range **only** where the least one is divided by minus
one. -/
theorem quotient?_eq_none_iff : quotient? a b = none ↔ a.toInt = least ∧ b.toInt = -1 := by
  have hrange := toInt_mem_range a
  obtain ⟨hl, hg⟩ := bounds_eq
  rw [quotient?, fit?_eq_none_iff]
  constructor
  · intro hout
    have hsize : (a.toInt.tdiv b.toInt).natAbs = a.toInt.natAbs / b.toInt.natAbs :=
      Int.natAbs_tdiv ..
    have hle := Nat.div_le_self a.toInt.natAbs b.toInt.natAbs
    -- any other divisor at least halves what is divided
    have hone : b.toInt.natAbs = 1 := by
      by_contra hne
      have hhalf : a.toInt.natAbs / b.toInt.natAbs ≤ a.toInt.natAbs / 2 := by
        rcases Nat.eq_zero_or_pos b.toInt.natAbs with hzero | hpos
        · rw [hzero, Nat.div_zero]
          exact Nat.zero_le _
        · exact Nat.div_le_div_left (by omega) (by decide)
      omega
    obtain hb | hb : b.toInt = 1 ∨ b.toInt = -1 := by omega
    · rw [hb, Int.tdiv_one] at hout
      omega
    · rw [hb, Int.tdiv_neg, Int.tdiv_one] at hout
      exact ⟨by omega, hb⟩
  · rintro ⟨ha, hb⟩
    rw [ha, hb]
    decide

/-- A remainder has the sign of what is divided and is no larger, so it is **always** in range. -/
theorem tmod_mem_range (a b : Int64) :
    least ≤ a.toInt.tmod b.toInt ∧ a.toInt.tmod b.toInt ≤ greatest := by
  have hrange := toInt_mem_range a
  obtain ⟨hl, hg⟩ := bounds_eq
  have hsize : (a.toInt.tmod b.toInt).natAbs ≤ a.toInt.natAbs := by
    rw [Int.natAbs_tmod]
    exact Nat.mod_le _ _
  rcases Int.le_total 0 a.toInt with ha | ha
  · have hsign := Int.tmod_nonneg b.toInt ha
    omega
  · have hsign := Int.tmod_nonneg b.toInt (Int.neg_nonneg_of_nonpos ha)
    rw [Int.neg_tmod] at hsign
    omega

/-- A remainder is given exactly where the quotient is. -/
theorem remainder?_eq_some_iff {r : Int64} :
    remainder? a b = some r ↔
      ¬(a.toInt = least ∧ b.toInt = -1) ∧ r.toInt = a.toInt.tmod b.toInt := by
  rw [remainder?, ← quotient?_eq_none_iff, ← fit?_eq_some_iff]
  cases quotient? a b with
  | none => simp
  | some q => simp

/-- A power is given exactly if it is in range **and** its exponent has at most 32 bits. -/
theorem power?_eq_some_iff {e : Nat} {p : Int64} :
    power? a e = some p ↔ e < exponentBound ∧ p.toInt = a.toInt ^ e := by
  have hpow : fit? (Int.pow a.toInt (reducedExponent a.toInt e)) = some p ↔
      p.toInt = a.toInt ^ e := by
    rw [fit?_pow_reducedExponent]
    exact fit?_eq_some_iff
  rw [power?]
  split
  · next h => rw [hpow, and_iff_right h]
  · next h => simp [h]

/-- Only a base of size at most one has large powers in range. -/
theorem natAbs_le_one_of_pow {e : Nat} {p : Int64} (he : 64 ≤ e) (hp : p.toInt = a.toInt ^ e) :
    a.toInt.natAbs ≤ 1 := by
  by_contra hbase
  have hnone : fit? (a.toInt ^ e) = none := fit?_pow_eq_none (by omega) he
  rw [fit?_eq_some_iff.2 hp] at hnone
  cases hnone

end Integer

/-! ### What operators between integers evaluate to -/

namespace Operator

open Integer

variable {a b : Int64} {span : Span}

theorem integer_rem (hb : b.toInt ≠ 0) {r : Int64} (hr : r.toInt = a.toInt.tmod b.toInt) :
    integer .rem a b span =
      if a.toInt = least ∧ b.toInt = -1 then .error (.overflow .percent span)
      else .ok (.int r) := by
  rw [integer, if_neg hb]
  split
  · next hleast =>
    have hnone : remainder? a b = none :=
      Option.eq_none_iff_forall_ne_some.2 fun x hx => (remainder?_eq_some_iff.1 hx).1 hleast
    rw [hnone]
    rfl
  · next hleast =>
    rw [remainder?_eq_some_iff.2 ⟨hleast, hr⟩]
    rfl

theorem quotient_of_integer_div {q : Int64} (h : integer .div a b span = .ok (.int q)) :
    b.toInt ≠ 0 ∧ quotient? a b = some q := by
  rw [integer] at h
  by_cases hb : b.toInt = 0
  · rw [if_pos hb] at h
    cases h
  · rw [if_neg hb] at h
    refine ⟨hb, ?_⟩
    cases hq : quotient? a b with
    | none =>
      rw [hq] at h
      cases h
    | some q' =>
      rw [hq] at h
      cases h
      rfl

theorem integer_pow (hb : 0 ≤ b.toInt) {p : Int64} (hp : p.toInt = a.toInt ^ b.toInt.toNat) :
    integer .pow a b span =
      if b.toInt < exponentBound then .ok (.int p) else .error (.overflow .caret span) := by
  have hbound : b.toInt.toNat < exponentBound ↔ b.toInt < exponentBound := by omega
  rw [integer, if_neg (Int.not_lt.2 hb)]
  split
  · next hlt =>
    rw [power?_eq_some_iff.2 ⟨hbound.2 hlt, hp⟩]
    rfl
  · next hge =>
    have hnone : power? a b.toInt.toNat = none :=
      Option.eq_none_iff_forall_ne_some.2 fun x hx => hge (hbound.1 (power?_eq_some_iff.1 hx).1)
    rw [hnone]
    rfl

theorem integer_pow_of_out (hb : 0 ≤ b.toInt)
    (hout : ∀ p : Int64, p.toInt ≠ a.toInt ^ b.toInt.toNat) :
    integer .pow a b span = .error (.overflow .caret span) := by
  have hnone : power? a b.toInt.toNat = none :=
    Option.eq_none_iff_forall_ne_some.2 fun x hx => hout x (power?_eq_some_iff.1 hx).2
  rw [integer, if_neg (Int.not_lt.2 hb), hnone]
  rfl

end Operator

namespace Eval

variable {depth : Nat} {scope : ScopeId} {op : BinaryOp} {left right : Expr} {span : Span}
  {a b : Int64} {w w₁ w₂ : World}

theorem of_ofExcept_done {α : Type} {r : Except Fault α} {x : α}
    (h : (Process.ofExcept r : Eval α).run w = (.done x, w₁)) : r = .ok x := by
  cases r <;> cases h
  rfl

/-- An arithmetic operator is applied to the values of its operands. -/
theorem expr_binary_eq (hop : Operator.isArithmetic op = true) :
    expr (depth + 1) scope (.binary op left right span) =
      expr depth scope left >>= fun x => expr depth scope right >>= fun y =>
        Process.ofExcept (Operator.binary op x y span) := by
  cases op
  case add | sub | mul | div | rem | pow => rfl
  all_goals cases hop

/-- Where the operands are integers, they are computed with as integers. -/
theorem expr_binary_run (hop : Operator.isArithmetic op = true)
    (hleft : (expr depth scope left).run w = (.done (.int a), w₁))
    (hright : (expr depth scope right).run w₁ = (.done (.int b), w₂)) :
    (expr (depth + 1) scope (.binary op left right span)).run w =
      (Process.ofExcept (Operator.integer op a b span)).run w₂ := by
  have hint : Operator.binary op (.int a) (.int b) span = Operator.integer op a b span := by
    cases op
    case add | sub | mul | div | rem | pow => rfl
    all_goals cases hop
  rw [expr_binary_eq hop, Process.run_bind_done hleft, Process.run_bind_done hright, hint]

end Eval

open Eval Integer in
/-- **Remainders and powers.** Take operands that evaluate to integers `a` and `b`. If `b` is not
zero, the remainder of the quotient cut toward zero is in range and is what `%` gives, except that
the remainder of the least integer by minus one is **refused**; wherever the quotient is given, so
is the remainder, and the two make up `a`. If `b` is not negative, `^` gives the power if that is in
range and overflows if it is not, except that an exponent of more than 32 bits is **refused** for
the bases 0, 1 and -1, the only ones that have such powers in range. -/
theorem remainder_and_power_exact (depth : Nat) (scope : ScopeId) (left right : Expr) (span : Span)
    (a b : Int64) (w w₁ w₂ : World) (hleft : (expr depth scope left).run w = (.done (.int a), w₁))
    (hright : (expr depth scope right).run w₁ = (.done (.int b), w₂)) :
    let run := fun op => (expr (depth + 1) scope (.binary op left right span)).run w
    (b.toInt ≠ 0 → ∃ r : Int64, r.toInt = a.toInt.tmod b.toInt ∧
      run .rem = if a.toInt = least ∧ b.toInt = -1 then (.failed (.overflow .percent span), w₂)
        else (.done (.int r), w₂)) ∧
    (∀ q, run .div = (.done (.int q), w₂) → ∃ r : Int64, run .rem = (.done (.int r), w₂) ∧
      a.toInt = q.toInt * b.toInt + r.toInt) ∧
    (0 ≤ b.toInt →
      (∀ p : Int64, p.toInt = a.toInt ^ b.toInt.toNat →
        run .pow = (if b.toInt < exponentBound then (.done (.int p), w₂)
          else (.failed (.overflow .caret span), w₂)) ∧
        (exponentBound ≤ b.toInt → a.toInt.natAbs ≤ 1)) ∧
      ((∀ p : Int64, p.toInt ≠ a.toInt ^ b.toInt.toNat) →
        run .pow = (.failed (.overflow .caret span), w₂))) := by
  intro run
  have hrun : ∀ op, Operator.isArithmetic op = true →
      run op = (Process.ofExcept (Operator.integer op a b span)).run w₂ :=
    fun op hop => expr_binary_run hop hleft hright
  obtain ⟨r, hr⟩ := exists_of_mem_range (tmod_mem_range a b)
  refine ⟨?_, ?_, ?_⟩
  · intro hb
    refine ⟨r, hr, ?_⟩
    rw [hrun .rem rfl, Operator.integer_rem hb hr]
    split <;> rfl
  · intro q hq
    rw [hrun .div rfl] at hq
    obtain ⟨hb, hquotient⟩ := Operator.quotient_of_integer_div (of_ofExcept_done hq)
    have hleast : ¬(a.toInt = least ∧ b.toInt = -1) := by
      rw [← quotient?_eq_none_iff, hquotient]
      exact Option.some_ne_none q
    refine ⟨r, ?_, ?_⟩
    · rw [hrun .rem rfl, Operator.integer_rem hb hr, if_neg hleast]
      rfl
    · rw [hr, fit?_eq_some_iff.1 hquotient]
      exact (Int.tdiv_mul_add_tmod _ _).symm
  · intro hb
    refine ⟨?_, ?_⟩
    · intro p hp
      refine ⟨?_, ?_⟩
      · rw [hrun .pow rfl, Operator.integer_pow hb hp]
        split <;> rfl
      · intro hlarge
        rw [exponentBound] at hlarge
        exact natAbs_le_one_of_pow (by omega) hp
    · intro hout
      rw [hrun .pow rfl, Operator.integer_pow_of_out hb hout]
      rfl

/-- The least integer is given as the power of -2 that it is. -/
theorem remainder_and_power_exact_least :
    let base : Expr := .literal (.int (-2)) default
    let exponent : Expr := .literal (.int 63) default
    let w := World.start (.empty none)
    (Eval.expr 1 0 base).run w = (.done (.int (-2)), w) ∧
    (Eval.expr 1 0 exponent).run w = (.done (.int 63), w) ∧
    (Eval.expr 2 0 (.binary .pow base exponent default)).run w =
      (.done (.int Int64.minValue), w) := by
  intro base exponent w
  have hexact := remainder_and_power_exact 1 0 base exponent default (-2) 63 w w w rfl rfl
  exact ⟨rfl, rfl, ((hexact.2.2 (by decide)).1 Int64.minValue (by decide)).1⟩

/-- A program on one line whose main rule returns an expression. -/
def Program.computing (e : Expr) : Program :=
  let stop := e.span.stop.pos
  let returning : Statement :=
    .atRule ⟨⟨"return", .inLine 7 13⟩, [e], none, .inLine 6 (stop + 1)⟩
  ⟨[.rule ⟨⟨⟨"main", .inLine 0 4⟩, [], .inLine 0 4⟩, [returning], .inLine 0 (stop + 2)⟩]⟩

/-- An integer behind a minus sign. -/
def Expr.negated (n : Int64) (start stop : Nat) : Expr :=
  .unary .neg (.literal (.int n) (.inLine (start + 1) stop)) (.inLine start stop)

/-- The remainder of the least integer by minus one. -/
def Expr.leastRemainder : Expr :=
  .binary .rem (.binary .sub (.negated Int64.maxValue 15 35) (.literal (.int 1) (.inLine 38 39))
    (.inLine 14 40)) (.negated 1 43 45) (.inLine 14 45)

/-- A power of 1 with an exponent of 33 bits. -/
def Expr.longPower : Expr :=
  .binary .pow (.literal (.int 1) (.inLine 14 15)) (.literal (.int 4294967296) (.inLine 18 28))
    (.inLine 14 28)

/-- Remainders and powers that are **in range and refused**: the remainder of the least integer by
minus one is 0, and 1 to the power 4294967296 is 1. -/
theorem remainder_and_power_refused :
    (∃ p, parse "main \x7b@return (-9223372036854775807 - 1) % -1;\x7d" = .ok p ∧
      (p.report 10 (.empty none)).1.outcome = .failed (.overflow .percent (.inLine 14 45))) ∧
    Integer.least.tmod (-1) = 0 ∧
    (∃ p, parse "main \x7b@return 1 ^ 4294967296;\x7d" = .ok p ∧
      (p.report 10 (.empty none)).1.outcome = .failed (.overflow .caret (.inLine 14 28))) ∧
    (1 : Int) ^ 4294967296 = 1 := by
  have hremainder : ((Program.computing .leastRemainder).report 10 (.empty none)).1.outcome =
      .failed (.overflow .percent (.inLine 14 45)) := by with_unfolding_all rfl
  have hpower : ((Program.computing .longPower).report 10 (.empty none)).1.outcome =
      .failed (.overflow .caret (.inLine 14 28)) := by with_unfolding_all rfl
  refine ⟨⟨_, ?_, hremainder⟩, rfl, ⟨_, ?_, hpower⟩, one_pow _⟩
  · exact parse_of_tokens [.inLine (.name "main") 0 4, .inLine (.symbol .openBrace) 5 6,
      .inLine (.symbol .at) 6 7, .inLine (.name "return") 7 13, .inLine (.symbol .openParen) 14 15,
      .inLine (.symbol .minus) 15 16, .inLine (.int 9223372036854775807) 16 35,
      .inLine (.symbol .minus) 36 37, .inLine (.int 1) 38 39, .inLine (.symbol .closeParen) 39 40,
      .inLine (.symbol .percent) 41 42, .inLine (.symbol .minus) 43 44, .inLine (.int 1) 44 45,
      .inLine (.symbol .semicolon) 45 46, .inLine (.symbol .closeBrace) 46 47] (.inLine 47 47)
      (by with_unfolding_all rfl) (by with_unfolding_all rfl)
  · exact parse_of_tokens [.inLine (.name "main") 0 4, .inLine (.symbol .openBrace) 5 6,
      .inLine (.symbol .at) 6 7, .inLine (.name "return") 7 13, .inLine (.int 1) 14 15,
      .inLine (.symbol .caret) 16 17, .inLine (.int 4294967296) 18 28,
      .inLine (.symbol .semicolon) 28 29, .inLine (.symbol .closeBrace) 29 30] (.inLine 30 30)
      (by with_unfolding_all rfl) (by with_unfolding_all rfl)

end RuleScript
