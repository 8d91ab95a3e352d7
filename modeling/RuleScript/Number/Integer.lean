/-!
# Integers of 64 bits

The arithmetic of the language is exact or it is refused: each operation is
computed over the unbounded integers and answers `none` where the result does
not fit in 64 bits. No operation wraps around.

* `Integer.fit?` is the one place where the range is checked.
* `Integer.remainder?` exists exactly where the quotient does.
* `Integer.power?` never computes a power that is sure not to fit, and
  `Integer.fit?_pow_reducedExponent` says that nothing is lost by it.
-/

namespace RuleScript.Integer

/-- The least integer of the language. -/
def least : Int := Int64.minValue.toInt

/-- The greatest integer of the language. -/
def greatest : Int := Int64.maxValue.toInt

/-- The word for an integer, if it is in range. -/
def fit? (n : Int) : Option Int64 :=
  if least ≤ n ∧ n ≤ greatest then some (Int64.ofInt n) else none

/-- The exact sum. -/
def add? (a b : Int64) : Option Int64 := fit? (a.toInt + b.toInt)

/-- The exact difference. -/
def sub? (a b : Int64) : Option Int64 := fit? (a.toInt - b.toInt)

/-- The exact product. -/
def mul? (a b : Int64) : Option Int64 := fit? (a.toInt * b.toInt)

/-- The exact opposite. -/
def neg? (a : Int64) : Option Int64 := fit? (-a.toInt)

/-- The quotient, cut toward zero. The divisor is not zero. -/
def quotient? (a b : Int64) : Option Int64 := fit? (a.toInt.tdiv b.toInt)

/-- What the quotient leaves over. It is refused where the quotient is, also
where the remainder itself would fit. The divisor is not zero. -/
def remainder? (a b : Int64) : Option Int64 :=
  (quotient? a b).bind fun _ => fit? (a.toInt.tmod b.toInt)

/-- An exponent small enough to compute with, and just as good: for a base of
size at most one only zero and parity matter, and any other base has left the
range long before its sixty-fourth power. -/
def reducedExponent (base : Int) (exponent : Nat) : Nat :=
  if base.natAbs ≤ 1 then (if exponent = 0 then 0 else 2 - exponent % 2)
  else min exponent 64

/-- The exponents of at most 32 bits are below this one. -/
def exponentBound : Nat := 4294967296

/-- The exact power. Exponents of more than 32 bits are refused, whatever the
base. -/
def power? (base : Int64) (exponent : Nat) : Option Int64 :=
  if exponent < exponentBound then
    fit? (Int.pow base.toInt (reducedExponent base.toInt exponent))
  else none

/-- How an integer is written: in decimal, with a minus sign where needed. -/
def display (n : Int64) : String := toString n.toInt

/-! ### The range -/

/-- Every word is in range. -/
theorem toInt_mem_range (w : Int64) : least ≤ w.toInt ∧ w.toInt ≤ greatest :=
  ⟨Int64.minValue_le_toInt w, Int64.toInt_le w⟩

/-- A word is given for an integer exactly if it stands for it. -/
theorem fit?_eq_some_iff {n : Int} {w : Int64} : fit? n = some w ↔ w.toInt = n := by
  unfold fit?
  constructor
  · intro h
    split at h
    · next hr =>
      cases h
      have hg : greatest = 9223372036854775807 := by decide
      exact Int64.toInt_ofInt_of_le hr.1 (by omega)
    · cases h
  · rintro rfl
    rw [if_pos (toInt_mem_range w), Int64.ofInt_toInt]

/-- No word is given exactly if the integer is out of range. -/
theorem fit?_eq_none_iff {n : Int} : fit? n = none ↔ n < least ∨ greatest < n := by
  unfold fit?
  split
  · next h =>
    constructor
    · intro hn
      cases hn
    · intro hn
      omega
  · next h =>
    constructor
    · intro _
      omega
    · intro _
      rfl

/-! ### Powers -/

/-- From the sixty-fourth power on, a base of size two or more is out of range. -/
theorem fit?_pow_eq_none {a : Int} {e : Nat} (ha : 2 ≤ a.natAbs) (he : 64 ≤ e) :
    fit? (Int.pow a e) = none := by
  have hsize : Nat.pow 2 64 ≤ (Int.pow a e).natAbs := by
    rw [show (Int.pow a e).natAbs = Nat.pow a.natAbs e from Int.natAbs_pow a e]
    exact Nat.le_trans (Nat.pow_le_pow_right (by decide) he) (Nat.pow_le_pow_left ha e)
  have hl : least = -9223372036854775808 := by decide
  have hg : greatest = 9223372036854775807 := by decide
  have hp : Nat.pow 2 64 = 18446744073709551616 := by decide
  rw [fit?_eq_none_iff]
  omega

/-- For a base of size at most one only the parity of the exponent matters. -/
theorem pow_of_small {a : Int} {e : Nat} (ha : a.natAbs ≤ 1) (he : e ≠ 0) :
    Int.pow a (2 - e % 2) = Int.pow a e := by
  have hcases : a = 0 ∨ a = 1 ∨ a = -1 := by omega
  rcases hcases with rfl | rfl | rfl
  · exact (Int.zero_pow (by omega)).trans (Int.zero_pow he).symm
  · exact Int.one_pow.trans Int.one_pow.symm
  · have hsplit : Int.pow (-1) e = Int.pow (-1) (e % 2) := by
      calc Int.pow (-1) e = Int.pow (-1) (2 * (e / 2) + e % 2) := by rw [Nat.div_add_mod]
        _ = Int.pow (-1) (2 * (e / 2)) * Int.pow (-1) (e % 2) := Int.pow_add ..
        _ = Int.pow (Int.pow (-1) 2) (e / 2) * Int.pow (-1) (e % 2) :=
          congrArg (· * Int.pow (-1) (e % 2)) Int.pow_mul
        _ = 1 * Int.pow (-1) (e % 2) := congrArg (· * Int.pow (-1) (e % 2)) Int.one_pow
        _ = Int.pow (-1) (e % 2) := Int.one_mul _
    rw [hsplit]
    rcases Nat.mod_two_eq_zero_or_one e with h | h
    · simp only [h]
      rfl
    · simp only [h]

/-- Powers are **exact**: the reduced exponent gives the word that the exponent
itself would, or none if that gives none. -/
theorem fit?_pow_reducedExponent (a : Int) (e : Nat) :
    fit? (Int.pow a (reducedExponent a e)) = fit? (Int.pow a e) := by
  unfold reducedExponent
  split
  · next ha =>
    split
    · next he => rw [he]
    · next he => rw [pow_of_small ha he]
  · next ha =>
    rcases Nat.le_total e 64 with he | he
    · rw [Nat.min_eq_left he]
    · rw [Nat.min_eq_right he, fit?_pow_eq_none (by omega) (Nat.le_refl 64),
        fit?_pow_eq_none (by omega) he]

end RuleScript.Integer
