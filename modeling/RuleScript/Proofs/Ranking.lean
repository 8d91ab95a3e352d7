import Mathlib.Data.Int.Order.Basic
import Mathlib.Data.String.Basic
import RuleScript.Operator

/-!
# How comparisons go together

Six operators compare values. What each of them answers is read off one order of the two values, so
the answers go together: what one operator refuses, its kin refuse, and what they answer fits one
order. Integers and texts are ordered totally; "not a number" is in no order with anything.

* `Operator.floatOrder_swap`: floating-point numbers are in the opposite order when they are
  exchanged. `Operator.order?_swap`: so are all values.
* `Operator.answer?`: what a comparison answers.
* `Operator.Ranks`: of values in a linear order, their order is what operators go by.
* `comparisons_coherent`: how the six operators go together.
-/

namespace RuleScript

/-! ### Orders the other way round -/

/-- The order of floating-point numbers is **reversed** when they are exchanged. -/
theorem Binary64.compare_swap (x y : Float.Model.UnpackedFloat) :
    y.compare x = (x.compare y).map Ordering.swap := by
  cases x with
  | notANumber => cases y <;> rfl
  | infinity s =>
    cases y with
    | infinity t => cases s <;> cases t <;> rfl
    | notANumber | zero | finite => cases s <;> rfl
  | zero s =>
    cases y with
    | infinity t | finite t => cases t <;> rfl
    | notANumber | zero => rfl
  | finite s m e hm =>
    cases y with
    | infinity t => cases s <;> cases t <;> rfl
    | notANumber => cases s <;> rfl
    | zero => cases s <;> rfl
    | finite t n d hn =>
      have hpositive : (compare d e).then (compare n m) =
          ((compare e d).then (compare m n)).swap := by
        rw [Ordering.swap_then, ← Std.OrientedOrd.eq_swap, ← Std.OrientedOrd.eq_swap]
      cases s with
      | positive =>
        cases t with
        | positive => exact congrArg some hpositive
        | negative => rfl
      | negative =>
        cases t with
        | positive => rfl
        | negative => exact congrArg (some ·.swap) hpositive

namespace Operator

/-- What is less is less in **the model** of floating-point numbers. -/
theorem float_lt_iff (a b : Float) :
    a < b ↔ a.toModel.unpack.compare b.toModel.unpack = some .lt := by
  change decide (a.toModel < b.toModel) = true ↔ _
  rw [decide_eq_true_iff]
  exact beq_iff_eq

/-- What is equal is equal in the model of floating-point numbers. -/
theorem float_beq_iff (a b : Float) :
    (a == b) = true ↔ a.toModel.unpack.compare b.toModel.unpack = some .eq := by
  change (a.toModel.unpack.compare b.toModel.unpack == some .eq) = true ↔ _
  exact beq_iff_eq

/-- The order of floating-point numbers is that of their models. -/
theorem floatOrder_eq (a b : Float) :
    floatOrder a b = a.toModel.unpack.compare b.toModel.unpack := by
  have hgt : b < a ↔ a.toModel.unpack.compare b.toModel.unpack = some .gt := by
    rw [float_lt_iff, Binary64.compare_swap a.toModel.unpack b.toModel.unpack]
    rcases a.toModel.unpack.compare b.toModel.unpack with _ | _ | _ | _ <;> simp
  simp only [floatOrder, float_lt_iff a b, float_beq_iff, hgt]
  rcases a.toModel.unpack.compare b.toModel.unpack with _ | _ | _ | _ <;> rfl

/-- The order of floating-point numbers is **antisymmetric**, and they are equal both ways or not
at all. -/
theorem floatOrder_swap (a b : Float) : floatOrder b a = (floatOrder a b).map Ordering.swap := by
  rw [floatOrder_eq, floatOrder_eq]
  exact Binary64.compare_swap _ _

/-- The order of values is **reversed** when they are exchanged. -/
theorem order?_swap (op : BinaryOp) (a b : Value) :
    order? op b a = (order? op a b).map (Option.map Ordering.swap) := by
  cases a with
  | nil => cases b <;> simp [order?, Value.toFloat?, apply_ite]
  | bool x =>
    cases b with
    | bool y =>
      have hswap : compare y x = (compare x y).swap := Std.OrientedOrd.eq_swap
      simp [order?, hswap, apply_ite]
    | nil | int | float | string => rfl
  | int m =>
    cases b with
    | int n =>
      have hswap : compare n.toInt m.toInt = (compare m.toInt n.toInt).swap :=
        Std.OrientedOrd.eq_swap
      simp [order?, hswap]
    | float y => simp [order?, Value.toFloat?, floatOrder_swap m.toFloat]
    | nil | bool | string => rfl
  | float x => cases b <;> simp [order?, Value.toFloat?, floatOrder_swap x]
  | string x =>
    cases b with
    | string y =>
      have hswap : compare y x = (compare x y).swap := Std.OrientedOrd.eq_swap
      simp [order?, hswap]
    | nil | bool | int | float => rfl

/-! ### What comparisons answer -/

/-- The operators that **compare** two values. -/
def comparisons : List BinaryOp := [.eq, .notEq, .lt, .ltEq, .gt, .gtEq]

/-- What a comparison **answers**, if it can compare the values. -/
def answer? (op : BinaryOp) (a b : Value) : Option Bool := (order? op a b).map (verdict op)

variable {op : BinaryOp} {a b : Value}

/-- A comparison **succeeds with its answer**, and fails without one. -/
theorem binary_of_answer (hop : op ∈ comparisons) (a b : Value) (span : Span) :
    binary op a b span = match answer? op a b with
      | some v => .ok (.bool v)
      | none => .error (.typeMismatch (.comparison op a.type b.type) span) := by
  have hbinary : binary op a b span = comparison op a b span := by
    simp only [comparisons, List.mem_cons, List.not_mem_nil, or_false] at hop
    rcases hop with rfl | rfl | rfl | rfl | rfl | rfl <;> rfl
  rw [hbinary, comparison, answer?]
  cases order? op a b <;> rfl

theorem answer?_eq_none_iff : answer? op a b = none ↔ order? op a b = none :=
  Option.map_eq_none_iff

/-- Only whether an operator asks for equality counts for the order that it goes by. -/
theorem order?_congr (op op' : BinaryOp) (h : isEquality op = isEquality op') (a b : Value) :
    order? op a b = order? op' a b := by
  simp only [order?, h]

/-- **What can be ordered can be equated**, and the order is the same. -/
theorem order?_eq_of_lt {order : Option Ordering} (h : order? .lt a b = some order) :
    order? .eq a b = some order := by
  cases a <;> cases b <;> simp_all [order?, isEquality, Value.toFloat?]

/-- Who is compared with whom does not matter for whether there is an answer. -/
theorem answer?_none_comm (op : BinaryOp) (a b : Value) :
    answer? op a b = none ↔ answer? op b a = none := by
  rw [answer?_eq_none_iff, answer?_eq_none_iff, order?_swap op a b, Option.map_eq_none_iff]

/-- Operators of one kind have answers **for the same values**. -/
theorem answer?_none_congr (op op' : BinaryOp) (h : isEquality op = isEquality op')
    (a b : Value) : answer? op a b = none ↔ answer? op' a b = none := by
  rw [answer?_eq_none_iff, answer?_eq_none_iff, order?_congr op op' h]

/-- `!=` is the **negation** of `==`. -/
theorem answer?_notEq (a b : Value) : answer? .notEq a b = (answer? .eq a b).map (! ·) := by
  rw [answer?, answer?, order?_congr .notEq .eq rfl, Option.map_map]
  rfl

/-- `>` is `<` with **the values exchanged**. -/
theorem answer?_gt (a b : Value) : answer? .gt b a = answer? .lt a b := by
  rw [answer?, answer?, order?_swap, Option.map_map, order?_congr .gt .lt rfl]
  apply Option.map_congr
  rintro (_ | _ | _ | _) - <;> rfl

/-- An operator that allows equality answers as the **strict** one **or** `==`. -/
theorem answer?_or {strict : BinaryOp} {s e : Bool} (hkind : isEquality strict = false)
    (hop : isEquality op = false)
    (hverdict : ∀ order, verdict op order = (verdict strict order || verdict .eq order))
    (hs : answer? strict a b = some s) (he : answer? .eq a b = some e) :
    answer? op a b = some (s || e) := by
  obtain ⟨order, horder, rfl⟩ := Option.map_eq_some_iff.1 hs
  rw [order?_congr strict .lt hkind] at horder
  have hequality : answer? .eq a b = some (verdict .eq order) := by
    rw [answer?, order?_eq_of_lt horder]
    rfl
  obtain rfl : verdict .eq order = e := Option.some.inj (hequality.symm.trans he)
  rw [answer?, order?_congr op .lt hop, horder, ← hverdict]
  rfl

/-! ### Values in a linear order -/

/-- Of `<`, `==` and `>` **one and only one** asks for a given order. -/
theorem existsUnique_verdict (order : Ordering) :
    ∃! op, op ∈ [BinaryOp.lt, .eq, .gt] ∧ verdict op (some order) = true := by
  cases order with
  | lt => exact ⟨.lt, by decide, by simp [verdict]⟩
  | eq => exact ⟨.eq, by decide, by simp [verdict]⟩
  | gt => exact ⟨.gt, by decide, by simp [verdict]⟩

/-- Operators go by **the order** of `x` and `y` when they compare two values. -/
def Ranks {α : Type} [LinearOrder α] (a b : Value) (x y : α) : Prop :=
  ∀ op, order? op a b = some (some (compare x y))

theorem ranks_int (m n : Int64) : Ranks (.int m) (.int n) m.toInt n.toInt := fun _ => rfl

theorem ranks_string (x y : String) : Ranks (.string x) (.string y) x y := fun _ => rfl

namespace Ranks

variable {α : Type} [LinearOrder α] {x y z : α}

theorem answer?_lt (h : Ranks a b x y) : answer? .lt a b = some (decide (x < y)) := by
  rw [answer?, h]
  by_cases hlt : x < y <;> simp [verdict, compare_lt_iff_lt, hlt]

theorem answer?_eq (h : Ranks a b x y) : answer? .eq a b = some (decide (x = y)) := by
  rw [answer?, h]
  by_cases heq : x = y <;> simp [verdict, heq]

/-- **Exactly one** of `<`, `==` and `>` is true. -/
theorem existsUnique (h : Ranks a b x y) :
    ∃! op, op ∈ [BinaryOp.lt, .eq, .gt] ∧ answer? op a b = some true := by
  have hverdict : ∀ op, answer? op a b = some true ↔ verdict op (some (compare x y)) = true := by
    intro op
    rw [answer?, h, Option.map_some, Option.some_inj]
  simp only [hverdict]
  exact existsUnique_verdict (compare x y)

/-- What is less than something that is less is **less**. -/
theorem trans {c : Value} (hab : Ranks a b x y) (hbc : Ranks b c y z) (hac : Ranks a c x z)
    (h : answer? .lt a b = some true) (h' : answer? .lt b c = some true) :
    answer? .lt a c = some true := by
  rw [answer?_lt hab] at h
  rw [answer?_lt hbc] at h'
  rw [answer?_lt hac]
  simp only [Option.some.injEq, decide_eq_true_eq] at *
  exact lt_trans h h'

end Ranks

/-- Texts are ordered **by their code points**: where two texts differ first the lesser code point
decides, and a text comes behind its beginnings. -/
theorem lt_iff_lex (x y : String) :
    x < y ↔ List.Lex (fun c d => c.toNat < d.toNat) x.toList y.toList := by
  rw [String.lt_iff_toList_lt]
  exact List.lt_iff_lex_lt _ _

/-- Integers, texts, truth values and absent values are equal to `==` **if they are the same**. -/
theorem answer?_eq_beq (htype : a.type = b.type) (hfloat : a.type ≠ .float) :
    answer? .eq a b = some (a == b) := by
  cases a with
  | nil =>
    cases b <;> cases htype
    rfl
  | bool x =>
    cases b with
    | bool y => cases x <;> cases y <;> rfl
    | nil | int | float | string => cases htype
  | int m =>
    cases b with
    | int n =>
      have hbeq : (Value.int m == .int n) = decide (m = n) := rfl
      rw [(ranks_int m n).answer?_eq, hbeq]
      simp [Int64.toInt_inj]
    | nil | bool | float | string => cases htype
  | float x => exact absurd rfl hfloat
  | string x =>
    cases b with
    | string y => exact (ranks_string x y).answer?_eq
    | nil | bool | int | float => cases htype

/-- Two integers are ranked by their size, and two texts by themselves. -/
theorem ranks_of_type (htype : a.type = b.type) (hkind : a.type = .int ∨ a.type = .string) :
    (∃ m n, a = .int m ∧ b = .int n) ∨ ∃ x y, a = .string x ∧ b = .string y := by
  cases a <;> cases b <;> simp_all [Value.type]

end Operator

/-! ### How the operators go together -/

open Operator

/-- **Comparisons are coherent.** A comparison has an answer or fails with the types that it cannot
compare.

* `==` fails where it fails with the values exchanged, and where `!=` fails; `<` fails where `<=`,
  `>` and `>=` fail, and where it fails with the values exchanged. Where `<` succeeds, `==` does.
* `!=` is the negation of `==`, `<` is `>` with the values exchanged, and `<=` and `>=` are the
  strict ones or `==`.
* Of two integers or two texts exactly one of `<`, `==` and `>` is true, and `<` is transitive. It
  orders integers by size and texts by code point.
* `==` tells whether two integers, texts, truth values or absent values are the same. -/
theorem comparisons_coherent (a b : Value) :
    (∀ op ∈ comparisons, ∀ span, binary op a b span = match answer? op a b with
      | some v => .ok (.bool v)
      | none => .error (.typeMismatch (.comparison op a.type b.type) span)) ∧
    ((answer? .eq a b = none ↔ answer? .eq b a = none) ∧
      (answer? .eq a b = none ↔ answer? .notEq a b = none)) ∧
    ((answer? .lt a b = none ↔ answer? .ltEq a b = none) ∧
      (answer? .lt a b = none ↔ answer? .gt a b = none) ∧
      (answer? .lt a b = none ↔ answer? .gtEq a b = none) ∧
      (answer? .lt a b = none ↔ answer? .lt b a = none) ∧
      ((answer? .lt a b).isSome → (answer? .eq a b).isSome)) ∧
    (answer? .notEq a b = (answer? .eq a b).map (! ·) ∧
      answer? .lt a b = answer? .gt b a ∧
      (∀ l e, answer? .lt a b = some l → answer? .eq a b = some e →
        answer? .ltEq a b = some (l || e)) ∧
      ∀ g e, answer? .gt a b = some g → answer? .eq a b = some e →
        answer? .gtEq a b = some (g || e)) ∧
    (a.type = b.type → a.type = .int ∨ a.type = .string →
      (∃! op, op ∈ [BinaryOp.lt, .eq, .gt] ∧ answer? op a b = some true) ∧
      ∀ c : Value, c.type = b.type → answer? .lt a b = some true → answer? .lt b c = some true →
        answer? .lt a c = some true) ∧
    (∀ m n, a = .int m → b = .int n →
      (answer? .lt a b = some true ↔ m.toInt < n.toInt)) ∧
    (∀ x y, a = .string x → b = .string y →
      (answer? .lt a b = some true ↔
        List.Lex (fun c d => c.toNat < d.toNat) x.toList y.toList)) ∧
    (a.type = b.type → a.type ≠ .float → answer? .eq a b = some (a == b)) := by
  refine ⟨fun op hop span => binary_of_answer hop a b span, ?_, ?_, ?_, ?_, ?_, ?_,
    answer?_eq_beq⟩
  · exact ⟨answer?_none_comm .eq a b, answer?_none_congr .eq .notEq rfl a b⟩
  · refine ⟨answer?_none_congr .lt .ltEq rfl a b, answer?_none_congr .lt .gt rfl a b,
      answer?_none_congr .lt .gtEq rfl a b, answer?_none_comm .lt a b, ?_⟩
    intro hlt
    obtain ⟨v, hv⟩ := Option.isSome_iff_exists.1 hlt
    obtain ⟨order, horder, -⟩ := Option.map_eq_some_iff.1 hv
    rw [answer?, order?_eq_of_lt horder]
    rfl
  · refine ⟨answer?_notEq a b, (answer?_gt a b).symm, ?_, ?_⟩
    · intro l e hl he
      exact answer?_or rfl rfl (fun _ => rfl) hl he
    · intro g e hg he
      exact answer?_or rfl rfl (fun _ => rfl) hg he
  · intro htype hkind
    rcases ranks_of_type htype hkind with ⟨m, n, rfl, rfl⟩ | ⟨x, y, rfl, rfl⟩
    · refine ⟨(ranks_int m n).existsUnique, ?_⟩
      intro c hc
      cases c with
      | int k => exact (ranks_int m n).trans (ranks_int n k) (ranks_int m k)
      | nil | bool | float | string => cases hc
    · refine ⟨(ranks_string x y).existsUnique, ?_⟩
      intro c hc
      cases c with
      | string z => exact (ranks_string x y).trans (ranks_string y z) (ranks_string x z)
      | nil | bool | int | float => cases hc
  · rintro m n rfl rfl
    simp [(ranks_int m n).answer?_lt]
  · rintro x y rfl rfl
    rw [← lt_iff_lex, (ranks_string x y).answer?_lt]
    simp

/-- Between 1, 2 and 3 nothing but `<` is true, and a text may be less than a shorter one. -/
theorem comparisons_coherent_ranked :
    (answer? .lt (.int 1) (.int 2) = some true ∧ answer? .lt (.int 2) (.int 3) = some true ∧
      answer? .lt (.int 1) (.int 3) = some true) ∧
    (answer? .lt (.string "ab") (.string "b") = some true ∧
      answer? .eq (.string "ab") (.string "b") = some false ∧
      answer? .ltEq (.string "ab") (.string "b") = some true) := by
  have h₁ : answer? .lt (.int 1) (.int 2) = some true := by decide
  have h₂ : answer? .lt (.int 2) (.int 3) = some true := by decide
  have h₃ : answer? .lt (.int 1) (.int 3) = some true :=
    ((comparisons_coherent (.int 1) (.int 2)).2.2.2.2.1 rfl (.inl rfl)).2 _ rfl h₁ h₂
  obtain ⟨-, -, -, ⟨-, -, hor, -⟩, -, -, hlex, hbeq⟩ :=
    comparisons_coherent (.string "ab") (.string "b")
  have hlt : answer? .lt (.string "ab") (.string "b") = some true :=
    (hlex _ _ rfl rfl).2 (.rel (by decide))
  have heq : answer? .eq (.string "ab") (.string "b") = some false := hbeq rfl nofun
  exact ⟨⟨h₁, h₂, h₃⟩, hlt, heq, hor _ _ hlt heq⟩

end RuleScript
