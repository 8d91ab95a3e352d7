import RuleScript.Proofs.Exactness

/-!
# Trees of integers

An expression that is built from integers with signs and the four basic operators has an **exact
value** over the unbounded integers, unless something is divided by zero. Evaluation gives that
value if it and the values of all parts are in range, and blames the first part that is not so
otherwise.

* `Expr.exactValue?` is the exact value, and `Expr.postorder` lists the parts in the order in which
  they are evaluated, so that `Expr.culprit?` is the one to blame.
* `Expr.unary_ends` and `Expr.binary_ends` are the steps, and `Expr.Arithmetic.run` is a whole tree.
* `integers_never_wrap` compares evaluation with exact values.
-/

namespace RuleScript

/-- The **exact** result of one of the four basic operators over the unbounded integers. Quotients
are cut toward zero, and nothing is divided by zero. -/
def BinaryOp.exactResult? (op : BinaryOp) (a b : Int) : Option Int :=
  match op with
  | .add => some (a + b)
  | .sub => some (a - b)
  | .mul => some (a * b)
  | .div => if b = 0 then none else some (a.tdiv b)
  | _ => none

namespace Expr

/-- A **tree of integers** with signs and the four basic operators. -/
inductive Arithmetic : Expr → Prop where
  /-- an integer, be it negative -/
  | literal (n : Int64) (span : Span) : Arithmetic (.literal (.int n) span)
  /-- a sign in front of a tree -/
  | unary {op : UnaryOp} {e : Expr} (span : Span) (hop : op ∈ [UnaryOp.plus, .neg])
    (h : Arithmetic e) : Arithmetic (.unary op e span)
  /-- an operator between two trees -/
  | binary {op : BinaryOp} {left right : Expr} (span : Span)
    (hop : op ∈ [BinaryOp.add, .sub, .mul, .div]) (hleft : Arithmetic left)
    (hright : Arithmetic right) : Arithmetic (.binary op left right span)

/-- The **exact value** of a tree over the unbounded integers. -/
def exactValue? : Expr → Option Int
  | .literal (.int n) _ => some n.toInt
  | .unary .plus e _ => e.exactValue?
  | .unary .neg e _ => e.exactValue?.map (- ·)
  | .binary op left right _ =>
    left.exactValue?.bind fun a => right.exactValue?.bind fun b => op.exactResult? a b
  | _ => none

/-- A tree and everything in it, from left to right, and each part before what it is a part of. -/
def postorder : Expr → List Expr
  | .unary op e span => e.postorder ++ [.unary op e span]
  | .binary op left right span =>
    left.postorder ++ (right.postorder ++ [.binary op left right span])
  | e => [e]

/-- Whether a tree has an exact value, and it is in range. -/
def inRange (e : Expr) : Bool :=
  e.exactValue?.any fun n => Integer.least ≤ n ∧ n ≤ Integer.greatest

/-- The **first** part of a tree that has no exact value in range. -/
def culprit? (e : Expr) : Option Expr := e.postorder.find? (!·.inRange)

/-- What a part is blamed for if it has no exact value in range: dividing by zero, or else the
overflow of its operator. -/
def offence? : Expr → Option Fault
  | .unary op _ span => some (.overflow op.symbol span)
  | .binary op _ right span =>
    if op = .div ∧ right.exactValue? = some 0 then some (.divisionByZero span)
    else some (.overflow op.symbol span)
  | _ => none

variable {e left right : Expr} {span : Span} {n a b : Int64}

theorem inRange_iff : e.inRange = true ↔ ∃ n : Int64, e.exactValue? = some n.toInt := by
  rw [inRange, Option.any_eq_true]
  constructor
  · rintro ⟨n, hn, hr⟩
    obtain ⟨m, rfl⟩ := Integer.exists_of_mem_range (of_decide_eq_true hr)
    exact ⟨m, hn⟩
  · rintro ⟨n, hn⟩
    exact ⟨_, hn, decide_eq_true (Integer.toInt_mem_range n)⟩

theorem depth_of_postorder {depth : Nat} (h : e.postorder.length ≤ depth) :
    ∃ d, depth = d + 1 := by
  have hpos : 0 < e.postorder.length := List.length_pos_iff.2 (by cases e <;> simp [postorder])
  exact Nat.exists_eq_add_one.2 (Nat.lt_of_lt_of_le hpos h)

theorem culprit?_unary {op : UnaryOp} :
    culprit? (.unary op e span) = e.culprit?.or ([Expr.unary op e span].find? (!·.inRange)) := by
  rw [culprit?, postorder, List.find?_append]
  rfl

theorem culprit?_binary {op : BinaryOp} :
    culprit? (.binary op left right span) =
      left.culprit?.or (right.culprit?.or
        ([Expr.binary op left right span].find? (!·.inRange))) := by
  rw [culprit?, postorder, List.find?_append, List.find?_append]
  rfl

/-- Nothing is to blame exactly if **everything** is in range. -/
theorem culprit?_eq_none_iff : e.culprit? = none ↔ ∀ x ∈ e.postorder, x.inRange = true := by
  simp [culprit?]

/-- How a tree **ends**: with its exact value, or with the fault of the part to blame. -/
inductive Ends (e : Expr) : Outcome Fault Value → Prop where
  /-- everything is in range -/
  | value {n : Int64} (hnone : e.culprit? = none) (hexact : e.exactValue? = some n.toInt) :
    Ends e (.done (.int n))
  /-- some part is not, and this is the first -/
  | fault {node : Expr} {fault : Fault} (hnode : e.culprit? = some node)
    (hfault : node.offence? = some fault) : Ends e (.failed fault)

/-! #### A tree whose parts are in range -/

section Parts

variable (hparts : e.culprit? = [e].find? (!·.inRange))

include hparts

theorem Ends.of_exact (h : e.exactValue? = some n.toInt) : e.Ends (.done (.int n)) := by
  have hr : e.inRange = true := inRange_iff.2 ⟨n, h⟩
  refine .value ?_ h
  rw [hparts, List.find?_singleton, hr]
  rfl

/-- If it is not in range itself, it is to blame. -/
theorem Ends.of_offence {fault : Fault} (hout : e.inRange = false)
    (hfault : e.offence? = some fault) : e.Ends (.failed fault) := by
  have hfirst : e.culprit? = some e := by
    rw [hparts, List.find?_singleton, hout]
    rfl
  exact .fault hfirst hfault

/-- An exact value **has to fit**. -/
theorem Ends.of_fit {m : Int} {fault : Fault} (hm : e.exactValue? = some m)
    (hfault : e.offence? = some fault) :
    e.Ends (match Integer.fit? m with
      | some n => .done (.int n)
      | none => .failed fault) := by
  cases hfit : Integer.fit? m with
  | some n =>
    obtain rfl := Integer.fit?_eq_some_iff.1 hfit
    exact .of_exact hparts hm
  | none =>
    refine .of_offence hparts ?_ hfault
    rw [Bool.eq_false_iff]
    intro hr
    obtain ⟨n, hn⟩ := inRange_iff.1 hr
    obtain rfl := Option.some.inj (hm.symm.trans hn)
    rw [Integer.fit?_eq_some_iff.2 rfl] at hfit
    cases hfit

end Parts

/-- One **sign** in front of a tree that has its exact value. -/
theorem unary_ends {op : UnaryOp} (hop : op ∈ [UnaryOp.plus, .neg]) (hnone : e.culprit? = none)
    (hn : e.exactValue? = some n.toInt) (w : World) :
    ∃ o, Ends (.unary op e span) o ∧
      (Process.ofExcept (Operator.unary op (.int n) span)).run w = (o, w) := by
  have hparts : culprit? (.unary op e span) = [Expr.unary op e span].find? (!·.inRange) := by
    rw [culprit?_unary, hnone]
    rfl
  simp only [List.mem_cons, List.not_mem_nil, or_false] at hop
  obtain rfl | rfl := hop
  · exact ⟨_, .of_exact hparts hn, rfl⟩
  · have hexact : exactValue? (.unary .neg e span) = some (-n.toInt) := by
      rw [exactValue?, hn]
      rfl
    refine ⟨_, .of_fit hparts hexact rfl, ?_⟩
    rw [Operator.unary, Integer.neg?]
    cases Integer.fit? (-n.toInt) <;> rfl

/-- One **operator** between trees that have their exact values. -/
theorem binary_ends {op : BinaryOp} (hop : op ∈ [BinaryOp.add, .sub, .mul, .div])
    (hleft : left.culprit? = none) (ha : left.exactValue? = some a.toInt)
    (hright : right.culprit? = none) (hb : right.exactValue? = some b.toInt) (w : World) :
    ∃ o, Ends (.binary op left right span) o ∧
      (Process.ofExcept (Operator.integer op a b span)).run w = (o, w) := by
  let e : Expr := .binary op left right span
  have hparts : e.culprit? = [e].find? (!·.inRange) := by
    rw [culprit?_binary, hleft, hright]
    rfl
  have hexact : e.exactValue? = op.exactResult? a.toInt b.toInt := by
    rw [exactValue?, ha, hb]
    rfl
  have hfitting : ∀ m, e.exactValue? = some m → e.offence? = some (.overflow op.symbol span) →
      Operator.integer op a b span = Operator.fitting op span (Integer.fit? m) →
      ∃ o, e.Ends o ∧ (Process.ofExcept (Operator.integer op a b span)).run w = (o, w) := by
    intro m hm hoffence hint
    refine ⟨_, .of_fit hparts hm hoffence, ?_⟩
    rw [hint]
    cases Integer.fit? m <;> rfl
  simp only [List.mem_cons, List.not_mem_nil, or_false] at hop
  obtain rfl | rfl | rfl | rfl := hop
  · exact hfitting _ hexact rfl rfl
  · exact hfitting _ hexact rfl rfl
  · exact hfitting _ hexact rfl rfl
  · by_cases hzero : b.toInt = 0
    · have hout : e.inRange = false := by
        rw [inRange, hexact, BinaryOp.exactResult?, if_pos hzero]
        rfl
      have hoffence : e.offence? = some (.divisionByZero span) := by
        rw [offence?, if_pos ⟨rfl, by rw [hb, hzero]⟩]
      refine ⟨_, .of_offence hparts hout hoffence, ?_⟩
      rw [Operator.integer, if_pos hzero]
      rfl
    · have hdivisor : right.exactValue? ≠ some 0 := by
        rw [hb]
        exact fun h => hzero (Option.some.inj h)
      refine hfitting (a.toInt.tdiv b.toInt) ?_ ?_ ?_
      · rw [hexact, BinaryOp.exactResult?, if_neg hzero]
      · rw [offence?, if_neg fun h => hdivisor h.2]
      · rw [Operator.integer, if_neg hzero]
        rfl

open Eval in
/-- Evaluating a tree of integers **ends** with its exact value or with the fault of the part to
blame, and leaves the world as it is: by induction on the tree. -/
theorem Arithmetic.run (he : e.Arithmetic) {depth : Nat} (hdepth : e.postorder.length ≤ depth)
    (scope : ScopeId) (w : World) : ∃ o, e.Ends o ∧ (expr depth scope e).run w = (o, w) := by
  induction he generalizing depth with
  | literal n span =>
    obtain ⟨depth, rfl⟩ := depth_of_postorder hdepth
    exact ⟨_, .of_exact rfl rfl, rfl⟩
  | @unary op e span hop h ih =>
    obtain ⟨depth, rfl⟩ := depth_of_postorder hdepth
    have hlength : e.postorder.length ≤ depth := by simpa [postorder] using hdepth
    obtain ⟨o, hends, hrun⟩ := ih hlength
    rw [Eval.expr]
    cases hends with
    | value hnone hexact =>
      rw [Process.run_bind_done hrun]
      exact unary_ends hop hnone hexact w
    | fault hnode hfault =>
      refine ⟨_, .fault ?_ hfault, Process.run_bind_failed hrun _⟩
      rw [culprit?_unary, hnode]
      rfl
  | @binary op left right span hop hleft hright ihleft ihright =>
    obtain ⟨depth, rfl⟩ := depth_of_postorder hdepth
    have hlength : left.postorder.length ≤ depth ∧ right.postorder.length ≤ depth := by
      simp only [postorder, List.length_append, List.length_singleton] at hdepth
      omega
    have harith : Operator.isArithmetic op = true := by
      simp only [List.mem_cons, List.not_mem_nil, or_false] at hop
      obtain rfl | rfl | rfl | rfl := hop <;> rfl
    obtain ⟨o, hends, hrun⟩ := ihleft hlength.1
    obtain ⟨o', hends', hrun'⟩ := ihright hlength.2
    cases hends with
    | fault hnode hfault =>
      -- the right operand is not evaluated
      rw [expr_binary_eq harith]
      refine ⟨_, .fault ?_ hfault, Process.run_bind_failed hrun _⟩
      rw [culprit?_binary, hnode]
      rfl
    | value hnone hexact =>
      cases hends' with
      | fault hnode hfault =>
        rw [expr_binary_eq harith, Process.run_bind_done hrun]
        refine ⟨_, .fault ?_ hfault, Process.run_bind_failed hrun' _⟩
        rw [culprit?_binary, hnone, hnode]
        rfl
      | value hnone' hexact' =>
        rw [expr_binary_run harith hrun hrun']
        exact binary_ends hop hnone hexact hnone' hexact' w

end Expr

/-- **Integers never wrap.** In every scope and world, a tree of integers evaluates to an integer
exactly if it and everything in it have exact values in range, and that integer is its exact value.
Otherwise evaluation fails, and the fault is that of the first part, from left to right and each
part before what it is a part of, that has no exact value in range: it is blamed for dividing by
zero if it is a division and its right operand is zero, and else for the overflow of its operator.
Nothing is printed, recorded or declared. -/
theorem integers_never_wrap (e : Expr) (he : e.Arithmetic) (depth : Nat)
    (hdepth : e.postorder.length ≤ depth) (scope : ScopeId) (w : World) :
    let run := (Eval.expr depth scope e).run w
    (∀ n : Int64, run = (.done (.int n), w) ↔
      (∀ x ∈ e.postorder, x.inRange = true) ∧ e.exactValue? = some n.toInt) ∧
    ((∀ x ∈ e.postorder, x.inRange = true) → ∃ n, run = (.done (.int n), w)) ∧
    ((∃ x ∈ e.postorder, x.inRange = false) →
      ∃ before node after fault, e.postorder = before ++ node :: after ∧
        (∀ x ∈ before, x.inRange = true) ∧ node.inRange = false ∧
        node.offence? = some fault ∧ run = (.failed fault, w)) := by
  intro run
  obtain ⟨o, hends, hrun⟩ := he.run hdepth scope w
  rw [show run = (o, w) from hrun, ← Expr.culprit?_eq_none_iff]
  cases hends with
  | @value n hnone hexact =>
    refine ⟨?_, ?_, ?_⟩
    · intro m
      rw [hexact]
      constructor
      · intro h
        cases h
        exact ⟨hnone, rfl⟩
      · rintro ⟨-, h⟩
        rw [Int64.toInt_inj.1 (Option.some.inj h)]
    · exact fun _ => ⟨n, rfl⟩
    · rintro ⟨x, hx, hout⟩
      rw [Expr.culprit?_eq_none_iff.1 hnone x hx] at hout
      cases hout
  | @fault node fault hnode hfault =>
    refine ⟨?_, ?_, ?_⟩
    · intro m
      simp [hnode]
    · intro h
      rw [hnode] at h
      cases h
    · intro _
      obtain ⟨hout, before, after, hsplit, hbefore⟩ := List.find?_eq_some_iff_append.1 hnode
      refine ⟨before, node, after, fault, hsplit, ?_, ?_, hfault, rfl⟩
      · simpa using hbefore
      · simpa using hout

/-- In `-least + 1 / 0` the minus sign is to blame, for it is evaluated before the division. -/
theorem integers_never_wrap_first :
    let least : Expr := .literal (.int Int64.minValue) (.inLine 1 6)
    let negated : Expr := .unary .neg least (.inLine 0 6)
    let one : Expr := .literal (.int 1) (.inLine 9 10)
    let zero : Expr := .literal (.int 0) (.inLine 13 14)
    let divided : Expr := .binary .div one zero (.inLine 9 14)
    let tree : Expr := .binary .add negated divided (.inLine 0 14)
    let w := World.start (.empty none)
    tree.Arithmetic ∧ tree.postorder = [least, negated, one, zero, divided, tree] ∧
      (Eval.expr 6 0 tree).run w = (.failed (.overflow .minus (.inLine 0 6)), w) := by
  intro least negated one zero divided tree w
  have htree : tree.Arithmetic :=
    .binary _ (by decide) (.unary _ (by decide) (.literal _ _))
      (.binary _ (by decide) (.literal _ _) (.literal _ _))
  have hout : negated.inRange = false := by decide
  obtain ⟨-, -, hfails⟩ := integers_never_wrap tree htree 6 (by decide) 0 w
  obtain ⟨before, node, after, fault, hsplit, hbefore, hnode, hfault, hrun⟩ :=
    hfails ⟨negated, by simp [tree, negated, Expr.postorder], hout⟩
  refine ⟨htree, rfl, ?_⟩
  rcases before with _ | ⟨x, _ | ⟨y, before⟩⟩
  · cases hsplit
    cases hnode
  · cases hsplit
    cases hfault
    exact hrun
  · have hy : negated = y := (List.cons.inj (List.cons.inj hsplit).2).1
    rw [hy, hbefore y (by simp)] at hout
    cases hout

end RuleScript
