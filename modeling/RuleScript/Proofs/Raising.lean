import RuleScript.Proofs.Blame
import RuleScript.Proofs.Reports

/-!
# Which faults a program can raise

Most faults can be raised by any program. Two kinds tell something of the program that raises them:
that a number of arguments is wrong is said of a builtin, of a **rule of the program** or of a
variable that **the program declares** with another number of values than one; and of the clashes of
types, two never arise at all.

* `TypeClash.Arises`: clashes that operators can lead to, where logical operators are not computed
  like others.
* `Program.MayRaise`: the faults of a program.
* `Eval.Obeys`: a process fails only with these, as long as the store holds only rules of the
  program, and keeps it so. The evaluator obeys at every depth (`evaluatorObeys`).
-/

namespace RuleScript

/-! ### Faults of operators -/

/-- Clashes of types that **arise**. -/
def TypeClash.Arises : TypeClash → Prop
  | .logicalOperands _ _ _ => False
  | .notArithmetic _ => False
  | _ => True

/-- Faults that any program can raise: nothing is counted, and clashes of types arise. -/
def Fault.Common : Fault → Prop
  | .arityMismatch _ _ _ _ => False
  | .typeMismatch clash _ => clash.Arises
  | _ => True

namespace Operator

variable {span : Span} {f : Fault}

/-- Operators with **one operand** lead to common faults. -/
theorem unary_common {op : UnaryOp} {value : Value} (h : unary op value span = .error f) :
    f.Common := by
  rw [unary.eq_def] at h
  repeat' split at h
  all_goals cases h
  all_goals trivial

/-- A result that does not fit is an **overflow**, which is common. -/
theorem fitting_common {op : BinaryOp} {n : Option Int64} (h : fitting op span n = .error f) :
    f.Common := by
  cases n <;> cases h
  trivial

/-- Operators that are computed with numbers. -/
def isArithmetic : BinaryOp → Bool
  | .add | .sub | .mul | .div | .rem | .pow => true
  | _ => false

/-- Arithmetic of **integers** leads to common faults: a result that does not fit, or a zero to
divide by. -/
theorem integer_common {op : BinaryOp} {a b : Int64} (hop : isArithmetic op = true)
    (h : integer op a b span = .error f) : f.Common := by
  rw [integer.eq_def] at h
  split at h
  · exact fitting_common h
  · exact fitting_common h
  · exact fitting_common h
  · split at h
    · cases h
      trivial
    · exact fitting_common h
  · split at h
    · cases h
      trivial
    · exact fitting_common h
  · split at h
    · cases h
    · exact fitting_common h
  · cases op <;> contradiction

/-- Arithmetic of **floating-point numbers** never fails. -/
theorem float_ok {op : BinaryOp} {a b : Float} (hop : isArithmetic op = true) :
    float op a b span ≠ .error f := by
  intro h
  cases op <;> contradiction

/-- Arithmetic leads to common faults, and operands that are no numbers to a clash that arises. -/
theorem numeric_common {op : BinaryOp} {left right : Value} (hop : isArithmetic op = true)
    (h : numeric op left right span = .error f) : f.Common := by
  rw [numeric.eq_def] at h
  split at h
  · exact integer_common hop h
  · split at h
    · cases h
    · split at h
      · exact absurd h (float_ok hop)
      · cases h
        trivial

/-- **Comparisons** fail only with a clash that arises. -/
theorem comparison_common {op : BinaryOp} {left right : Value}
    (h : comparison op left right span = .error f) : f.Common := by
  rw [comparison] at h
  split at h <;> cases h
  trivial

/-- Operators that are **not logical** lead to common faults. -/
theorem binary_common {op : BinaryOp} {left right : Value} (hand : op ≠ .and) (hor : op ≠ .or)
    (h : binary op left right span = .error f) : f.Common := by
  rw [binary.eq_def] at h
  split at h
  all_goals first
    | exact numeric_common rfl h
    | exact comparison_common h
    | exact absurd rfl hand
    | exact absurd rfl hor

end Operator

/-! ### Faults of a program -/

/-- The faults that a program **may raise**. -/
inductive Program.MayRaise (p : Program) : Fault → Prop where
  /-- a common one -/
  | common {f : Fault} (h : f.Common) : MayRaise p f
  /-- a builtin is called with another number of arguments than it takes -/
  | builtin {received : Nat} {span : Span} (b : Builtin) (h : received ≠ 1) :
    MayRaise p (.arityMismatch b.name 1 received span)
  /-- a rule is called with more arguments than it has parameters -/
  | rule {r : Rule} {received : Nat} {span : Span} (hr : p.Has (.rule r))
    (h : r.selector.parameters.length < received) :
    MayRaise p (.arityMismatch r.name r.selector.parameters.length received span)
  /-- a variable is declared with another number of values than one -/
  | declaration {d : Declaration} (hd : p.Has (.declaration d))
    (hvariable : d.property.isVariable = true) (h : d.values.length ≠ 1) :
    MayRaise p (.arityMismatch d.property.text 1 d.values.length d.span)

/-- A store **draws on** a program: it holds no rules but those of the program. -/
def Store.DrawsOn (s : Store) (p : Program) : Prop :=
  ∀ (i : ScopeId) (f : Frame) (name : String) (r : Rule), s.frames[i]? = some f →
    f.rules[name]? = some r → p.Has (.rule r)

namespace Store.DrawsOn

variable {p : Program} {s t : Store} {i : ScopeId}

/-- A store without scopes holds no rules. -/
theorem empty : Store.empty.DrawsOn p := fun _ _ _ _ hf => by cases hf

/-- A scope that is opened holds **no rules**. -/
theorem add (h : s.DrawsOn p) (parent : Option ScopeId) : (s.add parent).DrawsOn p := by
  intro j f name r hf hr
  rw [Store.add, Array.getElem?_push] at hf
  split at hf
  · cases hf
    simp [Frame.within] at hr
  · exact h j f name r hf hr

/-- A scope may be changed if the rules it has then were there, or are of the program. -/
theorem modify {change : Frame → Frame} {hc : ∀ f, (change f).parent = f.parent} (h : s.DrawsOn p)
    (hrules : ∀ (f : Frame) (name : String) (r : Rule), (change f).rules[name]? = some r →
      f.rules[name]? = some r ∨ p.Has (.rule r)) : (s.modify i change hc).DrawsOn p := by
  intro j f name r hf hr
  rw [Store.modify, Array.getElem?_modify] at hf
  split at hf
  · obtain ⟨g, hg, rfl⟩ := Option.map_eq_some_iff.1 hf
    obtain hr | hr := hrules g name r hr
    · exact h j g name r hg hr
    · exact hr
  · exact h j f name r hf hr

/-- A variable that is set is **no rule**. -/
theorem setVariable (h : s.DrawsOn p) (name : String) (value : Value) :
    (s.setVariable i name value).DrawsOn p :=
  h.modify fun _ _ _ hr => .inl hr

/-- A rule of the program may be **defined**. -/
theorem define {rule : Rule} (h : s.DrawsOn p) (hrule : p.Has (.rule rule))
    (hd : s.define i rule = .ok t) : t.DrawsOn p := by
  unfold Store.define at hd
  split at hd
  · cases hd
  · cases hd
    refine h.modify fun f name r hr => ?_
    -- a rule of the changed scope is the one that was defined or was there before
    dsimp only at hr
    rw [Std.ExtTreeMap.getElem?_insert] at hr
    split at hr
    · cases hr
      exact .inr hrule
    · exact .inl hr

/-- A rule that a scope has itself is **one of the program**. -/
theorem ownRule? {name : String} {rule : Rule} (h : s.DrawsOn p)
    (hown : s.ownRule? i name = some rule) : p.Has (.rule rule) := by
  obtain ⟨f, hf, hr⟩ := Option.bind_eq_some_iff.1 hown
  exact h i f name rule hf hr

/-- A rule that is found is one of the program. -/
theorem callee {scope holder : ScopeId} {name : Name} {rule : Rule} (h : s.DrawsOn p)
    (hfound : Eval.callee s scope name = .ok (.rule rule holder)) : p.Has (.rule rule) := by
  obtain ⟨-, -, hown⟩ := Eval.callee_eq_rule hfound
  exact h.ownRule? hown

end Store.DrawsOn

/-! ### Processes that obey -/

/-- What an outcome has to meet: a result one condition, an error another. -/
def Outcome.Meets {ε α : Type} (Q : α → Prop) (E : ε → Prop) : Outcome ε α → Prop
  | .done a => Q a
  | .failed e => E e
  | .exhausted => True

namespace Eval

variable {α β : Type} {p : Program} {Q : α → Prop}

/-- A process **obeys** a program: in a store that draws on the program it fails only with faults of
the program, its result meets the condition, and the store still draws on the program. -/
def Obeys (p : Program) (Q : α → Prop) (x : Eval α) : Prop :=
  ∀ w, w.store.DrawsOn p → (x.run w).2.store.DrawsOn p ∧ (x.run w).1.Meets Q p.MayRaise

/-- A process obeys a program, whatever its result. -/
def Obedient (p : Program) (x : Eval α) : Prop := Obeys p (fun _ => True) x

namespace Obeys

/-- To be done is to obey if the result meets the condition. -/
theorem pure {a : α} (h : Q a) : Obeys p Q (Pure.pure a : Eval α) := fun _ hw => ⟨hw, h⟩

/-- A process may **fail** with what the program may raise. -/
theorem fail {f : Fault} (h : p.MayRaise f) : Obeys p Q (Process.fail f : Eval α) :=
  fun _ hw => ⟨hw, h⟩

theorem exhaust : Obeys p Q (Process.exhaust : Eval α) := fun _ hw => ⟨hw, trivial⟩

/-- Processes **one after the other** obey if each of them does, the second with any result the
first may have. -/
theorem bind {R : β → Prop} {x : Eval α} {f : α → Eval β} (hx : Obeys p Q x)
    (hf : ∀ a, Q a → Obeys p R (f a)) : Obeys p R (x >>= f) := by
  intro w hw
  have hrun := hx w hw
  rw [Process.run_bind]
  rcases h : x.run w with ⟨a | fault | _, w'⟩ <;> rw [h] at hrun
  · exact hf a hrun.2 w' hrun.1
  · exact hrun
  · exact hrun

/-- A rule that is resolved is one of the program. -/
theorem resolve (scope : ScopeId) (name : Name) :
    Obeys p (fun target => ∀ rule holder, target = .rule rule holder → p.Has (.rule rule))
      (Eval.resolve scope name) := by
  intro w hw
  rw [resolve_run]
  cases hfound : callee w.store scope name with
  | ok target =>
    refine ⟨hw, ?_⟩
    rintro rule holder rfl
    exact hw.callee hfound
  | error fault =>
    refine ⟨hw, .common ?_⟩
    rw [callee] at hfound
    split at hfound
    · cases hfound
    · next e _ =>
      split at hfound
      · cases hfound
      · cases hfound
        cases e <;> trivial

/-- The **only parameter** of an at-rule is the one that is written. -/
theorem onlyParameter (a : AtRule) :
    Obeys p (fun e => a.parameters = [e]) (Eval.onlyParameter a) := by
  rw [Eval.onlyParameter]
  split
  · next hparams => exact pure hparams
  · exact fail (.common trivial)

/-- The **block** of an at-rule is the one that is written. -/
theorem requiredBody (a : AtRule) :
    Obeys p (fun body => a.body = some body) (Eval.requiredBody a) := by
  rw [Eval.requiredBody]
  split
  · next hbody => exact pure hbody
  · exact fail (.common trivial)

end Obeys

namespace Obedient

theorem pure (a : α) : Obedient p (Pure.pure a : Eval α) := Obeys.pure trivial

/-- What an operator answers is obedient where its faults are **common**. -/
theorem ofExcept {r : Except Fault α} (h : ∀ f, r = .error f → f.Common) :
    Obedient p (Process.ofExcept r : Eval α) := by
  cases r with
  | ok a => exact pure a
  | error f => exact Obeys.fail (.common (h f rfl))

theorem store : Obedient p Eval.store := fun _ hw => ⟨hw, trivial⟩

theorem record (event : Event) : Obedient p (Eval.record event) := fun _ hw => ⟨hw, trivial⟩

theorem setVariable (scope : ScopeId) (name : String) (value : Value) :
    Obedient p (Eval.setVariable scope name value) :=
  fun _ hw => ⟨hw.setVariable name value, trivial⟩

theorem addScope (parent : Option ScopeId) : Obedient p (Eval.addScope parent) :=
  fun _ hw => ⟨hw.add parent, trivial⟩

/-- A rule of the program may be defined. -/
theorem define (scope : ScopeId) {rule : Rule} (hrule : p.Has (.rule rule)) :
    Obedient p (Eval.define scope rule) := by
  intro w hw
  rcases hd : w.store.define scope rule with existing | t
  · rw [define_run_of_taken hd]
    exact ⟨hw, .common trivial⟩
  · rw [define_run_of_free hd]
    exact ⟨hw.define hrule hd, trivial⟩

/-- A builtin counts its arguments. -/
theorem callBuiltin (b : Builtin) (args : List Value) (span : Span) :
    Obedient p (Eval.callBuiltin b args span) := by
  refine Obeys.bind (record _) fun _ _ w hw => ?_
  cases b with
  | print =>
    rcases args with _ | ⟨value, _ | ⟨value', args⟩⟩ <;>
      dsimp only [Builtin.call, Builtin.printLine]
    · exact ⟨hw, .builtin .print (by simp)⟩
    · rcases w.sink.write (value.display ++ "\n") with ⟨_ | _, sink⟩
      · exact ⟨hw, .common trivial⟩
      · exact ⟨hw, trivial⟩
    · exact ⟨hw, .builtin .print (by simp)⟩

/-! #### Parts, for any obedient evaluator of what they are made of -/

section Parts

variable {ev : Expr → Eval Value}

/-- **Arguments** raise what their expressions may raise. -/
theorem arguments (h : ∀ e, Obedient p (ev e)) (es : List Expr) :
    Obedient p (Eval.arguments ev es) := by
  induction es with
  | nil => exact pure _
  | cons e es ih => exact (h e).bind fun _ _ => ih.bind fun _ _ => pure _

/-- A **condition** raises what its expression may raise, or the clash with a value that is no truth
value. -/
theorem condition (h : ∀ e, Obedient p (ev e)) (op : BinaryOp) (e : Expr) :
    Obedient p (Eval.condition ev op e) := by
  refine (h e).bind fun value _ => ?_
  split
  · exact pure _
  · exact .fail (.common trivial)

/-- **Statements in a row** raise what each of them may raise. -/
theorem sequence {run : Statement → Eval Flow} {sts : List Statement}
    (h : ∀ st ∈ sts, Obedient p (run st)) (last : Value) :
    Obedient p (Eval.sequence run last sts) := by
  induction sts generalizing last with
  | nil => exact pure _
  | cons st sts ih =>
    obtain ⟨hst, hsts⟩ := List.forall_mem_cons.1 h
    refine hst.bind fun flow _ => ?_
    cases flow with
    | next value => exact ih hsts value
    | returned value => exact pure _

/-- A **parameter** raises what its default may raise, or that its argument is missing. -/
theorem parameterValue (h : ∀ e, Obedient p (ev e)) (rule : String) (span : Span) (q : Parameter)
    (arg : Option Value) : Obedient p (Eval.parameterValue ev rule span q arg) := by
  rw [Eval.parameterValue]
  split
  · exact pure _
  · exact h _
  · exact Obeys.fail (.common trivial)

/-- Parameters are **bound** in a scope that gets no rules by it. -/
theorem bindParameters (h : ∀ e, Obedient p (ev e)) (rule : String) (span : Span) (scope : ScopeId)
    (params : List Parameter) (args : List Value) :
    Obedient p (Eval.bindParameters ev rule span scope params args) := by
  induction params generalizing args with
  | nil => exact pure _
  | cons q params ih =>
    refine (parameterValue h _ _ _ _).bind fun value _ => ?_
    exact (setVariable _ _ _).bind fun _ _ => ih _

end Parts

end Obedient

/-! ### The evaluator obeys -/

/-- The evaluator at one depth, for statements and rules of the program. -/
structure EvaluatorObeys (p : Program) (depth : Nat) : Prop where
  expr : ∀ scope e, Obedient p (Eval.expr depth scope e)
  statement : ∀ scope st, p.Has (.ofStatement st) → Obedient p (Eval.statement depth scope st)
  invoke : ∀ rule holder args span, p.Has (.rule rule) →
    Obedient p (Eval.invoke depth rule holder args span)

/-- **Expressions** obey, if the evaluator one step deeper does. -/
theorem expr_obedient {depth : Nat} (ih : EvaluatorObeys p depth) (scope : ScopeId) (e : Expr) :
    Obedient p (Eval.expr (depth + 1) scope e) := by
  have hexpr := ih.expr scope
  have hcond := Obedient.condition hexpr
  cases e with
  | literal value span =>
    rw [Eval.expr]
    exact .pure _
  | bare name =>
    rw [Eval.expr]
    exact Obedient.store.bind fun _ _ => .fail (.common trivial)
  | deref name span =>
    rw [Eval.expr]
    refine Obedient.store.bind fun s _ => Obedient.ofExcept fun f hf => ?_
    rw [variableValue] at hf
    split at hf <;> cases hf
    next e _ => cases e <;> trivial
  | call name args span =>
    rw [Eval.expr]
    refine (Obedient.arguments hexpr args).bind fun values _ => ?_
    refine (Obeys.resolve scope name).bind fun target htarget => ?_
    cases target with
    | rule rule holder => exact ih.invoke rule holder values span (htarget rule holder rfl)
    | builtin b => exact Obedient.callBuiltin b values span
  | unary op operand span =>
    rw [Eval.expr]
    exact (hexpr operand).bind fun _ _ => Obedient.ofExcept fun _ => Operator.unary_common
  | binary op left right span =>
    rw [Eval.expr.eq_def]
    dsimp only
    split
    · refine (hcond _ left).bind fun b _ => ?_
      split
      · exact (hcond _ right).bind fun _ _ => Obedient.pure _
      · exact Obedient.pure _
    · refine (hcond _ left).bind fun b _ => ?_
      split
      · exact Obedient.pure _
      · exact (hcond _ right).bind fun _ _ => Obedient.pure _
    · next hand hor =>
      refine (hexpr left).bind fun _ _ => (hexpr right).bind fun _ _ => ?_
      exact Obedient.ofExcept fun _ => Operator.binary_common hand hor

/-- **At-rules** of the program obey, their blocks being blocks of it. -/
theorem atRule_obedient {depth : Nat} (ih : EvaluatorObeys p depth) (scope : ScopeId) (a : AtRule)
    (ha : p.Has (.atRule a)) : Obedient p (Eval.statement (depth + 1) scope (.atRule a)) := by
  rw [Eval.statement]
  split
  · refine (Obeys.onlyParameter a).bind fun e _ => (Obeys.requiredBody a).bind fun body hbody => ?_
    refine (ih.expr scope e).bind fun value _ => ?_
    split
    · refine (Obedient.addScope _).bind fun inner _ => Obedient.sequence (fun st hst => ?_) _
      refine ih.statement inner st (ha.child (.tail _ (List.mem_append_right _ ?_)))
      rw [hbody]
      exact List.mem_map_of_mem hst
    · exact Obedient.pure _
    · exact .fail (.common trivial)
  · split
    · split
      · exact Obeys.fail (.common trivial)
      · refine (Obeys.onlyParameter a).bind fun e _ => (ih.expr scope e).bind fun value _ => ?_
        exact (Obedient.record _).bind fun _ _ => Obedient.pure _
    · exact Obeys.fail (.common trivial)

/-- **Statements** of the program obey. A rule that is defined is one of its rules. -/
theorem statement_obedient {depth : Nat} (ih : EvaluatorObeys p depth) (scope : ScopeId)
    (st : Statement) (hst : p.Has (.ofStatement st)) :
    Obedient p (Eval.statement (depth + 1) scope st) := by
  cases st with
  | rule r =>
    rw [Eval.statement]
    exact (Obedient.define scope hst).bind fun _ _ => Obedient.pure _
  | atRule a => exact atRule_obedient ih scope a hst
  | declaration d =>
    rw [Eval.statement]
    split
    · next hd =>
      split
      · refine (ih.expr scope _).bind fun value _ => ?_
        exact (Obedient.setVariable _ _ value).bind fun _ _ => Obedient.pure _
      -- the only fault that counts the values of a variable
      · next hvalues =>
        refine Obeys.fail (.declaration hst hd fun hlength => ?_)
        obtain ⟨e, he⟩ := List.length_eq_one_iff.1 hlength
        exact hvalues e he
    · refine (Obeys.resolve scope d.property).bind fun target htarget => ?_
      refine (Obedient.arguments (ih.expr scope) d.values).bind fun values _ => ?_
      cases target with
      | rule rule holder =>
        refine (ih.invoke rule holder values d.span (htarget rule holder rfl)).bind fun _ _ => ?_
        exact Obedient.pure _
      | builtin b => exact (Obedient.callBuiltin b values d.span).bind fun _ _ => Obedient.pure _

/-- **Calls** of rules of the program obey. -/
theorem invoke_obedient {depth : Nat} (ih : EvaluatorObeys p depth) (rule : Rule) (holder : ScopeId)
    (args : List Value) (span : Span) (hrule : p.Has (.rule rule)) :
    Obedient p (Eval.invoke (depth + 1) rule holder args span) := by
  rw [Eval.invoke]
  refine (Obedient.record _).bind fun _ _ => ?_
  dsimp only
  split
  · next hcount => exact .fail (.rule hrule hcount)
  · refine (Obedient.addScope _).bind fun scope _ => ?_
    refine (Obedient.bindParameters (ih.expr holder) _ _ _ _ _).bind fun _ _ => ?_
    have hbody : ∀ st ∈ rule.body, Obedient p (Eval.statement depth scope st) := fun st hst =>
      ih.statement scope st (hrule.child (.tail _ (List.mem_map_of_mem hst)))
    refine (Obedient.sequence hbody _).bind fun flow _ => ?_
    cases flow with
    | next value => exact Obedient.pure _
    | returned value => exact (Obedient.record _).bind fun _ _ => Obedient.pure _

/-- **The evaluator obeys** at every depth: by induction on the depth, all three functions at
once. -/
theorem evaluatorObeys (p : Program) (depth : Nat) : EvaluatorObeys p depth := by
  induction depth with
  | zero =>
    refine ⟨?_, ?_, ?_⟩
    · intro scope e
      rw [Eval.expr]
      exact Obeys.exhaust
    · intro scope st _
      rw [Eval.statement]
      exact Obeys.exhaust
    · intro rule holder args span _
      rw [Eval.invoke]
      exact Obeys.exhaust
  | succ depth ih => exact ⟨expr_obedient ih, statement_obedient ih, invoke_obedient ih⟩

/-- The rules of the program may be **registered**, and an at-rule beside them is a fault it may
raise. -/
theorem register_obedient {items : List Item} (root : ScopeId) (h : ∀ i ∈ items, i ∈ p.items) :
    Obedient p (register root items) := by
  induction items with
  | nil => exact .pure _
  | cons item items ih =>
    obtain ⟨hitem, hmore⟩ := List.forall_mem_cons.1 h
    cases item with
    | atRule a => exact Obeys.fail (.common trivial)
    | rule r =>
      have hr : p.Has (.rule r) := Program.has_of_item hitem
      exact (Obedient.define root hr).bind fun _ _ => ih hmore

/-- **Programs** obey themselves, at every depth. -/
theorem program_obedient (p : Program) (depth : Nat) : Obedient p (program depth p) := by
  refine (Obedient.addScope none).bind fun root _ => ?_
  refine (register_obedient root fun _ h => h).bind fun _ _ w hw => ?_
  rw [Process.run_bind_done rfl]
  rcases hmain : w.store.rule? root mainName with _ | ⟨rule, holder⟩
  · exact ⟨hw, .common trivial⟩
  · obtain ⟨k, -, hown⟩ := Store.rule?_eq_some hmain
    have hrule : p.Has (.rule rule) := hw.ownRule? hown
    have hcall := (evaluatorObeys p depth).invoke rule holder [] rule.selector.span hrule
    exact Obeys.bind (Obedient.record _) (fun _ _ => hcall) w hw

end Eval

/-- **Every fault of a program** is one that it may raise, at every depth and on every sink. -/
theorem Program.mayRaise_of_failed {p : Program} {depth : Nat} {sink : Sink} {f : Fault}
    (h : (p.report depth sink).1.outcome = .failed f) : p.MayRaise f := by
  obtain ⟨-, hmeets⟩ := Eval.program_obedient p depth (.start sink) .empty
  rw [report_run] at h
  dsimp only at h
  rwa [h] at hmeets

end RuleScript
