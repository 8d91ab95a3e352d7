import RuleScript.Proofs.Confinement
import RuleScript.Proofs.Nesting
import RuleScript.Proofs.Node

/-!
# The course of a visit

What the evaluator does in a visit is put together from **quiet** steps of its own, from the
definition of a rule or the call of a builtin, and from the visits it starts. This is said
once, for any property of processes that can be put together in the same way: such a property
is a `Visit.Law`, and holds of the evaluator at every depth (`Visit.Law.follows`).

* `Visit.Quiet`: a step that has nothing to do with the sink, registers no rule, comes to an
  end, and if it fails blames a part of the task.
* `Visit.Calls`: the builtin that a visit calls, beside `Visit.Starts`.

Lists of parts are followed along their prefixes, as in `Visit.Starts`.
-/

namespace RuleScript

/-! ### Steps of a visit -/

/-- The spans that a task **blames** for the faults it raises itself: those of its expression,
declaration or at-rule and of what stands directly in it, and for a call the span it is given.
A rule that is defined is not blamed in this way: see `Eval.define`. -/
def Visit.Task.blamed : Visit.Task → List Span
  | .expr _ e => (Node.expr e :: (Node.expr e).children).map Node.span
  | .statement _ (.declaration d) => [d.span, d.property.span]
  | .statement _ (.atRule a) => a.span :: a.name.span :: a.parameters.map Expr.span
  | .statement _ (.rule _) => []
  | .invoke _ _ _ span => [span]

/-- A fault that is blamed on **one of some spans**, and on nothing else. -/
def Fault.Blames (f : Fault) (spans : List Span) : Prop :=
  f.previous? = none ∧ ∃ s ∈ spans, f.span? = some s

/-- The world with another sink. -/
def World.withSink (w : World) (sink : Sink) : World := ⟨w.store, sink, w.events⟩

open Eval in
/-- The builtin that a visit **calls**, with the values of its arguments, the span that is
blamed and the world in which it is called. -/
inductive Visit.Calls (depth : Nat) : Visit → Builtin → List Value → Span → World → Prop where
  /-- in an expression, where it is found after the arguments -/
  | expr {path scope name args span w values w' b}
    (hargs : (arguments (expr depth scope) args).run w = (.done values, w'))
    (hfound : callee w'.store scope name = .ok (.builtin b)) :
    Calls depth ⟨path, .expr scope (.call name args span), w⟩ b values span w'
  /-- in a statement, where it is found before the arguments -/
  | statement {path scope d w b values w'} (hd : d.property.isVariable = false)
    (hfound : callee w.store scope d.property = .ok (.builtin b))
    (hargs : (arguments (expr depth scope) d.values).run w = (.done values, w')) :
    Calls depth ⟨path, .statement scope (.declaration d), w⟩ b values d.span w'

/-- The span of the call of a builtin is one that the visit blames. -/
theorem Visit.Calls.mem_blamed {n : Nat} {v : Visit} {b : Builtin} {values : List Value}
    {span : Span} {w : World} (h : v.Calls n b values span w) : span ∈ v.task.blamed := by
  cases h <;> exact List.mem_cons_self

/-- A process that has **nothing to do with the sink**: it does the same whatever the sink is,
and leaves it alone. -/
def Eval.Sinkless {α : Type} (x : Eval α) (w : World) : Prop :=
  ∀ sink, x.run (w.withSink sink) = ((x.run w).1, (x.run w).2.withSink sink)

/-- A **quiet** step of a visit. -/
structure Visit.Quiet (v : Visit) {α : Type} (x : Eval α) (w : World) : Prop where
  sinkless : Eval.Sinkless x w
  registers : ∀ name depth, .registeredRule name depth ∈ (x.run w).2.events →
    .registeredRule name depth ∈ w.events
  blames : ∀ f w', x.run w = (.failed f, w') → f.Blames v.task.blamed
  ends : (x.run w).1 ≠ .exhausted

namespace Visit.Quiet

variable {v : Visit} {w : World} {α : Type}

/-- To be done is quiet. -/
theorem pure (a : α) : v.Quiet (Pure.pure a : Eval α) w :=
  ⟨fun _ => rfl, fun _ _ h => h, (fun _ _ h => nomatch h), fun h => nomatch h⟩

theorem store : v.Quiet Eval.store w :=
  ⟨fun _ => rfl, fun _ _ h => h, (fun _ _ h => nomatch h), fun h => nomatch h⟩

/-- To set a variable is quiet. -/
theorem setVariable (scope : ScopeId) (name : String) (value : Value) :
    v.Quiet (Eval.setVariable scope name value) w :=
  ⟨fun _ => rfl, fun _ _ h => h, (fun _ _ h => nomatch h), fun h => nomatch h⟩

/-- To open a scope is quiet. -/
theorem addScope (parent : Option ScopeId) : v.Quiet (Eval.addScope parent) w :=
  ⟨fun _ => rfl, fun _ _ h => h, (fun _ _ h => nomatch h), fun h => nomatch h⟩

/-- Anything may be recorded quietly but a registration. -/
theorem record {event : Event} (h : ∀ name depth, event ≠ .registeredRule name depth) :
    v.Quiet (Eval.record event) w := by
  refine ⟨fun _ => rfl, fun name depth hmem => ?_, (fun _ _ h => nomatch h), fun h => nomatch h⟩
  rcases Array.mem_push.1 hmem with hmem | heq
  · exact hmem
  · exact absurd heq.symm (h name depth)

/-- A fault that blames the visit **may be met** quietly. -/
theorem fail {f : Fault} (h : f.Blames v.task.blamed) : v.Quiet (Process.fail f : Eval α) w := by
  refine ⟨fun _ => rfl, fun _ _ h => h, fun f' w' hrun => ?_, nofun⟩
  cases hrun
  exact h

/-- What an operator answers is quiet if its faults **blame the visit**. -/
theorem ofExcept {r : Except Fault α} (h : ∀ f, r = .error f → f.Blames v.task.blamed) :
    v.Quiet (Process.ofExcept r : Eval α) w := by
  cases r with
  | ok a => exact pure a
  | error f => exact fail (h f rfl)

end Visit.Quiet

/-! ### What the faults of names and operators blame -/

/-- A name that does not resolve is blamed **itself**. -/
theorem Eval.callee_blames {s : Store} {scope : ScopeId} {name : Name} {f : Fault}
    {spans : List Span} (hspan : name.span ∈ spans) (h : callee s scope name = .error f) :
    f.Blames spans := by
  rw [callee] at h
  split at h
  · cases h
  · next e _ =>
    split at h
    · cases h
    · cases h
      cases e <;> exact ⟨rfl, _, hspan, rfl⟩

/-- A variable that is missing is blamed at the span **it is read in**. -/
theorem Eval.variableValue_blames {s : Store} {scope : ScopeId} {name : Name} {span : Span}
    {f : Fault} {spans : List Span} (hspan : span ∈ spans)
    (h : variableValue s scope name span = .error f) : f.Blames spans := by
  rw [variableValue] at h
  split at h
  · cases h
  · next e _ =>
    cases h
    cases e <;> exact ⟨rfl, _, hspan, rfl⟩

namespace Operator

variable {span : Span} {f : Fault} {spans : List Span}

/-- The fault of an operator with one operand blames **the span it is given**. -/
theorem unary_blames {op : UnaryOp} {value : Value} (hspan : span ∈ spans)
    (h : unary op value span = .error f) : f.Blames spans := by
  rw [unary.eq_def] at h
  repeat' split at h
  all_goals cases h
  all_goals exact ⟨rfl, span, hspan, rfl⟩

theorem fitting_blames {op : BinaryOp} {n : Option Int64} (hspan : span ∈ spans)
    (h : fitting op span n = .error f) : f.Blames spans := by
  cases n with
  | some n => cases h
  | none =>
    cases h
    exact ⟨rfl, span, hspan, rfl⟩

theorem integer_blames {op : BinaryOp} {a b : Int64} (hspan : span ∈ spans)
    (h : integer op a b span = .error f) : f.Blames spans := by
  rw [integer.eq_def] at h
  split at h
  · exact fitting_blames hspan h
  · exact fitting_blames hspan h
  · exact fitting_blames hspan h
  · split at h
    · cases h
      exact ⟨rfl, span, hspan, rfl⟩
    · exact fitting_blames hspan h
  · split at h
    · cases h
      exact ⟨rfl, span, hspan, rfl⟩
    · exact fitting_blames hspan h
  · split at h
    · cases h
    · exact fitting_blames hspan h
  · cases h
    exact ⟨rfl, span, hspan, rfl⟩

theorem float_blames {op : BinaryOp} {a b : Float} (hspan : span ∈ spans)
    (h : float op a b span = .error f) : f.Blames spans := by
  rw [float.eq_def] at h
  split at h <;> cases h
  exact ⟨rfl, span, hspan, rfl⟩

/-- The fault of **arithmetic** blames the span it is given. -/
theorem numeric_blames {op : BinaryOp} {left right : Value} (hspan : span ∈ spans)
    (h : numeric op left right span = .error f) : f.Blames spans := by
  rw [numeric.eq_def] at h
  repeat' split at h
  · exact integer_blames hspan h
  · cases h
  · exact float_blames hspan h
  · cases h
    exact ⟨rfl, span, hspan, rfl⟩

/-- The fault of an operator blames the **span it is given**. -/
theorem binary_blames {op : BinaryOp} {left right : Value} (hspan : span ∈ spans)
    (h : binary op left right span = .error f) : f.Blames spans := by
  have hcomparison : comparison op left right span = .error f → f.Blames spans := by
    intro h
    rw [comparison] at h
    split at h <;> cases h
    exact ⟨rfl, span, hspan, rfl⟩
  have hlogical : logical op left right span = .error f → f.Blames spans := by
    intro h
    rw [logical.eq_def] at h
    split at h <;> cases h
    exact ⟨rfl, span, hspan, rfl⟩
  cases op
  case add | sub | mul | div | rem | pow => exact numeric_blames hspan h
  case eq | notEq | lt | ltEq | gt | gtEq => exact hcomparison h
  case and | or => exact hlogical h

end Operator

/-! ### What is known of the parts that were done -/

namespace Eval

variable {w w' : World}

/-- What resolving gives is **read off the store**, which it does not change. -/
theorem callee_of_resolve {scope : ScopeId} {name : Name} {target : Callee}
    (h : (resolve scope name).run w = (.done target, w')) :
    callee w.store scope name = .ok target ∧ w' = w := by
  rw [resolve_run] at h
  split at h
  · next heq =>
    cases h
    exact ⟨heq, rfl⟩
  · cases h

/-- A callee that is a rule is found in a scope of the chain, under its name. -/
theorem callee_eq_rule {s : Store} {scope holder : ScopeId} {name : Name} {rule : Rule}
    (h : callee s scope name = .ok (.rule rule holder)) :
    ∃ k : Nat, (s.chain scope)[k]? = some holder ∧ s.ownRule? holder name.text = some rule := by
  apply Store.rule?_eq_some
  rw [callee, Store.findRule] at h
  rcases hr : s.rule? scope name.text with _ | ⟨r, i⟩
  · rw [hr] at h
    dsimp only at h
    split at h <;> cases h
  · rw [hr] at h
    cases h
    rfl

/-- A condition that is done was **a truth value**. -/
theorem condition_eq_done {ev : Expr → Eval Value} {op : BinaryOp} {e : Expr} {b : Bool}
    (h : (condition ev op e).run w = (.done b, w')) : (ev e).run w = (.done (.bool b), w') := by
  rw [condition, Process.run_bind] at h
  rcases hx : (ev e).run w with ⟨value | fault | _, w₁⟩ <;> rw [hx] at h
  · cases value <;> cases h
    rfl
  · cases h
  · cases h

/-- An only parameter is the one that is **written**. -/
theorem onlyParameter_eq_done {a : AtRule} {e : Expr}
    (h : (onlyParameter a).run w = (.done e, w')) : a.parameters = [e] ∧ w' = w := by
  rw [onlyParameter] at h
  split at h
  · next heq =>
    cases h
    exact ⟨heq, rfl⟩
  · cases h

/-- A block that is required is the one that is **written**. -/
theorem requiredBody_eq_done {a : AtRule} {body : List Statement}
    (h : (requiredBody a).run w = (.done body, w')) : a.body = some body ∧ w' = w := by
  rw [requiredBody] at h
  split at h
  · next heq =>
    cases h
    exact ⟨heq, rfl⟩
  · cases h

end Eval

/-! ### Laws of visits -/

/-- A **law** of visits: a property of what is done in a visit at some depth, from some world
on, that holds of quiet steps, of definitions and of builtins, that is kept when processes are
put together, and that a visit takes over from the visits it starts. -/
structure Visit.Law (P : Nat → Visit → {α : Type} → Eval α → World → Prop) : Prop where
  exhaust : ∀ {v w} {α : Type}, P 0 v (Process.exhaust : Eval α) w
  quiet : ∀ {n v w} {α : Type} {x : Eval α}, v.Quiet x w → P n v x w
  bind : ∀ {n v w} {α β : Type} {x : Eval α} {f : α → Eval β}, P n v x w →
    (∀ a w', x.run w = (.done a, w') → P n v (f a) w') → P n v (x >>= f) w
  define : ∀ {n path scope r w},
    P (n + 1) ⟨path, .statement scope (.rule r), w⟩ (Eval.define scope r) w
  builtin : ∀ {n v b values span w}, v.Calls n b values span w →
    P (n + 1) v (Eval.callBuiltin b values span) w
  starts : ∀ {n v v'} {α : Type} {x : Eval α}, v.Starts n v' → P n v' x v'.world →
    P (n + 1) v x v'.world

/-- A property that the evaluator has **at some depth**, in every visit. -/
structure Visit.Follows (P : Nat → Visit → {α : Type} → Eval α → World → Prop) (n : Nat) :
    Prop where
  expr : ∀ path scope e w, P n ⟨path, .expr scope e, w⟩ (Eval.expr n scope e) w
  statement : ∀ path scope st w, P n ⟨path, .statement scope st, w⟩ (Eval.statement n scope st) w
  invoke : ∀ path rule holder args span w,
    P n ⟨path, .invoke rule holder args span, w⟩ (Eval.invoke n rule holder args span) w

namespace Visit.Law

variable {P : Nat → Visit → {α : Type} → Eval α → World → Prop} {n : Nat} {v : Visit} {w : World}

/-! #### Parts, each followed from the prefix before it -/

section Parts

variable {ev : Expr → Eval Value}

/-- **Arguments** are followed, each from the world behind those before it. -/
theorem arguments (law : Law P) {es : List Expr}
    (h : ∀ before e after values w', es = before ++ e :: after →
      (Eval.arguments ev before).run w = (.done values, w') → P n v (ev e) w') :
    P n v (Eval.arguments ev es) w := by
  induction es generalizing w with
  | nil => exact law.quiet (.pure _)
  | cons e es ih =>
    refine law.bind (h [] e es [] w rfl rfl) fun value w₁ hvalue => ?_
    refine law.bind (ih ?_) fun values w₂ _ => law.quiet (.pure _)
    intro before e' after values w' hsplit hrun
    refine h (e :: before) e' after (value :: values) w' (by rw [hsplit]; rfl) ?_
    rw [Eval.arguments, Process.run_bind_done hvalue, Process.run_bind_done hrun]
    rfl

/-- **Statements in a row** are followed, each from the world behind those before it. -/
theorem sequence (law : Law P) {run : Statement → Eval Flow} {sts : List Statement} {last : Value}
    (h : ∀ before st after value w', sts = before ++ st :: after →
      (Eval.sequence run last before).run w = (.done (.next value), w') → P n v (run st) w') :
    P n v (Eval.sequence run last sts) w := by
  induction sts generalizing w last with
  | nil => exact law.quiet (.pure _)
  | cons st sts ih =>
    refine law.bind (h [] st sts last w rfl rfl) fun flow w₁ hflow => ?_
    cases flow with
    | returned value => exact law.quiet (.pure _)
    | next value =>
      refine ih fun before st' after value' w' hsplit hrun => ?_
      refine h (st :: before) st' after value' w' (by rw [hsplit]; rfl) ?_
      rw [Eval.sequence, Process.run_bind_done hflow]
      exact hrun

/-- **Parameters** are followed. What is evaluated for them are the defaults of such as are given no
argument. -/
theorem bindParameters (law : Law P) {rule : String} {span : Span} {scope : ScopeId}
    {params : List Parameter} {args : List Value} (hspan : span ∈ v.task.blamed)
    (h : ∀ before q after e w', params = before ++ q :: after →
      (Eval.bindParameters ev rule span scope before args).run w = (.done (), w') →
      (args.drop before.length).head?.filter (!·.isNil) = none → q.default = some e →
      P n v (ev e) w') :
    P n v (Eval.bindParameters ev rule span scope params args) w := by
  induction params generalizing w args with
  | nil => exact law.quiet (.pure _)
  | cons q params ih =>
    have hvalue : P n v (Eval.parameterValue ev rule span q args.head?) w := by
      rw [Eval.parameterValue]
      split
      · exact law.quiet (.pure _)
      · next e harg hdefault => exact h [] q params e w rfl rfl harg hdefault
      · exact law.quiet (.fail ⟨rfl, span, hspan, rfl⟩)
    refine law.bind hvalue fun value w₁ hrun₁ => ?_
    refine law.bind (law.quiet (.setVariable _ _ _)) fun _ w₂ hrun₂ => ?_
    refine ih fun before q' after e w' hsplit hrun harg hdefault => ?_
    refine h (q :: before) q' after e w' (by rw [hsplit]; rfl) ?_ ?_ hdefault
    · rw [Eval.bindParameters, Process.run_bind_done hrun₁, Process.run_bind_done hrun₂]
      exact hrun
    · simpa using harg

/-- The operand of a logical operator may be blamed for its type. -/
theorem condition (law : Law P) {op : BinaryOp} {e : Expr} (hspan : e.span ∈ v.task.blamed)
    (h : P n v (ev e) w) : P n v (Eval.condition ev op e) w := by
  refine law.bind h fun value w' _ => ?_
  split
  · exact law.quiet (.pure _)
  · exact law.quiet (.fail ⟨rfl, _, hspan, rfl⟩)

end Parts

theorem resolve (law : Law P) {scope : ScopeId} {name : Name}
    (hspan : name.span ∈ v.task.blamed) : P n v (Eval.resolve scope name) w :=
  law.bind (law.quiet .store) fun _ _ _ => law.quiet (.ofExcept fun _ => Eval.callee_blames hspan)

theorem onlyParameter (law : Law P) {a : AtRule} (hspan : a.span ∈ v.task.blamed) :
    P n v (Eval.onlyParameter a) w := by
  rw [Eval.onlyParameter]
  split
  · exact law.quiet (.pure _)
  · exact law.quiet (.fail ⟨rfl, _, hspan, rfl⟩)

theorem requiredBody (law : Law P) {a : AtRule} (hspan : a.span ∈ v.task.blamed) :
    P n v (Eval.requiredBody a) w := by
  rw [Eval.requiredBody]
  split
  · exact law.quiet (.pure _)
  · exact law.quiet (.fail ⟨rfl, _, hspan, rfl⟩)

/-! #### The three functions, one step deeper -/

/-- **Expressions** are followed, if the evaluator one step deeper is. -/
theorem expr_succ (law : Law P) (ih : Follows P n) (path : List Block) (scope : ScopeId) (e : Expr)
    (w : World) : P (n + 1) ⟨path, .expr scope e, w⟩ (Eval.expr (n + 1) scope e) w := by
  have hown : e.span ∈ (Task.expr scope e).blamed := List.mem_cons_self
  cases e with
  | literal value span =>
    rw [Eval.expr]
    exact law.quiet (.pure _)
  | bare name =>
    rw [Eval.expr]
    exact law.bind (law.quiet .store) fun _ _ _ => law.quiet (.fail ⟨rfl, _, hown, rfl⟩)
  | deref name span =>
    rw [Eval.expr]
    refine law.bind (law.quiet .store) fun _ _ _ => law.quiet (.ofExcept fun _ => ?_)
    exact Eval.variableValue_blames hown
  | call name args span =>
    rw [Eval.expr]
    have hargs : P (n + 1) ⟨path, .expr scope (.call name args span), w⟩
        (Eval.arguments (Eval.expr n scope) args) w := by
      refine law.arguments fun before e after values w' hsplit hrun => ?_
      subst hsplit
      exact law.starts (.argument hrun) (ih.expr path scope e w')
    refine law.bind hargs fun values w₁ hrun => ?_
    refine law.bind (law.resolve (by simp [Task.blamed, Node.children, Node.span]))
      fun target w₂ hfound => ?_
    obtain ⟨hfound, rfl⟩ := Eval.callee_of_resolve hfound
    cases target with
    | builtin b => exact law.builtin (.expr hrun hfound)
    | rule rule holder =>
      obtain ⟨k, hk, -⟩ := Eval.callee_eq_rule hfound
      exact law.starts (.call hrun hfound hk) (ih.invoke (path.drop k) rule holder values span _)
  | unary op operand span =>
    rw [Eval.expr]
    refine law.bind (law.starts .operand (ih.expr path scope operand w)) fun _ _ _ => ?_
    exact law.quiet (.ofExcept fun _ => Operator.unary_blames hown)
  | binary op left right span =>
    have hleft : P (n + 1) ⟨path, .expr scope (.binary op left right span), w⟩
        (Eval.expr n scope left) w := law.starts .left (ih.expr path scope left w)
    have hright : ∀ {a w'}, (Eval.expr n scope left).run w = (.done a, w') → op.goesOn a →
        P (n + 1) ⟨path, .expr scope (.binary op left right span), w⟩
          (Eval.expr n scope right) w' := fun hrun hgoes =>
      law.starts (.right hrun hgoes) (ih.expr path scope right _)
    have hl : left.span ∈ (Task.expr scope (.binary op left right span)).blamed := by
      simp [Task.blamed, Node.children, Node.span]
    have hr : right.span ∈ (Task.expr scope (.binary op left right span)).blamed := by
      simp [Task.blamed, Node.children, Node.span]
    rw [Eval.expr.eq_def]
    dsimp only
    split
    · refine law.bind (law.condition hl hleft) fun b w' hrun => ?_
      split
      · next hb =>
        subst hb
        refine law.bind (law.condition hr (hright (Eval.condition_eq_done hrun) rfl)) ?_
        exact fun _ _ _ => law.quiet (.pure _)
      · exact law.quiet (.pure _)
    · refine law.bind (law.condition hl hleft) fun b w' hrun => ?_
      split
      · exact law.quiet (.pure _)
      · next hb =>
        obtain rfl := Bool.eq_false_iff.2 hb
        refine law.bind (law.condition hr (hright (Eval.condition_eq_done hrun) rfl)) ?_
        exact fun _ _ _ => law.quiet (.pure _)
    · next hand hor =>
      refine law.bind hleft fun a w' hrun => ?_
      refine law.bind (hright hrun (BinaryOp.goesOn_of_ne hand hor a)) fun _ _ _ => ?_
      exact law.quiet (.ofExcept fun _ => Operator.binary_blames hown)

/-- **At-rules** are followed. -/
theorem atRule_succ (law : Law P) (ih : Follows P n) (path : List Block) (scope : ScopeId)
    (a : AtRule) (w : World) : P (n + 1) ⟨path, .statement scope (.atRule a), w⟩
      (Eval.statement (n + 1) scope (.atRule a)) w := by
  have hown : a.span ∈ (Task.statement scope (.atRule a)).blamed := List.mem_cons_self
  have hparams : ∀ e ∈ a.parameters, e.span ∈ (Task.statement scope (.atRule a)).blamed :=
    fun e he => .tail _ (.tail _ (List.mem_map_of_mem he))
  rw [Eval.statement]
  split
  · next hname =>
    refine law.bind (law.onlyParameter hown) fun e w₁ hrun => ?_
    obtain ⟨hparam, rfl⟩ := Eval.onlyParameter_eq_done hrun
    refine law.bind (law.requiredBody hown) fun body w₂ hrun => ?_
    obtain ⟨hbody, rfl⟩ := Eval.requiredBody_eq_done hrun
    refine law.bind (law.starts (.condition hname hparam hbody) (ih.expr path scope e _))
      fun value w₃ hcond => ?_
    split
    · refine law.bind (law.quiet (.addScope _)) fun inner w₄ hrun => ?_
      cases hrun
      refine law.sequence fun before st after value w' hsplit hrun => ?_
      exact law.starts (.inner hname hparam hbody hcond hsplit hrun) (ih.statement _ _ st w')
    · exact law.quiet (.pure _)
    · exact law.quiet (.fail ⟨rfl, _, hparams e (by simp [hparam]), rfl⟩)
  · split
    · next hname =>
      split
      · exact law.quiet (.fail ⟨rfl, _, hown, rfl⟩)
      · next hbody =>
        refine law.bind (law.onlyParameter hown) fun e w₁ hrun => ?_
        obtain ⟨hparam, rfl⟩ := Eval.onlyParameter_eq_done hrun
        refine law.bind (law.starts (.payload hname hbody hparam) (ih.expr path scope e _))
          fun value w₂ _ => ?_
        exact law.bind (law.quiet (.record (by simp))) fun _ _ _ => law.quiet (.pure _)
    · exact law.quiet (.fail ⟨rfl, _, .tail _ (.head _), rfl⟩)

/-- **Declarations** are followed, of variables and as calls. -/
theorem declaration_succ (law : Law P) (ih : Follows P n) (path : List Block) (scope : ScopeId)
    (d : Declaration) (w : World) : P (n + 1) ⟨path, .statement scope (.declaration d), w⟩
      (Eval.statement (n + 1) scope (.declaration d)) w := by
  have hown : d.span ∈ (Task.statement scope (.declaration d)).blamed := List.mem_cons_self
  rw [Eval.statement]
  split
  · next hd =>
    split
    · next e hv =>
      refine law.bind (law.starts (.declared hd hv) (ih.expr path scope e w)) fun value w₁ _ => ?_
      exact law.bind (law.quiet (.setVariable _ _ _)) fun _ _ _ => law.quiet (.pure _)
    · exact law.quiet (.fail ⟨rfl, _, hown, rfl⟩)
  · next hd =>
    have hd := Bool.eq_false_iff.2 hd
    refine law.bind (law.resolve (.tail _ (.head _))) fun target w₁ hfound => ?_
    obtain ⟨hfound, rfl⟩ := Eval.callee_of_resolve hfound
    have hargs : P (n + 1) ⟨path, .statement scope (.declaration d), w₁⟩
        (Eval.arguments (Eval.expr n scope) d.values) w₁ := by
      refine law.arguments fun before e after values w' hsplit hrun => ?_
      exact law.starts (.statementArgument hd hfound hsplit hrun) (ih.expr path scope e w')
    refine law.bind hargs fun values w₂ hrun => ?_
    cases target with
    | builtin b =>
      exact law.bind (law.builtin (.statement hd hfound hrun)) fun _ _ _ => law.quiet (.pure _)
    | rule rule holder =>
      obtain ⟨k, hk, -⟩ := Eval.callee_eq_rule hfound
      refine law.bind (law.starts (.statementCall hd hfound hk hrun)
        (ih.invoke (path.drop k) rule holder values d.span w₂)) ?_
      exact fun _ _ _ => law.quiet (.pure _)

theorem statement_succ (law : Law P) (ih : Follows P n) (path : List Block) (scope : ScopeId)
    (st : Statement) (w : World) :
    P (n + 1) ⟨path, .statement scope st, w⟩ (Eval.statement (n + 1) scope st) w := by
  cases st with
  | declaration d => exact law.declaration_succ ih path scope d w
  | atRule a => exact law.atRule_succ ih path scope a w
  | rule r =>
    rw [Eval.statement]
    exact law.bind law.define fun _ _ _ => law.quiet (.pure _)

/-- **Calls of rules** are followed: first the parameters, then the body. -/
theorem invoke_succ (law : Law P) (ih : Follows P n) (path : List Block) (rule : Rule)
    (holder : ScopeId) (args : List Value) (span : Span) (w : World) :
    P (n + 1) ⟨path, .invoke rule holder args span, w⟩
      (Eval.invoke (n + 1) rule holder args span) w := by
  have hown : span ∈ (Task.invoke rule holder args span).blamed := List.mem_cons_self
  rw [Eval.invoke]
  refine law.bind (law.quiet (.record (by simp))) fun _ w₁ hrun => ?_
  cases hrun
  dsimp only
  split
  · exact law.quiet (.fail ⟨rfl, _, hown, rfl⟩)
  · next hcount =>
    have hcount := Nat.not_lt.1 hcount
    refine law.bind (law.quiet (.addScope _)) fun scope w₁ hrun => ?_
    cases hrun
    have hbind : P (n + 1) ⟨path, .invoke rule holder args span, w⟩
        (Eval.bindParameters (Eval.expr n holder) rule.name span w.store.frames.size
          rule.selector.parameters args)
        ((w.noting (.invokingRule rule.name args.length)).entering holder) := by
      refine law.bindParameters hown fun before q after e w' hsplit hrun harg hdefault => ?_
      exact law.starts (.default hcount hsplit hrun harg hdefault) (ih.expr path holder e w')
    refine law.bind hbind fun _ w₂ hbound => ?_
    have hbody : P (n + 1) ⟨path, .invoke rule holder args span, w⟩
        (Eval.sequence (Eval.statement n w.store.frames.size) .nil rule.body) w₂ := by
      refine law.sequence fun before st after value w' hsplit hrun => ?_
      exact law.starts (.body hcount hbound hsplit hrun) (ih.statement _ _ st w')
    refine law.bind hbody fun flow w₃ _ => ?_
    cases flow with
    | next value => exact law.quiet (.pure _)
    | returned value =>
      exact law.bind (law.quiet (.record (by simp))) fun _ _ _ => law.quiet (.pure _)

/-- **The evaluator follows every law**, by induction on the depth. -/
theorem follows (law : Law P) (n : Nat) : Follows P n := by
  induction n with
  | zero =>
    refine ⟨?_, ?_, ?_⟩
    · intro path scope e w
      rw [Eval.expr]
      exact law.exhaust
    · intro path scope st w
      rw [Eval.statement]
      exact law.exhaust
    · intro path rule holder args span w
      rw [Eval.invoke]
      exact law.exhaust
  | succ n ih => exact ⟨law.expr_succ ih, law.statement_succ ih, law.invoke_succ ih⟩

end Visit.Law

/-! ### The course of a program -/

/-- A program is **run** by registering its items and calling its main rule. -/
theorem Eval.program_run (depth : Nat) (p : Program) (sink : Sink) :
    (program depth p).run (.start sink) =
      match (register 0 p.items).run ⟨.add .empty none, sink, #[]⟩ with
      | (.done (), w) =>
        match w.store.rule? 0 mainName with
        | none => (.failed .missingMain, w)
        | some (rule, holder) =>
          (invoke depth rule holder [] rule.selector.span).run
            (w.noting (.invokingMain p.items.length))
      | (.failed f, w) => (.failed f, w)
      | (.exhausted, w) => (.exhausted, w) := by
  have hroot : (addScope none).run (.start sink) = (.done 0, ⟨.add .empty none, sink, #[]⟩) := rfl
  rw [program, Process.run_bind_done hroot, Process.run_bind]
  rcases (register 0 p.items).run ⟨.add .empty none, sink, #[]⟩ with ⟨_ | _ | _, w⟩
  · dsimp only
    rw [Process.run_bind_done rfl]
    rcases w.store.rule? 0 mainName with _ | ⟨rule, holder⟩ <;> rfl
  · rfl
  · rfl

end RuleScript
