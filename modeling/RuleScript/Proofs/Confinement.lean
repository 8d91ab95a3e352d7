import RuleScript.Eval.Semantics
import RuleScript.Store.Chain

/-!
# Evaluation is confined to scopes of its own

Evaluating an expression changes **no scope that was there before**: a call runs
in a fresh scope, the block of an `@if` has a fresh scope, and whatever is
declared in these goes there. A statement changes at most the scope it stands
in, and there it declares at most one thing.

* `Store.Grows` compares two stores: nothing was lost or moved, and apart from
  one scope nothing was declared.
* `Eval.Confined` is growth along every run of a process, however it ends. The
  evaluator is confined, by induction on its depth (`evaluatorConfined`).
* `Statement.declare` is what a statement does to the scope it stands in, as a
  function of how it ended.
-/

namespace RuleScript

/-! ### Growth of a store -/

/-- **Growth**: every scope of `s` is still there in `t`, in the same place and
inside the same scope, and unless it is `own` it declares the same. -/
def Store.Grows (own : Option ScopeId) (s t : Store) : Prop :=
  ∀ (i : ScopeId) (f : Frame), s.frames[i]? = some f →
    ∃ g, t.frames[i]? = some g ∧ g.parent = f.parent ∧ (own ≠ some i → g = f)

namespace Store.Grows

variable {own : Option ScopeId} {s t u : Store} {i : ScopeId}

theorem refl (s : Store) : s.Grows own s :=
  fun _ f hf => ⟨f, hf, rfl, fun _ => rfl⟩

/-- Growth **adds up**. -/
theorem trans (h₁ : s.Grows own t) (h₂ : t.Grows own u) : s.Grows own u := by
  intro i f hf
  obtain ⟨g, hg, hgp, hgf⟩ := h₁ i f hf
  obtain ⟨k, hk, hkp, hkg⟩ := h₂ i g hg
  exact ⟨k, hk, hkp.trans hgp, fun hi => (hkg hi).trans (hgf hi)⟩

/-- Growth that spares every scope spares all but one. -/
theorem weaken (h : s.Grows none t) : s.Grows own t := by
  intro i f hf
  obtain ⟨g, hg, hgp, hgf⟩ := h i f hf
  exact ⟨g, hg, hgp, fun _ => hgf nofun⟩

/-- A scope that is not the one declared in stays as it is. -/
theorem same {f : Frame} (h : s.Grows own t) (hi : own ≠ some i) (hf : s.frames[i]? = some f) :
    t.frames[i]? = some f := by
  obtain ⟨g, hg, -, hgf⟩ := h i f hf
  rw [hg, hgf hi]

/-- Growth leaves a scope **inside the same scope**. -/
theorem parent?_eq (h : s.Grows own t) (hi : i < s.frames.size) : t.parent? i = s.parent? i := by
  have hf := Array.getElem?_eq_getElem hi
  obtain ⟨g, hg, hgp, -⟩ := h _ _ hf
  rw [parent?, parent?, hf, hg]
  exact hgp

/-- Growth changes no chain. -/
theorem chain_eq (h : s.Grows own t) (hi : i < s.frames.size) : t.chain i = s.chain i :=
  chain_congr fun _ hj => h.parent?_eq (Nat.lt_of_le_of_lt hj hi)

/-- A scope that is changed is **the only one** that changes. -/
theorem of_modify {change : Frame → Frame} {hc : ∀ f, (change f).parent = f.parent} :
    s.Grows (some i) (s.modify i change hc) := by
  intro j f hf
  by_cases hij : i = j
  · subst hij
    refine ⟨change f, ?_, hc f, fun hne => absurd rfl hne⟩
    rw [modify, Array.getElem?_modify, if_pos rfl, hf]
    rfl
  · refine ⟨f, ?_, rfl, fun _ => rfl⟩
    rw [modify, Array.getElem?_modify, if_neg hij]
    exact hf

/-- A scope that is opened changes **no other**. -/
theorem of_add (parent : Option ScopeId) : s.Grows own (s.add parent) := by
  intro j f hf
  refine ⟨f, ?_, rfl, fun _ => rfl⟩
  have hj : j < s.frames.size := (Array.getElem?_eq_some_iff.1 hf).1
  rw [add, Array.getElem?_push, if_neg (Nat.ne_of_lt hj)]
  exact hf

theorem of_setVariable {name : String} {value : Value} :
    s.Grows (some i) (s.setVariable i name value) :=
  of_modify

theorem of_define {rule : Rule} (h : s.define i rule = .ok t) : s.Grows (some i) t := by
  unfold define at h
  split at h
  · cases h
  · cases h
    exact of_modify

/-- What is declared in a scope that was not there before spares every scope
that was. -/
theorem of_fresh (h : s.Grows (some i) t) (hi : s.frames.size ≤ i) : s.Grows none t := by
  intro j f hf
  obtain ⟨g, hg, hgp, hgf⟩ := h j f hf
  have hj : j < s.frames.size := (Array.getElem?_eq_some_iff.1 hf).1
  refine ⟨g, hg, hgp, fun _ => hgf ?_⟩
  intro hij
  obtain rfl := Option.some.inj hij
  exact Nat.not_lt.2 hi hj

end Store.Grows

/-! ### Declaring in a scope -/

namespace Store

variable {s : Store} {id : ScopeId} {f : Frame}

/-- A variable that is set is **declared** in its scope, and nothing else is. -/
theorem getElem?_setVariable (name : String) (value : Value) (hf : s.frames[id]? = some f) :
    (s.setVariable id name value).frames[id]? =
      some ⟨f.values.insert name value, f.rules, f.parent⟩ := by
  rw [setVariable, modify, Array.getElem?_modify, if_pos rfl, hf]
  rfl

/-- A rule whose name is free in a scope is defined there. -/
theorem define_of_free {rule : Rule} (hf : s.frames[id]? = some f)
    (hfree : f.rules[rule.name]? = none) :
    ∃ t, s.define id rule = .ok t ∧
      t.frames[id]? = some ⟨f.values, f.rules.insert rule.name rule, f.parent⟩ := by
  have hown : s.ownRule? id rule.name = none := by
    rw [ownRule?, hf]
    exact hfree
  unfold define
  rw [hown]
  refine ⟨_, rfl, ?_⟩
  rw [modify, Array.getElem?_modify, if_pos rfl, hf]
  rfl

/-- A rule whose name is taken in a scope is refused there. -/
theorem define_of_taken {rule existing : Rule} (hf : s.frames[id]? = some f)
    (htaken : f.rules[rule.name]? = some existing) : s.define id rule = .error existing := by
  have hown : s.ownRule? id rule.name = some existing := by
    rw [ownRule?, hf]
    exact htaken
  unfold define
  rw [hown]

end Store

/-! ### Confined processes -/

namespace Eval

variable {α β : Type} {own : Option ScopeId} {scope : ScopeId}

/-- **Confinement**: however the process ends, the store has grown, and only
`own` was declared in. -/
def Confined (own : Option ScopeId) (x : Eval α) : Prop :=
  ∀ w : World, w.store.Grows own (x.run w).2.store

namespace Confined

/-- What changes no scope changes **no other than one**. -/
theorem weaken {x : Eval α} (h : Confined none x) : Confined own x :=
  fun w => (h w).weaken

/-- A process that leaves the store alone is confined to nothing. -/
theorem of_store {x : Eval α} (h : ∀ w, (x.run w).2.store = w.store) : Confined own x := by
  intro w
  rw [h w]
  exact .refl _

theorem pure (a : α) : Confined own (Pure.pure a : Eval α) := of_store fun _ => rfl

theorem fail (fault : Fault) : Confined own (Process.fail fault : Eval α) := of_store fun _ => rfl

theorem exhaust : Confined own (Process.exhaust : Eval α) := of_store fun _ => rfl

/-- What operators answer changes **no scope**. -/
theorem ofExcept (r : Except Fault α) : Confined own (Process.ofExcept r : Eval α) :=
  of_store fun w => by cases r <;> rfl

theorem store : Confined own Eval.store := of_store fun _ => rfl

/-- To record something changes **no scope**. -/
theorem record (event : Event) : Confined own (Eval.record event) := of_store fun _ => rfl

/-- A variable is set in **the scope it is set in**. -/
theorem setVariable (name : String) (value : Value) :
    Confined (some scope) (Eval.setVariable scope name value) :=
  fun _ => .of_setVariable

/-- A rule is defined in **the scope it is defined in**. -/
theorem defineRule (rule : Rule) : Confined (some scope) (Eval.defineRule scope rule) := by
  intro w
  rw [Eval.defineRule]
  dsimp only
  rcases h : w.store.define scope rule with existing | t
  · exact .refl _
  · exact .of_define h

/-- Processes **one after the other** are confined if each of them is. -/
theorem bind {x : Eval α} {f : α → Eval β} (hx : Confined own x)
    (hf : ∀ a, Confined own (f a)) : Confined own (x >>= f) := by
  intro w
  have hw := hx w
  rw [Process.run_bind]
  rcases h : x.run w with ⟨_ | _ | _, w'⟩ <;> rw [h] at hw
  · exact hw.trans (hf _ w')
  · exact hw
  · exact hw

/-- What goes on in a scope just added is no change of those that were there. -/
theorem addScope_bind {parent : Option ScopeId} {f : ScopeId → Eval β}
    (hf : ∀ id, Confined (some id) (f id)) : Confined own (Eval.addScope parent >>= f) := by
  intro w
  rw [Process.run_bind_done rfl]
  have hadd : w.store.Grows (some w.store.frames.size) (w.store.add parent) := .of_add parent
  have hrun := hf w.store.frames.size ⟨w.store.add parent, w.sink, w.events⟩
  exact ((hadd.trans hrun).of_fresh (Nat.le_refl _)).weaken

theorem resolve (name : Name) : Confined own (Eval.resolve scope name) :=
  store.bind fun _ => ofExcept _

theorem define (rule : Rule) : Confined (some scope) (Eval.define scope rule) := by
  refine (defineRule rule).bind fun taken => ?_
  cases taken with
  | none => exact store.bind fun _ => record _
  | some existing => exact (record _).bind fun _ => fail _

/-- Builtins change **no scope**, they only print. -/
theorem callBuiltin (b : Builtin) (args : List Value) (span : Span) :
    Confined own (Eval.callBuiltin b args span) := by
  refine (record _).bind fun _ => of_store fun w => ?_
  dsimp only
  split <;> rfl

theorem onlyParameter (a : AtRule) : Confined own (Eval.onlyParameter a) := by
  rw [Eval.onlyParameter]
  split
  · exact pure _
  · exact fail _

theorem requiredBody (a : AtRule) : Confined own (Eval.requiredBody a) := by
  rw [Eval.requiredBody]
  split
  · exact pure _
  · exact fail _

/-! #### Parts, for any confined evaluator of what they are made of -/

section Parts

variable {ev : Expr → Eval Value}

/-- **Arguments** are confined, if expressions are. -/
theorem arguments (h : ∀ e, Confined own (ev e)) (es : List Expr) :
    Confined own (Eval.arguments ev es) := by
  induction es with
  | nil => exact pure _
  | cons e es ih => exact (h e).bind fun _ => ih.bind fun _ => pure _

/-- A **condition** is confined, if expressions are. -/
theorem condition (h : ∀ e, Confined own (ev e)) (op : BinaryOp) (e : Expr) :
    Confined own (Eval.condition ev op e) := by
  refine (h e).bind fun value => ?_
  split
  · exact pure _
  · exact fail _

/-- **Statements in a row** are confined, if each of them is. -/
theorem sequence {run : Statement → Eval Flow} (h : ∀ st, Confined own (run st))
    (sts : List Statement) (last : Value) : Confined own (Eval.sequence run last sts) := by
  induction sts generalizing last with
  | nil => exact pure _
  | cons st sts ih =>
    refine (h st).bind fun flow => ?_
    cases flow with
    | next value => exact ih value
    | returned value => exact pure _

theorem parameterValue (h : ∀ e, Confined own (ev e)) (rule : String) (span : Span)
    (p : Parameter) (arg : Option Value) :
    Confined own (Eval.parameterValue ev rule span p arg) := by
  rw [Eval.parameterValue]
  split
  · exact pure _
  · exact h _
  · exact fail _

/-- Parameters are **bound** in the scope of the call, and their defaults change no scope. -/
theorem bindParameters (h : ∀ e, Confined none (ev e)) (rule : String) (span : Span)
    (params : List Parameter) (args : List Value) :
    Confined (some scope) (Eval.bindParameters ev rule span scope params args) := by
  induction params generalizing args with
  | nil => exact pure _
  | cons p ps ih =>
    refine (parameterValue (fun e => (h e).weaken) _ _ _ _).bind fun value => ?_
    exact (setVariable _ _).bind fun _ => ih _

end Parts

end Confined

/-! ### The evaluator is confined -/

/-- The evaluator at one depth: expressions and calls declare nothing in any
scope that was there, and a statement only in the scope it stands in. -/
structure EvaluatorConfined (depth : Nat) : Prop where
  expr : ∀ scope e, Confined none (Eval.expr depth scope e)
  statement : ∀ scope st, Confined (some scope) (Eval.statement depth scope st)
  invoke : ∀ rule holder args span, Confined none (Eval.invoke depth rule holder args span)

/-- **Expressions** change no scope that was there before. -/
theorem expr_confined {depth : Nat} (ih : EvaluatorConfined depth) (scope : ScopeId) (e : Expr) :
    Confined none (Eval.expr (depth + 1) scope e) := by
  have hexpr := ih.expr scope
  have hcond := Confined.condition hexpr
  cases e with
  | literal value span =>
    rw [Eval.expr]
    exact .pure _
  | bare name =>
    rw [Eval.expr]
    exact Confined.store.bind fun _ => .fail _
  | deref name span =>
    rw [Eval.expr]
    exact Confined.store.bind fun _ => .ofExcept _
  | call name args span =>
    rw [Eval.expr]
    refine (Confined.arguments hexpr args).bind fun values => ?_
    refine (Confined.resolve name).bind fun target => ?_
    cases target with
    | rule rule holder => exact ih.invoke rule holder values span
    | builtin b => exact .callBuiltin b values span
  | unary op operand span =>
    rw [Eval.expr]
    exact (hexpr operand).bind fun _ => .ofExcept _
  | binary op left right span =>
    rw [Eval.expr.eq_def]
    dsimp only
    split
    · refine (hcond _ left).bind fun b => ?_
      split
      · exact (hcond _ right).bind fun _ => .pure _
      · exact .pure _
    · refine (hcond _ left).bind fun b => ?_
      split
      · exact .pure _
      · exact (hcond _ right).bind fun _ => .pure _
    · exact (hexpr left).bind fun _ => (hexpr right).bind fun _ => .ofExcept _

/-- An at-rule declares nothing in the scope it stands in: the block of an `@if`
has a scope of its own. -/
theorem atRule_confined {depth : Nat} (ih : EvaluatorConfined depth) (scope : ScopeId)
    (a : AtRule) : Confined none (Eval.statement (depth + 1) scope (.atRule a)) := by
  rw [Eval.statement]
  split
  · refine (Confined.onlyParameter a).bind fun e => (Confined.requiredBody a).bind fun body => ?_
    refine (ih.expr scope e).bind fun value => ?_
    split
    · exact .addScope_bind fun inner => .sequence (ih.statement inner) body _
    · exact .pure _
    · exact .fail _
  · split
    · split
      · exact .fail _
      · refine (Confined.onlyParameter a).bind fun e => (ih.expr scope e).bind fun value => ?_
        exact (Confined.record _).bind fun _ => .pure _
    · exact .fail _

/-- A call statement declares nothing in the scope it stands in. -/
theorem callStatement_confined {depth : Nat} (ih : EvaluatorConfined depth) (scope : ScopeId)
    (d : Declaration) (hd : d.property.isVariable = false) :
    Confined none (Eval.statement (depth + 1) scope (.declaration d)) := by
  rw [Eval.statement, if_neg (by simp [hd])]
  refine (Confined.resolve d.property).bind fun target => ?_
  refine (Confined.arguments (ih.expr scope) d.values).bind fun values => ?_
  cases target with
  | rule rule holder => exact (ih.invoke rule holder values d.span).bind fun _ => .pure _
  | builtin b => exact (Confined.callBuiltin b values d.span).bind fun _ => .pure _

/-- **Statements** change at most the scope they stand in. -/
theorem statement_confined {depth : Nat} (ih : EvaluatorConfined depth) (scope : ScopeId)
    (st : Statement) : Confined (some scope) (Eval.statement (depth + 1) scope st) := by
  cases st with
  | rule r =>
    rw [Eval.statement]
    exact (Confined.define r).bind fun _ => .pure _
  | atRule a => exact (atRule_confined ih scope a).weaken
  | declaration d =>
    cases hd : d.property.isVariable with
    | false => exact (callStatement_confined ih scope d hd).weaken
    | true =>
      rw [Eval.statement, if_pos hd]
      split
      · refine (ih.expr scope _).weaken.bind fun value => ?_
        exact (Confined.setVariable _ value).bind fun _ => .pure _
      · exact .fail _

/-- **Calls** change no scope that was there before. -/
theorem invoke_confined {depth : Nat} (ih : EvaluatorConfined depth) (rule : Rule)
    (holder : ScopeId) (args : List Value) (span : Span) :
    Confined none (Eval.invoke (depth + 1) rule holder args span) := by
  rw [Eval.invoke]
  refine (Confined.record _).bind fun _ => ?_
  dsimp only
  split
  · exact .fail _
  · -- parameters and body are declared in the fresh scope, defaults are evaluated outside it
    refine .addScope_bind fun scope => ?_
    refine (Confined.bindParameters (ih.expr holder) _ _ _ _).bind fun _ => ?_
    refine (Confined.sequence (ih.statement scope) _ _).bind fun flow => ?_
    cases flow with
    | next value => exact .pure _
    | returned value => exact (Confined.record _).bind fun _ => .pure _

/-- **Confinement** of the evaluator, at every depth: by induction on the depth,
all three functions at once. -/
theorem evaluatorConfined (depth : Nat) : EvaluatorConfined depth := by
  induction depth with
  | zero =>
    refine ⟨?_, ?_, ?_⟩
    · intro scope e
      rw [Eval.expr]
      exact .exhaust
    · intro scope st
      rw [Eval.statement]
      exact .exhaust
    · intro rule holder args span
      rw [Eval.invoke]
      exact .exhaust
  | succ depth ih =>
    exact ⟨expr_confined ih, statement_confined ih, invoke_confined ih⟩

/-! ### Resolving names -/

/-- A name that is called is looked up, and the world stays as it is. -/
theorem resolve_run (scope : ScopeId) (name : Name) (w : World) :
    (resolve scope name).run w =
      match callee w.store scope name with
      | .ok target => (.done target, w)
      | .error fault => (.failed fault, w) := by
  rw [resolve, Process.run_bind_done rfl]
  cases callee w.store scope name <;> rfl

/-! ### What a statement declares -/

variable {depth : Nat} {w : World} {f : Frame}

/-- A rule of which the name is **free** is defined and recorded. -/
theorem define_run_of_free {rule : Rule} {t : Store} (h : w.store.define scope rule = .ok t) :
    (define scope rule).run w =
      (.done (), ⟨t, w.sink, w.events.push (.registeredRule rule.name (t.depth scope))⟩) := by
  have hrun : (defineRule scope rule).run w = (.done none, ⟨t, w.sink, w.events⟩) := by
    rw [defineRule]
    dsimp only
    rw [h]
  rw [define, Process.run_bind_done hrun]
  rfl

/-- A rule of which the name is **taken** is not defined. Both rules are named in the fault. -/
theorem define_run_of_taken {rule existing : Rule}
    (h : w.store.define scope rule = .error existing) :
    (define scope rule).run w =
      (.failed (.duplicateDefinition rule.name rule.selector.name.span existing.selector.name.span),
        ⟨w.store, w.sink, w.events.push
          (.duplicateRule rule.name existing.selector.name.span.start)⟩) := by
  have hrun : (defineRule scope rule).run w = (.done (some existing), w) := by
    rw [defineRule]
    dsimp only
    rw [h]
  rw [define, Process.run_bind_done hrun]
  rfl

/-- A rule whose name is free is defined, and nothing else in the scope changes. -/
theorem ruleStatement_of_free {r : Rule} (depth : Nat) (hf : w.store.frames[scope]? = some f)
    (hfree : f.rules[r.name]? = none) :
    ∃ w', (statement (depth + 1) scope (.rule r)).run w = (.done (.next .nil), w') ∧
      w'.store.frames[scope]? = some ⟨f.values, f.rules.insert r.name r, f.parent⟩ := by
  obtain ⟨t, ht, hframe⟩ := Store.define_of_free hf hfree
  rw [Eval.statement, Process.run_bind_done (define_run_of_free ht)]
  exact ⟨_, rfl, hframe⟩

/-- A rule whose name is taken is refused, and the store stays as it is. -/
theorem ruleStatement_of_taken {r existing : Rule} (depth : Nat)
    (hf : w.store.frames[scope]? = some f) (htaken : f.rules[r.name]? = some existing) :
    ∃ fault w', (statement (depth + 1) scope (.rule r)).run w = (.failed fault, w') ∧
      w'.store = w.store := by
  have ht := Store.define_of_taken hf htaken
  rw [Eval.statement, Process.run_bind_failed (define_run_of_taken ht)]
  exact ⟨_, _, rfl, rfl⟩

/-- The declaration of a variable ends as its value does, and sets the variable
if there is a value. -/
theorem variableStatement_run {d : Declaration} {e : Expr} (hd : d.property.isVariable = true)
    (hv : d.values = [e]) :
    (statement (depth + 1) scope (.declaration d)).run w =
      match (expr depth scope e).run w with
      | (.done value, w') => (.done (.next value),
          ⟨w'.store.setVariable scope d.property.variableName value, w'.sink, w'.events⟩)
      | (.failed fault, w') => (.failed fault, w')
      | (.exhausted, w') => (.exhausted, w') := by
  rw [Eval.statement, if_pos hd, hv]
  dsimp only
  rw [Process.run_bind]
  rcases (expr depth scope e).run w with ⟨_ | _ | _, w'⟩ <;> rfl

/-- A variable with another number of values than one is **not declared**. -/
theorem variableStatement_of_count {d : Declaration} (hd : d.property.isVariable = true)
    (hv : ∀ e, d.values ≠ [e]) :
    (statement (depth + 1) scope (.declaration d)).run w =
      (.failed (.arityMismatch d.property.text 1 d.values.length d.span), w) := by
  rw [Eval.statement, if_pos hd]
  split
  · next e he => exact absurd he (hv e)
  · rfl

end Eval

/-- What a statement that **ended** in some way has done to the scope it stands
in: a rule that was defined is there, a variable that was declared has the value
of the statement, and nothing else is new. -/
def Statement.declare : Statement → Outcome Fault Flow → Frame → Frame
  | .rule r, .done _, f => ⟨f.values, f.rules.insert r.name r, f.parent⟩
  | .declaration d, .done (.next value), f =>
    if d.property.isVariable then
      ⟨f.values.insert d.property.variableName value, f.rules, f.parent⟩
    else f
  | _, _, f => f

/-- A **call** declares nothing. -/
theorem Statement.declare_of_call {d : Declaration} (hd : d.property.isVariable = false)
    (outcome : Outcome Fault Flow) (f : Frame) :
    (Statement.declaration d).declare outcome f = f := by
  rcases outcome with (value | value) | fault | _ <;> simp [declare, hd]

namespace Eval

variable {scope : ScopeId} {depth : Nat} {w w' : World} {f : Frame}

/-- The scope a statement stands in, after the statement. -/
theorem statement_own_frame {st : Statement} {outcome : Outcome Fault Flow}
    (hf : w.store.frames[scope]? = some f)
    (hrun : (statement depth scope st).run w = (outcome, w')) :
    w'.store.frames[scope]? = some (st.declare outcome f) := by
  cases depth with
  | zero =>
    rw [Eval.statement] at hrun
    cases hrun
    cases st <;> exact hf
  | succ depth =>
    have ih := evaluatorConfined depth
    cases st with
    | rule r =>
      rcases hr : f.rules[r.name]? with _ | existing
      · obtain ⟨w₁, hw₁, hframe⟩ := ruleStatement_of_free depth hf hr
        rw [hw₁] at hrun
        cases hrun
        exact hframe
      · obtain ⟨fault, w₁, hw₁, hstore⟩ := ruleStatement_of_taken depth hf hr
        rw [hw₁] at hrun
        cases hrun
        rw [hstore]
        exact hf
    | atRule a =>
      have hsame := (atRule_confined ih scope a w).same nofun hf
      rw [hrun] at hsame
      exact hsame
    | declaration d =>
      cases hd : d.property.isVariable with
      | false =>
        have hsame := (callStatement_confined ih scope d hd w).same nofun hf
        rw [hrun] at hsame
        rw [hsame, Statement.declare_of_call hd]
      | true =>
        by_cases hv : ∃ e, d.values = [e]
        · -- the value is evaluated without touching the scope, and set afterwards
          obtain ⟨e, he⟩ := hv
          have hsame := (ih.expr scope e w).same nofun hf
          rw [variableStatement_run hd he] at hrun
          rcases hx : (expr depth scope e).run w with ⟨value | fault | _, w₁⟩ <;>
            rw [hx] at hrun hsame <;> cases hrun
          · rw [Store.getElem?_setVariable _ _ hsame, Statement.declare, if_pos hd]
          · exact hsame
          · exact hsame
        · rw [variableStatement_of_count hd fun e he => hv ⟨e, he⟩] at hrun
          cases hrun
          exact hf

/-- A rule is defined exactly where its name is free. -/
theorem ruleStatement_done_iff {r : Rule} {outcome : Outcome Fault Flow}
    (hf : w.store.frames[scope]? = some f)
    (hrun : (statement depth scope (.rule r)).run w = (outcome, w')) (hend : outcome ≠ .exhausted) :
    outcome = .done (.next .nil) ↔ f.rules[r.name]? = none := by
  cases depth with
  | zero =>
    rw [Eval.statement] at hrun
    cases hrun
    exact absurd rfl hend
  | succ depth =>
    rcases hr : f.rules[r.name]? with _ | existing
    · obtain ⟨w₁, hw₁, -⟩ := ruleStatement_of_free depth hf hr
      rw [hw₁] at hrun
      cases hrun
      simp
    · obtain ⟨fault, w₁, hw₁, -⟩ := ruleStatement_of_taken depth hf hr
      rw [hw₁] at hrun
      cases hrun
      simp

/-- A variable is declared exactly where its one value has a value. -/
theorem variableStatement_done_iff {d : Declaration} {outcome : Outcome Fault Flow}
    {value : Value} (hd : d.property.isVariable = true)
    (hrun : (statement depth scope (.declaration d)).run w = (outcome, w')) :
    outcome = .done (.next value) ↔
      ∃ n e, depth = n + 1 ∧ d.values = [e] ∧ ((expr n scope e).run w).1 = .done value := by
  cases depth with
  | zero =>
    rw [Eval.statement] at hrun
    cases hrun
    simp
  | succ depth =>
    by_cases hv : ∃ e, d.values = [e]
    · obtain ⟨e, he⟩ := hv
      rw [variableStatement_run hd he] at hrun
      rcases hx : (expr depth scope e).run w with ⟨_ | _ | _, w₁⟩ <;>
        rw [hx] at hrun <;> cases hrun <;> simp [he, hx]
    · rw [variableStatement_of_count hd fun e he => hv ⟨e, he⟩] at hrun
      cases hrun
      simp only [reduceCtorEq, false_iff]
      rintro ⟨n, e, -, he, -⟩
      exact hv ⟨e, he⟩

/-- **The frame theorem.** However an expression ends, every scope that was
there before is the same after it. However a statement ends, every scope but its
own is the same after it, and its own has what `Statement.declare` says: one
rule more where a rule with a free name was defined, one variable set where a
declared value has a value, and no change in any other case. -/
theorem evaluation_frame (depth : Nat) (w : World) (scope : ScopeId) :
    (∀ (e : Expr) (i : ScopeId) (f : Frame), w.store.frames[i]? = some f →
      ((expr depth scope e).run w).2.store.frames[i]? = some f) ∧
    ∀ st outcome w', (statement depth scope st).run w = (outcome, w') →
      (∀ (i : ScopeId) (f : Frame), i ≠ scope → w.store.frames[i]? = some f →
        w'.store.frames[i]? = some f) ∧
      ∀ f, w.store.frames[scope]? = some f →
        w'.store.frames[scope]? = some (st.declare outcome f) ∧
        (∀ r, st = .rule r → outcome ≠ .exhausted →
          (outcome = .done (.next .nil) ↔ f.rules[r.name]? = none)) ∧
        ∀ d value, st = .declaration d → d.property.isVariable = true →
          (outcome = .done (.next value) ↔
            ∃ n e, depth = n + 1 ∧ d.values = [e] ∧ ((expr n scope e).run w).1 = .done value) := by
  refine ⟨?_, ?_⟩
  · intro e i f hf
    exact ((evaluatorConfined depth).expr scope e w).same nofun hf
  · intro st outcome w' hrun
    refine ⟨?_, ?_⟩
    · intro i f hi hf
      have hsame := ((evaluatorConfined depth).statement scope st w).same
        (fun h => hi (Option.some.inj h).symm) hf
      rwa [hrun] at hsame
    · intro f hf
      refine ⟨statement_own_frame hf hrun, ?_, ?_⟩
      · rintro r rfl hend
        exact ruleStatement_done_iff hf hrun hend
      · rintro d value rfl hd
        exact variableStatement_done_iff hd hrun

/-- In a scope without declarations, `--x: 1;` sets `x` and nothing else. -/
theorem evaluation_frame_variable :
    ((statement 2 0 (.declaration ⟨⟨"--x", default⟩, [.literal (.int 1) default], default⟩)).run
      ⟨.add .empty none, .empty none, #[]⟩).2.store.frames[0]? =
      some ⟨(∅ : Std.ExtTreeMap String Value).insert "x" (.int 1), ∅, none⟩ := by
  have hstatement := (evaluation_frame 2 ⟨.add .empty none, .empty none, #[]⟩ 0).2
    (.declaration ⟨⟨"--x", default⟩, [.literal (.int 1) default], default⟩) _ _ rfl
  exact (hstatement.2 (.within none) rfl).1

end Eval

end RuleScript
