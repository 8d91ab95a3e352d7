import RuleScript.Proofs.Recursion
import RuleScript.Proofs.Reports
import RuleScript.Proofs.StaticScope

/-!
# The record of a run is orderly

What the evaluator records has the shape of what it does. A return is recorded where it begins, as
unwinding, and where it ends, as the rule that was left; **nothing is recorded in between**, however
many blocks lie between the two. And a rule is left only after it was called.

* `Event.Orderly`: sequences of events of this shape. What is true of every orderly sequence is
  shown from their shape alone (`Event.Orderly.paired`, `Event.Orderly.called`).
* `Eval.Logs`: what a process adds to the record is orderly, but for a return that is still under
  way. The evaluator logs in this way at every depth (`evaluatorLogs`).
* `record_disciplined`: the record of a whole program.
-/

namespace RuleScript

/-! ### Orderly sequences of events -/

namespace Event

/-- Events that may stand anywhere while rules are run. -/
def Plain : Event → Prop
  | .registeredRule _ _ => True
  | .duplicateRule _ _ => True
  | .invokingRule _ _ => True
  | .callingBuiltin _ _ => True
  | _ => False

/-- **Orderly** sequences of events: every return is recorded at once as unwinding and as the end of
a rule, and the call of that rule stands before. -/
inductive Orderly : List Event → Prop where
  /-- nothing -/
  | nil : Orderly []
  /-- an event that may stand anywhere -/
  | plain {e : Event} (h : e.Plain) : Orderly [e]
  /-- one sequence after another -/
  | append {es es' : List Event} (h : Orderly es) (h' : Orderly es') : Orderly (es ++ es')
  /-- a rule that is called and left by a return -/
  | returning {rule : String} {args : Nat} {es : List Event} {value : Value} (h : Orderly es) :
    Orderly (.invokingRule rule args :: (es ++ [.unwinding value, .returned rule]))

/-- Events that may stand anywhere are orderly **in any order**. -/
theorem Orderly.of_plain {es : List Event} (h : ∀ e ∈ es, e.Plain) : Orderly es := by
  induction es with
  | nil => exact .nil
  | cons e es ih =>
    obtain ⟨he, hes⟩ := List.forall_mem_cons.1 h
    exact (Orderly.plain he).append (ih hes)

/-! #### Returns come in pairs -/

/-- Returns are recorded **in pairs**: behind the beginning of a return stands its end, and before
the end its beginning. -/
structure Paired (es : List Event) : Prop where
  followed : ∀ i value, es[i]? = some (.unwinding value) →
    ∃ rule, es[i + 1]? = some (.returned rule)
  preceded : ∀ i rule, es[i]? = some (.returned rule) →
    ∃ j value, i = j + 1 ∧ es[j]? = some (.unwinding value)

namespace Paired

/-- An event that is neither part of a return is **paired**. -/
theorem single {e : Event} (hu : ∀ value, e ≠ .unwinding value) (hr : ∀ rule, e ≠ .returned rule) :
    Paired [e] := by
  constructor
  · intro i value h
    exact absurd (by simpa using List.mem_of_getElem? h) (hu value).symm
  · intro i rule h
    exact absurd (by simpa using List.mem_of_getElem? h) (hr rule).symm

/-- Paired sequences are paired **one after the other**. -/
theorem append {es es' : List Event} (h : Paired es) (h' : Paired es') : Paired (es ++ es') := by
  constructor
  · intro i value hi
    rw [List.getElem?_append] at hi
    split at hi
    · next hlt =>
      obtain ⟨rule, hrule⟩ := h.followed i value hi
      have hlt' := (List.getElem?_eq_some_iff.1 hrule).1
      exact ⟨rule, by rw [List.getElem?_append_left hlt', hrule]⟩
    · next hge =>
      obtain ⟨rule, hrule⟩ := h'.followed _ value hi
      refine ⟨rule, ?_⟩
      rw [List.getElem?_append_right (by omega), ← hrule]
      congr 1
      omega
  · intro i rule hi
    rw [List.getElem?_append] at hi
    split at hi
    · obtain ⟨j, value, rfl, hvalue⟩ := h.preceded i rule hi
      have hlt' := (List.getElem?_eq_some_iff.1 hvalue).1
      exact ⟨j, value, rfl, by rw [List.getElem?_append_left hlt', hvalue]⟩
    · next hge =>
      obtain ⟨j, value, hj, hvalue⟩ := h'.preceded _ rule hi
      refine ⟨es.length + j, value, by omega, ?_⟩
      rw [List.getElem?_append_right (by omega), ← hvalue]
      congr 1
      omega

theorem unwinding_returned (rule : String) (value : Value) :
    Paired [.unwinding value, .returned rule] := by
  constructor
  · intro i value' h
    rcases i with _ | _ | i
    · exact ⟨rule, rfl⟩
    · cases h
    · cases h
  · intro i rule' h
    rcases i with _ | _ | i
    · cases h
    · exact ⟨0, value, rfl, rfl⟩
    · cases h

end Paired

theorem Plain.paired {e : Event} (h : e.Plain) : Paired [e] :=
  .single (fun _ he => by simp [he, Plain] at h) (fun _ he => by simp [he, Plain] at h)

/-- In an orderly sequence, returns come in pairs. -/
theorem Orderly.paired {es : List Event} (h : Orderly es) : Paired es := by
  induction h with
  | nil => exact ⟨nofun, nofun⟩
  | plain h => exact h.paired
  | append _ _ ih ih' => exact ih.append ih'
  | @returning rule args es value _ ih =>
    have hcall : Paired [.invokingRule rule args] := Plain.paired trivial
    exact hcall.append (ih.append (.unwinding_returned rule value))

/-! #### Rules are called before they are left -/

/-- Whether an event is the call of a rule. -/
def calls (rule : String) : Event → Bool
  | .invokingRule name _ => name == rule
  | _ => false

/-- Whether an event is the end of a rule that returns. -/
def leaves (rule : String) : Event → Bool
  | .returned name => name == rule
  | _ => false

/-- Whether an event is the beginning of a program. -/
def begins : Event → Bool
  | .invokingMain _ => true
  | _ => false

/-- A rule is **called before it is left**: from the beginning up to any point it is not left more
often than called. -/
def Called (rule : String) (es : List Event) : Prop :=
  ∀ n, (es.take n).countP (leaves rule) ≤ (es.take n).countP (calls rule)

namespace Called

variable {rule : String} {es es' : List Event}

/-- Sequences in which a rule is called before it is left are such **one after the other**. -/
theorem append (h : Called rule es) (h' : Called rule es') : Called rule (es ++ es') := by
  intro n
  rw [List.take_append, List.countP_append, List.countP_append]
  exact Nat.add_le_add (h n) (h' _)

/-- Where a rule is **never left** it is called before. -/
theorem of_not_leaves (h : ∀ e ∈ es, leaves rule e = false) : Called rule es := by
  intro n
  have hzero : (es.take n).countP (leaves rule) = 0 :=
    List.countP_eq_zero.2 fun e he => by simp [h e (List.mem_of_mem_take he)]
  omega

/-- A rule is left no more often than called **in any part from the beginning**. -/
theorem counted {part : List Event} (h : Called rule es) (hpart : part <+: es) :
    part.countP (leaves rule) ≤ part.countP (calls rule) := by
  rw [List.prefix_iff_eq_take.1 hpart]
  exact h _

/-- A rule may be left once more than it was called since it was called. -/
theorem returning {name : String} {args : Nat} {value : Value} (h : Called rule es) :
    Called rule (.invokingRule name args :: (es ++ [.unwinding value, .returned name])) := by
  intro n
  cases n with
  | zero => simp
  | succ n =>
    have hend : ([.unwinding value, .returned name].take (n - es.length)).countP (leaves rule) ≤
        if name = rule then 1 else 0 := by
      refine Nat.le_trans ((List.take_sublist _ _).countP_le) ?_
      simp [leaves, List.countP_cons]
    have hinner := h n
    rw [List.take_succ_cons, List.countP_cons, List.countP_cons, List.take_append,
      List.countP_append, List.countP_append]
    simp only [leaves, calls, beq_iff_eq, Bool.false_eq_true, if_false]
    omega

end Called

/-- In an orderly sequence, rules are called before they are left. -/
theorem Orderly.called {es : List Event} (h : Orderly es) (rule : String) : Called rule es := by
  induction h with
  | nil => exact .of_not_leaves nofun
  | @plain e h =>
    refine .of_not_leaves fun e' he => ?_
    obtain rfl := List.mem_singleton.1 he
    cases e' <;> first | rfl | exact h.elim
  | append _ _ ih ih' => exact ih.append ih'
  | returning _ ih => exact ih.returning

/-- No program begins in an orderly sequence. -/
theorem Orderly.countP_begins {es : List Event} (h : Orderly es) : es.countP begins = 0 := by
  induction h with
  | nil => rfl
  | @plain e h => cases e <;> first | rfl | exact h.elim
  | append _ _ ih ih' => rw [List.countP_append, ih, ih']
  | returning _ ih => simp [ih, begins]

/-- While rules are run **no program begins**. -/
theorem Orderly.not_begins {es : List Event} (h : Orderly es) (rules : Nat) :
    .invokingMain rules ∉ es :=
  fun hmem => List.countP_eq_zero.1 h.countP_begins _ hmem rfl

/-! #### A program that begins between two orderly sequences -/

namespace Orderly

variable {before after : List Event}

/-- That a program begins **breaks no pair**. -/
theorem paired_begin (h : Orderly before) (h' : Orderly after) (rules : Nat) :
    Paired (before ++ .invokingMain rules :: after) := by
  have hmain : Paired [.invokingMain rules] := .single nofun nofun
  exact h.paired.append (hmain.append h'.paired)

/-- That a program begins **calls no rule**, and leaves none. -/
theorem called_begin (h : Orderly before) (h' : Orderly after) (rules : Nat) (rule : String) :
    Called rule (before ++ .invokingMain rules :: after) := by
  have hmain : Called rule [.invokingMain rules] := .of_not_leaves (by simp [leaves])
  exact (h.called rule).append (hmain.append (h'.called rule))

/-- A program begins **once**. -/
theorem countP_begin (h : Orderly before) (h' : Orderly after) (rules : Nat) :
    (before ++ .invokingMain rules :: after).countP begins = 1 := by
  rw [List.countP_append, List.countP_cons, h.countP_begins, h'.countP_begins]
  rfl

/-- It is known **where** the program begins. -/
theorem split_begin {before' after' : List Event} {rules rules' : Nat} (h : Orderly before)
    (h' : Orderly after)
    (heq : before ++ .invokingMain rules :: after = before' ++ .invokingMain rules' :: after') :
    before = before' ∧ after = after' := by
  obtain ⟨hbefore, -, hafter⟩ := (List.append_cons_inj_of_notMem (h.not_begins rules')
    (h'.not_begins rules')).1 heq
  exact ⟨hbefore, hafter⟩

end Orderly

end Event

/-- To a record an orderly sequence **is added**, and then a rest. -/
def Event.Adds (before rest after : List Event) : Prop :=
  ∃ es, Orderly es ∧ after = before ++ es ++ rest

namespace Event.Adds

variable {before rest middle after : List Event}

theorem refl (before : List Event) : Adds before [] before := ⟨[], .nil, by simp⟩

/-- What is added **in two turns** is added. -/
theorem trans (h : Adds before [] middle) (h' : Adds middle rest after) :
    Adds before rest after := by
  obtain ⟨es, hes, rfl⟩ := h
  obtain ⟨es', hes', rfl⟩ := h'
  exact ⟨es ++ es', hes.append hes', by simp⟩

end Event.Adds

/-! ### Processes that log in order -/

/-- What is recorded of a return that is still under way. -/
def Flow.unwound : Flow → List Event
  | .next _ => []
  | .returned value => [.unwinding value]

/-- What is open at the end of a process, if its result tells. -/
def Outcome.trail {ε α : Type} (rest : α → List Event) : Outcome ε α → List Event
  | .done a => rest a
  | .failed _ => []
  | .exhausted => []

namespace Eval

variable {α β : Type} {rest : α → List Event}

/-- What the process adds to the record is **orderly**, but for the rest that its result tells. -/
def Logs (rest : α → List Event) (x : Eval α) : Prop :=
  ∀ w, Event.Adds w.events.toList ((x.run w).1.trail rest) (x.run w).2.events.toList

/-- What the process adds to the record is orderly. -/
def Orderly (x : Eval α) : Prop := Logs (fun _ => []) x

namespace Logs

theorem pure {a : α} (h : rest a = []) : Logs rest (Pure.pure a : Eval α) := by
  intro w
  rw [Process.run_pure, Outcome.trail, h]
  exact .refl _

theorem fail (fault : Fault) : Logs rest (Process.fail fault : Eval α) := fun _ => .refl _

theorem exhaust : Logs rest (Process.exhaust : Eval α) := fun _ => .refl _

/-- Processes **one after the other** log in order, if the first leaves nothing to be told. -/
theorem bind {x : Eval α} {rest : β → List Event} {f : α → Eval β} (hx : Logs (fun _ => []) x)
    (hf : ∀ a, Logs rest (f a)) : Logs rest (x >>= f) := by
  intro w
  have hrun := hx w
  rw [Process.run_bind]
  rcases h : x.run w with ⟨a | fault | _, w'⟩ <;> rw [h] at hrun
  · exact hrun.trans (hf a w')
  · exact hrun
  · exact hrun

/-- Statements are gone on with unless they return, and a return stays under way. -/
theorem bind_flow {x : Eval Flow} {f : Flow → Eval Flow} (hx : Logs Flow.unwound x)
    (hnext : ∀ value, Logs Flow.unwound (f (.next value)))
    (hreturned : ∀ value, f (.returned value) = Pure.pure (.returned value)) :
    Logs Flow.unwound (x >>= f) := by
  intro w
  have hrun := hx w
  rw [Process.run_bind]
  rcases h : x.run w with ⟨(value | value) | fault | _, w'⟩ <;> rw [h] at hrun
  · exact hrun.trans (hnext value w')
  · dsimp only
    rw [hreturned]
    exact hrun
  · exact hrun
  · exact hrun

/-- A return begins. -/
theorem unwinding (value : Value) :
    Logs Flow.unwound (record (.unwinding value) >>= fun _ => Pure.pure (.returned value)) := by
  intro w
  rw [Process.run_bind_done rfl]
  exact ⟨[], .nil, by simp [Outcome.trail, Flow.unwound]⟩

end Logs

namespace Orderly

/-- The record of a process that logs in order gets **an orderly end**. -/
theorem events {x : Eval α} (h : Orderly x) (w : World) :
    ∃ es, Event.Orderly es ∧ (x.run w).2.events.toList = w.events.toList ++ es := by
  obtain ⟨es, hes, hrun⟩ := h w
  refine ⟨es, hes, hrun.trans ?_⟩
  cases (x.run w).1 <;> simp [Outcome.trail]

/-- A process that records nothing. -/
theorem of_silent {x : Eval α} (h : ∀ w, (x.run w).2.events = w.events) : Orderly x := by
  intro w
  rw [h w]
  cases (x.run w).1 <;> exact .refl _

theorem pure (a : α) : Orderly (Pure.pure a : Eval α) := Logs.pure rfl

theorem ofExcept (r : Except Fault α) : Orderly (Process.ofExcept r : Eval α) :=
  of_silent fun w => by cases r <;> rfl

theorem store : Orderly Eval.store := of_silent fun _ => rfl

theorem setVariable (scope : ScopeId) (name : String) (value : Value) :
    Orderly (Eval.setVariable scope name value) := of_silent fun _ => rfl

/-- To open a scope **logs nothing**. -/
theorem addScope (parent : Option ScopeId) : Orderly (Eval.addScope parent) :=
  of_silent fun _ => rfl

/-- To define a rule logs **that it was registered**, or that its name was taken. -/
theorem defineRule (scope : ScopeId) (rule : Rule) : Orderly (Eval.defineRule scope rule) := by
  refine of_silent fun w => ?_
  rw [Eval.defineRule]
  dsimp only
  split <;> rfl

theorem record {event : Event} (h : event.Plain) : Orderly (Eval.record event) :=
  fun w => ⟨[event], .plain h, by simp [Eval.record, Outcome.trail]⟩

theorem resolve (scope : ScopeId) (name : Name) : Orderly (Eval.resolve scope name) :=
  store.bind fun _ => ofExcept _

theorem define (scope : ScopeId) (rule : Rule) : Orderly (Eval.define scope rule) := by
  refine (defineRule scope rule).bind fun taken => ?_
  cases taken with
  | none => exact store.bind fun _ => record trivial
  | some existing => exact Logs.bind (record trivial) fun _ => .fail _

/-- To call a builtin logs **the call**. -/
theorem callBuiltin (b : Builtin) (args : List Value) (span : Span) :
    Orderly (Eval.callBuiltin b args span) := by
  refine Logs.bind (record trivial) fun _ => of_silent fun w => ?_
  dsimp only
  split <;> rfl

theorem onlyParameter (a : AtRule) : Orderly (Eval.onlyParameter a) := by
  rw [Eval.onlyParameter]
  split
  · exact pure _
  · exact .fail _

theorem requiredBody (a : AtRule) : Orderly (Eval.requiredBody a) := by
  rw [Eval.requiredBody]
  split
  · exact pure _
  · exact .fail _

/-! #### Parts, for any evaluator of what they are made of that logs in order -/

section Parts

variable {ev : Expr → Eval Value}

/-- **Arguments** log in order. -/
theorem arguments (h : ∀ e, Orderly (ev e)) (es : List Expr) : Orderly (Eval.arguments ev es) := by
  induction es with
  | nil => exact pure _
  | cons e es ih => exact (h e).bind fun _ => ih.bind fun _ => pure _

/-- **Conditions** log in order. -/
theorem condition (h : ∀ e, Orderly (ev e)) (op : BinaryOp) (e : Expr) :
    Orderly (Eval.condition ev op e) := by
  refine (h e).bind fun value => ?_
  split
  · exact pure _
  · exact .fail _

/-- The **values of parameters** log in order. -/
theorem parameterValue (h : ∀ e, Orderly (ev e)) (rule : String) (span : Span) (p : Parameter)
    (arg : Option Value) : Orderly (Eval.parameterValue ev rule span p arg) := by
  rw [Eval.parameterValue]
  split
  · exact pure _
  · exact h _
  · exact Logs.fail _

/-- **Parameters** log in order. -/
theorem bindParameters (h : ∀ e, Orderly (ev e)) (rule : String) (span : Span) (scope : ScopeId)
    (params : List Parameter) (args : List Value) :
    Orderly (Eval.bindParameters ev rule span scope params args) := by
  induction params generalizing args with
  | nil => exact pure _
  | cons p ps ih =>
    refine (parameterValue h _ _ _ _).bind fun value => ?_
    exact (setVariable _ _ _).bind fun _ => ih _

end Parts

end Orderly

/-- A return stays under way to the end of a list of statements. -/
theorem Logs.sequence {run : Statement → Eval Flow} (h : ∀ st, Logs Flow.unwound (run st))
    (sts : List Statement) (last : Value) : Logs Flow.unwound (Eval.sequence run last sts) := by
  induction sts generalizing last with
  | nil => exact .pure rfl
  | cons st sts ih => exact (h st).bind_flow (fun value => ih value) fun _ => rfl

/-! ### The evaluator logs in order -/

/-- Enters a rule: sets its parameters in a fresh scope and runs its body there. -/
def enter (depth : Nat) (rule : Rule) (holder : ScopeId) (args : List Value) (span : Span) :
    Eval Flow := do
  let scope ← addScope (some holder)
  bindParameters (expr depth holder) rule.name span scope rule.selector.parameters args
  sequence (statement depth scope) .nil rule.body

/-- Leaves a rule, and records it if a return led here. -/
def leave (rule : String) : Flow → Eval Value
  | .next value => return value
  | .returned value => do
    record (.returned rule)
    return value

/-- A rule is **called** by entering and leaving it, unless there are too many arguments. -/
theorem invoke_eq_enter (depth : Nat) (rule : Rule) (holder : ScopeId) (args : List Value)
    (span : Span) :
    invoke (depth + 1) rule holder args span = (do
      record (.invokingRule rule.name args.length)
      if rule.selector.parameters.length < args.length then
        Process.fail
          (.arityMismatch rule.name rule.selector.parameters.length args.length span)
      else
        enter depth rule holder args span >>= leave rule.name) := by
  rw [invoke]
  simp only [enter, bind_assoc]
  rfl

/-- A return that was under way in a rule ends **where the rule is left**. -/
theorem call_orderly {x : Eval Flow} (hx : Logs Flow.unwound x) (rule : String) (args : Nat) :
    Orderly (record (.invokingRule rule args) >>= fun _ => x >>= leave rule) := by
  intro w
  rw [Process.run_bind_done rfl]
  let w₁ := w.noting (.invokingRule rule args)
  have hcall : w₁.events.toList = w.events.toList ++ [.invokingRule rule args] := by
    simp [w₁, World.noting]
  obtain ⟨es, hes, hrun⟩ := hx w₁
  have hentered : Event.Orderly ([.invokingRule rule args] ++ es) :=
    .append (.plain trivial) hes
  change Event.Adds _ (((x >>= leave rule).run w₁).1.trail _)
    ((x >>= leave rule).run w₁).2.events.toList
  rw [Process.run_bind]
  rcases h : x.run w₁ with ⟨(value | value) | fault | _, w₂⟩ <;> rw [h] at hrun <;>
    dsimp only [Outcome.trail, Flow.unwound] at hrun
  · exact ⟨_, hentered, by simp [leave, Outcome.trail, hrun, hcall]⟩
  · have hleft : Event.Orderly
        (.invokingRule rule args :: (es ++ [.unwinding value, .returned rule])) := .returning hes
    refine ⟨_, hleft, ?_⟩
    dsimp only
    rw [leave, Process.run_bind_done rfl]
    simp [hrun, hcall, Outcome.trail]
  · exact ⟨_, hentered, by simp [Outcome.trail, hrun, hcall]⟩
  · exact ⟨_, hentered, by simp [Outcome.trail, hrun, hcall]⟩

/-- The evaluator at one depth: only a statement leaves a return under way. -/
structure EvaluatorLogs (depth : Nat) : Prop where
  expr : ∀ scope e, Orderly (Eval.expr depth scope e)
  statement : ∀ scope st, Logs Flow.unwound (Eval.statement depth scope st)
  invoke : ∀ rule holder args span, Orderly (Eval.invoke depth rule holder args span)

/-- **Expressions** log in order, if the evaluator one step deeper does. -/
theorem expr_orderly {depth : Nat} (ih : EvaluatorLogs depth) (scope : ScopeId) (e : Expr) :
    Orderly (Eval.expr (depth + 1) scope e) := by
  have hexpr := ih.expr scope
  have hcond := Orderly.condition hexpr
  cases e with
  | literal value span =>
    rw [Eval.expr]
    exact .pure _
  | bare name =>
    rw [Eval.expr]
    exact Orderly.store.bind fun _ => .fail _
  | deref name span =>
    rw [Eval.expr]
    exact Orderly.store.bind fun _ => Orderly.ofExcept _
  | call name args span =>
    rw [Eval.expr]
    refine (Orderly.arguments hexpr args).bind fun values => ?_
    refine (Orderly.resolve scope name).bind fun target => ?_
    cases target with
    | rule rule holder => exact ih.invoke rule holder values span
    | builtin b => exact Orderly.callBuiltin b values span
  | unary op operand span =>
    rw [Eval.expr]
    exact (hexpr operand).bind fun _ => Orderly.ofExcept _
  | binary op left right span =>
    rw [Eval.expr.eq_def]
    dsimp only
    split
    · refine (hcond _ left).bind fun b => ?_
      split
      · exact (hcond _ right).bind fun _ => Orderly.pure _
      · exact Orderly.pure _
    · refine (hcond _ left).bind fun b => ?_
      split
      · exact Orderly.pure _
      · exact (hcond _ right).bind fun _ => Orderly.pure _
    · exact (hexpr left).bind fun _ => (hexpr right).bind fun _ => Orderly.ofExcept _

/-- A return begins in an at-rule, or in one of the statements inside it. -/
theorem atRule_logs {depth : Nat} (ih : EvaluatorLogs depth) (scope : ScopeId) (a : AtRule) :
    Logs Flow.unwound (Eval.statement (depth + 1) scope (.atRule a)) := by
  rw [Eval.statement]
  split
  · refine (Orderly.onlyParameter a).bind fun e => (Orderly.requiredBody a).bind fun body => ?_
    refine (ih.expr scope e).bind fun value => ?_
    split
    · exact (Orderly.addScope _).bind fun inner => .sequence (ih.statement inner) body _
    · exact .pure rfl
    · exact .fail _
  · split
    · split
      · exact .fail _
      · refine (Orderly.onlyParameter a).bind fun e => (ih.expr scope e).bind fun value => ?_
        exact .unwinding value
    · exact .fail _

/-- **Statements** log in order. A return leaves its end to be told by the rule. -/
theorem statement_logs {depth : Nat} (ih : EvaluatorLogs depth) (scope : ScopeId)
    (st : Statement) : Logs Flow.unwound (Eval.statement (depth + 1) scope st) := by
  cases st with
  | rule r =>
    rw [Eval.statement]
    exact (Orderly.define scope r).bind fun _ => .pure rfl
  | atRule a => exact atRule_logs ih scope a
  | declaration d =>
    rw [Eval.statement]
    split
    · split
      · refine (ih.expr scope _).bind fun value => ?_
        exact (Orderly.setVariable _ _ value).bind fun _ => .pure rfl
      · exact .fail _
    · refine (Orderly.resolve scope d.property).bind fun target => ?_
      refine (Orderly.arguments (ih.expr scope) d.values).bind fun values => ?_
      cases target with
      | rule rule holder => exact (ih.invoke rule holder values d.span).bind fun _ => .pure rfl
      | builtin b => exact (Orderly.callBuiltin b values d.span).bind fun _ => .pure rfl

/-- **Calls** log in order: the end of a rule stands behind the return that leaves it. -/
theorem invoke_orderly {depth : Nat} (ih : EvaluatorLogs depth) (rule : Rule) (holder : ScopeId)
    (args : List Value) (span : Span) :
    Orderly (Eval.invoke (depth + 1) rule holder args span) := by
  have henter : Logs Flow.unwound (enter depth rule holder args span) := by
    refine (Orderly.addScope _).bind fun scope => ?_
    refine (Orderly.bindParameters (ih.expr holder) _ _ _ _ _).bind fun _ => ?_
    exact .sequence (ih.statement scope) _ _
  rw [invoke_eq_enter]
  split
  · exact Logs.bind (Orderly.record trivial) fun _ => .fail _
  · exact call_orderly henter rule.name args.length

/-- **The evaluator logs in order** at every depth: by induction on the depth, all three functions
at once. -/
theorem evaluatorLogs (depth : Nat) : EvaluatorLogs depth := by
  induction depth with
  | zero =>
    refine ⟨?_, ?_, ?_⟩
    · intro scope e
      rw [Eval.expr]
      exact Logs.exhaust
    · intro scope st
      rw [Eval.statement]
      exact Logs.exhaust
    · intro rule holder args span
      rw [Eval.invoke]
      exact Logs.exhaust
  | succ depth ih => exact ⟨expr_orderly ih, statement_logs ih, invoke_orderly ih⟩

end Eval

/-! ### Programs -/

/-- Items are registered at no depth, and nothing else is recorded than that, or that a rule was
there already. -/
theorem Eval.register_events (items : List Item) (w : World) :
    ∃ es, ((register 0 items).run w).2.events.toList = w.events.toList ++ es ∧
      ∀ e ∈ es, (∃ name, e = .registeredRule name 0) ∨ ∃ name loc, e = .duplicateRule name loc := by
  induction items generalizing w with
  | nil => exact ⟨[], by simp [register], nofun⟩
  | cons item items ih =>
    cases item with
    | atRule a => exact ⟨[], by simp [register], nofun⟩
    | rule r =>
      rcases hd : w.store.define 0 r with existing | t
      · rw [register, Process.run_bind_failed (define_run_of_taken hd)]
        exact ⟨[_], Array.toList_push, by simp⟩
      · rw [register, Process.run_bind_done (define_run_of_free hd), Store.depth_zero]
        obtain ⟨es, hes, hall⟩ := ih ⟨t, w.sink, w.events.push (.registeredRule r.name 0)⟩
        refine ⟨.registeredRule r.name 0 :: es, by simp [hes], ?_⟩
        exact List.forall_mem_cons.2 ⟨.inl ⟨r.name, rfl⟩, hall⟩

/-- Behind a definition a scope has **the new rule** and those it had. -/
theorem Store.ownRule?_eq_of_define {s t : Store} {id : ScopeId} {r : Rule}
    (hid : id < s.frames.size) (h : s.define id r = .ok t) (name : String) :
    t.ownRule? id name = if r.name = name then some r else s.ownRule? id name := by
  have hf := Array.getElem?_eq_getElem hid
  unfold define at h
  split at h
  · cases h
  · cases h
    rw [ownRule?, ownRule?, modify, Array.getElem?_modify, if_pos rfl, hf]
    dsimp only [Option.map_some, Option.bind_some]
    rw [Std.ExtTreeMap.getElem?_insert]
    simp only [Std.LawfulEqCmp.compare_eq_iff_eq]

/-- **After registering**, the rules that are held are those that were there and the items. -/
theorem Eval.ownRule?_of_register {items : List Item} {w w' : World} {root : ScopeId}
    (hroot : root < w.store.frames.size) (hrun : (register root items).run w = (.done (), w'))
    (name : String) :
    (w'.store.ownRule? root name).isSome ↔
      (w.store.ownRule? root name).isSome ∨ ∃ r, .rule r ∈ items ∧ r.name = name := by
  induction items generalizing w with
  | nil =>
    cases hrun
    simp
  | cons item items ih =>
    cases item with
    | atRule a => cases hrun
    | rule r =>
      rcases hd : w.store.define root r with existing | t
      · rw [register, Process.run_bind_failed (define_run_of_taken hd)] at hrun
        cases hrun
      · rw [register, Process.run_bind_done (define_run_of_free hd)] at hrun
        have hsize : root < t.frames.size := by
          obtain ⟨g, hg, -⟩ := Store.Grows.of_define hd root _ (Array.getElem?_eq_getElem hroot)
          exact (Array.getElem?_eq_some_iff.1 hg).1
        rw [ih hsize hrun, Store.ownRule?_eq_of_define hroot hd]
        by_cases hname : r.name = name <;> simp [hname]

/-- A visit of a statement that a scoped visit starts lies in a rule. -/
theorem Visit.Scoped.one_lt_path {p : Program} {n : Nat} {v : Visit} {path : List Block}
    {scope : ScopeId} {st : Statement} {w : World} (h : v.Scoped p)
    (hs : v.Starts n ⟨path, .statement scope st, w⟩) : 1 < path.length := by
  have hstands := h.stands
  cases hs with
  | inner =>
    obtain ⟨b, bs, rfl, -⟩ := hstands
    simp
  | body =>
    obtain ⟨b, bs, rfl, -⟩ := hstands
    simp

/-- A call leads to no statement but those that lie in a rule. -/
theorem Visit.Scoped.one_lt_of_reaches {p : Program} {n m : Nat} {v u : Visit} {scope : ScopeId}
    {st : Statement} (h : v.Scoped p) (hr : Visit.Reaches n v m u)
    (hu : u.task = .statement scope st) : u = v ∨ 1 < u.path.length := by
  induction hr with
  | refl => exact .inl rfl
  | @step n m v v' u hs _ ih =>
    refine .inr ?_
    rcases ih (h.starts hs) hu with rfl | hlt
    · obtain ⟨path, task, w⟩ := u
      obtain rfl : task = .statement scope st := hu
      exact h.one_lt_path hs
    · exact hlt

/-- What a call registers lies deeper than the top level. -/
theorem Visit.Scoped.one_le_of_registers {p : Program} {n d : Nat} {v : Visit} {name : String}
    {rule : Rule} {holder : ScopeId} {args : List Value} {span : Span} (h : v.Scoped p)
    (hv : v.task = .invoke rule holder args span) (hreg : v.Registers n name d) : 1 ≤ d := by
  obtain ⟨m, path, scope, r, w, hreach, -, hdepth⟩ := hreg
  have hlength : w.store.depth scope + 1 = path.length := (h.reaches hreach).depth_eq
  rcases h.one_lt_of_reaches hreach rfl with heq | hlt
  · rw [← heq] at hv
    cases hv
  · change 1 < path.length at hlt
    omega

/-- What is recorded **after the main rule is called** is orderly, and registers rules that lie
deeper than the top level. -/
theorem Eval.main_events {p : Program} {sink : Sink} {w : World} {rule : Rule} {holder : ScopeId}
    (hregister : (register 0 p.items).run ⟨.add .empty none, sink, #[]⟩ = (.done (), w))
    (hmain : w.store.rule? 0 mainName = some (rule, holder)) (depth : Nat) :
    ∃ es, Event.Orderly es ∧ (∀ name d, .registeredRule name d ∈ es → 1 ≤ d) ∧
      ((invoke depth rule holder [] rule.selector.span).run
        (w.noting (.invokingMain p.items.length))).2.events.toList =
          w.events.toList ++ .invokingMain p.items.length :: es := by
  have hscoped := (Program.Begins.main hregister hmain).scoped
  have hholder : holder < w.store.frames.size := hscoped.mirrors.lt_size
  -- the same call with an empty record adds the same to it
  let call := invoke depth rule holder [] rule.selector.span
  let w₁ := w.noting (.invokingMain p.items.length)
  let w₀ : World := ⟨w.store, w.sink, #[]⟩
  have hsame : SameRun w₁ w₀ (call.run w₁) (call.run w₀) :=
    invoke_sameRun depth rule [] rule.selector.span rfl (.refl hholder)
  obtain ⟨-, -, es, hes, hes₀⟩ := hsame
  have hes₀ : (call.run w₀).2.events = es := by simpa [w₀] using hes₀
  have horderly : Event.Orderly es.toList := by
    obtain ⟨es', hes', hrun⟩ := ((evaluatorLogs depth).invoke rule holder [] _).events w₀
    rwa [← hes₀, hrun]
  have hdepths : ∀ name d, .registeredRule name d ∈ es.toList → 1 ≤ d := by
    intro name d hmem
    have hscoped₀ : Visit.Scoped p ⟨[p.block], .invoke rule holder [] rule.selector.span, w₀⟩ :=
      ⟨hscoped.nest, hscoped.stands, hscoped.mirrors⟩
    rw [← hes₀, Array.mem_toList_iff] at hmem
    rcases (evaluatorRecords depth).invoke [p.block] _ _ _ _ w₀ name d hmem with hnone | hreg
    · cases Array.not_mem_empty _ hnone
    · exact hscoped₀.one_le_of_registers rfl hreg
  refine ⟨es.toList, horderly, hdepths, ?_⟩
  change (call.run w₁).2.events.toList = _
  rw [hes]
  simp [w₁, World.noting]

/-- All items of a program **can be registered**, and one of them is the main rule. -/
def Program.Runnable (p : Program) (sink : Sink) : Prop :=
  ((Eval.register 0 p.items).run ⟨.add .empty none, sink, #[]⟩).1 = .done () ∧
    ∃ r, .rule r ∈ p.items ∧ r.name = Eval.mainName

/-- The outermost scope has **only its own rules**. -/
theorem Store.rule?_zero (s : Store) (name : String) :
    s.rule? 0 name = (s.ownRule? 0 name).map fun r => (r, 0) := by
  rw [rule?, chain_zero]
  cases h : s.ownRule? 0 name <;> simp [h]

/-- Once the items are registered, the main rule is found if there is one among them. -/
theorem Program.runnable_iff {p : Program} {sink : Sink} {w : World}
    (hrun : (Eval.register 0 p.items).run ⟨.add .empty none, sink, #[]⟩ = (.done (), w)) :
    p.Runnable sink ↔ (w.store.rule? 0 Eval.mainName).isSome := by
  have hroot : 0 < (Store.empty.add none).frames.size := Nat.zero_lt_one
  have hempty : (Store.empty.add none).ownRule? 0 Eval.mainName = none :=
    Std.ExtTreeMap.getElem?_empty
  rw [Store.rule?_zero, Option.isSome_map, Eval.ownRule?_of_register hroot hrun, Runnable, hrun]
  simp [hempty]

/-- The record of a program: its items are registered, and then its main rule is called if it is
runnable. -/
theorem Program.events_cases (p : Program) (depth : Nat) (sink : Sink) :
    ∃ before, (∀ e ∈ before, (∃ name, e = .registeredRule name 0) ∨
        ∃ name loc, e = .duplicateRule name loc) ∧
      ((¬ p.Runnable sink ∧ (p.report depth sink).1.events = before) ∨
        p.Runnable sink ∧ ∃ after, Event.Orderly after ∧
          (∀ name d, .registeredRule name d ∈ after → 1 ≤ d) ∧
          (p.report depth sink).1.events = before ++ .invokingMain p.items.length :: after) := by
  let w₀ : World := ⟨.add .empty none, sink, #[]⟩
  obtain ⟨before, hbefore, hall⟩ := Eval.register_events p.items w₀
  have hbefore : ((Eval.register 0 p.items).run w₀).2.events.toList = before := by
    simpa [w₀] using hbefore
  refine ⟨before, hall, ?_⟩
  simp only [Program.report_run, Eval.program_run]
  rcases hrun : (Eval.register 0 p.items).run w₀ with ⟨_ | fault | _, w⟩ <;>
    rw [hrun] at hbefore
  · have hrunnable := Program.runnable_iff hrun
    dsimp only
    rcases hmain : w.store.rule? 0 Eval.mainName with _ | ⟨rule, holder⟩ <;> rw [hmain] at hrunnable
    · exact .inl ⟨by simp [hrunnable], hbefore⟩
    · obtain ⟨after, horderly, hdepths, hevents⟩ := Eval.main_events hrun hmain depth
      dsimp only at hbefore ⊢
      exact .inr ⟨hrunnable.2 rfl, after, horderly, hdepths, by rw [hevents, hbefore]⟩
  · refine .inl ⟨fun hrunnable => ?_, hbefore⟩
    cases (congrArg Prod.fst hrun).symm.trans hrunnable.1
  · exact absurd (congrArg Prod.fst hrun) (Eval.register_ends 0 p.items w₀)

/-- **The record of a program is disciplined**, at every depth and on every sink, and however the
program ends.

* Behind the beginning of a return stands at once its end, and before the end its beginning.
* Up to any point, no rule is left by a return more often than it was called.
* The main rule is begun with at most once, and exactly if all items could be registered and one of
  them is the main rule.
* What is registered before that is registered at no depth, and what is registered after it lies
  deeper. -/
theorem record_disciplined (p : Program) (depth : Nat) (sink : Sink) :
    let events := (p.report depth sink).1.events
    (∀ i value, events[i]? = some (.unwinding value) →
      ∃ rule, events[i + 1]? = some (.returned rule)) ∧
    (∀ i rule, events[i]? = some (.returned rule) →
      ∃ j value, i = j + 1 ∧ events[j]? = some (.unwinding value)) ∧
    (∀ rule part, part <+: events →
      part.countP (Event.leaves rule) ≤ part.countP (Event.calls rule)) ∧
    events.countP Event.begins ≤ 1 ∧
    ((∃ rules, .invokingMain rules ∈ events) ↔ p.Runnable sink) ∧
    ∀ before rules after, events = before ++ .invokingMain rules :: after →
      (∀ name d, .registeredRule name d ∈ before → d = 0) ∧
      ∀ name d, .registeredRule name d ∈ after → 1 ≤ d := by
  intro events
  obtain ⟨before, hbefore, hcases⟩ := p.events_cases depth sink
  have horderly : Event.Orderly before := by
    refine .of_plain fun e he => ?_
    rcases hbefore e he with ⟨name, rfl⟩ | ⟨name, loc, rfl⟩ <;> trivial
  have hroot : ∀ name d, .registeredRule name d ∈ before → d = 0 := by
    intro name d hmem
    rcases hbefore _ hmem with ⟨_, heq⟩ | ⟨_, _, heq⟩ <;> cases heq
    rfl
  rcases hcases with ⟨hnot, hevents⟩ | ⟨hrunnable, after, hafter, hdepths, hevents⟩
  · have hevents : events = before := hevents
    subst hevents
    refine ⟨horderly.paired.followed, horderly.paired.preceded,
      fun rule part => (horderly.called rule).counted, ?_, ?_, ?_⟩
    · rw [horderly.countP_begins]
      exact Nat.zero_le 1
    · exact ⟨fun ⟨n, hn⟩ => absurd hn (horderly.not_begins n), fun h => absurd h hnot⟩
    · intro before' n after' hsplit
      exact absurd (by simp [hsplit]) (horderly.not_begins n)
  · have hevents : events = before ++ .invokingMain p.items.length :: after := hevents
    rw [hevents]
    have hpaired := horderly.paired_begin hafter p.items.length
    refine ⟨hpaired.followed, hpaired.preceded,
      fun rule part => (horderly.called_begin hafter _ rule).counted, ?_, ?_, ?_⟩
    · rw [horderly.countP_begin hafter]
    · exact ⟨fun _ => hrunnable, fun _ => ⟨p.items.length, by simp⟩⟩
    · intro before' n after' hsplit
      obtain ⟨rfl, rfl⟩ := horderly.split_begin hafter hsplit
      exact ⟨hroot, hdepths⟩

/-- The record of a main rule that returns what a rule inside it returns. -/
example : ((Program.returning []).report 6 (.empty none)).1.events =
    [.registeredRule "main" 0, .invokingMain 1, .invokingRule "main" 0, .registeredRule "inner" 1,
      .invokingRule "inner" 0, .unwinding (.int 1), .returned "inner", .unwinding (.int 1),
      .returned "main"] := by
  cbv

end RuleScript
