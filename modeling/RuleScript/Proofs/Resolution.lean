import RuleScript.Proofs.Likeness

/-!
# When a name that is called is resolved

A call can be written as an expression, `name(a, b)`, or as a statement, `name: a b;`. The
expression resolves its name **after** the arguments are evaluated, and the statement **before**. It
makes no difference: whatever the arguments do, they declare nothing in the scopes from which the
name is looked up.

* `Store.Grows.valueOf?_eq`, `Store.Grows.rule?_eq`: what is found from a scope stays the same while
  the store grows.
* `Eval.callee_of_arguments`: so does what a name can be called as while arguments are evaluated.
* `call_forms_agree`: the two forms of a call do the same where the name resolves, and how they
  differ where it does not.
-/

namespace RuleScript

/-! ### What is found while a store grows -/

namespace Store.Grows

variable {s t : Store} {i : ScopeId}

/-- Whatever is looked for along a chain, the same is found. -/
theorem findSome?_chain_eq {α : Type} (h : s.Grows none t) (hi : i < s.frames.size)
    (look : ScopeId → Option Frame → Option α) :
    (t.chain i).findSome? (fun j => look j t.frames[j]?) =
      (s.chain i).findSome? (fun j => look j s.frames[j]?) := by
  have hframes : ∀ j ∈ s.chain i, look j t.frames[j]? = look j s.frames[j]? := by
    intro j hj
    have hf := Array.getElem?_eq_getElem (Nat.lt_of_le_of_lt (le_of_mem_chain hj) hi)
    rw [hf, h.same nofun hf]
  have hfound := congrArg (List.findSome? id) (List.map_congr_left hframes)
  rw [List.findSome?_map, List.findSome?_map] at hfound
  rw [h.chain_eq hi]
  exact hfound

/-- A variable that is read keeps its value. -/
theorem valueOf?_eq (h : s.Grows none t) (hi : i < s.frames.size) (name : String) :
    t.valueOf? i name = s.valueOf? i name :=
  h.findSome?_chain_eq hi fun _ frame => frame.bind fun f => f.values[name]?

/-- A rule that is found stays the same, and so does the scope that holds it. -/
theorem rule?_eq (h : s.Grows none t) (hi : i < s.frames.size) (name : String) :
    t.rule? i name = s.rule? i name :=
  h.findSome?_chain_eq hi fun j frame => (frame.bind fun f => f.rules[name]?).map fun r => (r, j)

/-- What a name can be called as, or why it cannot, stays the same. -/
theorem callee_eq (h : s.Grows none t) (hi : i < s.frames.size) (name : Name) :
    Eval.callee t i name = Eval.callee s i name := by
  rw [Eval.callee, Eval.callee, findRule, findRule, h.rule?_eq hi, h.valueOf?_eq hi]

end Store.Grows

namespace Eval

variable {depth : Nat} {scope : ScopeId} {name : Name} {args : List Expr} {span : Span} {w : World}

/-- Evaluating arguments, **however it ends**, changes nothing about what a name can be called
as. -/
theorem callee_of_arguments (depth : Nat) (hscope : scope < w.store.frames.size) (name : Name)
    (args : List Expr) :
    callee ((arguments (expr depth scope) args).run w).2.store scope name =
      callee w.store scope name :=
  (Confined.arguments ((evaluatorConfined depth).expr scope) args w).callee_eq hscope name

/-- A name that cannot be called is at fault for **not being bound**. -/
theorem callee_eq_error {s : Store} {fault : Fault} (h : callee s scope name = .error fault) :
    fault = .unboundFunction name.text (s.valueOf? scope name.text).isSome name.span := by
  rw [callee, Store.findRule] at h
  cases hrule : s.rule? scope name.text with
  | some found =>
    rw [hrule] at h
    cases h
  | none =>
    rw [hrule] at h
    cases hbuiltin : Builtin.ofName? name.text with
    | some b =>
      rw [hbuiltin] at h
      cases h
    | none =>
      rw [hbuiltin] at h
      cases h
      rfl

/-! ### The two forms of a call -/

/-- Calls what a name was resolved to. -/
def callTarget (depth : Nat) (values : List Value) (span : Span) : Callee → Eval Value
  | .rule rule holder => invoke depth rule holder values span
  | .builtin b => callBuiltin b values span

/-- A call **expression** evaluates its arguments, resolves its name, and calls. -/
theorem expr_call_eq :
    expr (depth + 1) scope (.call name args span) =
      arguments (expr depth scope) args >>= fun values =>
        resolve scope name >>= callTarget depth values span := by
  rw [expr]
  rfl

/-- A call **statement** resolves its name, evaluates its arguments, and calls. -/
theorem statement_call_eq (hname : name.isVariable = false) :
    statement (depth + 1) scope (.declaration ⟨name, args, span⟩) =
      resolve scope name >>= fun target =>
        arguments (expr depth scope) args >>= fun values =>
          Flow.next <$> callTarget depth values span target := by
  rw [statement, if_neg (by simp [hname])]
  congr
  funext target
  congr
  funext values
  cases target <;> rfl

/-- Where the name **resolves**, the statement passes on what the expression gives. -/
theorem statement_call_run {target : Callee} (hscope : scope < w.store.frames.size)
    (hname : name.isVariable = false) (hfound : callee w.store scope name = .ok target) :
    (statement (depth + 1) scope (.declaration ⟨name, args, span⟩)).run w =
      (Flow.next <$> expr (depth + 1) scope (.call name args span)).run w := by
  have hresolve : (resolve scope name).run w = (.done target, w) := by
    rw [resolve_run, hfound]
  rw [statement_call_eq hname, Process.run_bind_done hresolve, expr_call_eq, map_bind]
  have hsame := callee_of_arguments depth hscope name args
  rcases hargs : (arguments (expr depth scope) args).run w with ⟨values | fault | _, w'⟩
  · have hlater : (resolve scope name).run w' = (.done target, w') := by
      rw [hargs, hfound] at hsame
      rw [resolve_run, hsame]
    rw [Process.run_bind_done hargs, Process.run_bind_done hargs, map_bind,
      Process.run_bind_done hlater]
  · rw [Process.run_bind_failed hargs, Process.run_bind_failed hargs]
  · rw [Process.run_bind_exhausted hargs, Process.run_bind_exhausted hargs]

/-- Where it does **not**, the expression ends as its arguments do, and only if they have values is
it the name that is at fault. -/
theorem expr_call_run_of_error {fault : Fault} (hscope : scope < w.store.frames.size)
    (hmissing : callee w.store scope name = .error fault) :
    (expr (depth + 1) scope (.call name args span)).run w =
      match (arguments (expr depth scope) args).run w with
      | (.done _, w') => (.failed fault, w')
      | (.failed earlier, w') => (.failed earlier, w')
      | (.exhausted, w') => (.exhausted, w') := by
  have hsame := callee_of_arguments depth hscope name args
  rw [expr_call_eq, Process.run_bind]
  rcases hargs : (arguments (expr depth scope) args).run w with ⟨values | earlier | _, w'⟩
  · have hlater : (resolve scope name).run w' = (.failed fault, w') := by
      rw [hargs, hmissing] at hsame
      rw [resolve_run, hsame]
    exact Process.run_bind_failed hlater _
  · rfl
  · rfl

/-- **The two forms of a call agree.** Take any scope of any world, a name without dashes, arguments
and a span. If the name resolves, the call statement does exactly what the call expression does: it
ends with the same value or fault, or neither ends, and leaves the same scopes, output and record.
If the name does not resolve, the statement fails at once with the fault that it is not bound, and
does nothing else; the expression has no value either, for it fails with **that same fault** once
all its arguments have values, and otherwise ends as they do. -/
theorem call_forms_agree (depth : Nat) (scope : ScopeId) (w : World) (name : Name)
    (args : List Expr) (span : Span) (hscope : scope < w.store.frames.size)
    (hname : name.isVariable = false) :
    let written := statement (depth + 1) scope (.declaration ⟨name, args, span⟩)
    let called := expr (depth + 1) scope (.call name args span)
    (∀ target, callee w.store scope name = .ok target →
      written.run w = (Flow.next <$> called).run w) ∧
    ∀ fault, callee w.store scope name = .error fault →
      fault = .unboundFunction name.text (w.store.valueOf? scope name.text).isSome name.span ∧
      written.run w = (.failed fault, w) ∧
      called.run w = match (arguments (expr depth scope) args).run w with
        | (.done _, w') => (.failed fault, w')
        | (.failed earlier, w') => (.failed earlier, w')
        | (.exhausted, w') => (.exhausted, w') := by
  intro written called
  refine ⟨?_, ?_⟩
  · intro target hfound
    exact statement_call_run hscope hname hfound
  · intro fault hmissing
    refine ⟨callee_eq_error hmissing, ?_, expr_call_run_of_error hscope hmissing⟩
    have hresolve : (resolve scope name).run w = (.failed fault, w) := by
      rw [resolve_run, hmissing]
    rw [show written = _ from statement_call_eq hname]
    exact Process.run_bind_failed hresolve _

/-- `print` is called in the same way in both forms. A name that is missing is noticed in `name: e;`
before, and in `name(e)` after the argument has printed. -/
theorem call_forms_agree_printing :
    let w : World := ⟨Store.empty.add none, .empty none, #[]⟩
    let one : Expr := .call ⟨"print", default⟩ [.literal (.int 1) default] default
    let fault : Fault := .unboundFunction "missing" false default
    0 < w.store.frames.size ∧
    (statement 3 0 (.declaration ⟨⟨"print", default⟩, [one], default⟩)).run w =
      (Flow.next <$> expr 3 0 (.call ⟨"print", default⟩ [one] default)).run w ∧
    (statement 3 0 (.declaration ⟨⟨"missing", default⟩, [one], default⟩)).run w =
      (.failed fault, w) ∧
    ∃ w', (expr 3 0 (.call ⟨"missing", default⟩ [one] default)).run w = (.failed fault, w') ∧
      w'.sink.written = "1\n".toUTF8 := by
  intro w one fault
  have hrule : ∀ name, w.store.rule? 0 name = none := by
    intro name
    rw [Store.rule?, Store.chain_zero]
    rfl
  have hvalue : w.store.valueOf? 0 "missing" = none := by
    rw [Store.valueOf?, Store.chain_zero]
    rfl
  have hprint : callee w.store 0 ⟨"print", default⟩ = .ok (.builtin .print) := by
    rw [callee, Store.findRule, hrule]
    rfl
  have hmissing : callee w.store 0 ⟨"missing", default⟩ = .error fault := by
    rw [callee, Store.findRule, hrule, hvalue]
    rfl
  have hagree := call_forms_agree 2 0 w
  obtain ⟨-, hwritten, hcalled⟩ :=
    (hagree ⟨"missing", default⟩ [one] default (by decide) rfl).2 fault hmissing
  refine ⟨by decide, ?_, hwritten, ?_⟩
  · exact (hagree ⟨"print", default⟩ [one] default (by decide) rfl).1 _ hprint
  · have hresolve : (resolve 0 ⟨"print", default⟩).run w = (.done (.builtin .print), w) := by
      rw [resolve_run, hprint]
    let printed : World := ((callBuiltin .print [.int 1] default).run w).2
    have hone : (expr 2 0 one).run w = (.done (.int 1), printed) := by
      rw [expr_call_eq, Process.run_bind_done rfl, Process.run_bind_done hresolve]
      rfl
    have hvalues : (arguments (expr 2 0) [one]).run w = (.done [.int 1], printed) := by
      rw [arguments, Process.run_bind_done hone]
      rfl
    rw [hvalues] at hcalled
    exact ⟨printed, hcalled, by decide +kernel⟩

end Eval

end RuleScript
