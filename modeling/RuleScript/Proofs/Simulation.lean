import RuleScript.Proofs.Comparison

/-!
# Evaluation depends on likeness only

What is evaluated in two worlds, in scopes that are **alike**, ends the same: with
the same value or with faults that look the same, and with the same printed and
recorded. The worlds may hold quite different scopes otherwise, and what is
evaluated need only have the same gist in both.

* `Comparison.EvaluatorSame`: expressions, statements and calls, at two depths.
* `Comparison.evaluatorSame`: by induction on the depth. The scopes stay alike,
  since expressions declare nothing (`Eval.evaluatorConfined`) and a statement
  declares the same in both (`Comparison.alike_of_statement`).
-/

namespace RuleScript

variable {v : View}

/-! ### Names -/

namespace Eval

variable {s t : Store} {i j : ScopeId} {name name' : Name}

/-- Variables are **looked up** alike in stores that are alike. -/
theorem variableValue_seen (hs : s.Alike v t i j) (hn : name.variableGist = name'.variableGist)
    {span span' : Span} (hspan : v.span span = v.span span') :
    (variableValue s i name span).mapError (Fault.seen v) =
      (variableValue t j name' span').mapError (Fault.seen v) := by
  rw [variableValue, variableValue, Store.readVariable, Store.readVariable,
    Name.variableName_eq_of_gist hn, hs.valueOf?_eq]
  cases t.valueOf? j name'.variableName with
  | some value => rfl
  | none => simp only [lookupFault, Fault.mapError_seen, Fault.seen, hspan]

/-- Names that look the same are **of one use** in stores that are alike. -/
theorem usage_eq (hs : s.Alike v t i j) (hn : name.seen v = name'.seen v) :
    usage s i name = usage t j name' := by
  have htext := Name.text_eq_of_seen hn
  have hvariable : name.variableName = name'.variableName := congrArg Name.withoutDashes htext
  have hrule : (s.rule? i name'.text).isSome = (t.rule? j name'.text).isSome := by
    obtain ⟨hs, ht⟩ | ⟨r, a, r', b, hs, ht, -⟩ := hs.rule? name'.text <;> rw [hs, ht]
    rfl
  rw [usage, usage, htext, hvariable, hrule, hs.valueOf?_eq]

/-- From scopes that are alike a name is called as the same builtin, or as rules
of one gist that are held by scopes that are alike, or it cannot be called. -/
theorem callee_alike (hs : s.Alike v t i j) (hn : name.seen v = name'.seen v) :
    (∃ r a r' b, callee s i name = .ok (.rule r a) ∧ callee t j name' = .ok (.rule r' b) ∧
      r.gist v = r'.gist v ∧ s.Alike v t a b) ∨
    (∃ b, callee s i name = .ok (.builtin b) ∧ callee t j name' = .ok (.builtin b)) ∨
    ∃ e e', callee s i name = .error e ∧ callee t j name' = .error e' ∧ e.seen v = e'.seen v := by
  rw [callee, callee, Store.findRule, Store.findRule, Name.text_eq_of_seen hn, hs.valueOf?_eq]
  obtain ⟨hrs, hrt⟩ | ⟨r, a, r', b, hrs, hrt, hr, hab⟩ := hs.rule? name'.text
  · rw [hrs, hrt]
    cases Builtin.ofName? name'.text with
    | some b => exact .inr (.inl ⟨b, rfl, rfl⟩)
    | none =>
      refine .inr (.inr ⟨_, _, rfl, rfl, ?_⟩)
      simp only [lookupFault, Fault.seen, Name.span_eq_of_seen hn]
  · rw [hrs, hrt]
    exact .inl ⟨r, a, r', b, rfl, rfl, hr, hab⟩

end Eval

namespace Comparison

open Eval (Confined evaluatorConfined)

variable {c : Comparison} {w w' : World} {i j : ScopeId} {α : Type}

/-- A name that is called is resolved in the same way in both worlds. -/
theorem Same.resolve_bind {name name' : Name} {f g : Callee → Eval α} (hw : c.InStep w w')
    (hs : w.store.Alike c.view w'.store i j) (hn : name.seen c.view = name'.seen c.view)
    (hrule : ∀ r a r' b, r.gist c.view = r'.gist c.view → w.store.Alike c.view w'.store a b →
      c.Same ((f (.rule r a)).run w) ((g (.rule r' b)).run w'))
    (hbuiltin : ∀ b, c.Same ((f (.builtin b)).run w) ((g (.builtin b)).run w')) :
    c.Same ((Eval.resolve i name >>= f).run w) ((Eval.resolve j name' >>= g).run w') := by
  rw [Process.run_bind, Process.run_bind, Eval.resolve_run, Eval.resolve_run]
  obtain ⟨r, a, r', b, hx, hy, hr, hab⟩ | ⟨b, hx, hy⟩ | ⟨e, e', hx, hy, he⟩ :=
    Eval.callee_alike hs hn <;> rw [hx, hy]
  · exact hrule r a r' b hr hab
  · exact hbuiltin b
  · exact .failed ⟨he, hw⟩

/-! ### Definitions -/

/-- A rule is defined in both worlds or in neither. Where it is, what comes after
finds the scopes alike. -/
theorem Same.define_bind {r r' : Rule} {f g : Unit → Eval α} (hw : c.InStep w w')
    (hs : w.store.Alike c.view w'.store i j) (hr : r.gist c.view = r'.gist c.view)
    (hf : ∀ u u', c.InStep u u' → u.store.Alike c.view u'.store i j →
      c.Same ((f ()).run u) ((g ()).run u')) :
    c.Same ((Eval.define i r >>= f).run w) ((Eval.define j r' >>= g).run w') := by
  obtain ⟨p, q, left, right, hframes⟩ := hs.frames
  have hname := Rule.name_eq hr
  have hrules := hframes.rules r.name
  rcases hp : p.rules[r.name]? with _ | existing <;>
    rcases hq : q.rules[r'.name]? with _ | existing' <;>
    rw [hp, hname, hq] at hrules
  · -- the name is free in both scopes
    obtain ⟨t, ht, hleft⟩ := Store.define_of_free left hp
    obtain ⟨t', ht', hright⟩ := Store.define_of_free right hq
    have halike : t.Alike c.view t' i j := by
      refine hs.of_own (.of_define ht) (.of_define ht') hleft hright ?_
      rw [hname]
      exact hframes.insertRule hr _ _ _
    rw [Process.run_bind_done (Eval.define_run_of_free ht),
      Process.run_bind_done (Eval.define_run_of_free ht'), hname, halike.depth_eq]
    exact hf _ _ ((hw.store t t').record rfl) halike
  · cases hrules
  · cases hrules
  · -- the name is taken in both: the faults blame spans that look the same
    have htaken := Store.define_of_taken left hp
    have htaken' := Store.define_of_taken right hq
    have hspan := Name.span_eq_of_seen (Rule.name_seen_eq hr)
    have hprevious := Name.span_eq_of_seen (Rule.name_seen_eq (Option.some.inj hrules))
    rw [Process.run_bind_failed (Eval.define_run_of_taken htaken),
      Process.run_bind_failed (Eval.define_run_of_taken htaken'), hname]
    refine .failed ⟨?_, hw.record ?_⟩
    · simp only [Fault.seen, hspan, hprevious]
    · simp only [Event.seen, c.view.start hprevious]

/-! ### Statements in order -/

/-- A return is never followed by the next statement. -/
theorem not_next_of_return {st : Statement} (hst : st.isReturn = true) {depth : Nat}
    {value : Value} : (Eval.statement depth i st).run w ≠ (.done (.next value), w') := by
  intro hrun
  cases depth with
  | zero =>
    rw [Eval.statement] at hrun
    cases hrun
  | succ depth =>
    cases st with
    | declaration d => cases hst
    | rule r => cases hst
    | atRule a =>
      have hname : a.name.text = "return" := of_decide_eq_true hst
      rw [Eval.statement, if_neg (by rw [hname]; decide), if_pos hname] at hrun
      split at hrun
      · cases hrun
      · obtain ⟨e, w₁, -, hrun⟩ := Process.exists_of_run_bind_done hrun
        obtain ⟨x, w₂, -, hrun⟩ := Process.exists_of_run_bind_done hrun
        cases hrun

/-- Statements of one gist declare the same, so the scopes they stand in stay
alike. -/
theorem alike_of_statement {st st' : Statement} {depth depth' : Nat} {flow : Flow} {u u' : World}
    (hs : w.store.Alike v w'.store i j) (hst : st.gist v = st'.gist v)
    (hrun : (Eval.statement depth i st).run w = (.done flow, u))
    (hrun' : (Eval.statement depth' j st').run w' = (.done flow, u')) :
    u.store.Alike v u'.store i j := by
  obtain ⟨f, g, left, right, hframes⟩ := hs.frames
  have hgrows := (evaluatorConfined depth).statement i st w
  have hgrows' := (evaluatorConfined depth').statement j st' w'
  rw [hrun] at hgrows
  rw [hrun'] at hgrows'
  exact hs.of_own hgrows hgrows' (Eval.statement_own_frame left hrun)
    (Eval.statement_own_frame right hrun') (hframes.declare hst _)

/-! ### The evaluator -/

/-- The evaluator at two depths keeps worlds in step, from scopes that are alike
and for what has the same gist. -/
structure EvaluatorSame (c : Comparison) (d d' : Nat) : Prop where
  expr : ∀ {w w' i j e e'}, c.InStep w w' → w.store.Alike c.view w'.store i j →
    e.gist c.view = e'.gist c.view →
    c.Same ((Eval.expr d i e).run w) ((Eval.expr d' j e').run w')
  statement : ∀ {w w' i j st st'}, c.InStep w w' → w.store.Alike c.view w'.store i j →
    st.gist c.view = st'.gist c.view →
    c.Same ((Eval.statement d i st).run w) ((Eval.statement d' j st').run w')
  invoke : ∀ {w w' i j r r' s s'} (args : List Value), c.InStep w w' →
    w.store.Alike c.view w'.store i j → r.gist c.view = r'.gist c.view →
    c.view.span s = c.view.span s' →
    c.Same ((Eval.invoke d r i args s).run w) ((Eval.invoke d' r' j args s').run w')

namespace EvaluatorSame

variable {d d' : Nat}

/-! #### Parts -/

/-- **Arguments** go the same. -/
theorem arguments (ih : c.EvaluatorSame d d') {es es' : List Expr} (hw : c.InStep w w')
    (hs : w.store.Alike c.view w'.store i j)
    (hes : es.map (Expr.gist c.view) = es'.map (Expr.gist c.view)) :
    c.Same ((Eval.arguments (Eval.expr d i) es).run w)
      ((Eval.arguments (Eval.expr d' j) es').run w') := by
  have hconf := (evaluatorConfined d).expr i
  have hconf' := (evaluatorConfined d').expr j
  induction es generalizing es' w w' with
  | nil =>
    obtain rfl := List.map_eq_nil_iff.1 hes.symm
    exact .pure hw _
  | cons e es ihes =>
    obtain ⟨e', es', rfl, he, hes⟩ := List.map_eq_cons_iff.1 hes.symm
    rw [Eval.arguments, Eval.arguments]
    refine .bind (hconf e) (hconf' e') hs (ih.expr hw hs he.symm) fun value u u' hu hstep => ?_
    refine .bind (.arguments hconf es) (.arguments hconf' es') hu (ihes hstep hu hes.symm)
      fun values z z' _ hstep => ?_
    exact .pure hstep _

/-- **Conditions** go the same. -/
theorem condition (ih : c.EvaluatorSame d d') (op : BinaryOp) {e e' : Expr} (hw : c.InStep w w')
    (hs : w.store.Alike c.view w'.store i j) (he : e.gist c.view = e'.gist c.view) :
    c.Same ((Eval.condition (Eval.expr d i) op e).run w)
      ((Eval.condition (Eval.expr d' j) op e').run w') := by
  refine .bind_run (ih.expr hw hs he) fun value u u' _ _ hstep => ?_
  cases value with
  | bool b => exact .pure hstep b
  | _ => exact .fail hstep (by simp only [Fault.seen, Expr.span_eq_of_gist he])

/-- Statements are run in order up to a return, which hides what follows it. -/
theorem sequence (ih : c.EvaluatorSame d d') {sts sts' : List Statement} (hw : c.InStep w w')
    (hs : w.store.Alike c.view w'.store i j)
    (hsts : Statement.gists c.view sts = Statement.gists c.view sts') (last : Value) :
    c.Same ((Eval.sequence (Eval.statement d i) last sts).run w)
      ((Eval.sequence (Eval.statement d' j) last sts').run w') := by
  induction sts generalizing sts' w w' last with
  | nil =>
    cases sts' with
    | nil => exact .pure hw _
    | cons st' sts' => cases hsts
  | cons st sts ihsts =>
    cases sts' with
    | nil => cases hsts
    | cons st' sts' =>
      obtain ⟨hst, hmore⟩ := List.cons.inj hsts
      rw [Eval.sequence, Eval.sequence]
      refine .bind_run (ih.statement hw hs hst) fun flow u u' hrun hrun' hstep => ?_
      cases flow with
      | returned value => exact .pure hstep _
      | next value =>
        -- what leads on is no return, so nothing was left out after it in either list
        have hreturn : st.isReturn = false := by
          rw [← Bool.not_eq_true]
          exact fun h => not_next_of_return h hrun
        have hreturn' : st'.isReturn = false := by
          rw [← Statement.isReturn_gist c.view, ← hst, Statement.isReturn_gist, hreturn]
        rw [hreturn, hreturn'] at hmore
        exact ihsts hstep (alike_of_statement hs hst hrun hrun') hmore value

/-- The **values of parameters** go the same. -/
theorem parameterValue (ih : c.EvaluatorSame d d') {q q' : Parameter} {rule : String}
    {s s' : Span} (hw : c.InStep w w') (hs : w.store.Alike c.view w'.store i j)
    (hq : q.gist c.view = q'.gist c.view) (hspan : c.view.span s = c.view.span s')
    (arg : Option Value) :
    c.Same ((Eval.parameterValue (Eval.expr d i) rule s q arg).run w)
      ((Eval.parameterValue (Eval.expr d' j) rule s' q' arg).run w') := by
  obtain ⟨hname, hdefault, -⟩ := Parameter.mk.inj hq
  rw [Eval.parameterValue, Eval.parameterValue]
  cases arg.filter (!·.isNil) with
  | some value => exact .pure hw value
  | none =>
    rcases hd : q.default with _ | e <;> rcases hd' : q'.default with _ | e' <;>
      rw [hd, hd'] at hdefault
    · refine .fail hw ?_
      simp only [Fault.seen, Name.variableName_eq_of_gist hname, hspan]
    · cases hdefault
    · cases hdefault
    · exact ih.expr hw hs (Option.some.inj hdefault)

/-- Parameters are set to the same values in two fresh scopes, inside scopes that
are alike. What comes after them finds the fresh scopes alike. -/
theorem bindParameters_bind (ih : c.EvaluatorSame d d') {a b : ScopeId}
    {params params' : List Parameter} {rule : String} {s s' : Span} {f g : Unit → Eval α}
    (ha : i < a) (hb : j < b) (hspan : c.view.span s = c.view.span s')
    (hf : ∀ u u', c.InStep u u' → u.store.Alike c.view u'.store a b →
      c.Same ((f ()).run u) ((g ()).run u'))
    (hparams : params.map (Parameter.gist c.view) = params'.map (Parameter.gist c.view))
    (args : List Value) (hw : c.InStep w w') (hs : w.store.Alike c.view w'.store i j)
    (hab : w.store.Alike c.view w'.store a b) :
    c.Same ((Eval.bindParameters (Eval.expr d i) rule s a params args >>= f).run w)
      ((Eval.bindParameters (Eval.expr d' j) rule s' b params' args >>= g).run w') := by
  have hconf := Confined.parameterValue ((evaluatorConfined d).expr i) rule s
  have hconf' := Confined.parameterValue ((evaluatorConfined d').expr j) rule s'
  induction params generalizing params' args w w' with
  | nil =>
    obtain rfl := List.map_eq_nil_iff.1 hparams.symm
    exact hf w w' hw hab
  | cons q qs ihqs =>
    obtain ⟨q', qs', rfl, hq, hqs⟩ := List.map_eq_cons_iff.1 hparams.symm
    have hname := Name.variableName_eq_of_gist (Parameter.mk.inj hq.symm).1
    rw [Eval.bindParameters, Eval.bindParameters, bind_assoc, bind_assoc]
    refine .bind_grows (hconf q _) (hconf' q' _) (ih.parameterValue hw hs hq.symm hspan _)
      fun value u u' hu hu' hstep => ?_
    rw [bind_assoc, bind_assoc, hname]
    -- the variable is set in the fresh scopes, which lie further in than those of the defaults
    refine .setVariable_bind hstep fun hstep => ihqs hqs.symm args.tail hstep ?_ ?_
    · exact (hs.of_confined hu hu').of_grows .of_setVariable .of_setVariable
        (fun k hk => Option.some.inj hk ▸ ha) fun k hk => Option.some.inj hk ▸ hb
    · exact (hab.of_confined hu hu').setVariable _ value

/-- At-rules of one gist have **only parameters** of one gist, or none on both sides. -/
theorem onlyParameter_bind {a a' : AtRule} {f g : Expr → Eval α} (hw : c.InStep w w')
    (ha : a.gist c.view = a'.gist c.view)
    (hf : ∀ e e', e.gist c.view = e'.gist c.view → c.Same ((f e).run w) ((g e').run w')) :
    c.Same ((Eval.onlyParameter a >>= f).run w) ((Eval.onlyParameter a' >>= g).run w') := by
  obtain ⟨hname, hparams, -, hspan⟩ := AtRule.gist_eq_iff.1 ha
  have hlength := congrArg List.length hparams
  simp only [List.length_map] at hlength
  have hfault : ∀ es es' : List Expr, es.length = es'.length →
      c.Same ((Process.fail (.invalidAtRule a.name.text (.parameterCount es.length) a.span)
          >>= f : Eval α).run w)
        ((Process.fail (.invalidAtRule a'.name.text (.parameterCount es'.length) a'.span)
          >>= g : Eval α).run w') := by
    intro es es' hes
    refine .failed ⟨?_, hw⟩
    simp only [Fault.seen, Name.text_eq_of_seen hname, hes, hspan]
  rw [Eval.onlyParameter, Eval.onlyParameter]
  rcases hp : a.parameters with _ | ⟨e, _ | ⟨e₁, es⟩⟩ <;>
    rcases hp' : a'.parameters with _ | ⟨e', _ | ⟨e₁', es'⟩⟩ <;>
    rw [hp, hp'] at hparams hlength <;> try cases hlength
  · exact hfault [] [] rfl
  · exact hf e e' (List.cons.inj hparams).1
  · exact hfault (e :: e₁ :: es) (e' :: e₁' :: es') hlength

/-- At-rules of one gist have **blocks** of one gist, or none on both sides. -/
theorem requiredBody_bind {a a' : AtRule} {f g : List Statement → Eval α} (hw : c.InStep w w')
    (ha : a.gist c.view = a'.gist c.view)
    (hf : ∀ sts sts', Statement.gists c.view sts = Statement.gists c.view sts' →
      c.Same ((f sts).run w) ((g sts').run w')) :
    c.Same ((Eval.requiredBody a >>= f).run w) ((Eval.requiredBody a' >>= g).run w') := by
  obtain ⟨hname, -, hbody, hspan⟩ := AtRule.gist_eq_iff.1 ha
  rw [Eval.requiredBody, Eval.requiredBody]
  rcases hb : a.body with _ | body <;> rcases hb' : a'.body with _ | body' <;>
    rw [hb, hb'] at hbody
  · refine .failed ⟨?_, hw⟩
    simp only [Fault.seen, Name.text_eq_of_seen hname, hspan]
  · cases hbody
  · cases hbody
  · exact hf body body' (Option.some.inj hbody)

/-! #### The three functions, one step deeper -/

/-- **Expressions** of one gist go the same. -/
theorem expr_succ (ih : c.EvaluatorSame d d') {e e' : Expr} (hw : c.InStep w w')
    (hs : w.store.Alike c.view w'.store i j) (he : e.gist c.view = e'.gist c.view) :
    c.Same ((Eval.expr (d + 1) i e).run w) ((Eval.expr (d' + 1) j e').run w') := by
  have hconf := (evaluatorConfined d).expr i
  have hconf' := (evaluatorConfined d').expr j
  cases e <;> cases e' <;>
    simp only [Expr.gist, reduceCtorEq, Expr.literal.injEq, Expr.bare.injEq, Expr.deref.injEq,
      Expr.call.injEq, Expr.unary.injEq, Expr.binary.injEq] at he
  case literal.literal value s value' s' =>
    obtain ⟨rfl, -⟩ := he
    rw [Eval.expr, Eval.expr]
    exact .pure hw _
  case bare.bare name name' =>
    rw [Eval.expr, Eval.expr]
    refine .store_bind (.fail hw ?_)
    simp only [Fault.seen, Name.text_eq_of_seen he, Eval.usage_eq hs he, Name.span_eq_of_seen he]
  case deref.deref name s name' s' =>
    rw [Eval.expr, Eval.expr]
    exact .store_bind (.ofExcept hw (Eval.variableValue_seen hs he.1 he.2))
  case call.call name args s name' args' s' =>
    obtain ⟨hname, hargs, hspan⟩ := he
    rw [Expr.gists_eq_map, Expr.gists_eq_map] at hargs
    rw [Eval.expr, Eval.expr]
    refine .bind (.arguments hconf args) (.arguments hconf' args') hs (ih.arguments hw hs hargs)
      fun values u u' hu hstep => ?_
    -- the callee is looked up after the arguments, from scopes that are still alike
    refine .resolve_bind hstep hu hname (fun r a r' b hr hab => ?_) fun b => ?_
    · exact ih.invoke values hstep hab hr hspan
    · exact .callBuiltin hstep b values hspan
  case unary.unary op operand s op' operand' s' =>
    obtain ⟨rfl, hoperand, hspan⟩ := he
    rw [Eval.expr, Eval.expr]
    refine .bind_run (ih.expr hw hs hoperand) fun value u u' _ _ hstep => ?_
    exact .ofExcept hstep (Operator.unary_seen hspan op value)
  case binary.binary op left right s op' left' right' s' =>
    obtain ⟨rfl, hleft, hright, hspan⟩ := he
    rw [Eval.expr.eq_def, Eval.expr.eq_def]
    dsimp only
    split
    · -- a logical operator: both left operands have one value, so both or neither decide
      refine .bind (.condition hconf _ left) (.condition hconf' _ left') hs
        (ih.condition _ hw hs hleft) fun b u u' hu hstep => ?_
      cases b with
      | false => exact .pure hstep _
      | true => exact .bind_run (ih.condition _ hstep hu hright) fun b z z' _ _ hz => .pure hz _
    · refine .bind (.condition hconf _ left) (.condition hconf' _ left') hs
        (ih.condition _ hw hs hleft) fun b u u' hu hstep => ?_
      cases b with
      | true => exact .pure hstep _
      | false => exact .bind_run (ih.condition _ hstep hu hright) fun b z z' _ _ hz => .pure hz _
    · refine .bind (hconf left) (hconf' left') hs (ih.expr hw hs hleft) fun x u u' hu hstep => ?_
      refine .bind_run (ih.expr hstep hu hright) fun y z z' _ _ hz => ?_
      exact .ofExcept hz (Operator.binary_seen hspan _ x y)

/-- **At-rules** of one gist go the same. -/
theorem atRule_succ (ih : c.EvaluatorSame d d') {a a' : AtRule} (hw : c.InStep w w')
    (hs : w.store.Alike c.view w'.store i j) (ha : a.gist c.view = a'.gist c.view) :
    c.Same ((Eval.statement (d + 1) i (.atRule a)).run w)
      ((Eval.statement (d' + 1) j (.atRule a')).run w') := by
  obtain ⟨hname, -, hbody, hspan⟩ := AtRule.gist_eq_iff.1 ha
  have htext := Name.text_eq_of_seen hname
  rw [Eval.statement, Eval.statement, htext]
  split
  · refine onlyParameter_bind hw ha fun e e' he => ?_
    refine requiredBody_bind hw ha fun body body' hsts => ?_
    refine .bind ((evaluatorConfined d).expr i e) ((evaluatorConfined d').expr j e') hs
      (ih.expr hw hs he) fun value u u' hu hstep => ?_
    split
    · -- the block runs in fresh scopes, whose numbers differ and which are alike
      refine .addScope_bind hstep hu fun a b z z' _ _ _ hab hz => ?_
      exact ih.sequence hz hab hsts .nil
    · exact .pure hstep _
    · exact .fail hstep (by simp only [Fault.seen, Expr.span_eq_of_gist he])
  · split
    · rcases hb : a.body with _ | body <;> rcases hb' : a'.body with _ | body' <;>
        rw [hb, hb'] at hbody
      · refine onlyParameter_bind hw ha fun e e' he => ?_
        refine .bind_run (ih.expr hw hs he) fun value u u' _ _ hstep => ?_
        exact .record_bind hstep rfl fun hstep => .pure hstep _
      · cases hbody
      · cases hbody
      · exact .fail hw (by simp only [Fault.seen, hspan])
    · exact .fail hw (by simp only [Fault.seen, Name.span_eq_of_seen hname])

/-- **Declarations** of one gist go the same. -/
theorem declaration_succ (ih : c.EvaluatorSame d d') {p p' : Declaration} (hw : c.InStep w w')
    (hs : w.store.Alike c.view w'.store i j) (hp : p.gist c.view = p'.gist c.view) :
    c.Same ((Eval.statement (d + 1) i (.declaration p)).run w)
      ((Eval.statement (d' + 1) j (.declaration p')).run w') := by
  have hconf := (evaluatorConfined d).expr i
  have hconf' := (evaluatorConfined d').expr j
  obtain ⟨hname, hvalues, hspan⟩ := Declaration.mk.inj hp
  have htext := Name.text_eq_of_seen hname
  have hdashes : p.property.isVariable = p'.property.isVariable := congrArg Name.hasDashes htext
  have hvariable : p.property.variableName = p'.property.variableName :=
    congrArg Name.withoutDashes htext
  rw [Eval.statement, Eval.statement, hdashes]
  split
  · rcases hv : p.values with _ | ⟨e, _ | ⟨e₁, es⟩⟩ <;>
      rcases hv' : p'.values with _ | ⟨e', _ | ⟨e₁', es'⟩⟩ <;>
      rw [hv, hv'] at hvalues <;> try cases congrArg List.length hvalues
    · exact .fail hw (by simp only [Fault.seen, htext, hspan])
    · refine .bind_run (ih.expr hw hs (List.cons.inj hvalues).1) fun value u u' _ _ hstep => ?_
      rw [hvariable]
      exact .setVariable_bind hstep fun hstep => .pure hstep _
    · have hlength := congrArg List.length hvalues
      simp only [List.length_map] at hlength
      exact .fail hw (by simp only [Fault.seen, htext, hlength, hspan])
  · -- the callee is found first; the scopes that hold it stay alike while arguments are evaluated
    refine .resolve_bind hw hs hname (fun r a r' b hr hab => ?_) fun b => ?_
    · refine .bind (.arguments hconf p.values) (.arguments hconf' p'.values) hab
        (ih.arguments hw hs hvalues) fun values u u' hu hstep => ?_
      exact .bind_run (ih.invoke values hstep hu hr hspan) fun value z z' _ _ hz => .pure hz _
    · refine .bind_run (ih.arguments hw hs hvalues) fun values u u' _ _ hstep => ?_
      exact .bind_run (.callBuiltin hstep b values hspan) fun value z z' _ _ hz => .pure hz _

theorem statement_succ (ih : c.EvaluatorSame d d') {st st' : Statement} (hw : c.InStep w w')
    (hs : w.store.Alike c.view w'.store i j) (hst : st.gist c.view = st'.gist c.view) :
    c.Same ((Eval.statement (d + 1) i st).run w) ((Eval.statement (d' + 1) j st').run w') := by
  cases st <;> cases st' <;>
    simp only [Statement.gist, reduceCtorEq, Statement.rule.injEq, Statement.declaration.injEq,
      Statement.atRule.injEq] at hst
  case declaration.declaration p p' => exact ih.declaration_succ hw hs hst
  case atRule.atRule a a' => exact ih.atRule_succ hw hs hst
  case rule.rule r r' =>
    rw [Eval.statement, Eval.statement]
    exact .define_bind hw hs hst fun u u' hstep _ => .pure hstep _

/-- **Calls** of rules of one gist go the same. -/
theorem invoke_succ (ih : c.EvaluatorSame d d') {r r' : Rule} {s s' : Span} (args : List Value)
    (hw : c.InStep w w') (hs : w.store.Alike c.view w'.store i j)
    (hr : r.gist c.view = r'.gist c.view) (hspan : c.view.span s = c.view.span s') :
    c.Same ((Eval.invoke (d + 1) r i args s).run w)
      ((Eval.invoke (d' + 1) r' j args s').run w') := by
  obtain ⟨hselector, hbody⟩ := Rule.gist_eq_iff.1 hr
  obtain ⟨-, hparams, -⟩ := Selector.gist_eq_iff.1 hselector
  have hname := Rule.name_eq hr
  have hlength := congrArg List.length hparams
  simp only [List.length_map] at hlength
  rw [Eval.invoke, Eval.invoke, hname]
  refine .record_bind hw rfl fun hw => ?_
  dsimp only
  rw [hlength]
  split
  · exact .fail hw (by simp only [Fault.seen, hspan])
  · refine .addScope_bind hw hs fun a b u u' ha hb hu hab hstep => ?_
    refine bindParameters_bind ih ha hb hspan (fun z z' hz hab => ?_) hparams args hstep hu hab
    refine .bind_run (ih.sequence hz hab hbody .nil) fun flow y y' _ _ hy => ?_
    cases flow with
    | next value => exact .pure hy _
    | returned value => exact .record_bind hy rfl fun hy => .pure hy _

end EvaluatorSame

/-- **The evaluator depends on likeness only**, by induction on the depth. Where
the second run is not given more depth than the first, they are exhausted
together. -/
theorem evaluatorSame {d d' : Nat} (h : Depths c.ahead d d') : c.EvaluatorSame d d' := by
  induction h with
  | zero =>
    refine ⟨fun hw _ _ => ?_, fun hw _ _ => ?_, fun _ hw _ _ _ => ?_⟩
    · rw [Eval.expr, Eval.expr]
      exact .exhausted hw
    · rw [Eval.statement, Eval.statement]
      exact .exhausted hw
    · rw [Eval.invoke, Eval.invoke]
      exact .exhausted hw
  | behind hahead =>
    refine ⟨fun _ _ _ => ?_, fun _ _ _ => ?_, fun _ _ _ _ _ => ?_⟩
    · rw [Eval.expr]
      exact .behind hahead
    · rw [Eval.statement]
      exact .behind hahead
    · rw [Eval.invoke]
      exact .behind hahead
  | succ _ ih => exact ⟨ih.expr_succ, ih.statement_succ, ih.invoke_succ⟩

/-! ### Programs -/

/-- Items of one gist are **registered** alike. -/
theorem register_bind {items items' : List Item} {f g : Unit → Eval α}
    (hitems : items.map (Item.gist c.view) = items'.map (Item.gist c.view)) (hw : c.InStep w w')
    (hs : w.store.Alike c.view w'.store i j)
    (hf : ∀ u u', c.InStep u u' → u.store.Alike c.view u'.store i j →
      c.Same ((f ()).run u) ((g ()).run u')) :
    c.Same ((Eval.register i items >>= f).run w) ((Eval.register j items' >>= g).run w') := by
  induction items generalizing items' w w' with
  | nil =>
    obtain rfl := List.map_eq_nil_iff.1 hitems.symm
    exact hf w w' hw hs
  | cons item items ih =>
    obtain ⟨item', items', rfl, hitem, hmore⟩ := List.map_eq_cons_iff.1 hitems.symm
    cases item <;> cases item' <;>
      simp only [Item.gist, reduceCtorEq, Item.rule.injEq, Item.atRule.injEq] at hitem
    case rule.rule r r' =>
      rw [Eval.register, Eval.register, bind_assoc, bind_assoc]
      exact .define_bind hw hs hitem.symm fun u u' hstep hu => ih hmore.symm hstep hu
    case atRule.atRule a a' =>
      obtain ⟨hname, -, -, hspan⟩ := AtRule.gist_eq_iff.1 hitem.symm
      rw [Eval.register, Eval.register, Name.text_eq_of_seen hname]
      refine .failed ⟨?_, hw⟩
      simp only [Fault.seen, hspan]

/-- **Programs of one gist** do the same. -/
theorem program_same {p q : Program} {d d' : Nat} (h : Depths c.ahead d d')
    (hitems : p.items.map (Item.gist c.view) = q.items.map (Item.gist c.view))
    (hw : c.InStep w w') :
    c.Same ((Eval.program d p).run w) ((Eval.program d' q).run w') := by
  have hlength := congrArg List.length hitems
  simp only [List.length_map] at hlength
  refine .addRoot_bind hw fun i j u u' hu hstep => ?_
  refine register_bind hitems hstep hu fun u u' hstep hu => .store_bind ?_
  obtain ⟨hleft, hright⟩ | ⟨r, a, r', b, hleft, hright, hr, hab⟩ := hu.rule? Eval.mainName
  · rw [hleft, hright]
    exact .fail hstep rfl
  · obtain ⟨hselector, -⟩ := Rule.gist_eq_iff.1 hr
    obtain ⟨-, -, hspan⟩ := Selector.gist_eq_iff.1 hselector
    rw [hleft, hright, hlength]
    exact .record_bind hstep rfl fun hstep =>
      (evaluatorSame h).invoke [] hstep hab hr hspan

end Comparison

end RuleScript
