import RuleScript.Proofs.Binding
import RuleScript.Proofs.Isolation

/-!
# Calling a rule

A call evaluates what its parameters need, one after another, and then runs the body of the rule in
a scope that holds the values. The scope is added **before** the defaults of parameters are
evaluated, and is filled while they are. Nothing of that can be noticed: a call does the same as if
all values were there first, and the scope was added for them afterwards.

* `Eval.InTurn` and `Eval.ComesTo`: parts that are done one after another, and the part they stop
  at.
* `Parameter.Draws`, `Parameter.Supplies`: how parameters come by their values, in worlds that have
  no scope for the call.
* `Rule.Concludes`: what the statements of a body make of a call.
* `Eval.Beside`: the world with the scope for the call beside the one without it.
* `parameter_binding`: what a call does.
-/

namespace RuleScript

/-! ### Parts that are done in turn -/

namespace Eval

variable {ι α : Type}

/-- Parts are **done in turn**: each has a result, and the next one begins where it ended. -/
inductive InTurn (step : ι → World → α → World → Prop) :
    List ι → World → List α → World → Prop where
  /-- there are no parts -/
  | nil {w} : InTurn step [] w [] w
  /-- a part, and those after it -/
  | cons {x xs w a w₁ as w'} (first : step x w a w₁) (more : InTurn step xs w₁ as w') :
    InTurn step (x :: xs) w (a :: as) w'

/-- A part is **come to** in some world, if those before it are done in turn. -/
inductive ComesTo (step : ι → World → α → World → Prop) :
    List ι → World → ι → World → Prop where
  /-- the first part -/
  | first {x xs w} : ComesTo step (x :: xs) w x w
  /-- a later one -/
  | later {x xs w a w₁ y u} (done : step x w a w₁) (more : ComesTo step xs w₁ y u) :
    ComesTo step (x :: xs) w y u

end Eval

/-! ### Parameters that come by their values -/

/-- How a parameter, with the argument in its place if there is one, **comes by its value**: from
the argument unless that is absent, else from its default, and else it is missing. -/
inductive Parameter.Draws (ev : Expr → Eval Value) (rule : String) (span : Span) :
    Parameter × Option Value → World → Outcome Fault Value → World → Prop where
  /-- an argument that is given and not absent -/
  | argument {q value w} (hnil : value.isNil = false) :
    Draws ev rule span (q, some value) w (.done value) w
  /-- what the default evaluates to -/
  | default {q arg e w o w'} (hnil : ∀ value, arg = some value → value.isNil = true)
    (hdefault : q.default = some e) (hrun : (ev e).run w = (o, w')) :
    Draws ev rule span (q, arg) w o w'
  /-- nothing -/
  | missing {q arg w} (hnil : ∀ value, arg = some value → value.isNil = true)
    (hdefault : q.default = none) :
    Draws ev rule span (q, arg) w (.failed (.missingParameter q.name.variableName rule span)) w

/-- A parameter comes by a value. -/
def Parameter.Gets (ev : Expr → Eval Value) (rule : String) (span : Span)
    (p : Parameter × Option Value) (w : World) (value : Value) (w' : World) : Prop :=
  Draws ev rule span p w (.done value) w'

/-- The parameters with the arguments in their places. -/
def Parameter.places (params : List Parameter) (args : List Value) :
    List (Parameter × Option Value) :=
  params.mapIdx fun i q => (q, args[i]?)

theorem Parameter.places_cons (q : Parameter) (params : List Parameter) (args : List Value) :
    places (q :: params) args = (q, args.head?) :: places params args.tail := by
  simp [places, List.mapIdx_cons, List.head?_eq_getElem?]

open Eval in
/-- How parameters **come by their values** in turn, up to the first that does not. -/
inductive Parameter.Supplies (ev : Expr → Eval Value) (rule : String) (span : Span)
    (places : List (Parameter × Option Value)) (w : World) :
    Outcome Fault (List Value) → World → Prop where
  /-- they all do -/
  | all {values w'} (h : InTurn (Gets ev rule span) places w values w') :
    Supplies ev rule span places w (.done values) w'
  /-- one fails -/
  | failed {p u fault w'} (h : ComesTo (Gets ev rule span) places w p u)
    (hp : Draws ev rule span p u (.failed fault) w') :
    Supplies ev rule span places w (.failed fault) w'
  /-- one does not come to an end -/
  | exhausted {p u w'} (h : ComesTo (Gets ev rule span) places w p u)
    (hp : Draws ev rule span p u .exhausted w') : Supplies ev rule span places w .exhausted w'

/-! ### Statements that conclude a call -/

/-- A statement ends with a value, and the next one follows. -/
def Statement.Passes (run : Statement → Eval Flow) (st : Statement) (w : World) (value : Value)
    (w' : World) : Prop :=
  (run st).run w = (.done (.next value), w')

open Eval in
/-- What the statements of a rule **make of a call**, in turn, up to the first that does not
pass. -/
inductive Rule.Concludes (run : Statement → Eval Flow) (rule : Rule) (w : World) :
    Outcome Fault Value → World → Prop where
  /-- they all pass, and the value is that of the last one, if there is one -/
  | finished {values w'} (h : InTurn (Statement.Passes run) rule.body w values w') :
    Concludes run rule w (.done (values.getLastD .nil)) w'
  /-- one returns a value -/
  | returned {st u value w'} (h : ComesTo (Statement.Passes run) rule.body w st u)
    (hst : (run st).run u = (.done (.returned value), w')) :
    Concludes run rule w (.done value) (w'.noting (.returned rule.name))
  /-- one fails -/
  | failed {st u fault w'} (h : ComesTo (Statement.Passes run) rule.body w st u)
    (hst : (run st).run u = (.failed fault, w')) : Concludes run rule w (.failed fault) w'
  /-- one does not come to an end -/
  | exhausted {st u w'} (h : ComesTo (Statement.Passes run) rule.body w st u)
    (hst : (run st).run u = (.exhausted, w')) : Concludes run rule w .exhausted w'

namespace Eval

/-- Statements in order pass **in turn**, or end as the first that does not pass. -/
theorem sequence_cases (run : Statement → Eval Flow) (last : Value) (sts : List Statement)
    (w : World) :
    (∃ values w', InTurn (Statement.Passes run) sts w values w' ∧
      (sequence run last sts).run w = (.done (.next (values.getLastD last)), w')) ∨
    ∃ st u, ComesTo (Statement.Passes run) sts w st u ∧ (∀ value w', ¬st.Passes run u value w') ∧
      (sequence run last sts).run w = (run st).run u := by
  induction sts generalizing last w with
  | nil => exact .inl ⟨[], w, .nil, rfl⟩
  | cons st sts ih =>
    by_cases hpass : ∃ value w₁, st.Passes run w value w₁
    · obtain ⟨value, w₁, hvalue⟩ := hpass
      rw [sequence, Process.run_bind_done hvalue]
      obtain ⟨values, w', hmore, hrun⟩ | ⟨st', u, hmore, hstop, hrun⟩ := ih value w₁
      · refine .inl ⟨value :: values, w', .cons hvalue hmore, ?_⟩
        rw [hrun, List.getLastD_cons]
      · exact .inr ⟨st', u, .later hvalue hmore, hstop, hrun⟩
    · have hstop : ∀ value w', ¬st.Passes run w value w' := fun value w' h => hpass ⟨value, w', h⟩
      refine .inr ⟨st, w, .first, hstop, ?_⟩
      rw [sequence, Process.run_bind]
      rcases hrun : (run st).run w with ⟨(value | value) | fault | _, w₁⟩
      · exact absurd hrun (hstop value w₁)
      · rfl
      · rfl
      · rfl

/-- A body that is run and left **concludes** the call. -/
theorem concludes_of_body (run : Statement → Eval Flow) (rule : Rule) (w : World) :
    let ends := (sequence run .nil rule.body >>= leave rule.name).run w
    rule.Concludes run w ends.1 ends.2 := by
  obtain ⟨values, w', hpass, hrun⟩ | ⟨st, u, hcomes, hstop, hrun⟩ :=
    sequence_cases run .nil rule.body w
  · rw [Process.run_bind_done hrun]
    exact .finished hpass
  · rw [Process.run_bind, hrun]
    rcases hst : (run st).run u with ⟨(value | value) | fault | _, w'⟩
    · exact absurd hst (hstop value w')
    · exact .returned hcomes hst
    · exact .failed hcomes hst
    · exact .exhausted hcomes hst

end Eval

/-! ### With and without the scope for the call -/

/-- A world **shows** the same as another if the same was printed and recorded. -/
structure World.Shows (w u : World) : Prop where
  sink : w.sink = u.sink
  events : w.events = u.events

namespace Eval

/-- A world **beside** another: it shows the same and holds the same from a scope on outward. It may
have more scopes. -/
structure Beside (holder : ScopeId) (w u : World) : Prop where
  shows : u.Shows w
  alike : w.store.Alike .exact u.store holder holder

namespace Beside

variable {holder scope : ScopeId} {w u : World}

/-- Adding the scope for a call leaves the world beside the one without it. -/
theorem entering (hholder : holder < w.store.frames.size) : Beside holder w (w.entering holder) :=
  ⟨⟨rfl, rfl⟩, (Store.Alike.of_sameChain (.refl hholder)).of_confined (.refl _) (.of_add _)⟩

/-- What is set in a scope further in is not noticed. -/
theorem setVariable (h : Beside holder w u) (hscope : holder < scope) (name : String)
    (value : Value) :
    Beside holder w ⟨u.store.setVariable scope name value, u.sink, u.events⟩ := by
  have hsame : w.store.Grows none w.store := .refl _
  refine ⟨⟨h.shows.sink, h.shows.events⟩, h.alike.of_grows hsame .of_setVariable nofun ?_⟩
  rintro k ⟨rfl⟩
  exact hscope

/-- A parameter comes by its value in the same way in both worlds. -/
theorem parameterValue (h : Beside holder w u) (depth : Nat) (rule : String) (span : Span)
    (q : Parameter) (arg : Option Value) :
    let x := Eval.parameterValue (expr depth holder) rule span q arg
    (x.run u).1 = (x.run w).1 ∧ Beside holder (x.run w).2 (x.run u).2 := by
  intro x
  have hroom : w.sink.room = u.sink.room := congrArg Sink.room h.shows.sink.symm
  have hsame : SameRun w u (x.run w) (x.run u) :=
    ((evaluatorSame_exactly depth w u).parameterValue (.start hroom) h.alike rfl rfl arg).sameRun
  obtain ⟨houtcome, ⟨out, hout, hout'⟩, es, hes, hes'⟩ := hsame
  have hconfined : Confined none x :=
    .parameterValue ((evaluatorConfined depth).expr holder) rule span q arg
  refine ⟨houtcome.symm, ⟨?_, ?_⟩, h.alike.of_confined (hconfined w) (hconfined u)⟩
  · rw [hout', hout, h.shows.sink]
  · rw [hes', hes, h.shows.events]

end Beside

/-! ### Parameters are bound -/

theorem draws_of_parameterValue (ev : Expr → Eval Value) (rule : String) (span : Span)
    (q : Parameter) (arg : Option Value) (w : World) :
    let ends := (parameterValue ev rule span q arg).run w
    Parameter.Draws ev rule span (q, arg) w ends.1 ends.2 := by
  intro ends
  have hleft : (∀ value, arg = some value → value.isNil = true) →
      Parameter.Draws ev rule span (q, arg) w ends.1 ends.2 := by
    intro hnil
    have hfilter : arg.filter (!·.isNil) = none := by
      rw [Option.filter_eq_none_iff]
      intro value hvalue
      rw [hnil value hvalue]
      decide
    cases hdefault : q.default with
    | some e =>
      refine .default hnil hdefault ?_
      rw [show ends = (ev e).run w by simp only [ends, parameterValue, hfilter, hdefault]]
    | none =>
      rw [show ends = (.failed (.missingParameter q.name.variableName rule span), w) by
        simp only [ends, parameterValue, hfilter, hdefault, Process.run_fail]]
      exact .missing hnil hdefault
  cases arg with
  | none => exact hleft fun value h => absurd h.symm (Option.some_ne_none value)
  | some value =>
    cases hnil : value.isNil with
    | true => exact hleft fun _ h => Option.some.inj h ▸ hnil
    | false =>
      rw [show ends = (.done value, w) by
        simp [ends, parameterValue, Option.filter, hnil]]
      exact .argument hnil

/-- Parameters are **bound** in the scope for the call as they come by their values without it. -/
theorem bindParameters_supplies {holder scope : ScopeId} {w u : World} {f : Frame}
    (h : Beside holder w u) (hscope : holder < scope) (hf : u.store.frames[scope]? = some f)
    (depth : Nat) (rule : String) (span : Span) (params : List Parameter) (args : List Value) :
    ∃ o w' u', Parameter.Supplies (expr depth holder) rule span (Parameter.places params args) w o
        w' ∧
      Beside holder w' u' ∧
      let run := (bindParameters (expr depth holder) rule span scope params args).run u
      match o with
      | .done values => run = (.done (), u') ∧ u'.store.frames[scope]? =
          some (f.setting ((params.map (·.name.variableName)).zip values))
      | .failed fault => run = (.failed fault, u')
      | .exhausted => run = (.exhausted, u') := by
  induction params generalizing w u f args with
  | nil =>
    refine ⟨_, w, u, .all .nil, h, rfl, ?_⟩
    rw [hf, List.map_nil, List.zip_nil_left, Frame.setting, Std.ExtTreeMap.insertMany_nil]
  | cons q params ih =>
    let ev := expr depth holder
    have hdraws := draws_of_parameterValue ev rule span q args.head? w
    have hgrows := Confined.parameterValue ((evaluatorConfined depth).expr holder) rule span q
      args.head? u
    obtain ⟨houtcome, hbeside⟩ := h.parameterValue depth rule span q args.head?
    rw [Parameter.places_cons]
    rcases hx : (parameterValue ev rule span q args.head?).run w with ⟨value | fault | _, w₁⟩ <;>
      rcases hy : (parameterValue ev rule span q args.head?).run u with ⟨_ | _ | _, u₁⟩ <;>
      rw [hx, hy] at houtcome hbeside <;> rw [hx] at hdraws <;> rw [hy] at hgrows <;>
      cases houtcome
    · -- the value is set in the scope for the call, where no default can see it
      have hkept := hgrows.same (Option.some_ne_none scope).symm hf
      have hset := Store.getElem?_setVariable q.name.variableName value hkept
      obtain ⟨o, w', u', hsupplies, hbeside', hmore⟩ :=
        ih (hbeside.setVariable hscope q.name.variableName value) hset args.tail
      have hrun : (bindParameters ev rule span scope (q :: params) args).run u =
          (bindParameters ev rule span scope params args.tail).run
            ⟨u₁.store.setVariable scope q.name.variableName value, u₁.sink, u₁.events⟩ := by
        rw [bindParameters, Process.run_bind_done hy]
        exact Process.run_bind_done rfl _
      cases hsupplies with
      | all hall =>
        obtain ⟨hmore, hframe⟩ := hmore
        refine ⟨_, w', u', .all (.cons hdraws hall), hbeside', hrun.trans hmore, ?_⟩
        rw [hframe, List.map_cons, List.zip_cons_cons, Frame.setting, Frame.setting,
          Std.ExtTreeMap.insertMany_cons]
      | failed hcomes hp =>
        exact ⟨_, w', u', .failed (.later hdraws hcomes) hp, hbeside', hrun.trans hmore⟩
      | exhausted hcomes hp =>
        exact ⟨_, w', u', .exhausted (.later hdraws hcomes) hp, hbeside', hrun.trans hmore⟩
    · exact ⟨_, w₁, u₁, .failed .first hdraws, hbeside, Process.run_bind_failed hy _⟩
    · exact ⟨_, w₁, u₁, .exhausted .first hdraws, hbeside, Process.run_bind_exhausted hy _⟩

end Eval

/-! ### What a call does -/

/-- What is set **last** under a name is there, or else what was there before. -/
theorem Frame.getElem?_setting (f : Frame) (bindings : List (String × Value)) (name : String) :
    (f.setting bindings).values[name]? = (bindings.reverse.lookup name).or f.values[name]? := by
  induction bindings using List.reverseRecOn with
  | nil =>
    rw [setting, Std.ExtTreeMap.insertMany_nil]
    rfl
  | append_singleton bindings b ih =>
    rw [setting, Std.ExtTreeMap.insertMany_append, Std.ExtTreeMap.insertMany_cons,
      Std.ExtTreeMap.insertMany_nil, Std.ExtTreeMap.getElem?_insert, List.reverse_concat,
      List.lookup_cons]
    by_cases hname : b.1 = name
    · rw [if_pos (Std.compare_eq_iff_eq.2 hname), beq_iff_eq.2 hname.symm]
      rfl
    · rw [if_neg (Std.compare_eq_iff_eq.not.2 hname), beq_eq_false_iff_ne.2 (Ne.symm hname)]
      exact ih

open Eval in
/-- **What a call does**, for every rule, every scope that holds it and all arguments. If there are
more arguments than parameters it fails, and has done nothing but to record the call.

Otherwise the parameters come by their values in turn, each from the argument in its place, or if
that is left out or absent from its default, in worlds that have **no scope for the call**: so no
default sees a parameter of this call. The first parameter that fails decides the fault, and what
was printed and recorded until then is all that was.

If all of them have values, the body runs in a scope that was not there before, inside the scope
that holds the rule. It has no rules and exactly the parameters for variables, the last one where
two are of one name, and no other scope has changed. The value is the one returned, or that of the
last statement, or absent if there is none. -/
theorem parameter_binding (depth : Nat) (rule : Rule) (holder : ScopeId) (args : List Value)
    (span : Span) (w : World) (hholder : holder < w.store.frames.size) :
    let params := rule.selector.parameters
    let called := w.noting (.invokingRule rule.name args.length)
    let scope := w.store.frames.size
    let run := (invoke (depth + 1) rule holder args span).run w
    (params.length < args.length →
      run = (.failed (.arityMismatch rule.name params.length args.length span), called)) ∧
    (args.length ≤ params.length →
      ∃ o u, Parameter.Supplies (expr depth holder) rule.name span (Parameter.places params args)
          called o u ∧
        match o with
        | .failed fault => run.1 = .failed fault ∧ run.2.Shows u
        | .exhausted => run.1 = .exhausted ∧ run.2.Shows u
        | .done values => ∃ v f, v.Shows u ∧ w.store.Grows none v.store ∧
            v.store.frames[scope]? = some f ∧ f.parent = some holder ∧ f.rules = ∅ ∧
            (∀ name, f.values[name]? =
              ((params.map (·.name.variableName)).zip values).reverse.lookup name) ∧
            rule.Concludes (statement depth scope) v run.1 run.2) := by
  intro params called scope run
  refine ⟨?_, ?_⟩
  · intro htoo
    change (invoke (depth + 1) rule holder args span).run w = _
    rw [invoke_eq_enter, Process.run_bind_done rfl, if_pos htoo]
    rfl
  · intro hargs
    have hframe : (called.entering holder).store.frames[scope]? =
        some (.within (some holder)) := by
      change (w.store.add (some holder)).frames[w.store.frames.size]? = _
      simp [Store.add, Option.filter, hholder]
    obtain ⟨o, u, v, hsupplies, hbeside, hbound⟩ := bindParameters_supplies
      (Beside.entering (w := called) hholder) hholder hframe depth rule.name span params args
    have hrun := invoke_run depth holder span w hargs
    refine ⟨o, u, hsupplies, ?_⟩
    cases o with
    | failed fault =>
      have hends : run = (.failed fault, v) := hrun.trans (Process.run_bind_failed hbound _)
      rw [hends]
      exact ⟨rfl, hbeside.shows⟩
    | exhausted =>
      have hends : run = (.exhausted, v) := hrun.trans (Process.run_bind_exhausted hbound _)
      rw [hends]
      exact ⟨rfl, hbeside.shows⟩
    | done values =>
      obtain ⟨hbound, hf⟩ := hbound
      have hends : run = (sequence (statement depth scope) .nil rule.body >>=
          leave rule.name).run v := hrun.trans (Process.run_bind_done hbound _)
      have hconfined : Confined (some scope)
          (bindParameters (expr depth holder) rule.name span scope params args) :=
        .bindParameters ((evaluatorConfined depth).expr holder) rule.name span params args
      refine ⟨v, _, hbeside.shows, grows_of_entering hconfined hbound, hf, rfl, rfl, ?_, ?_⟩
      · intro name
        rw [Frame.getElem?_setting]
        exact Option.or_none
      · rw [hends]
        exact concludes_of_body _ rule v

open Eval in
/-- In a call of `f[a][b=1]` with 5 and an absent value, `a` is 5 and `b` is its default. -/
theorem parameter_binding_default :
    let a : Parameter := ⟨⟨"a", default⟩, none, default⟩
    let b : Parameter := ⟨⟨"b", default⟩, some (.literal (.int 1) default), default⟩
    let rule : Rule := ⟨⟨⟨"f", default⟩, [a, b], default⟩, [], default⟩
    let w : World := ⟨Store.empty.add none, .empty none, #[]⟩
    0 < w.store.frames.size ∧
    ∃ v f, w.store.Grows none v.store ∧ v.store.frames[1]? = some f ∧ f.parent = some 0 ∧
      f.values["a"]? = some (.int 5) ∧ f.values["b"]? = some (.int 1) ∧
      let run := (invoke 2 rule 0 [.int 5, .nil] default).run w
      rule.Concludes (statement 1 1) v run.1 run.2 := by
  intro a b rule w
  have hnames : rule.selector.parameters.map (·.name.variableName) = ["a", "b"] := by cbv
  have hplaces : Parameter.places rule.selector.parameters [.int 5, .nil] =
      [(a, some (.int 5)), (b, some .nil)] := rfl
  have ha : ∀ {o u u'}, Parameter.Draws (expr 1 0) "f" default (a, some (.int 5)) u o u' →
      o = .done (.int 5) := by
    intro o u u' h
    cases h with
    | argument _ => rfl
    | default hnil => exact absurd (hnil _ rfl) (by decide)
    | missing hnil => exact absurd (hnil _ rfl) (by decide)
  have hb : ∀ {o u u'}, Parameter.Draws (expr 1 0) "f" default (b, some .nil) u o u' →
      o = .done (.int 1) := by
    intro o u u' h
    cases h with
    | argument hnil => exact absurd hnil (by decide)
    | default _ hdefault hrun =>
      cases hdefault
      cases hrun
      rfl
    | missing _ hdefault => cases hdefault
  have hgets : ∀ {p o u u' w}, ComesTo (Parameter.Gets (expr 1 0) "f" default)
        [(a, some (.int 5)), (b, some .nil)] w p u →
      Parameter.Draws (expr 1 0) "f" default p u o u' → ∃ value, o = .done value := by
    intro p o u u' w h hp
    obtain _ | ⟨_, _ | ⟨_, _ | _⟩⟩ := h
    · exact ⟨_, ha hp⟩
    · exact ⟨_, hb hp⟩
  obtain ⟨o, u, hsupplies, hends⟩ :=
    (parameter_binding 1 rule 0 [.int 5, .nil] default w (by decide)).2 (by decide)
  rw [hplaces] at hsupplies
  have hdone : o = .done [.int 5, .int 1] := by
    cases hsupplies with
    | all h =>
      obtain _ | ⟨first, _ | ⟨second, _ | _⟩⟩ := h
      rw [Outcome.done.inj (ha first), Outcome.done.inj (hb second)]
    | failed h hp =>
      obtain ⟨_, hvalue⟩ := hgets h hp
      cases hvalue
    | exhausted h hp =>
      obtain ⟨_, hvalue⟩ := hgets h hp
      cases hvalue
  subst hdone
  obtain ⟨v, f, -, hgrows, hf, hparent, -, hvalues, hconcludes⟩ := hends
  rw [hnames] at hvalues
  exact ⟨by decide, v, f, hgrows, hf, hparent, hvalues "a", hvalues "b", hconcludes⟩

end RuleScript
