import RuleScript.Proofs.Chronicle
import RuleScript.Proofs.Nesting
import RuleScript.Proofs.WellFormed

/-!
# Which variables the parameters of a rule bind

A parameter may be spelled with two dashes in front or without, and it binds the same variable. The
parameters of a rule that was read are spelled differently, and that is **not enough** for them to
bind different variables: `a` and `--a` are two parameters of one variable. No other two are.

* `Name.text_eq_or`: a name is the variable it stands for, or that variable with dashes in front. So
  of three names that stand for one variable, two are the same.
* `Eval.Takes`: the parameters of a rule take their values one after another, and
  `Eval.Takes.frame`, what is then set in the scope of the rule.
* `parameters_read_back`: which parameter is read back, in every call of a rule that was read.
-/

namespace RuleScript

/-! ### Names that stand for one variable -/

namespace Name

/-- A name is spelled **in two ways** for one variable. -/
theorem text_eq_or (n : Name) :
    n.text = n.variableName ∨ n.text = "--" ++ n.variableName := by
  cases h : hasDashes n.text with
  | true => exact .inr (withoutDashes_of_hasDashes h)
  | false => exact .inl (withoutDashes_of_not_hasDashes h).symm

/-- Dashes in front make no difference to the variable. -/
theorem Spelled.variableName_eq {n m : Name} (hn : n.Spelled) (h : n.text = "--" ++ m.text) :
    n.variableName = m.variableName := by
  have hdashes : hasDashes n.text = true := by
    rw [h, hasDashes, String.toList_append]
    rfl
  have htext : n.text = "--" ++ n.variableName := withoutDashes_of_hasDashes hdashes
  have hrest : n.variableName = m.text := (String.append_right_inj "--").1 (htext.symm.trans h)
  have hnone := hn.hasDashes_variableName
  rw [hrest] at hnone ⊢
  exact (withoutDashes_of_not_hasDashes hnone).symm

/-- Of **three names** that stand for one variable, two are spelled the same. -/
theorem text_eq_of_three {a b c : Name} (hb : b.variableName = a.variableName)
    (hc : c.variableName = a.variableName) :
    a.text = b.text ∨ a.text = c.text ∨ b.text = c.text := by
  have ha' := a.text_eq_or
  have hb' := b.text_eq_or
  have hc' := c.text_eq_or
  rw [hb] at hb'
  rw [hc] at hc'
  grind

end Name

namespace Parameter

variable {params : List Parameter}

/-- Parameters that are spelled differently bind **different variables** if and only if none is
spelled as another with dashes in front. -/
theorem nodup_variableName_iff (hspelled : ∀ q ∈ params, q.name.Spelled)
    (htexts : (params.map (·.name.text)).Nodup) :
    (params.map (·.name.variableName)).Nodup ↔
      ∀ q ∈ params, ∀ q' ∈ params, q.name.text ≠ "--" ++ q'.name.text := by
  constructor
  · intro hvariables q hq q' hq' hclash
    have heq := (hspelled q hq).variableName_eq hclash
    obtain rfl := List.inj_on_of_nodup_map hvariables hq hq' heq
    have hlength := congrArg String.length hclash
    rw [String.length_append] at hlength
    exact absurd hlength (by simp)
  · intro hnone
    rw [List.Nodup, List.pairwise_map] at htexts ⊢
    refine htexts.imp_of_mem fun {q q'} hq hq' hne heq => ?_
    have hq'' := q'.name.text_eq_or
    rw [← heq] at hq''
    -- both are the one variable, with dashes or without
    obtain h | h := q.name.text_eq_or <;> obtain h' | h' := hq''
    · exact hne (h.trans h'.symm)
    · exact hnone q' hq' q hq (by rw [h, h'])
    · exact hnone q hq q' hq' (by rw [h, h'])
    · exact hne (h.trans h'.symm)

end Parameter

/-! ### Parameters take their values -/

/-- A scope with variables set in it, one after another. -/
def Frame.setting (f : Frame) (bindings : List (String × Value)) : Frame :=
  ⟨f.values.insertMany bindings, f.rules, f.parent⟩

/-- What is set **last** under a name is what is there. -/
theorem Frame.values_setting {f : Frame} {before after : List (String × Value)} {name : String}
    {value : Value} (h : ∀ b ∈ after, b.1 ≠ name) :
    (f.setting (before ++ (name, value) :: after)).values[name]? = some value := by
  have hlast : (after.map Prod.fst).contains name = false := by
    simpa using fun other hmem => h (name, other) hmem rfl
  rw [setting, Std.ExtTreeMap.insertMany_append, Std.ExtTreeMap.insertMany_cons,
    Std.ExtTreeMap.getElem?_insertMany_list_of_contains_eq_false hlast,
    Std.ExtTreeMap.getElem?_insert_self]

/-- What a scope has itself is what is read there. -/
theorem Store.readVariable_of_own {s : Store} {id : ScopeId} {f : Frame} {name : String}
    {value : Value} (hf : s.frames[id]? = some f) (hvalue : f.values[name]? = some value) :
    s.readVariable id name = .ok value := by
  have hown : s.valueOf? id name = some value := by
    rw [valueOf?, chain_eq, List.findSome?_cons, hf]
    simp [hvalue]
  rw [readVariable, hown]

namespace Eval

/-- Parameters **take** values one after another, each from its argument or from its default, and
each is set before the next. -/
inductive Takes (ev : Expr → Eval Value) (rule : String) (span : Span) (scope : ScopeId) :
    List Parameter → List Value → World → List (Parameter × Value) → World → Prop where
  /-- there are no more -/
  | nil {args w} : Takes ev rule span scope [] args w [] w
  /-- the next one -/
  | cons {q qs args value w w₁ taken w'}
    (hvalue : (parameterValue ev rule span q args.head?).run w = (.done value, w₁))
    (hmore : Takes ev rule span scope qs args.tail
      ⟨w₁.store.setVariable scope q.name.variableName value, w₁.sink, w₁.events⟩ taken w') :
    Takes ev rule span scope (q :: qs) args w ((q, value) :: taken) w'

section Taking

variable {ev : Expr → Eval Value} {rule : String} {span : Span} {scope : ScopeId}
  {params : List Parameter} {args : List Value} {taken : List (Parameter × Value)} {w w' : World}

/-- Parameters are **bound** by taking values. -/
theorem takes_of_bindParameters
    (h : (bindParameters ev rule span scope params args).run w = (.done (), w')) :
    ∃ taken, Takes ev rule span scope params args w taken w' := by
  induction params generalizing args w with
  | nil =>
    cases h
    exact ⟨[], .nil⟩
  | cons q qs ih =>
    rw [bindParameters, Process.run_bind] at h
    rcases hx : (parameterValue ev rule span q args.head?).run w with ⟨value | fault | _, w₁⟩ <;>
      rw [hx] at h
    · obtain ⟨taken, hmore⟩ := ih h
      exact ⟨(q, value) :: taken, .cons hx hmore⟩
    · cases h
    · cases h

namespace Takes

/-- Each parameter takes one value, in order. -/
theorem map_fst (h : Takes ev rule span scope params args w taken w') :
    taken.map Prod.fst = params := by
  induction h with
  | nil => rfl
  | cons _ _ ih => rw [List.map_cons, ih]

/-- An argument that is given and not absent is **the value** of its parameter. -/
theorem given (h : Takes ev rule span scope params args w taken w') {i : Nat} {q : Parameter}
    {value arg : Value} (hi : taken[i]? = some (q, value)) (harg : args[i]? = some arg)
    (hnil : arg.isNil = false) : value = arg := by
  induction h generalizing i with
  | nil => cases hi
  | @cons q' qs args value' w w₁ taken w' hvalue _ ih =>
    cases i with
    | zero =>
      cases hi
      rw [List.head?_eq_getElem?, harg, parameterValue, Option.filter_some, hnil] at hvalue
      cases hvalue
      rfl
    | succ i => exact ih hi (by rwa [List.getElem?_tail])

/-- What is then **set in the scope**, where evaluating a default sets nothing there. -/
theorem frame (h : Takes ev rule span scope params args w taken w')
    (hev : ∀ e, Confined none (ev e)) {f : Frame} (hf : w.store.frames[scope]? = some f) :
    w'.store.frames[scope]? =
      some (f.setting (taken.map fun b => (b.1.name.variableName, b.2))) := by
  induction h generalizing f with
  | nil => rw [hf, List.map_nil, Frame.setting, Std.ExtTreeMap.insertMany_nil]
  | @cons q qs args value w w₁ taken w' hvalue _ ih =>
    -- a default that is evaluated leaves the scope as it is
    have hg := Confined.parameterValue hev rule span q args.head? w
    rw [hvalue] at hg
    have hset := Store.getElem?_setVariable q.name.variableName value (hg.same nofun hf)
    rw [ih hset, List.map_cons, Frame.setting, Frame.setting, Std.ExtTreeMap.insertMany_cons]

end Takes

end Taking

/-- A call with arguments enough binds the parameters in a fresh scope, and then runs the body there
and leaves. -/
theorem invoke_run (depth : Nat) {rule : Rule} (holder : ScopeId) {args : List Value} (span : Span)
    (w : World) (hargs : args.length ≤ rule.selector.parameters.length) :
    (invoke (depth + 1) rule holder args span).run w =
      (bindParameters (expr depth holder) rule.name span w.store.frames.size
          rule.selector.parameters args >>= fun _ =>
        sequence (statement depth w.store.frames.size) .nil rule.body >>= leave rule.name).run
        ((w.noting (.invokingRule rule.name args.length)).entering holder) := by
  rw [invoke_eq_enter, Process.run_bind_done rfl, if_neg (Nat.not_lt.2 hargs), enter, bind_assoc,
    Process.run_bind_done rfl, bind_assoc]
  rfl

/-- Once the parameters are bound, a rule is called by **running its body** there. -/
theorem invoke_run_of_bound {depth : Nat} {rule : Rule} {holder : ScopeId} {args : List Value}
    {span : Span} {w w' : World} (hargs : args.length ≤ rule.selector.parameters.length)
    (hbound : (bindParameters (expr depth holder) rule.name span w.store.frames.size
      rule.selector.parameters args).run
      ((w.noting (.invokingRule rule.name args.length)).entering holder) = (.done (), w')) :
    (invoke (depth + 1) rule holder args span).run w =
      (sequence (statement depth w.store.frames.size) .nil rule.body >>=
        leave rule.name).run w' := by
  rw [invoke_run depth holder span w hargs]
  exact Process.run_bind_done hbound _

end Eval

/-! ### What is read back -/

namespace Eval.Takes

variable {ev : Expr → Eval Value} {rule : String} {span : Span} {scope : ScopeId}
  {params : List Parameter} {args : List Value} {taken before after : List (Parameter × Value)}
  {w w' : World} {f : Frame} {q q' : Parameter} {value value' : Value}

theorem pairwise_text (h : Takes ev rule span scope params args w taken w')
    (htexts : (params.map (·.name.text)).Nodup) :
    taken.Pairwise fun b c => b.1.name.text ≠ c.1.name.text := by
  rw [← h.map_fst, List.map_map, List.Nodup, List.pairwise_map] at htexts
  exact htexts

/-- The **last** parameter of a variable is read back. -/
theorem read_last (h : Takes ev rule span scope params args w taken w')
    (hev : ∀ e, Confined none (ev e)) (hf : w.store.frames[scope]? = some f)
    (htaken : taken = before ++ (q, value) :: after)
    (hlast : ∀ b ∈ after, b.1.name.variableName ≠ q.name.variableName) :
    w'.store.readVariable scope q.name.variableName = .ok value := by
  refine Store.readVariable_of_own (h.frame hev hf) ?_
  rw [htaken, List.map_append, List.map_cons]
  refine Frame.values_setting fun b hb => ?_
  obtain ⟨c, hc, rfl⟩ := List.mem_map.1 hb
  exact hlast c hc

/-- A parameter that is **the only one** of its variable is read back. -/
theorem read_only (h : Takes ev rule span scope params args w taken w')
    (hev : ∀ e, Confined none (ev e)) (hf : w.store.frames[scope]? = some f)
    (htexts : (params.map (·.name.text)).Nodup) (hq : (q, value) ∈ taken)
    (honly : ∀ q' ∈ params, q'.name.variableName = q.name.variableName → q' = q) :
    w'.store.readVariable scope q.name.variableName = .ok value := by
  obtain ⟨before, after, htaken⟩ := List.append_of_mem hq
  refine h.read_last hev hf htaken fun b hb heq => ?_
  have hpairwise := h.pairwise_text htexts
  rw [htaken, List.pairwise_append, List.pairwise_cons] at hpairwise
  have hmem : b.1 ∈ params := by
    rw [← h.map_fst, htaken]
    exact List.mem_map_of_mem (List.mem_append_right _ (.tail _ hb))
  exact hpairwise.2.1.1 b hb (by rw [honly b.1 hmem heq])

/-- Of **two parameters** of one variable, the later is read back. -/
theorem read_later (h : Takes ev rule span scope params args w taken w')
    (hev : ∀ e, Confined none (ev e)) (hf : w.store.frames[scope]? = some f)
    (htexts : (params.map (·.name.text)).Nodup) (hsub : [(q, value), (q', value')].Sublist taken)
    (heq : q'.name.variableName = q.name.variableName) :
    w'.store.readVariable scope q.name.variableName = .ok value' := by
  obtain ⟨before, rest, htaken, hq, hsub⟩ := List.cons_sublist_iff.1 hsub
  obtain ⟨between, after, rfl⟩ := List.append_of_mem (List.singleton_sublist.1 hsub)
  rw [← List.append_assoc] at htaken
  rw [← heq]
  refine h.read_last hev hf htaken fun b hb hthird => ?_
  have hpairwise := h.pairwise_text htexts
  rw [htaken, List.pairwise_append, List.pairwise_cons] at hpairwise
  obtain ⟨-, ⟨hlater, -⟩, hearlier⟩ := hpairwise
  have hq' : (q, value) ∈ before ++ between := List.mem_append_left _ hq
  -- a third parameter of the variable would be spelled as one of the two
  obtain htext | htext | htext := Name.text_eq_of_three heq (hthird.trans heq)
  · exact hearlier _ hq' _ (.head _) htext
  · exact hearlier _ hq' _ (.tail _ hb) htext
  · exact hlater _ hb htext

end Eval.Takes

theorem Program.Has.parameter {p : Program} {r : Rule} {q : Parameter} (hr : p.Has (.rule r))
    (hq : q ∈ r.selector.parameters) : p.Has (.name q.name) := by
  have hselector : p.Has (.selector r.selector) := hr.child (.head _)
  have hparameter : p.Has (.parameter q) := hselector.child (.tail _ (List.mem_map_of_mem hq))
  exact hparameter.child (.head _)

open Eval in
/-- The parameters of a rule that was read, whether at the top or inside another, are **spelled
differently**; they bind different variables **exactly if** none is spelled as another with two
dashes in front. In every call that comes to the body of the rule, each parameter has taken one
value, its argument if that is given and not absent, and the body begins where they are set: a
parameter that is the only one of its variable is read back, and of two parameters of one variable
the earlier is **overwritten** by the later. -/
theorem parameters_read_back (source : String) (p : Program) (h : parse source = .ok p) (r : Rule)
    (hr : p.Has (.rule r)) :
    let params := r.selector.parameters
    (params.map (·.name.text)).Nodup ∧
    ((params.map (·.name.variableName)).Nodup ↔
      ∀ q ∈ params, ∀ q' ∈ params, q.name.text ≠ "--" ++ q'.name.text) ∧
    ∀ depth holder args span w w',
      let scope := w.store.frames.size
      args.length ≤ params.length →
      (bindParameters (expr depth holder) r.name span scope params args).run
        ((w.noting (.invokingRule r.name args.length)).entering holder) = (.done (), w') →
      (invoke (depth + 1) r holder args span).run w =
        (sequence (statement depth scope) .nil r.body >>= leave r.name).run w' ∧
      ∃ taken : List (Parameter × Value), taken.map Prod.fst = params ∧
        (∀ (i : Nat) q value (arg : Value), taken[i]? = some (q, value) → args[i]? = some arg →
          arg.isNil = false → value = arg) ∧
        (∀ q value, (q, value) ∈ taken →
          (∀ q' ∈ params, q'.name.variableName = q.name.variableName → q' = q) →
          w'.store.readVariable scope q.name.variableName = .ok value) ∧
        ∀ q value q' value', [(q, value), (q', value')].Sublist taken →
          q'.name.variableName = q.name.variableName →
          w'.store.readVariable scope q.name.variableName = .ok value' := by
  intro params
  have htexts : (params.map (·.name.text)).Nodup := ((derived_of_parse h _ hr).lawful).2
  have hspelled : ∀ q ∈ params, q.name.Spelled := fun q hq =>
    names_of_parse h (hr.parameter hq) rfl
  refine ⟨htexts, Parameter.nodup_variableName_iff hspelled htexts, ?_⟩
  intro depth holder args span w w' scope hargs hbound
  obtain ⟨taken, htakes⟩ := takes_of_bindParameters hbound
  have hev := (evaluatorConfined depth).expr holder
  have hf : (w.store.add (some holder)).frames[scope]? = some _ := Array.getElem?_push_size
  refine ⟨invoke_run_of_bound hargs hbound, taken, htakes.map_fst, ?_, ?_, ?_⟩
  · exact fun i q value arg hi harg hnil => htakes.given hi harg hnil
  · exact fun q value hq honly => htakes.read_only hev hf htexts hq honly
  · exact fun q value q' value' hsub heq => htakes.read_later hev hf htexts hsub heq

theorem parameters_read_back_two :
    let source := "f[a][--b] \x7b\x7d"
    let w : World := ⟨Store.empty.add none, .empty none, #[]⟩
    let scope := w.store.frames.size
    ∃ p r, parse source = .ok p ∧ p.Has (.rule r) ∧
      (r.selector.parameters.map (·.name.variableName)).Nodup ∧
      ∃ w', (Eval.bindParameters (Eval.expr 1 0) r.name r.span scope r.selector.parameters
          [.int 1, .int 2]).run ((w.noting (.invokingRule r.name 2)).entering 0) = (.done (), w') ∧
        w'.store.readVariable scope "a" = .ok (.int 1) ∧
        w'.store.readVariable scope "b" = .ok (.int 2) := by
  intro source w scope
  let span (start stop : Nat) : Span := ⟨⟨start, 1, start + 1⟩, ⟨stop, 1, stop + 1⟩⟩
  let a : Parameter := ⟨⟨"a", span 2 3⟩, none, span 1 4⟩
  let b : Parameter := ⟨⟨"--b", span 5 8⟩, none, span 4 9⟩
  let r : Rule := ⟨⟨⟨"f", span 0 1⟩, [a, b], span 0 9⟩, [], span 0 12⟩
  let p : Program := ⟨[.rule r]⟩
  have hparse : parse "f[a][--b] \x7b\x7d" = .ok p :=
    parse_of_tokens [.inLine (.name "f") 0 1, .inLine (.symbol .openBracket) 1 2,
      .inLine (.name "a") 2 3, .inLine (.symbol .closeBracket) 3 4,
      .inLine (.symbol .openBracket) 4 5, .inLine (.name "--b") 5 8,
      .inLine (.symbol .closeBracket) 8 9, .inLine (.symbol .openBrace) 10 11,
      .inLine (.symbol .closeBrace) 11 12] (.inLine 12 12) (by with_unfolding_all rfl)
      (by with_unfolding_all rfl)
  have hr : p.Has (.rule r) := ⟨_, .head _, .self _⟩
  obtain ⟨-, hdifferent, hcall⟩ := parameters_read_back source p hparse r hr
  have hnodup : (r.selector.parameters.map (·.name.variableName)).Nodup :=
    hdifferent.2 (by decide)
  obtain ⟨-, taken, hfst, hgiven, honly, -⟩ :=
    hcall 1 0 [.int 1, .int 2] r.span w _ (by decide) rfl
  obtain ⟨⟨q₁, value₁⟩, more, rfl, h₁, hmore⟩ := List.map_eq_cons_iff.1 hfst
  obtain ⟨⟨q₂, value₂⟩, rest, rfl, h₂, -⟩ := List.map_eq_cons_iff.1 hmore
  obtain rfl : q₁ = a := h₁
  obtain rfl : q₂ = b := h₂
  cases hgiven 0 a value₁ (.int 1) rfl rfl rfl
  cases hgiven 1 b value₂ (.int 2) rfl rfl rfl
  have hunique : ∀ q ∈ [a, b], ∀ q' ∈ [a, b],
      q'.name.variableName = q.name.variableName → q' = q :=
    fun q hq q' hq' heq => List.inj_on_of_nodup_map hnodup hq' hq heq
  have ha := honly a _ (.head _) (hunique a (.head _))
  have hb := honly b _ (.tail _ (.head _)) (hunique b (.tail _ (.head _)))
  have hnames : a.name.variableName = "a" ∧ b.name.variableName = "b" := by
    constructor <;> cbv
  exact ⟨p, r, hparse, hr, hnodup, _, rfl, hnames.1 ▸ ha, hnames.2 ▸ hb⟩

/-- A rule with **two parameters that are one variable**, and a main rule that calls it with 1 and
2. -/
def Program.overwriting : Program :=
  let span (start stop : Nat) : Span := ⟨⟨start, 1, start + 1⟩, ⟨stop, 1, stop + 1⟩⟩
  let returning (start : Nat) (e : Expr) : Statement :=
    .atRule ⟨⟨"return", span (start + 1) (start + 7)⟩, [e], none, span start (e.span.stop.pos + 1)⟩
  ⟨[.rule ⟨⟨⟨"f", span 0 1⟩, [⟨⟨"a", span 2 3⟩, none, span 1 4⟩,
      ⟨⟨"--a", span 5 8⟩, none, span 4 9⟩], span 0 9⟩,
      [returning 11 (.deref ⟨"a", span 20 21⟩ (span 19 21))], span 0 23⟩,
    .rule ⟨⟨⟨"main", span 24 28⟩, [], span 24 28⟩,
      [returning 30 (.call ⟨"f", span 38 39⟩ [.literal (.int 1) (span 40 41),
        .literal (.int 2) (span 43 44)] (span 38 45))], span 24 47⟩]⟩

/-- An argument is **lost** where two parameters are one variable: `f` is called with 1 and 2, and 2
is what both of its parameters read. -/
theorem parameters_overwritten :
    let source := "f[a][--a] \x7b@return $a;\x7d main \x7b@return f(1, 2);\x7d"
    ∃ p r, parse source = .ok p ∧ p.Has (.rule r) ∧
      ¬ (r.selector.parameters.map (·.name.variableName)).Nodup ∧
      (p.report 10 (.empty none)).1.outcome = .done (.int 2) := by
  intro source
  have hparse : parse "f[a][--a] \x7b@return $a;\x7d main \x7b@return f(1, 2);\x7d" =
      .ok .overwriting :=
    parse_of_tokens [.inLine (.name "f") 0 1, .inLine (.symbol .openBracket) 1 2,
      .inLine (.name "a") 2 3, .inLine (.symbol .closeBracket) 3 4,
      .inLine (.symbol .openBracket) 4 5, .inLine (.name "--a") 5 8,
      .inLine (.symbol .closeBracket) 8 9, .inLine (.symbol .openBrace) 10 11,
      .inLine (.symbol .at) 11 12, .inLine (.name "return") 12 18, .inLine (.symbol .dollar) 19 20,
      .inLine (.name "a") 20 21, .inLine (.symbol .semicolon) 21 22,
      .inLine (.symbol .closeBrace) 22 23, .inLine (.name "main") 24 28,
      .inLine (.symbol .openBrace) 29 30, .inLine (.symbol .at) 30 31,
      .inLine (.name "return") 31 37, .inLine (.name "f") 38 39, .inLine (.symbol .openParen) 39 40,
      .inLine (.int 1) 40 41, .inLine (.symbol .comma) 41 42, .inLine (.int 2) 43 44,
      .inLine (.symbol .closeParen) 44 45, .inLine (.symbol .semicolon) 45 46,
      .inLine (.symbol .closeBrace) 46 47] (.inLine 47 47) (by with_unfolding_all rfl)
      (by with_unfolding_all rfl)
  have hvalue : (Program.overwriting.report 10 (.empty none)).1.outcome = .done (.int 2) := by
    with_unfolding_all rfl
  exact ⟨.overwriting, _, hparse, ⟨_, .head _, .self _⟩, by decide, hvalue⟩

end RuleScript
