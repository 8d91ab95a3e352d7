import Mathlib.Data.List.Nodup
import Mathlib.Data.List.Perm.Basic
import RuleScript.Proofs.Course
import RuleScript.Proofs.Reports

/-!
# Top-level rules in another order

All rules of a program are defined before the first of them is called. If their names differ, the
scope that holds them declares the same in whatever order they were defined; what follows depends
on that scope and not on the record, so the **order of the rules does not matter**.

* `Store.withRules`: a store with rules added to a scope. It is the same for rules in another order
  (`Store.withRules_perm`).
* `Eval.register_run`: what registering rules of different names does.
* `rule_order_irrelevant`: programs with the same rules, in any order.
-/

namespace RuleScript

/-! ### Rules that are added to a scope -/

/-- A scope with rules added to its own, each under its name. -/
def Frame.withRules (f : Frame) (rules : List Rule) : Frame :=
  ⟨f.values, rules.foldl (fun known r => known.insert r.name r) f.rules, f.parent⟩

theorem Frame.parent_withRules (rules : List Rule) (f : Frame) :
    (f.withRules rules).parent = f.parent := rfl

/-- Rules of different names can be added **in any order**. -/
theorem Frame.withRules_perm {rules rules' : List Rule} (hnames : (rules.map Rule.name).Nodup)
    (hperm : rules.Perm rules') (f : Frame) : f.withRules rules = f.withRules rules' := by
  rw [withRules, withRules, hperm.foldl_eq' ?_ f.rules]
  intro r hr r' hr' known
  by_cases hname : r.name = r'.name
  · rw [List.inj_on_of_nodup_map hnames hr hr' hname]
  · refine Std.ExtTreeMap.ext_getElem? fun key => ?_
    simp only [Std.ExtTreeMap.getElem?_insert, Std.LawfulEqCmp.compare_eq_iff_eq]
    -- at most one of the two names is the one looked for
    split
    · next hkey' =>
      subst hkey'
      rw [if_neg hname]
    · rfl

namespace Store

variable {s : Store} {id : ScopeId} {rules rules' : List Rule}

theorem ext_frames {s t : Store} (h : s.frames = t.frames) : s = t := by
  cases s
  cases t
  congr

/-- A store with rules added to a scope. -/
def withRules (s : Store) (id : ScopeId) (rules : List Rule) : Store :=
  s.modify id (·.withRules rules) (Frame.parent_withRules rules)

theorem frames_withRules (s : Store) (id : ScopeId) (rules : List Rule) :
    (s.withRules id rules).frames = s.frames.modify id (·.withRules rules) := rfl

theorem withRules_nil (s : Store) (id : ScopeId) : s.withRules id [] = s := by
  refine ext_frames (Array.ext_getElem? fun i => ?_)
  rw [frames_withRules, Array.getElem?_modify]
  split
  · exact Option.map_id_apply
  · rfl

/-- Rules are added **one after the other**. -/
theorem withRules_cons (s : Store) (id : ScopeId) (r : Rule) (rules : List Rule) :
    s.withRules id (r :: rules) = (s.withRules id [r]).withRules id rules := by
  refine ext_frames (Array.ext_getElem? fun i => ?_)
  simp only [frames_withRules, Array.getElem?_modify]
  split
  · rw [Option.map_map]
    rfl
  · rfl

/-- Rules of different names are added **in any order**. -/
theorem withRules_perm (hnames : (rules.map Rule.name).Nodup) (hperm : rules.Perm rules')
    (s : Store) (id : ScopeId) : s.withRules id rules = s.withRules id rules' := by
  have hframe : (fun f : Frame => f.withRules rules) = fun f => f.withRules rules' :=
    funext (Frame.withRules_perm hnames hperm)
  refine ext_frames ?_
  rw [frames_withRules, frames_withRules, hframe]

/-- Rules that are added move **no scope**. -/
theorem depth_withRules (s : Store) (id : ScopeId) (rules : List Rule) (i : ScopeId) :
    (s.withRules id rules).depth i = s.depth i :=
  congrArg (List.length · - 1) (chain_modify ..)

/-- To define a rule of which the name is free is **to add it**. -/
theorem define_eq_withRules {r : Rule} (h : s.ownRule? id r.name = none) :
    s.define id r = .ok (s.withRules id [r]) := by
  unfold define
  rw [h]
  rfl

/-- A rule that is added is found under **no other name**. -/
theorem ownRule?_withRules_of_ne {r : Rule} {name : String} (h : r.name ≠ name) :
    (s.withRules id [r]).ownRule? id name = s.ownRule? id name := by
  rw [ownRule?, ownRule?, frames_withRules, Array.getElem?_modify, if_pos rfl]
  cases s.frames[id]? with
  | none => rfl
  | some f =>
    have hkey : compare r.name name ≠ .eq := by rwa [ne_eq, Std.LawfulEqCmp.compare_eq_iff_eq]
    change (f.rules.insert r.name r)[name]? = f.rules[name]?
    rw [Std.ExtTreeMap.getElem?_insert, if_neg hkey]

end Store

/-! ### Registering rules of different names -/

/-- What is recorded when rules are registered in a scope that lies so deep. -/
def Event.registrations (rules : List Rule) (depth : Nat) : List Event :=
  rules.map fun r => .registeredRule r.name depth

/-- **Rules of different names are registered**, all of them, if their names are free. -/
theorem Eval.register_run {rules : List Rule} {root : ScopeId} {w : World}
    (hnames : (rules.map Rule.name).Nodup)
    (hfree : ∀ r ∈ rules, w.store.ownRule? root r.name = none) :
    (register root (rules.map .rule)).run w = (.done (), ⟨w.store.withRules root rules, w.sink,
      w.events ++ Event.registrations rules (w.store.depth root)⟩) := by
  induction rules generalizing w with
  | nil =>
    rw [Store.withRules_nil]
    rfl
  | cons r rules ih =>
    obtain ⟨hr, hnames⟩ := List.nodup_cons.1 hnames
    obtain ⟨hown, hfree⟩ := List.forall_mem_cons.1 hfree
    have hdefine := define_run_of_free (Store.define_eq_withRules hown)
    have hfree' : ∀ r' ∈ rules, (w.store.withRules root [r]).ownRule? root r'.name = none := by
      intro r' hr'
      have hne : r.name ≠ r'.name := fun h => hr (h ▸ List.mem_map_of_mem hr')
      rw [Store.ownRule?_withRules_of_ne hne]
      exact hfree r' hr'
    rw [List.map_cons, register, Process.run_bind_done hdefine, ih hnames hfree',
      Store.depth_withRules, ← Store.withRules_cons]
    simp [Event.registrations]

/-- The world in which the main rule of a program of rules is looked for. -/
def World.holding (rules : List Rule) (sink : Sink) : World :=
  ⟨(Store.empty.add none).withRules 0 rules, sink, (Event.registrations rules 0).toArray⟩

/-- Rules of different names are registered in a world in which nothing is. -/
theorem Eval.register_holding {rules : List Rule} (hnames : (rules.map Rule.name).Nodup)
    (sink : Sink) : (register 0 (rules.map .rule)).run ⟨.add .empty none, sink, #[]⟩ =
      (.done (), .holding rules sink) := by
  have hfree : ∀ r ∈ rules, (Store.empty.add none).ownRule? 0 r.name = none :=
    fun _ _ => Std.ExtTreeMap.getElem?_empty
  rw [register_run hnames hfree, Store.depth_zero]
  simp [World.holding]

/-- A program of rules of different names is run by **calling the main rule** where all of them are
held. -/
theorem Eval.program_run_rules {p : Program} {rules : List Rule}
    (hitems : p.items = rules.map .rule) (hnames : (rules.map Rule.name).Nodup) (depth : Nat)
    (sink : Sink) :
    (program depth p).run (.start sink) =
      match (World.holding rules sink).store.rule? 0 mainName with
      | none => (.failed .missingMain, .holding rules sink)
      | some (rule, holder) => (invoke depth rule holder [] rule.selector.span).run
          ((World.holding rules sink).noting (.invokingMain p.items.length)) := by
  have hregister : (register 0 p.items).run ⟨.add .empty none, sink, #[]⟩ =
      (.done (), .holding rules sink) := by
    rw [hitems, register_holding hnames]
  have hrun := program_run depth p sink
  rw [hregister] at hrun
  exact hrun

/-! ### Programs with the same rules -/

/-- What has the items of rules in another order has **rules in another order**. -/
theorem Program.rules_of_perm {p q : Program} {rules : List Rule}
    (hitems : p.items = rules.map .rule) (hperm : p.items.Perm q.items) :
    ∃ rules' : List Rule, q.items = rules'.map .rule ∧ rules.Perm rules' := by
  have hrules : List.Forall₂ (fun i r => i = .rule r) p.items rules := by
    rw [hitems, List.forall₂_map_left_iff, List.forall₂_same]
    exact fun _ _ => rfl
  obtain ⟨rules', hq, hperm'⟩ := List.perm_comp_forall₂ hperm.symm hrules
  rw [← List.forall₂_map_right_iff, List.forall₂_eq_eq_eq] at hq
  exact ⟨rules', hq, hperm'.symm⟩

/-- The main rule does the same where the same rules were registered in another order, and goes on
with the record from there. -/
theorem Eval.program_perm {p q : Program} {rules : List Rule} (hitems : p.items = rules.map .rule)
    (hnames : (rules.map Rule.name).Nodup) (hperm : p.items.Perm q.items) (depth : Nat)
    (sink : Sink) :
    let x := (program depth p).run (.start sink)
    let y := (program depth q).run (.start sink)
    x.1 = y.1 ∧ x.2.sink = y.2.sink ∧ x.2.events.toList.Perm y.2.events.toList := by
  obtain ⟨rules', hitems', hrules⟩ := Program.rules_of_perm hitems hperm
  have hnames' : (rules'.map Rule.name).Nodup := (hrules.map Rule.name).nodup_iff.1 hnames
  have hstore : (World.holding rules sink).store = (World.holding rules' sink).store :=
    Store.withRules_perm hnames hrules _ 0
  have hevents : (World.holding rules sink).events.toList.Perm
      (World.holding rules' sink).events.toList := hrules.map _
  rw [program_run_rules hitems hnames, program_run_rules hitems' hnames', ← hstore,
    ← hperm.length_eq]
  rcases hmain : (World.holding rules sink).store.rule? 0 mainName with _ | ⟨rule, holder⟩
  · exact ⟨rfl, rfl, hevents⟩
  · obtain ⟨k, hk, -⟩ := Store.rule?_eq_some hmain
    have hholder : holder < (World.holding rules sink).store.frames.size := by
      have hle := Store.le_of_mem_chain (List.mem_of_getElem? hk)
      simp [World.holding, Store.frames_withRules, Store.add, Store.empty, Nat.le_zero.1 hle]
    let w := (World.holding rules sink).noting (.invokingMain p.items.length)
    let w' := (World.holding rules' sink).noting (.invokingMain p.items.length)
    have hchain : w.store.SameChain holder w'.store holder := hstore ▸ .refl hholder
    let x := (invoke depth rule holder [] rule.selector.span).run w
    let y := (invoke depth rule holder [] rule.selector.span).run w'
    have hsame : SameRun w w' x y := invoke_sameRun depth rule [] rule.selector.span rfl hchain
    obtain ⟨houtcome, ⟨out, hout, hout'⟩, es, hes, hes'⟩ := hsame
    refine ⟨houtcome, hout.trans hout'.symm, ?_⟩
    change x.2.events.toList.Perm y.2.events.toList
    rw [hes, hes', Array.toList_append, Array.toList_append]
    refine .append_right _ ?_
    simpa [w, w', World.noting] using hevents.append_right [.invokingMain p.items.length]

/-- **The order of top-level rules does not matter.** A program whose items are rules of different
names does the same with these items in any other order, at every depth and on every sink: it ends
with the same value or fault or does not come to an end, and it prints the same. What it records is
the same but for the order of the registrations. -/
theorem rule_order_irrelevant (p q : Program) (rules : List Rule)
    (hitems : p.items = rules.map .rule) (hnames : (rules.map Rule.name).Nodup)
    (hperm : p.items.Perm q.items) (depth : Nat) (sink : Sink) :
    let x := p.report depth sink
    let y := q.report depth sink
    x.1.outcome = y.1.outcome ∧ x.1.output = y.1.output ∧ x.2 = y.2 ∧
      x.1.events.Perm y.1.events := by
  obtain ⟨houtcome, hsink, hevents⟩ := Eval.program_perm hitems hnames hperm depth sink
  simp only [Program.report_run]
  exact ⟨houtcome, by rw [hsink], hsink, hevents⟩

/-- A rule without parameters that returns the value of an expression. -/
def Rule.giving (name : String) (e : Expr) : Rule :=
  ⟨⟨⟨name, default⟩, [], default⟩, [.atRule ⟨⟨"return", default⟩, [e], none, default⟩], default⟩

/-- A call of a rule or a builtin. -/
def Expr.calling (name : String) (args : List Expr) : Expr :=
  .call ⟨name, default⟩ args default

/-- A main rule that prints what `f` gives, and the rule `f`. -/
def Rule.printingPair : List Rule :=
  [.giving "main" (.calling "print" [.calling "f" []]), .giving "f" (.literal (.int 7) default)]

/-- These two rules as a program. -/
def Program.printing : Program := ⟨Rule.printingPair.map .rule⟩

/-- A main rule that prints what `f` gives does so wherever `f` stands. -/
theorem rule_order_irrelevant_main :
    (Program.printing.report 8 (.empty none)).1.outcome = .done (.int 7) ∧
    (Program.printing.report 8 (.empty none)).1.output = "7\n" ∧
    (Program.report 8 ⟨Program.printing.items.reverse⟩ (.empty none)).1.outcome = .done (.int 7) ∧
    (Program.report 8 ⟨Program.printing.items.reverse⟩ (.empty none)).1.output = "7\n" := by
  have houtcome : (Program.printing.report 8 (.empty none)).1.outcome = .done (.int 7) := by
    with_unfolding_all rfl
  have houtput : (Program.printing.report 8 (.empty none)).1.output = "7\n" := by
    with_unfolding_all rfl
  obtain ⟨hsame, hsame', -, -⟩ := rule_order_irrelevant .printing ⟨Program.printing.items.reverse⟩
    Rule.printingPair rfl (by decide) (List.reverse_perm _).symm 8 (.empty none)
  exact ⟨houtcome, houtput, hsame.symm.trans houtcome, hsame'.symm.trans houtput⟩

end RuleScript
