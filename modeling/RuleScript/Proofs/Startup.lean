import Mathlib.Tactic.IntervalCases
import RuleScript.Proofs.Blame
import RuleScript.Proofs.Chronicle
import RuleScript.Proofs.Reordering
import RuleScript.Proofs.Supply

/-!
# Before the main rule is called

A program registers its items from the first to the last. The first of them that cannot be
registered decides how the program fails, whatever stands behind it; if all of them can, the root
scope holds each rule under its name, and all that is left is to call the main rule in it.

* `Program.Offends`: an item cannot be registered. `Program.FirstOffence`: nor does one before it
  offend.
* `Store.ownRule?_withRules_iff`, `World.rule?_holding`: what is held after rules were registered.
* `Eval.report_of_atRule`, `Eval.report_of_again`: what the first offence leads to.
* `Eval.invoke_ne_missingMain`: no call fails because there is no main rule.
* `startup`: how every program begins.
-/

namespace RuleScript

/-! ### Items that cannot be registered -/

namespace Program

/-- The item at an index **offends**: it cannot be registered. -/
inductive Offends (p : Program) (j : Nat) : Prop where
  /-- an at-rule -/
  | atRule {a : AtRule} (h : p.items[j]? = some (.atRule a))
  /-- a rule with the name of a rule before it -/
  | again {r earlier : Rule} {i : Nat} (h : p.items[j]? = some (.rule r)) (hi : i < j)
    (hearlier : p.items[i]? = some (.rule earlier)) (hname : earlier.name = r.name)

/-- The item at an index is the **first that offends**. -/
structure FirstOffence (p : Program) (j : Nat) : Prop where
  offends : p.Offends j
  first : ∀ i < j, ¬p.Offends i

variable {p : Program} {n : Nat}

/-- Where nothing offends, there are only rules. -/
theorem exists_rules (h : ∀ i < n, ¬p.Offends i) :
    ∃ rules : List Rule, p.items.take n = rules.map .rule := by
  have hrange : p.items.take n ∈ Set.range (List.map Item.rule) := by
    rw [Set.range_list_map]
    intro item hitem
    obtain ⟨i, hi, rfl⟩ := List.getElem_of_mem hitem
    rw [List.length_take, lt_min_iff] at hi
    have hget : p.items[i]? = some p.items[i] := List.getElem?_eq_getElem hi.2
    rw [List.getElem_take]
    cases hkind : p.items[i] with
    | rule r => exact ⟨r, rfl⟩
    | atRule a =>
      rw [hkind] at hget
      exact absurd (.atRule hget) (h i hi.1)
  obtain ⟨rules, hrules⟩ := hrange
  exact ⟨rules, hrules.symm⟩

/-- An item before an index is one of the rules there. -/
theorem getElem?_of_take {rules : List Rule} (hrules : p.items.take n = rules.map .rule) {i : Nat}
    (hi : i < n) : p.items[i]? = rules[i]?.map Item.rule := by
  rw [← List.getElem?_map, ← hrules, List.getElem?_take_of_lt hi]

/-- Where nothing offends, the names of the rules **differ**. -/
theorem nodup_names {rules : List Rule} (hrules : p.items.take n = rules.map .rule)
    (h : ∀ i < n, ¬p.Offends i) : (rules.map Rule.name).Nodup := by
  have hle : rules.length ≤ n := by
    have hlength := congrArg List.length hrules
    simp at hlength
    omega
  rw [List.Nodup, List.pairwise_map, List.pairwise_iff_getElem]
  intro i j hi hj hlt hname
  have hi' := getElem?_of_take hrules (hi.trans_le hle)
  have hj' := getElem?_of_take hrules (hj.trans_le hle)
  rw [List.getElem?_eq_getElem hi] at hi'
  rw [List.getElem?_eq_getElem hj] at hj'
  exact h j (hj.trans_le hle) (.again hj' hlt hi' hname)

/-- Rules whose names differ **do not offend**. -/
theorem not_offends_of_take {rules : List Rule} (hrules : p.items.take n = rules.map .rule)
    (hnames : (rules.map Rule.name).Nodup) : ∀ i < n, ¬p.Offends i := by
  intro i hi hoffends
  cases hoffends with
  | atRule h =>
    rw [getElem?_of_take hrules hi] at h
    obtain ⟨r, -, hrule⟩ := Option.map_eq_some_iff.1 h
    cases hrule
  | @again r earlier j h hj hearlier hname =>
    rw [getElem?_of_take hrules hi] at h
    rw [getElem?_of_take hrules (hj.trans hi)] at hearlier
    obtain ⟨r, hr, ⟨⟩⟩ := Option.map_eq_some_iff.1 h
    obtain ⟨earlier, hearlier, ⟨⟩⟩ := Option.map_eq_some_iff.1 hearlier
    obtain ⟨hi', rfl⟩ := List.getElem?_eq_some_iff.1 hr
    obtain ⟨hj', rfl⟩ := List.getElem?_eq_some_iff.1 hearlier
    rw [List.Nodup, List.pairwise_map, List.pairwise_iff_getElem] at hnames
    exact hnames j i hj' hi' hj hname

end Program

/-! ### What is held after rules were registered -/

namespace Store

variable {s : Store} {id : ScopeId}

theorem ownRule?_withRules_singleton {r : Rule} (hid : id < s.frames.size)
    (hfree : s.ownRule? id r.name = none) (name : String) :
    (s.withRules id [r]).ownRule? id name = if r.name = name then some r else s.ownRule? id name :=
  ownRule?_eq_of_define hid (define_eq_withRules hfree) name

/-- The rules that are **held after** some were added under free names. -/
theorem ownRule?_withRules_iff {rules : List Rule} (hid : id < s.frames.size)
    (hnames : (rules.map Rule.name).Nodup) (hfree : ∀ r ∈ rules, s.ownRule? id r.name = none)
    (name : String) (r : Rule) :
    (s.withRules id rules).ownRule? id name = some r ↔
      s.ownRule? id name = some r ∨ r ∈ rules ∧ r.name = name := by
  induction rules generalizing s with
  | nil => simp [withRules_nil]
  | cons first rules ih =>
    obtain ⟨hfirst, hnames⟩ := List.nodup_cons.1 hnames
    obtain ⟨hown, hfree⟩ := List.forall_mem_cons.1 hfree
    have hid' : id < (s.withRules id [first]).frames.size := by
      rwa [frames_withRules, Array.size_modify]
    have hfree' : ∀ r ∈ rules, (s.withRules id [first]).ownRule? id r.name = none := by
      intro r hr
      have hne : first.name ≠ r.name := fun h => hfirst (h ▸ List.mem_map_of_mem hr)
      rw [ownRule?_withRules_of_ne hne]
      exact hfree r hr
    rw [withRules_cons, ih hid' hnames hfree', ownRule?_withRules_singleton hid hown]
    by_cases hname : first.name = name
    · subst hname
      simp only [↓reduceIte, Option.some.injEq, hown, reduceCtorEq, false_or, List.mem_cons]
      constructor
      · rintro (rfl | h)
        · exact ⟨.inl rfl, rfl⟩
        · exact ⟨.inr h.1, h.2⟩
      · rintro ⟨rfl | hr, h⟩
        · exact .inl rfl
        · exact .inr ⟨hr, h⟩
    · rw [if_neg hname, List.mem_cons]
      constructor
      · exact Or.imp_right fun ⟨hr, h⟩ => ⟨.inr hr, h⟩
      · rintro (h | ⟨rfl | hr, h⟩)
        · exact .inl h
        · exact absurd h hname
        · exact .inr ⟨hr, h⟩

end Store

namespace World

variable {rules : List Rule} {sink : Sink}

/-- Registered rules are **held by the root scope**, each under its name, and no others are. -/
theorem ownRule?_holding (hnames : (rules.map Rule.name).Nodup) (sink : Sink) (name : String)
    (r : Rule) :
    (holding rules sink).store.ownRule? 0 name = some r ↔ r ∈ rules ∧ r.name = name := by
  have hfree : ∀ name, (Store.empty.add none).ownRule? 0 name = none :=
    fun _ => Std.ExtTreeMap.getElem?_empty
  rw [holding, Store.ownRule?_withRules_iff Nat.one_pos hnames (fun r _ => hfree r.name), hfree]
  simp

theorem frame_holding (rules : List Rule) (sink : Sink) :
    (holding rules sink).store.frames[0]? = some ((Frame.within none).withRules rules) := rfl

/-- There is no scope but the root. -/
theorem size_holding (rules : List Rule) (sink : Sink) :
    (holding rules sink).store.frames.size = 1 := by
  rw [holding, Store.frames_withRules, Array.size_modify]
  rfl

theorem valueOf?_holding (rules : List Rule) (sink : Sink) (name : String) :
    (holding rules sink).store.valueOf? 0 name = none := by
  rw [Store.valueOf?_of_frame (frame_holding rules sink)]
  exact congrArg (Option.or · none) Std.ExtTreeMap.getElem?_empty

/-- A rule that is found from the root scope is its own. -/
theorem rule?_holding (rules : List Rule) (sink : Sink) (name : String) :
    (holding rules sink).store.rule? 0 name =
      ((holding rules sink).store.ownRule? 0 name).map fun r => (r, 0) := by
  rw [Store.rule?_of_frame (frame_holding rules sink), Store.ownRule?,
    frame_holding rules sink]
  exact Option.or_none

end World

/-! ### Registering up to the first offence -/

/-- Where nothing was printed, there is no text. -/
theorem Sink.textFrom_size (sink : Sink) : sink.textFrom sink.written.size = "" := by
  have htext := sink.textFrom_after ByteArray.empty
  rwa [after_empty] at htext

namespace Eval

variable {p : Program}

/-- What can be registered is registered first. -/
theorem register_append_run {before : List Item} {root : ScopeId} {w w' : World}
    (h : (register root before).run w = (.done (), w')) (items : List Item) :
    (register root (before ++ items)).run w = (register root items).run w' := by
  induction before generalizing w with
  | nil =>
    cases h
    rfl
  | cons item before ih =>
    cases item with
    | atRule a => cases h
    | rule r =>
      rcases hd : (define root r).run w with ⟨⟨⟩ | f | _, w₁⟩
      · rw [register, Process.run_bind_done hd] at h
        rw [List.cons_append, register, Process.run_bind_done hd]
        exact ih h
      · rw [register, Process.run_bind_failed hd] at h
        cases h
      · rw [register, Process.run_bind, hd] at h
        cases h

/-- Up to an item behind rules of different names, the rules are registered. -/
theorem register_run_of_take {rules : List Rule} {j : Nat} {item : Item}
    (hrules : p.items.take j = rules.map .rule) (hnames : (rules.map Rule.name).Nodup)
    (hitem : p.items[j]? = some item) (sink : Sink) :
    (register 0 p.items).run ⟨.add .empty none, sink, #[]⟩ =
      (register 0 (item :: p.items.drop (j + 1))).run (.holding rules sink) := by
  obtain ⟨hj, rfl⟩ := List.getElem?_eq_some_iff.1 hitem
  have hsplit : p.items = rules.map .rule ++ p.items[j] :: p.items.drop (j + 1) := by
    rw [← hrules, List.getElem_cons_drop, List.take_append_drop]
  conv_lhs => rw [hsplit]
  exact register_append_run (register_holding hnames sink) _

/-- A program whose items cannot be registered **fails as that does**, whatever depth there is. -/
theorem report_of_register {f : Fault} {sink : Sink} {w : World}
    (h : (register 0 p.items).run ⟨.add .empty none, sink, #[]⟩ = (.failed f, w))
    (hsink : w.sink = sink) (depth : Nat) :
    p.report depth sink = (⟨.failed f, "", w.events.toList⟩, sink) := by
  have hrun : (program depth p).run (.start sink) = (.failed f, w) := by
    rw [program_run, h]
  rw [Program.report_run, hrun, hsink, sink.textFrom_size]

variable {rules : List Rule} {j : Nat}

/-- **An at-rule behind rules** of different names. -/
theorem report_of_atRule {a : AtRule} (hrules : p.items.take j = rules.map .rule)
    (hnames : (rules.map Rule.name).Nodup) (hitem : p.items[j]? = some (.atRule a)) (depth : Nat)
    (sink : Sink) : p.report depth sink =
      (⟨.failed (.globalAtRule a.name.text a.span), "", Event.registrations rules 0⟩, sink) := by
  have hrun := register_run_of_take hrules hnames hitem sink
  exact report_of_register hrun rfl depth

/-- **A rule behind rules** of different names, one of which has its name. -/
theorem report_of_again {r earlier : Rule} (hrules : p.items.take j = rules.map .rule)
    (hnames : (rules.map Rule.name).Nodup) (hitem : p.items[j]? = some (.rule r))
    (hearlier : earlier ∈ rules) (hname : earlier.name = r.name) (depth : Nat) (sink : Sink) :
    p.report depth sink =
      (⟨.failed (.duplicateDefinition r.name r.selector.name.span earlier.selector.name.span), "",
        Event.registrations rules 0 ++ [.duplicateRule r.name earlier.selector.name.span.start]⟩,
        sink) := by
  have hown := (World.ownRule?_holding hnames sink r.name earlier).2 ⟨hearlier, hname⟩
  have htaken : (World.holding rules sink).store.define 0 r = .error earlier := by
    rw [Store.define, hown]
  have hrun := register_run_of_take hrules hnames hitem sink
  rw [register, Process.run_bind_failed (define_run_of_taken htaken)] at hrun
  have hreport := report_of_register hrun rfl depth
  simpa [World.holding] using hreport

/-! ### Calling the main rule -/

/-- **No call** fails because there is no main rule. -/
theorem invoke_ne_missingMain (depth : Nat) (rule : Rule) (holder : ScopeId) (args : List Value)
    (span : Span) (w : World) :
    ((invoke depth rule holder args span).run w).1 ≠ .failed .missingMain := by
  intro hmissing
  have hrun : (invoke depth rule holder args span).run w = (.failed .missingMain, _) :=
    Prod.ext hmissing rfl
  obtain ⟨m, u, -, hraises⟩ := (evaluatorTraces depth).invoke [] rule holder args span w _ _ hrun
  -- what a visit raises blames a span
  cases hraises with
  | part hblames =>
    obtain ⟨-, s, -, hspan⟩ := hblames
    cases hspan

end Eval

/-- A world in which **a program was registered** and nothing else was done: there is the root scope
with the rules under their names, and no variable. -/
structure World.Rooted (rules : List Rule) (sink : Sink) (w : World) : Prop where
  scopes : w.store.frames.size = 1
  parent : w.store.parent? 0 = none
  values : ∀ name, w.store.valueOf? 0 name = none
  held : ∀ name r, w.store.ownRule? 0 name = some r ↔ r ∈ rules ∧ r.name = name
  output : w.sink = sink
  events : w.events.toList = Event.registrations rules 0 ++ [.invokingMain rules.length]

namespace Eval

variable {p : Program} {rules : List Rule}

/-- Without a main rule there is **nothing to be called**. -/
theorem report_of_missing (hitems : p.items = rules.map .rule)
    (hnames : (rules.map Rule.name).Nodup) (hmissing : ∀ r ∈ rules, r.name ≠ mainName)
    (depth : Nat) (sink : Sink) : p.report depth sink =
      (⟨.failed .missingMain, "", Event.registrations rules 0⟩, sink) := by
  have hown : (World.holding rules sink).store.ownRule? 0 mainName = none := by
    rw [Option.eq_none_iff_forall_not_mem]
    intro r hr
    obtain ⟨hmem, hname⟩ := (World.ownRule?_holding hnames sink mainName r).1 hr
    exact hmissing r hmem hname
  have hrun := program_run_rules hitems hnames depth sink
  rw [World.rule?_holding, hown] at hrun
  rw [Program.report_run, hrun]
  dsimp only [Option.map_none]
  rw [World.holding, sink.textFrom_size]

/-- **The main rule is called** where the program was registered. -/
theorem program_run_main {main : Rule} (hitems : p.items = rules.map .rule)
    (hnames : (rules.map Rule.name).Nodup) (hmain : main ∈ rules) (hname : main.name = mainName)
    (depth : Nat) (sink : Sink) :
    ∃ w, World.Rooted rules sink w ∧ (program depth p).run (.start sink) =
      (invoke depth main 0 [] main.selector.span).run w := by
  have hown := (World.ownRule?_holding hnames sink mainName main).2 ⟨hmain, hname⟩
  have hrun := program_run_rules hitems hnames depth sink
  rw [World.rule?_holding, hown] at hrun
  refine ⟨_, ?_, hrun⟩
  exact {
    scopes := World.size_holding rules sink
    parent := rfl
    values := World.valueOf?_holding rules sink
    held := World.ownRule?_holding hnames sink
    output := rfl
    events := by simp [World.noting, World.holding, hitems] }

end Eval

/-! ### How programs begin -/

/-- **How every program begins.** If an item cannot be registered, the first of them decides: the
program fails with that at-rule, or with that rule and the one rule before it that has its name. It
has printed nothing and called nothing. If every item can be registered, the program fails because
there is no main rule exactly if none is named so, and has printed nothing. Otherwise the root scope
holds the rules of the program under their names and nothing else, and the program does what its
main rule does when it is called there without arguments. -/
theorem startup (p : Program) (depth : Nat) (sink : Sink) :
    (∀ j, p.FirstOffence j →
      ∃ rules : List Rule, p.items.take j = rules.map .rule ∧
        ((∃ a, p.items[j]? = some (.atRule a) ∧
          p.report depth sink = (⟨.failed (.globalAtRule a.name.text a.span), "",
            Event.registrations rules 0⟩, sink)) ∨
        ∃ r i earlier, p.items[j]? = some (.rule r) ∧ i < j ∧
          p.items[i]? = some (.rule earlier) ∧ earlier.name = r.name ∧
          (∀ i' < j, ∀ other, p.items[i']? = some (.rule other) → other.name = r.name → i' = i) ∧
          p.report depth sink =
            (⟨.failed (.duplicateDefinition r.name r.selector.name.span
              earlier.selector.name.span), "", Event.registrations rules 0 ++
                [.duplicateRule r.name earlier.selector.name.span.start]⟩, sink))) ∧
    ((∀ j, ¬p.Offends j) →
      ∃ rules : List Rule, p.items = rules.map .rule ∧ (rules.map Rule.name).Nodup ∧
        ((p.report depth sink).1.outcome = .failed .missingMain ↔
          ∀ r ∈ rules, r.name ≠ "main") ∧
        ((∀ r ∈ rules, r.name ≠ "main") → p.report depth sink =
          (⟨.failed .missingMain, "", Event.registrations rules 0⟩, sink)) ∧
        ∀ main ∈ rules, main.name = "main" → ∃ w, World.Rooted rules sink w ∧
          (Eval.program depth p).run (.start sink) =
            (Eval.invoke depth main 0 [] main.selector.span).run w) := by
  constructor
  · rintro j ⟨hoffends, hfirst⟩
    obtain ⟨rules, hrules⟩ := Program.exists_rules hfirst
    have hnames := Program.nodup_names hrules hfirst
    refine ⟨rules, hrules, ?_⟩
    cases hoffends with
    | @atRule a h => exact .inl ⟨a, h, Eval.report_of_atRule hrules hnames h depth sink⟩
    | @again r earlier i h hi hearlier hname =>
      have hmem : earlier ∈ rules := by
        rw [Program.getElem?_of_take hrules hi] at hearlier
        obtain ⟨r', hr', hrule⟩ := Option.map_eq_some_iff.1 hearlier
        cases hrule
        exact List.mem_of_getElem? hr'
      have honly : ∀ i' < j, ∀ other, p.items[i']? = some (.rule other) →
          other.name = r.name → i' = i := by
        intro i' hi' other hother hname'
        -- of two rules of one name the later offends, and neither may
        rcases Nat.lt_trichotomy i' i with hlt | heq | hlt
        · exact absurd (.again hearlier hlt hother (hname'.trans hname.symm)) (hfirst i hi)
        · exact heq
        · exact absurd (.again hother hlt hearlier (hname.trans hname'.symm)) (hfirst i' hi')
      exact .inr ⟨r, i, earlier, h, hi, hearlier, hname, honly,
        Eval.report_of_again hrules hnames h hmem hname depth sink⟩
  · intro hnone
    have hfirst : ∀ i < p.items.length, ¬p.Offends i := fun i _ => hnone i
    obtain ⟨rules, hrules⟩ := Program.exists_rules hfirst
    have hnames := Program.nodup_names hrules hfirst
    have hitems : p.items = rules.map .rule := List.take_length.symm.trans hrules
    have hmissing := fun h => Eval.report_of_missing hitems hnames h depth sink
    have hmain : ∀ main ∈ rules, main.name = "main" → ∃ w, World.Rooted rules sink w ∧
        (Eval.program depth p).run (.start sink) =
          (Eval.invoke depth main 0 [] main.selector.span).run w :=
      fun _ hmem hname => Eval.program_run_main hitems hnames hmem hname depth sink
    refine ⟨rules, hitems, hnames, ⟨?_, ?_⟩, hmissing, hmain⟩
    · intro houtcome r hr hname
      obtain ⟨w, -, hrun⟩ := hmain r hr hname
      rw [Program.report_run, hrun] at houtcome
      exact Eval.invoke_ne_missingMain _ _ _ _ _ _ houtcome
    · intro h
      rw [hmissing h]

/-- Of two rules of one name and an at-rule behind them the later rule decides. A program that is
only its main rule has one. -/
theorem startup_twice :
    let rule (name : String) (start : Nat) : Rule :=
      ⟨⟨⟨name, .inLine start (start + 1)⟩, [], default⟩, [], default⟩
    let p : Program := ⟨[.rule (rule "f" 0), .rule (rule "g" 1), .rule (rule "f" 2),
      .atRule ⟨⟨"if", default⟩, [], none, default⟩]⟩
    let q : Program := ⟨[.rule (rule "main" 0)]⟩
    (p.FirstOffence 2 ∧ (p.report 9 (.empty none)).1.outcome =
      .failed (.duplicateDefinition "f" (.inLine 2 3) (.inLine 0 1))) ∧
    (∀ j, ¬q.Offends j) ∧ (q.report 9 (.empty none)).1.outcome ≠ .failed .missingMain := by
  intro rule p q
  have hfirst : p.FirstOffence 2 := by
    have hnames : ([rule "f" 0, rule "g" 1].map Rule.name).Nodup := by decide
    exact ⟨.again rfl Nat.two_pos rfl rfl, Program.not_offends_of_take rfl hnames⟩
  have hnone : ∀ j, ¬q.Offends j := by
    intro j
    have hnames : ([rule "main" 0].map Rule.name).Nodup := by decide
    have htake : q.items.take (j + 1) = [rule "main" 0].map .rule := by
      rw [List.take_succ_cons, List.take_nil]
      rfl
    exact Program.not_offends_of_take htake hnames j j.lt_succ_self
  refine ⟨⟨hfirst, ?_⟩, hnone, ?_⟩
  · obtain ⟨rules, -, ⟨a, ha, -⟩ | ⟨r, i, earlier, hr, hi, hearlier, hname, -, hreport⟩⟩ :=
      (startup p 9 (.empty none)).1 2 hfirst
    · cases ha
    · rw [hreport]
      cases hr
      interval_cases i
      · cases hearlier
        rfl
      · cases hearlier
        exact absurd hname (by decide)
  · obtain ⟨rules, hitems, -, hmissing, -⟩ := (startup q 9 (.empty none)).2 hnone
    rw [ne_eq, hmissing]
    intro h
    have hitem : Item.rule (rule "main" 0) ∈ rules.map Item.rule := hitems ▸ .head _
    have hmain : rule "main" 0 ∈ rules := by simpa using hitem
    exact h _ hmain rfl

end RuleScript
