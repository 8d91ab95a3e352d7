import Mathlib.Data.Set.Card
import Mathlib.Data.Set.Finite.Lattice
import RuleScript.Proofs.Blame
import RuleScript.Proofs.Reports

/-!
# Only recursion goes on without end

A run that is exhausted has gone down as deep as it was allowed to, from visit to visit. Every
step down leads to a smaller part of the program or to a rule that is called. Where no rule calls
itself, not even by way of others, calls come to an end too, and so there is a depth that is
enough.

* `Eval.Deepens`: a process that is exhausted has led to a visit for which no depth is left. It
  is a law of visits.
* `Program.Calls`: which rules call which, as far as their names go. If there is no cycle, names
  have a rank that goes down with every call (`Program.rank_lt`).
* `Visit.Task.Bounded`: how much a task may cost, by the rank of what it calls and by its size.
  What a visit starts costs less (`Visit.Scoped.starts_bounded`), so a visit leads no deeper
  than its cost (`Visit.Scoped.depth_le`).
-/

namespace RuleScript

/-! ### Running out of depth -/

namespace Eval

variable {α β : Type} {n : Nat} {v : Visit} {w : World}

/-- If the process is exhausted, `v` leads to a visit for which **no depth** is left. -/
def Deepens (n : Nat) (v : Visit) {α : Type} (x : Eval α) (w : World) : Prop :=
  (x.run w).1 = .exhausted → ∃ u, Visit.Reaches n v 0 u

theorem Deepens.bind {x : Eval α} {f : α → Eval β} (hx : Deepens n v x w)
    (hf : ∀ a w', x.run w = (.done a, w') → Deepens n v (f a) w') : Deepens n v (x >>= f) w := by
  intro hrun
  rw [Process.run_bind] at hrun
  rcases h : x.run w with ⟨a | fault | _, w'⟩ <;> rw [h] at hrun
  · exact hf a w' h hrun
  · cases hrun
  · exact hx (by rw [h])

theorem define_ends (scope : ScopeId) (rule : Rule) (w : World) :
    ((define scope rule).run w).1 ≠ .exhausted := by
  rcases hd : w.store.define scope rule with existing | t
  · rw [define_run_of_taken hd]
    nofun
  · rw [define_run_of_free hd]
    nofun

theorem callBuiltin_ends (b : Builtin) (args : List Value) (span : Span) (w : World) :
    ((callBuiltin b args span).run w).1 ≠ .exhausted := by
  rw [callBuiltin, Process.run_bind_done rfl]
  dsimp only
  split
  all_goals
    intro h
    cases h

/-- That exhaustion comes from depth is a **law**. -/
theorem deepensLaw : Visit.Law Deepens where
  exhaust _ := ⟨_, .refl⟩
  quiet h hrun := absurd hrun h.ends
  bind := Deepens.bind
  define hrun := absurd hrun (define_ends _ _ _)
  builtin _ hrun := absurd hrun (callBuiltin_ends _ _ _ _)
  starts hs h hrun := by
    obtain ⟨u, hu⟩ := h hrun
    exact ⟨u, .step hs hu⟩

theorem register_ends (root : ScopeId) (items : List Item) (w : World) :
    ((register root items).run w).1 ≠ .exhausted := by
  induction items generalizing w with
  | nil =>
    intro h
    cases h
  | cons item items ih =>
    cases item with
    | atRule a =>
      intro h
      cases h
    | rule r =>
      have hdefine := define_ends root r w
      rw [register, Process.run_bind]
      rcases hd : (define root r).run w with ⟨_ | _ | _, w'⟩ <;> rw [hd] at hdefine
      · exact ih w'
      · intro h
        cases h
      · exact absurd rfl hdefine

end Eval

/-- A program that is exhausted has led to a visit for which no depth is left. -/
theorem Program.visits_of_exhausted {p : Program} {depth : Nat} {sink : Sink}
    (h : (p.report depth sink).1.outcome = .exhausted) : ∃ u, p.Visits depth sink 0 u := by
  change ((Eval.program depth p).run (.start sink)).1 = .exhausted at h
  rw [Eval.program_run] at h
  have hends := Eval.register_ends 0 p.items ⟨.add .empty none, sink, #[]⟩
  rcases hrun : (Eval.register 0 p.items).run ⟨.add .empty none, sink, #[]⟩
    with ⟨_ | _ | _, w⟩ <;> rw [hrun] at h hends <;> dsimp only at h
  · rcases hrule : w.store.rule? 0 Eval.mainName with _ | ⟨rule, holder⟩ <;> rw [hrule] at h
    · cases h
    · obtain ⟨u, hu⟩ := (Eval.deepensLaw.follows depth).invoke [p.block] rule holder []
        rule.selector.span _ h
      exact ⟨u, _, .main hrun hrule, hu⟩
  · cases h
  · exact absurd rfl hends

/-! ### Nodes are finite -/

namespace Node

theorem sizeOf_ofStatement (st : Statement) : sizeOf (ofStatement st) = sizeOf st := by
  cases st <;> simp [ofStatement]

/-- What is inside a node is **smaller**. -/
theorem sizeOf_lt_of_mem_children {n c : Node} (h : c ∈ n.children) : sizeOf c < sizeOf n := by
  cases n with
  | name n => cases h
  | expr e =>
    cases e <;> simp only [children, List.mem_cons, List.mem_map, List.not_mem_nil] at h <;>
      grind [→ List.sizeOf_lt_of_mem]
  | parameter q =>
    obtain ⟨name, default, span⟩ := q
    simp only [children, List.mem_cons, List.mem_map, Option.mem_toList] at h
    grind
  | selector s =>
    obtain ⟨name, parameters, span⟩ := s
    simp only [children, List.mem_cons, List.mem_map] at h
    grind [→ List.sizeOf_lt_of_mem]
  | declaration d =>
    obtain ⟨property, values, span⟩ := d
    simp only [children, List.mem_cons, List.mem_map] at h
    grind [→ List.sizeOf_lt_of_mem]
  | atRule a =>
    obtain ⟨name, parameters, body, span⟩ := a
    simp only [children, List.mem_cons, List.mem_append, List.mem_map] at h
    cases body <;> grind [→ List.sizeOf_lt_of_mem, sizeOf_ofStatement]
  | rule r =>
    obtain ⟨selector, body, span⟩ := r
    simp only [children, List.mem_cons, List.mem_map] at h
    grind [→ List.sizeOf_lt_of_mem, sizeOf_ofStatement]

theorem Contains.sizeOf_le {n m : Node} (h : n.Contains m) : sizeOf m ≤ sizeOf n := by
  induction h with
  | self n => exact Nat.le_refl _
  | child hc _ ih => exact Nat.le_of_lt (Nat.lt_of_le_of_lt ih (sizeOf_lt_of_mem_children hc))

theorem finite_contains (n : Node) : {m | n.Contains m}.Finite := by
  -- nodes are no tree of their own, so the induction is on the size of what they hold
  induction hsize : sizeOf n using Nat.strongRecOn generalizing n with
  | ind size ih =>
    have hinside : (⋃ c ∈ {c | c ∈ n.children}, {m | c.Contains m}).Finite := by
      refine (List.finite_toSet n.children).biUnion fun c hc => ih _ ?_ c rfl
      exact hsize ▸ sizeOf_lt_of_mem_children hc
    refine (hinside.insert n).subset fun m hm => ?_
    cases hm with
    | self => exact .inl rfl
    | child hc hm => exact .inr (Set.mem_biUnion hc hm)

end Node

namespace Program

variable {p : Program}

theorem Has.sizeOf_le {n : Node} (h : p.Has n) : sizeOf n ≤ sizeOf p.items := by
  obtain ⟨i, hi, hn⟩ := h
  have hitem : sizeOf (Node.ofItem i) = sizeOf i := by cases i <;> simp [Node.ofItem]
  have hle := hn.sizeOf_le
  have hlt := List.sizeOf_lt_of_mem hi
  omega

/-- A program has finitely many nodes. -/
theorem finite_has (p : Program) : {n | p.Has n}.Finite := by
  have hitems : (⋃ i ∈ {i | i ∈ p.items}, {n | (Node.ofItem i).Contains n}).Finite :=
    (List.finite_toSet p.items).biUnion fun i _ => (Node.ofItem i).finite_contains
  refine hitems.subset ?_
  rintro n ⟨i, hi, hn⟩
  exact Set.mem_biUnion hi hn

end Program

/-! ### Which rules call which -/

/-- The nodes inside a node that are **evaluated** as its parts: not those of a rule, which is
only defined, and not the block of an at-rule that is no condition. -/
def Node.parts : Node → List Node
  | .rule _ => []
  | .atRule a =>
    .name a.name :: (a.parameters.map .expr ++
      if a.name.text = "if" then (a.body.getD []).map ofStatement else [])
  | n => n.children

theorem Node.mem_children_of_mem_parts {n c : Node} (h : c ∈ n.parts) : c ∈ n.children := by
  cases n with
  | rule r => cases h
  | atRule a =>
    simp only [parts, List.mem_cons, List.mem_append] at h
    obtain h | h | h := h
    · simp [children, h]
    · simp [children, h]
    · split at h
      · simp [children, h]
      · cases h
  | name n => exact h
  | expr e => exact h
  | parameter q => exact h
  | selector s => exact h
  | declaration d => exact h

/-- A node **calls** a name: it is the callee of an expression in it, or the property of a
declaration in it that declares no variable. -/
inductive Node.Calls : Node → String → Prop where
  /-- the callee of an expression -/
  | callee {name args span} : Calls (.expr (.call name args span)) name.text
  /-- the property of a declaration -/
  | property {d : Declaration} (hd : d.property.isVariable = false) :
    Calls (.declaration d) d.property.text
  /-- what is called in a part -/
  | part {n c name} (hc : c ∈ n.parts) (h : Calls c name) : Calls n name

/-- A program **defines** a rule in one of its blocks, at any level. -/
def Program.Defines (p : Program) (r : Rule) : Prop :=
  ∃ b bs, p.Nest (b :: bs) ∧ .rule r ∈ b.body

/-- One name **calls** another in a program: some rule of the one name calls the other, in a
default of its parameters or in its body. Names of builtins call nothing. -/
def Program.Calls (p : Program) (caller name : String) : Prop :=
  ∃ r, p.Defines r ∧ r.name = caller ∧ ∃ c ∈ (Node.rule r).children, c.Calls name

/-- A program is **recursive** if a name calls itself, directly or by way of others. -/
def Program.Recursive (p : Program) : Prop := ∃ name, Relation.TransGen p.Calls name name

/-- What is called is a name that is written there. -/
theorem Node.Calls.contains {n : Node} {name : String} (h : n.Calls name) :
    ∃ m : Name, n.Contains (.name m) ∧ m.text = name := by
  induction h with
  | callee => exact ⟨_, .child (.head _) (.self _), rfl⟩
  | property => exact ⟨_, .child (.head _) (.self _), rfl⟩
  | part hc _ ih =>
    obtain ⟨m, hm, hname⟩ := ih
    exact ⟨m, .child (mem_children_of_mem_parts hc) hm, hname⟩

namespace Program

open Relation (TransGen)

variable {p : Program} {caller name : String}

theorem Defines.has {r : Rule} (h : p.Defines r) : p.Has (.rule r) := by
  obtain ⟨b, bs, hnest, hr⟩ := h
  exact hnest.has b List.mem_cons_self _ hr

/-- Finitely many names are called in a program. -/
theorem finite_calls (p : Program) (caller : String) : {m | TransGen p.Calls caller m}.Finite := by
  let text : Node → String
    | .name m => m.text
    | _ => ""
  refine (p.finite_has.image text).subset fun name hname => ?_
  -- the last call on the way to a name is written in some rule
  obtain ⟨_, -, r, hr, -, c, hc, hcalls⟩ := TransGen.tail'_iff.1 hname
  obtain ⟨m, hm, rfl⟩ := hcalls.contains
  obtain ⟨i, hi, hcontains⟩ := hr.has.child hc
  exact ⟨.name m, ⟨i, hi, hcontains.trans hm⟩, rfl⟩

/-- The **rank** of a name: how many names it calls, directly or by way of others. -/
noncomputable def rank (p : Program) (name : String) : Nat := {m | TransGen p.Calls name m}.ncard

/-- Where no name calls itself, a name **ranks below** those that call it. -/
theorem rank_lt (hp : ¬p.Recursive) (h : p.Calls caller name) : p.rank name < p.rank caller := by
  refine Set.ncard_lt_ncard ⟨fun m hm => .head h hm, fun hsub => ?_⟩ (p.finite_calls caller)
  exact hp ⟨name, hsub (.single h)⟩

end Program

/-! ### What a task may cost -/

/-- A node is **bounded**: it calls names below a rank, and is not greater than a size. -/
structure Node.Bounded (p : Program) (rank size : Nat) (n : Node) : Prop where
  calls : ∀ name, n.Calls name → p.rank name < rank
  small : sizeOf n ≤ size

/-- A task is **bounded**: what is evaluated is, or the rule that is called is below the rank. -/
def Visit.Task.Bounded (p : Program) (rank size : Nat) : Visit.Task → Prop
  | .expr _ e => (Node.expr e).Bounded p rank size
  | .statement _ st => (Node.ofStatement st).Bounded p rank size
  | .invoke rule _ _ _ => p.rank rule.name < rank

/-- The **cost** of what is bounded: the rank counts first, and the size second. -/
noncomputable def Program.cost (p : Program) (rank size : Nat) : Nat :=
  rank * (sizeOf p.items + 1) + size

section Cost

variable {p : Program} {rank rank' size size' n m : Nat} {v v' u : Visit} {rule : Rule}

theorem Program.cost_lt_of_size (h : size' < size) : p.cost rank size' < p.cost rank size :=
  Nat.add_lt_add_left h _

theorem Program.cost_lt_of_rank (h : rank' < rank) (hsize : size' ≤ sizeOf p.items) :
    p.cost rank' size' < p.cost rank size := by
  have hmul := Nat.mul_le_mul_right (sizeOf p.items + 1) h
  rw [Nat.succ_mul] at hmul
  unfold cost
  omega

namespace Node.Bounded

variable {c node : Node}

/-- A part of what is bounded costs **less**. -/
theorem part (h : node.Bounded p rank size) (hc : c ∈ node.parts) :
    ∃ size' < size, c.Bounded p rank size' := by
  have hlt := sizeOf_lt_of_mem_children (mem_children_of_mem_parts hc)
  exact ⟨sizeOf c, Nat.lt_of_lt_of_le hlt h.small,
    fun name hname => h.calls name (.part hc hname), Nat.le_refl _⟩

/-- What is inside a rule is below the rank of its name. -/
theorem of_rule (hp : ¬p.Recursive) (hrule : p.Defines rule)
    (hc : c ∈ (Node.rule rule).children) : c.Bounded p (p.rank rule.name) (sizeOf p.items) :=
  ⟨fun _ hname => Program.rank_lt hp ⟨rule, hrule, rfl, c, hc, hname⟩,
    (hrule.has.child hc).sizeOf_le⟩

theorem expr_part {e : Expr} {scope : ScopeId} (h : node.Bounded p rank size)
    (hc : .expr e ∈ node.parts) :
    ∃ rank' size', (Visit.Task.expr scope e).Bounded p rank' size' ∧
      p.cost rank' size' < p.cost rank size := by
  obtain ⟨size', hlt, hbounded⟩ := h.part hc
  exact ⟨rank, size', hbounded, Program.cost_lt_of_size hlt⟩

theorem call {name : String} {holder : ScopeId} {args : List Value} {span : Span}
    (h : node.Bounded p rank size) (hcall : node.Calls name) (hname : rule.name = name) :
    ∃ rank' size', (Visit.Task.invoke rule holder args span).Bounded p rank' size' ∧
      p.cost rank' size' < p.cost rank size := by
  have hpos : 0 < sizeOf node := by cases node <;> simp
  subst hname
  exact ⟨rank, 0, h.calls _ hcall, Program.cost_lt_of_size (Nat.lt_of_lt_of_le hpos h.small)⟩

end Node.Bounded

/-- A rule that is found under a name has that name. -/
theorem Store.Mirrors.name_eq {s : Store} {scope holder : ScopeId} {path : List Block} {k : Nat}
    {name : String} (h : s.Mirrors scope path) (hk : (s.chain scope)[k]? = some holder)
    (hown : s.ownRule? holder name = some rule) : rule.name = name := by
  obtain ⟨c, f, -, hf, hm⟩ := h.get hk
  rw [Store.ownRule?, hf] at hown
  exact (hm.rules _ _ hown).1

theorem Store.Mirrors.name_of_callee {s : Store} {scope holder : ScopeId} {path : List Block}
    {name : Name} (h : s.Mirrors scope path)
    (hfound : Eval.callee s scope name = .ok (.rule rule holder)) :
    rule.name = name.text := by
  obtain ⟨k, hk, hown⟩ := Eval.callee_eq_rule hfound
  exact h.name_eq hk hown

theorem Visit.Scoped.defines {path : List Block} {holder : ScopeId} {args : List Value}
    {span : Span} {w : World} (h : Scoped p ⟨path, .invoke rule holder args span, w⟩) :
    p.Defines rule := by
  obtain ⟨b, bs, rfl, hr⟩ := h.stands
  exact ⟨b, bs, h.nest, hr⟩

/-- **Step**: what a bounded visit starts costs less. -/
theorem Visit.Scoped.starts_bounded (hp : ¬p.Recursive) (h : v.Scoped p)
    (hb : v.task.Bounded p rank size) (hs : v.Starts n v') :
    ∃ rank' size', v'.task.Bounded p rank' size' ∧ p.cost rank' size' < p.cost rank size := by
  have hconf := Eval.evaluatorConfined n
  cases hs with
  | operand => exact hb.expr_part (.head _)
  | left => exact hb.expr_part (.head _)
  | right => exact hb.expr_part (.tail _ (.head _))
  | argument => exact hb.expr_part (.tail _ (List.mem_map_of_mem (by simp)))
  | call hargs hfound =>
    -- the rank stays, for the rule that is called is below it, and the size is used up
    have hm := Eval.mirrors_of_confined (.arguments (hconf.expr _) _) h.mirrors hargs
    exact hb.call .callee (hm.name_of_callee hfound)
  | declared _ hv => exact hb.expr_part (.tail _ (List.mem_map_of_mem (by simp [hv])))
  | statementArgument _ _ hv => exact hb.expr_part (.tail _ (List.mem_map_of_mem (by simp [hv])))
  | statementCall hd hfound => exact hb.call (.property hd) (h.mirrors.name_of_callee hfound)
  | condition _ hparam =>
    exact hb.expr_part (.tail _ (List.mem_append_left _ (List.mem_map_of_mem (by simp [hparam]))))
  | payload _ _ hparam =>
    exact hb.expr_part (.tail _ (List.mem_append_left _ (List.mem_map_of_mem (by simp [hparam]))))
  | @inner path scope a e body w w' before st after value w'' hname _ hbody _ hsplit _ =>
    have hst : .ofStatement st ∈ (Node.atRule a).parts := by
      refine .tail _ (List.mem_append_right _ ?_)
      rw [if_pos hname, hbody, hsplit]
      exact List.mem_map_of_mem (by simp)
    obtain ⟨size', hlt, hbounded⟩ := Node.Bounded.part hb hst
    exact ⟨rank, size', hbounded, Program.cost_lt_of_size hlt⟩
  | @default path rule holder args span w before q after e w' _ hsplit _ _ hdefault =>
    -- inside the rule the rank is lower, and there is room again for any size
    have hq : q ∈ rule.selector.parameters := by simp [hsplit]
    have he : .expr e ∈ (Node.parameter q).parts := by simp [Node.parts, Node.children, hdefault]
    have hselector := Node.Bounded.of_rule hp h.defines (.head _)
    obtain ⟨size₁, hlt₁, hparameter⟩ := hselector.part (.tail _ (List.mem_map_of_mem hq))
    obtain ⟨size₂, hlt₂, hexpr⟩ := hparameter.part he
    exact ⟨_, size₂, hexpr, Program.cost_lt_of_rank hb (by omega)⟩
  | @body path rule holder args span w w' before st after value w'' _ _ hsplit _ =>
    have hst : .ofStatement st ∈ (Node.rule rule).children :=
      .tail _ (List.mem_map_of_mem (by simp [hsplit]))
    exact ⟨_, _, Node.Bounded.of_rule hp h.defines hst,
      Program.cost_lt_of_rank hb (Nat.le_refl _)⟩

/-- **Run**: a bounded visit leads no deeper than its cost. -/
theorem Visit.Scoped.depth_le (hp : ¬p.Recursive) (h : v.Scoped p)
    (hb : v.task.Bounded p rank size) (hr : Visit.Reaches n v m u) :
    n ≤ p.cost rank size + m := by
  induction hr generalizing rank size with
  | refl => exact Nat.le_add_left _ _
  | step hs _ ih =>
    obtain ⟨rank', size', hb', hlt⟩ := h.starts_bounded hp hb hs
    have hle := ih (h.starts hs) hb'
    omega

end Cost

/-- The main rule is bounded by the rank of its name. -/
theorem Program.Begins.bounded {p : Program} {sink : Sink} {v : Visit} (h : p.Begins sink v) :
    v.task.Bounded p (p.rank Eval.mainName + 1) 0 := by
  cases h with
  | @main w rule holder hregister hmain =>
    have hm := Eval.register_mirrors (.root p.block) (fun _ h => h) hregister
    obtain ⟨k, hk, hown⟩ := Store.rule?_eq_some hmain
    have hname : rule.name = Eval.mainName := hm.name_eq hk hown
    rw [Visit.Task.Bounded, hname]
    exact Nat.lt_succ_self _

/-- **Only recursion goes on without end.** If no name of a rule calls itself, directly or by way
of others, then there is a depth at which the program comes to an end on every sink, with a value
or with a fault; and with more depth it does the same. -/
theorem only_recursion_diverges (p : Program) (hp : ¬p.Recursive) :
    ∃ bound, ∀ sink, (p.report bound sink).1.outcome ≠ .exhausted ∧
      ∀ depth, bound ≤ depth → p.report depth sink = p.report bound sink := by
  refine ⟨p.cost (p.rank Eval.mainName + 1) 0 + 1, fun sink => ?_⟩
  have hends : (p.report (p.cost (p.rank Eval.mainName + 1) 0 + 1) sink).1.outcome ≠
      .exhausted := by
    intro hexhausted
    obtain ⟨u, main, hmain, hreaches⟩ := Program.visits_of_exhausted hexhausted
    have hle := hmain.scoped.depth_le hp hmain.bounded hreaches
    omega
  exact ⟨hends, fun depth hle => (Program.report_of_le hle hends).symm⟩

/-- A call without arguments, as a statement. -/
def Statement.call (name : String) : Statement := .declaration ⟨⟨name, default⟩, [], default⟩

/-- A rule that calls a rule inside. -/
def Rule.delegating : Rule :=
  .plain "main" [.rule (.plain "inner" [.call "print"]), .call "inner"]

/-- Calls go inward, and then to a builtin, so the run comes to an end. -/
theorem only_recursion_diverges_delegating :
    let p : Program := ⟨[.rule .delegating]⟩
    ¬p.Recursive ∧ ∃ bound, ∀ sink, (p.report bound sink).1.outcome ≠ .exhausted := by
  intro p
  have hblocks (path : List Block) (h : p.Nest path) :
      ∀ b ∈ path, b = p.block ∨ b = Rule.delegating.block ∨ b = ⟨[], [.call "print"]⟩ := by
    refine h.forall_mem (.inl rfl) fun b c hb hc => ?_
    obtain rfl | rfl | rfl := hb <;> cases hc <;>
      simp_all [Program.block, Item.statement, Rule.delegating, Rule.plain, Rule.block,
        Statement.call, p]
  let rank (name : String) : Nat := if name = "main" then 2 else if name = "inner" then 1 else 0
  have hcalls (caller name : String) (h : p.Calls caller name) : rank name < rank caller := by
    obtain ⟨r, ⟨b, bs, hnest, hr⟩, rfl, c, hc, hname⟩ := h
    obtain rfl | rfl | rfl := hblocks _ hnest b List.mem_cons_self
    · obtain rfl : r = .delegating := by simpa [Program.block, Item.statement, p] using hr
      obtain rfl : name = "inner" := by
        grind [cases Node.Calls, Node.children, Node.parts, Node.ofStatement, Rule.delegating,
          Rule.plain, Statement.call]
      decide
    · obtain rfl : r = .plain "inner" [.call "print"] := by
        simpa [Rule.block, Rule.delegating, Rule.plain, Statement.call] using hr
      obtain rfl : name = "print" := by
        grind [cases Node.Calls, Node.children, Node.parts, Node.ofStatement, Rule.plain,
          Statement.call]
      decide
    · simp [Statement.call] at hr
  have hrank (caller name : String) (h : Relation.TransGen p.Calls caller name) :
      rank name < rank caller := by
    induction h with
    | single h => exact hcalls _ _ h
    | tail _ h ih => exact Nat.lt_trans (hcalls _ _ h) ih
  have hp : ¬p.Recursive := by
    rintro ⟨name, h⟩
    exact Nat.lt_irrefl _ (hrank name name h)
  obtain ⟨bound, hbound⟩ := only_recursion_diverges p hp
  exact ⟨hp, bound, fun sink => (hbound sink).1⟩

end RuleScript
