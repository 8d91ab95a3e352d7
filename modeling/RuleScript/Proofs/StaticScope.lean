import Mathlib.Data.List.Forall2
import RuleScript.Proofs.Registration

/-!
# Scopes mirror the program text

While a program runs, scopes are made by recursion and by calls from anywhere.
The scopes that a task can **see**, though, are as many as the blocks its text
stands in, and each of them declares only what its block declares.

* `Store.Mirrors s scope path`: scope by scope, the chain from `scope` outward
  mirrors the blocks of `path`.
* `Visit.Scoped` is the invariant of a visit. `Visit.Scoped.starts` is the step
  lemma, one case for each way of starting a task; `Visit.Scoped.reaches` is what
  it comes to along a run.
-/

namespace RuleScript

/-! ### Scopes and blocks -/

/-- A scope **mirrors** a block if it holds only rules that are defined directly
in the block, and only variables that are declared directly in it or are
parameters of it. -/
structure Frame.Mirrors (f : Frame) (b : Block) : Prop where
  rules : ∀ name r, f.rules[name]? = some r → r.name = name ∧ .rule r ∈ b.body
  values : ∀ name value, f.values[name]? = some value →
    (∃ d, .declaration d ∈ b.body ∧ d.property.isVariable = true ∧
      d.property.variableName = name) ∨
    ∃ q ∈ b.parameters, q.name.variableName = name

/-- The chain from a scope outward mirrors blocks, each scope its own. -/
def Store.Mirrors (s : Store) (scope : ScopeId) (path : List Block) : Prop :=
  List.Forall₂ (fun i b => ∃ f, s.frames[i]? = some f ∧ f.Mirrors b) (s.chain scope) path

theorem Frame.Mirrors.within (parent : Option ScopeId) (b : Block) :
    (Frame.within parent).Mirrors b := by
  constructor <;> intro name x h <;> simp [Frame.within] at h

theorem Frame.Mirrors.insertRule {f : Frame} {b : Block} {r : Rule} (h : f.Mirrors b)
    (hr : .rule r ∈ b.body) :
    (Frame.mk f.values (f.rules.insert r.name r) f.parent).Mirrors b := by
  refine ⟨?_, h.values⟩
  intro name r' hr'
  dsimp only at hr'
  rw [Std.ExtTreeMap.getElem?_insert] at hr'
  split at hr'
  · next heq =>
    cases hr'
    exact ⟨Std.LawfulEqCmp.compare_eq_iff_eq.1 heq, hr⟩
  · exact h.rules name r' hr'

theorem Frame.Mirrors.insertValue {f : Frame} {b : Block} {name : String} {value : Value}
    (h : f.Mirrors b)
    (hname : (∃ d, .declaration d ∈ b.body ∧ d.property.isVariable = true ∧
        d.property.variableName = name) ∨ ∃ q ∈ b.parameters, q.name.variableName = name) :
    (Frame.mk (f.values.insert name value) f.rules f.parent).Mirrors b := by
  refine ⟨h.rules, ?_⟩
  intro name' value' hv
  dsimp only at hv
  rw [Std.ExtTreeMap.getElem?_insert] at hv
  split at hv
  · next heq =>
    cases hv
    rwa [← Std.LawfulEqCmp.compare_eq_iff_eq.1 heq]
  · exact h.values name' value' hv

namespace Store.Mirrors

variable {s t : Store} {scope : ScopeId} {b : Block} {path bs : List Block}

theorem length_chain (h : s.Mirrors scope path) : (s.chain scope).length = path.length :=
  List.Forall₂.length_eq h

/-- The first scope of the chain is there, and mirrors the innermost block. -/
theorem head (h : s.Mirrors scope (b :: bs)) : ∃ f, s.frames[scope]? = some f ∧ f.Mirrors b := by
  rw [Mirrors, chain_eq] at h
  exact (List.forall₂_cons.1 h).1

theorem lt_size (h : s.Mirrors scope path) : scope < s.frames.size := by
  rw [Mirrors, chain_eq] at h
  obtain ⟨b, bs, ⟨f, hf, -⟩, -, -⟩ := List.forall₂_cons_left_iff.1 h
  exact (Array.getElem?_eq_some_iff.1 hf).1

/-- Every scope of the chain mirrors the block as many levels outward. -/
theorem get {i : ScopeId} {k : Nat} (h : s.Mirrors scope path)
    (hk : (s.chain scope)[k]? = some i) :
    ∃ c f, path[k]? = some c ∧ s.frames[i]? = some f ∧ f.Mirrors c := by
  have hlt : k < path.length := by
    rw [← h.length_chain]
    exact (List.getElem?_eq_some_iff.1 hk).1
  obtain ⟨f, hf, hm⟩ := List.Forall₂.get h (List.getElem?_eq_some_iff.1 hk).1 hlt
  refine ⟨path[k], f, List.getElem?_eq_getElem hlt, ?_, hm⟩
  rw [← hf]
  congr 1
  simpa using (List.getElem?_eq_some_iff.1 hk).2.symm

/-- What is seen from a scope further out mirrors the blocks further out. -/
theorem drop {holder : ScopeId} {k : Nat} (h : s.Mirrors scope path)
    (hk : (s.chain scope)[k]? = some holder) : s.Mirrors holder (path.drop k) := by
  rw [Mirrors, ← drop_chain hk]
  exact List.forall₂_drop k h

/-- Growth that spares every scope spares what they mirror. -/
theorem of_grows (h : s.Mirrors scope path) (hg : s.Grows none t) : t.Mirrors scope path := by
  rw [Mirrors, hg.chain_eq h.lt_size]
  refine List.Forall₂.imp ?_ h
  rintro i c ⟨f, hf, hm⟩
  exact ⟨f, hg.same nofun hf, hm⟩

/-- If only the innermost scope is declared in, only it can cease to mirror its
block. -/
theorem of_own {g : Frame} (h : s.Mirrors scope (b :: bs)) (hg : s.Grows (some scope) t)
    (ht : t.frames[scope]? = some g) (hm : g.Mirrors b) : t.Mirrors scope (b :: bs) := by
  rw [Mirrors, hg.chain_eq h.lt_size, chain_eq]
  rw [Mirrors, chain_eq] at h
  refine List.forall₂_cons.2 ⟨⟨g, ht, hm⟩, ?_⟩
  have htail : ∀ i ∈ (s.parent? scope).elim [] s.chain, i < scope := by
    intro i hi
    apply lt_of_mem_tail_chain
    rw [chain_eq]
    exact hi
  refine List.Forall₂.imp ?_ ((List.forall₂_and_left _ _).2 ⟨htail, (List.forall₂_cons.1 h).2⟩)
  rintro i c ⟨hi, f, hf, hm⟩
  exact ⟨f, hg.same (fun heq => Nat.ne_of_gt hi (Option.some.inj heq)) hf, hm⟩

/-- A scope just added mirrors any block, inside what it was added in. -/
theorem add (h : s.Mirrors scope path) (b : Block) :
    (s.add (some scope)).Mirrors s.frames.size (b :: path) := by
  rw [Mirrors, chain_add s h.lt_size]
  refine List.forall₂_cons.2 ⟨⟨.within (some scope), ?_, .within _ _⟩, ?_⟩
  · rw [Store.add, Array.getElem?_push, if_pos rfl]
    simp [Option.filter, h.lt_size]
  · refine List.Forall₂.imp ?_ h
    rintro i c ⟨f, hf, hm⟩
    have hg : s.Grows none (s.add (some scope)) := .of_add _
    exact ⟨f, hg.same (by simp) hf, hm⟩

end Store.Mirrors

/-! ### What running the statements of a block leaves of the mirror -/

namespace Eval

variable {depth : Nat} {scope : ScopeId} {b : Block} {bs : List Block} {w w' : World}

theorem mirrors_of_confined {α : Type} {x : Eval α} {path : List Block}
    {outcome : Outcome Fault α} (hx : Confined none x) (h : w.store.Mirrors scope path)
    (hrun : x.run w = (outcome, w')) : w'.store.Mirrors scope path := by
  have hg := hx w
  rw [hrun] at hg
  exact h.of_grows hg

/-- What goes on in a scope just added spares every scope that was there. -/
theorem grows_of_entering {α : Type} {x : Eval α} {parent : ScopeId} {event : Event}
    {outcome : Outcome Fault α} (hx : Confined (some w.store.frames.size) x)
    (hrun : x.run ((w.noting event).entering parent) = (outcome, w')) :
    w.store.Grows none w'.store := by
  have hg := hx ((w.noting event).entering parent)
  rw [hrun] at hg
  have hadd : w.store.Grows (some w.store.frames.size) (w.store.add (some parent)) := .of_add _
  exact (hadd.trans hg).of_fresh (Nat.le_refl _)

/-- What a statement of the block declares is declared in the block. -/
theorem mirrors_declare {f : Frame} {st : Statement} (hf : f.Mirrors b) (hst : st ∈ b.body)
    (outcome : Outcome Fault Flow) : (st.declare outcome f).Mirrors b := by
  cases st with
  | rule r =>
    cases outcome with
    | done flow => exact hf.insertRule hst
    | failed fault => exact hf
    | exhausted => exact hf
  | atRule a => exact hf
  | declaration d =>
    rcases outcome with (value | value) | fault | _
    · rw [Statement.declare]
      split
      · next hd => exact hf.insertValue (.inl ⟨d, hst, hd, rfl⟩)
      · exact hf
    · exact hf
    · exact hf
    · exact hf

theorem statement_mirrors {st : Statement} {outcome : Outcome Fault Flow}
    (h : w.store.Mirrors scope (b :: bs)) (hst : st ∈ b.body)
    (hrun : (statement depth scope st).run w = (outcome, w')) :
    w'.store.Mirrors scope (b :: bs) := by
  obtain ⟨f, hf, hm⟩ := h.head
  have hg := (evaluatorConfined depth).statement scope st w
  rw [hrun] at hg
  exact h.of_own hg (statement_own_frame hf hrun) (mirrors_declare hm hst outcome)

theorem define_mirrors {rule : Rule} {outcome : Outcome Fault Unit}
    (h : w.store.Mirrors scope (b :: bs)) (hrule : .rule rule ∈ b.body)
    (hrun : (define scope rule).run w = (outcome, w')) : w'.store.Mirrors scope (b :: bs) := by
  have hst : ∃ ended, (statement 1 scope (.rule rule)).run w = (ended, w') := by
    rw [statement, Process.run_bind, hrun]
    cases outcome <;> exact ⟨_, rfl⟩
  obtain ⟨ended, hst⟩ := hst
  exact statement_mirrors h hrule hst

theorem sequence_mirrors {sts : List Statement} {last : Value} {outcome : Outcome Fault Flow}
    (h : w.store.Mirrors scope (b :: bs)) (hsts : ∀ st ∈ sts, st ∈ b.body)
    (hrun : (sequence (statement depth scope) last sts).run w = (outcome, w')) :
    w'.store.Mirrors scope (b :: bs) := by
  induction sts generalizing w last with
  | nil =>
    cases hrun
    exact h
  | cons st sts ih =>
    obtain ⟨hst, hsts⟩ := List.forall_mem_cons.1 hsts
    rw [sequence, Process.run_bind] at hrun
    rcases hx : (statement depth scope st).run w with ⟨flow | fault | _, w₁⟩ <;> rw [hx] at hrun
    · have h₁ := statement_mirrors h hst hx
      cases flow with
      | next value => exact ih h₁ hsts hrun
      | returned value =>
        cases hrun
        exact h₁
    · cases hrun
      exact statement_mirrors h hst hx
    · cases hrun
      exact statement_mirrors h hst hx

/-- Binding parameters of the block declares nothing else. -/
theorem bindParameters_mirrors {ev : Expr → Eval Value} {rule : String} {span : Span}
    {params : List Parameter} {args : List Value} {outcome : Outcome Fault Unit}
    (hev : ∀ e, Confined none (ev e)) (h : w.store.Mirrors scope (b :: bs))
    (hparams : ∀ q ∈ params, q ∈ b.parameters)
    (hrun : (bindParameters ev rule span scope params args).run w = (outcome, w')) :
    w'.store.Mirrors scope (b :: bs) := by
  induction params generalizing w args with
  | nil =>
    cases hrun
    exact h
  | cons q qs ih =>
    obtain ⟨hq, hqs⟩ := List.forall_mem_cons.1 hparams
    have hvalue := Confined.parameterValue hev rule span q args.head?
    rw [bindParameters, Process.run_bind] at hrun
    rcases hx : (parameterValue ev rule span q args.head?).run w with ⟨value | fault | _, w₁⟩ <;>
      rw [hx] at hrun
    · have h₁ := mirrors_of_confined hvalue h hx
      obtain ⟨f, hf, hm⟩ := h₁.head
      refine ih (h₁.of_own .of_setVariable (Store.getElem?_setVariable _ value hf) ?_) hqs hrun
      exact hm.insertValue (.inr ⟨q, hq, rfl⟩)
    · cases hrun
      exact mirrors_of_confined hvalue h hx
    · cases hrun
      exact mirrors_of_confined hvalue h hx

end Eval

/-! ### The invariant of a visit -/

/-- A visit is **scoped** if its path is a nest of the program in which its task
stands, and the scopes that the task can see mirror that path. -/
structure Visit.Scoped (p : Program) (v : Visit) : Prop where
  nest : p.Nest v.path
  stands : v.task.StandsIn v.path
  mirrors : v.world.store.Mirrors v.scope v.path

/-- Every block further out is itself the innermost of a nest. -/
theorem Program.Nest.drop {p : Program} {path : List Block} {k : Nat} (h : p.Nest path)
    (hk : k < path.length) : p.Nest (path.drop k) := by
  induction h generalizing k with
  | top =>
    obtain rfl : k = 0 := by simpa using hk
    exact .top
  | inner h hc ih =>
    cases k with
    | zero => exact h.inner hc
    | succ k => exact ih (by simpa using hk)

/-- A rule that is held by a scope of the chain is defined in the block that the
scope mirrors, and a call of it is scoped. -/
theorem Visit.scoped_call {p : Program} {s : Store} {scope holder : ScopeId} {path : List Block}
    {name : Name} {rule : Rule} {k : Nat} {args : List Value} {span : Span} {w : World}
    (hp : p.Nest path) (hm : s.Mirrors scope path)
    (hfound : Eval.callee s scope name = .ok (.rule rule holder))
    (hk : (s.chain scope)[k]? = some holder) (hg : s.Grows none w.store) :
    Visit.Scoped p ⟨path.drop k, .invoke rule holder args span, w⟩ := by
  obtain ⟨c, f, hc, hf, hmf⟩ := hm.get hk
  obtain ⟨hlt, hget⟩ := List.getElem?_eq_some_iff.1 hc
  obtain ⟨-, -, hown⟩ := Eval.callee_eq_rule hfound
  rw [Store.ownRule?, hf] at hown
  refine ⟨hp.drop hlt, ⟨c, path.drop (k + 1), ?_, ?_⟩, (hm.drop hk).of_grows hg⟩
  · change path.drop k = c :: path.drop (k + 1)
    rw [List.drop_eq_getElem_cons hlt, hget]
  · exact (hmf.rules _ _ hown).2

/-- A statement of a block is one of those before it or after it. -/
theorem Block.mem_of_split {b : Block} {before after : List Statement} {st : Statement}
    (h : b.body = before ++ st :: after) : st ∈ b.body ∧ ∀ st' ∈ before, st' ∈ b.body := by
  rw [h]
  exact ⟨by simp, fun st' hst => by simp [hst]⟩

/-- **Step**: what a scoped visit starts is scoped. -/
theorem Visit.Scoped.starts {p : Program} {depth : Nat} {v v' : Visit} (h : v.Scoped p)
    (hs : v.Starts depth v') : v'.Scoped p := by
  have hconf := Eval.evaluatorConfined depth
  obtain ⟨hp, hst, hm⟩ := h
  cases hs with
  | operand => exact ⟨hp, trivial, hm⟩
  | left => exact ⟨hp, trivial, hm⟩
  | right hleft hgoes =>
    exact ⟨hp, trivial, Eval.mirrors_of_confined (hconf.expr _ _) hm hleft⟩
  | argument hbefore =>
    exact ⟨hp, trivial, Eval.mirrors_of_confined (.arguments (hconf.expr _) _) hm hbefore⟩
  | call hargs hfound hk =>
    have hm' := Eval.mirrors_of_confined (.arguments (hconf.expr _) _) hm hargs
    exact scoped_call hp hm' hfound hk (.refl _)
  | declared hd hv => exact ⟨hp, trivial, hm⟩
  | statementArgument hd hfound hv hbefore =>
    exact ⟨hp, trivial, Eval.mirrors_of_confined (.arguments (hconf.expr _) _) hm hbefore⟩
  | @statementCall path scope d w rule holder k values w' hd hfound hk hargs =>
    have hg := Eval.Confined.arguments (hconf.expr scope) d.values w
    rw [hargs] at hg
    exact scoped_call hp hm hfound hk hg
  | condition hname hparam hbody => exact ⟨hp, trivial, hm⟩
  | @inner path scope a e body w w' before st after value w'' hname hparam hbody hcond hsplit
      hbefore =>
    obtain ⟨b, bs, rfl, ha⟩ := hst
    have hm' := Eval.mirrors_of_confined (hconf.expr _ _) hm hcond
    -- the block of the `@if` starts with a fresh scope around which nothing has changed
    have hfresh := hm'.add ⟨[], body⟩
    obtain ⟨hmem, hbefores⟩ := Block.mem_of_split (b := ⟨[], body⟩) hsplit
    exact ⟨hp.inner (.condition ha hname hbody), ⟨_, _, rfl, hmem⟩,
      Eval.sequence_mirrors hfresh hbefores hbefore⟩
  | payload hname hbody hparam => exact ⟨hp, trivial, hm⟩
  | @default path rule holder args span w before q after e w' hargs hsplit hbefore harg hdefault =>
    -- the parameters before this one are set in the fresh scope, which the default does not see
    have hg : w.store.Grows none w'.store :=
      Eval.grows_of_entering (.bindParameters (hconf.expr holder) _ _ _ _) hbefore
    exact ⟨hp, trivial, hm.of_grows hg⟩
  | @body path rule holder args span w w' before st after value w'' hargs hbound hsplit hbefore =>
    obtain ⟨b, bs, rfl, hr⟩ := hst
    have hfresh := hm.add rule.block
    have hparams := Eval.bindParameters_mirrors (b := rule.block) (hconf.expr holder) hfresh
      (fun _ hq => hq) hbound
    obtain ⟨hmem, hbefores⟩ := Block.mem_of_split (b := rule.block) hsplit
    exact ⟨hp.inner (.rule hr), ⟨_, _, rfl, hmem⟩,
      Eval.sequence_mirrors hparams hbefores hbefore⟩

/-- **Run**: what a scoped visit leads to is scoped. -/
theorem Visit.Scoped.reaches {p : Program} {n m : Nat} {v u : Visit} (h : v.Scoped p)
    (hr : Visit.Reaches n v m u) : u.Scoped p := by
  induction hr with
  | refl => exact h
  | step hs _ ih => exact ih (h.starts hs)

/-! ### Registering the rules of a program -/

namespace Eval

/-- The rules of a program are defined in a scope that mirrors its top level. -/
theorem register_mirrors {p : Program} {items : List Item} {w w' : World} {root : ScopeId}
    {outcome : Outcome Fault Unit} (h : w.store.Mirrors root [p.block])
    (hitems : ∀ item ∈ items, item ∈ p.items)
    (hrun : (register root items).run w = (outcome, w')) : w'.store.Mirrors root [p.block] := by
  induction items generalizing w with
  | nil =>
    cases hrun
    exact h
  | cons item items ih =>
    obtain ⟨hitem, hmore⟩ := List.forall_mem_cons.1 hitems
    cases item with
    | atRule a =>
      cases hrun
      exact h
    | rule r =>
      have hr : .rule r ∈ p.block.body := List.mem_map.2 ⟨_, hitem, rfl⟩
      rw [register, Process.run_bind] at hrun
      rcases hd : (define root r).run w with ⟨_ | _ | _, w₁⟩ <;> rw [hd] at hrun
      · exact ih (define_mirrors h hr hd) hmore hrun
      · cases hrun
        exact define_mirrors h hr hd
      · cases hrun
        exact define_mirrors h hr hd

end Eval

/-- A store with one scope, in which nothing is declared, mirrors the top level. -/
theorem Store.Mirrors.root (b : Block) : (Store.empty.add none).Mirrors 0 [b] := by
  have hchain : (Store.empty.add none).chain 0 = [0] := by
    rw [Store.chain_eq]
    rfl
  rw [Store.Mirrors, hchain]
  exact List.forall₂_cons.2 ⟨⟨.within none, rfl, .within _ _⟩, .nil⟩

/-- A run begins with a scoped visit. -/
theorem Program.Begins.scoped {p : Program} {sink : Sink} {v : Visit} (h : p.Begins sink v) :
    v.Scoped p := by
  obtain ⟨hregister, hmain⟩ := h
  have hm := Eval.register_mirrors (.root p.block) (fun _ h => h) hregister
  obtain ⟨k, hk, hown⟩ := Store.rule?_eq_some hmain
  obtain ⟨c, f, hc, hf, hmf⟩ := hm.get hk
  have hlt := (List.getElem?_eq_some_iff.1 hc).1
  obtain rfl : k = 0 := by simpa using hlt
  obtain rfl : p.block = c := by simpa using hc
  rw [Store.ownRule?, hf] at hown
  exact ⟨.top, ⟨_, _, rfl, (hmf.rules _ _ hown).2⟩, hm.drop hk⟩

/-! ### What the invariant says of a run -/

section Runs

variable {p : Program} {limit n : Nat} {sink : Sink} {v : Visit}

theorem Program.Visits.scoped (h : p.Visits limit sink n v) : v.Scoped p := by
  obtain ⟨main, hmain, hreach⟩ := h
  exact hmain.scoped.reaches hreach

theorem Program.Nest.getLast? {path : List Block} (h : p.Nest path) :
    path.getLast? = some p.block := by
  induction h with
  | top => rfl
  | inner h hc ih => rw [List.getLast?_cons_cons, ih]

/-- The chain of a scoped visit is as long as its path. -/
theorem Visit.Scoped.depth_eq (h : v.Scoped p) :
    v.world.store.depth v.scope + 1 = v.path.length := by
  rw [Store.depth, h.mirrors.length_chain]
  have hpos : 0 < v.path.length := by
    rw [← h.mirrors.length_chain]
    exact List.length_pos_iff.2 (Store.chain_ne_nil _ _)
  omega

/-- The outermost scope has no variables: at the top level there are neither
declarations nor parameters. -/
theorem Visit.Scoped.root_values (h : v.Scoped p) :
    ∃ (root : ScopeId) (f : Frame), (v.world.store.chain v.scope).getLast? = some root ∧
      v.world.store.frames[root]? = some f ∧ ∀ name : String, f.values[name]? = none := by
  have hpath := h.nest.getLast?
  rw [List.getLast?_eq_getElem?] at hpath
  have hlen : (v.world.store.chain v.scope).length - 1 < (v.world.store.chain v.scope).length := by
    have := List.length_pos_iff.2 (Store.chain_ne_nil v.world.store v.scope)
    omega
  have hget := List.getElem?_eq_getElem hlen
  obtain ⟨c, f, hc, hf, hm⟩ := h.mirrors.get hget
  rw [h.mirrors.length_chain, hpath] at hc
  obtain rfl := Option.some.inj hc
  refine ⟨_, f, by rw [List.getLast?_eq_getElem?, hget], hf, ?_⟩
  intro name
  rcases hv : f.values[name]? with _ | value
  · rfl
  · exfalso
    rcases hm.values name value hv with ⟨d, hd, -⟩ | ⟨q, hq, -⟩
    · obtain ⟨item, -, hitem⟩ := List.mem_map.1 hd
      cases item <;> cases hitem
    · cases hq

/-- A rule of the program, **so deep in its text**: it is defined at the top
level, or by a statement that a run visits. -/
def Program.DefinesAt (p : Program) (limit : Nat) (sink : Sink) (name : String) (depth : Nat) :
    Prop :=
  ∃ b bs r, p.Nest (b :: bs) ∧ .rule r ∈ b.body ∧ r.name = name ∧ bs.length = depth ∧
    (bs = [] ∨ ∃ n scope w, p.Visits limit sink n ⟨b :: bs, .statement scope (.rule r), w⟩)

/-- What the visits of a run register is defined as deep in the text. -/
theorem Program.definesAt_of_registers {main : Visit} {name : String} {depth : Nat}
    (hmain : p.Begins sink main) (h : main.Registers limit name depth) :
    p.DefinesAt limit sink name depth := by
  obtain ⟨m, path, scope, r, w, hreach, rfl, rfl⟩ := h
  have hvisit : p.Visits limit sink m ⟨path, .statement scope (.rule r), w⟩ := ⟨main, hmain, hreach⟩
  have hscoped := hvisit.scoped
  obtain ⟨b, bs, rfl, hr⟩ := hscoped.stands
  have hdepth : w.store.depth scope + 1 = bs.length + 1 := hscoped.depth_eq
  exact ⟨b, bs, r, hscoped.nest, hr, rfl, by omega, .inr ⟨m, scope, w, hvisit⟩⟩

/-- Registering the items of a program registers rules of the top level, at no
depth. -/
theorem Eval.register_registers {items : List Item} {w : World} {root : ScopeId} {name : String}
    {depth : Nat} (hm : w.store.Mirrors root [p.block]) (hitems : ∀ item ∈ items, item ∈ p.items)
    (hmem : .registeredRule name depth ∈ ((register root items).run w).2.events) :
    .registeredRule name depth ∈ w.events ∨ p.DefinesAt limit sink name depth := by
  induction items generalizing w with
  | nil => exact .inl hmem
  | cons item items ih =>
    obtain ⟨hitem, hmore⟩ := List.forall_mem_cons.1 hitems
    cases item with
    | atRule a => exact .inl hmem
    | rule r =>
      have hr : .rule r ∈ p.block.body := List.mem_map.2 ⟨_, hitem, rfl⟩
      have hdepth : w.store.depth root = 0 := by rw [Store.depth, hm.length_chain]; rfl
      have hdefine : .registeredRule name depth ∈ ((define root r).run w).2.events →
          .registeredRule name depth ∈ w.events ∨ p.DefinesAt limit sink name depth := by
        intro hmem
        rcases define_registers hmem with hmem | ⟨hname, rfl⟩
        · exact .inl hmem
        · exact .inr ⟨p.block, [], r, .top, hr, hname, hdepth.symm, .inl rfl⟩
      rw [register, Process.run_bind] at hmem
      rcases hd : (define root r).run w with ⟨_ | _ | _, w₁⟩ <;> rw [hd] at hmem hdefine
      · rcases ih (define_mirrors hm hr hd) hmore hmem with hmem | hdef
        · exact hdefine hmem
        · exact .inr hdef
      · exact hdefine hmem
      · exact hdefine hmem

/-- Every rule that a run registers is defined as deep in the text as its event
says. -/
theorem Eval.program_registers {name : String} {depth : Nat}
    (hmem : .registeredRule name depth ∈ ((program limit p).run (.start sink)).2.events) :
    p.DefinesAt limit sink name depth := by
  let start : World := ⟨Store.empty.add none, sink, #[]⟩
  have hreg : .registeredRule name depth ∈ ((register 0 p.items).run start).2.events →
      p.DefinesAt limit sink name depth := by
    intro hmem
    rcases register_registers (.root p.block) (fun _ h => h) hmem with hmem | hdef
    · simp [start] at hmem
    · exact hdef
  rw [program_run] at hmem
  rcases hrun : (register 0 p.items).run start with ⟨_ | _ | _, w₁⟩ <;> rw [hrun] at hmem hreg
  · dsimp only at hmem
    rcases hrule : w₁.store.rule? 0 mainName with _ | ⟨rule, holder⟩ <;> rw [hrule] at hmem
    · exact hreg hmem
    · have hmain : p.Begins sink _ := .main hrun hrule
      rcases (evaluatorRecords limit).invoke _ _ _ _ _ _ name depth hmem with hmem | hregs
      · rcases Array.mem_push.1 hmem with hmem | heq
        · exact hreg hmem
        · cases heq
      · exact Program.definesAt_of_registers hmain hregs
  · exact hreg hmem
  · exact hreg hmem

/-- Defining a rule in a visit records one event, and if that is a registration it
gives the depth of the block the statement stands in. -/
theorem Visit.Scoped.rule_event {b : Block} {bs : List Block} {scope : ScopeId} {r : Rule}
    {w : World} (h : Visit.Scoped p ⟨b :: bs, .statement scope (.rule r), w⟩) (n : Nat) :
    ∃ event, ((Eval.statement (n + 1) scope (.rule r)).run w).2.events = w.events.push event ∧
      (event = .registeredRule r.name bs.length ∨ ∃ loc, event = .duplicateRule r.name loc) := by
  have hdepth : w.store.depth scope + 1 = bs.length + 1 := h.depth_eq
  rw [Eval.statement, Process.run_bind]
  rcases hd : w.store.define scope r with existing | t
  · rw [Eval.define_run_of_taken hd]
    exact ⟨_, rfl, .inr ⟨_, rfl⟩⟩
  · rw [Eval.define_run_of_free hd, Store.depth_define hd, Nat.succ.inj hdepth]
    exact ⟨_, rfl, .inl rfl⟩

/-- The rule that a visit calls is defined in one of the blocks around the visit,
as many levels outward as it was found scopes outward. -/
theorem Visit.Scoped.call_defined {path : List Block} {rule : Rule} {holder : ScopeId}
    {args : List Value} {span : Span} {w : World} (h : v.Scoped p)
    (hs : v.Starts n ⟨path, .invoke rule holder args span, w⟩) :
    ∃ (k : Nat) (b : Block), (w.store.chain v.scope)[k]? = some holder ∧ path = v.path.drop k ∧
      v.path[k]? = some b ∧ .rule rule ∈ b.body := by
  obtain ⟨b, bs, hpath, hr⟩ := (h.starts hs).stands
  have hhead : path.head? = some b := congrArg List.head? hpath
  have hlt := h.mirrors.lt_size
  cases hs with
  | @call _ _ _ _ _ _ _ _ _ _ k _ _ hk =>
    exact ⟨k, b, hk, rfl, by rwa [← List.head?_drop], hr⟩
  | @statementCall _ scope d w' _ _ k values _ _ _ hk hargs =>
    have hg := Eval.Confined.arguments ((Eval.evaluatorConfined n).expr scope) d.values w'
    rw [hargs] at hg
    refine ⟨k, b, ?_, rfl, by rwa [← List.head?_drop], hr⟩
    exact (congrArg (·[k]?) (hg.chain_eq hlt)).trans hk

/-- **Static scoping.** In every run of every program, and for every task that is
visited in it:

* the task is done in a scope that lies exactly as deep as its block lies in the
  text; scope by scope outward, the chain holds only rules defined directly in the
  block at that level, and only variables declared directly in it or parameters of
  it; the outermost scope has no variables;
* the default of a parameter is evaluated where the block that defines the rule is
  mirrored;
* a rule that is called is defined directly in one of the blocks around the call;
* the depth that is recorded with the definition of a rule is the depth of that
  definition in the text, and nothing else is ever recorded. -/
theorem static_scoping (p : Program) (limit : Nat) (sink : Sink) :
    (∀ n v, p.Visits limit sink n v →
      p.Nest v.path ∧ v.task.StandsIn v.path ∧
      v.world.store.depth v.scope + 1 = v.path.length ∧
      v.world.store.Mirrors v.scope v.path ∧
      ∃ (root : ScopeId) (f : Frame), (v.world.store.chain v.scope).getLast? = some root ∧
        v.world.store.frames[root]? = some f ∧ ∀ name : String, f.values[name]? = none) ∧
    (∀ n path rule holder args span w scope e path' w',
      p.Visits limit sink (n + 1) ⟨path, .invoke rule holder args span, w⟩ →
      Visit.Starts n ⟨path, .invoke rule holder args span, w⟩ ⟨path', .expr scope e, w'⟩ →
      (∃ q ∈ rule.selector.parameters, q.default = some e) ∧ path' = path ∧ scope = holder ∧
      (∃ b bs, path = b :: bs ∧ .rule rule ∈ b.body) ∧ w'.store.Mirrors holder path) ∧
    (∀ n v path rule holder args span w, p.Visits limit sink (n + 1) v →
      v.Starts n ⟨path, .invoke rule holder args span, w⟩ →
      ∃ (k : Nat) (b : Block), (w.store.chain v.scope)[k]? = some holder ∧ path = v.path.drop k ∧
        v.path[k]? = some b ∧ .rule rule ∈ b.body) ∧
    (∀ n b bs scope r w, p.Visits limit sink (n + 1) ⟨b :: bs, .statement scope (.rule r), w⟩ →
      ∃ event, ((Eval.statement (n + 1) scope (.rule r)).run w).2.events = w.events.push event ∧
        (event = .registeredRule r.name bs.length ∨ ∃ loc, event = .duplicateRule r.name loc)) ∧
    ∀ name depth,
      .registeredRule name depth ∈ ((Eval.program limit p).run (.start sink)).2.events →
      p.DefinesAt limit sink name depth := by
  refine ⟨?_, ?_, ?_, ?_, ?_⟩
  · intro n v hv
    have h := hv.scoped
    exact ⟨h.nest, h.stands, h.depth_eq, h.mirrors, h.root_values⟩
  · intro n path rule holder args span w scope e path' w' hv hs
    have h := hv.scoped
    have hm := (h.starts hs).mirrors
    cases hs with
    | @default _ _ _ _ _ _ before q after _ _ hargs hsplit hbefore harg hdefault =>
      exact ⟨⟨q, by simp [hsplit], hdefault⟩, rfl, rfl, h.stands, hm⟩
  · intro n v path rule holder args span w hv hs
    exact hv.scoped.call_defined hs
  · intro n b bs scope r w hv
    exact hv.scoped.rule_event n
  · intro name depth hmem
    exact Eval.program_registers hmem

/-- A rule without parameters. -/
def Rule.plain (name : String) (body : List Statement) : Rule :=
  ⟨⟨⟨name, default⟩, [], default⟩, body, default⟩

/-- A program with a rule in its main rule. -/
def Program.twoLevels : Program := ⟨[.rule (.plain "main" [.rule (.plain "inner" [])])]⟩

/-- The inner rule of `Program.twoLevels` is defined at depth one. -/
theorem static_scoping_twoLevels :
    ∃ path w, Program.twoLevels.Visits 2 (.empty none) 1
        ⟨path, .statement 1 (.rule (.plain "inner" [])), w⟩ ∧
      path.length = 2 ∧ w.store.depth 1 + 1 = path.length := by
  let inner : Statement := .rule (.plain "inner" [])
  let main : Rule := .plain "main" [inner]
  obtain ⟨w, hmain, hsize⟩ : ∃ w : World, Program.twoLevels.Begins (.empty none)
      ⟨[Program.twoLevels.block], .invoke main 0 [] default, w⟩ ∧ w.store.frames.size = 1 := by
    refine ⟨_, .main rfl ?_, rfl⟩
    rw [Store.rule?, Store.chain_eq]
    rfl
  have hbody : Visit.Starts 1 ⟨[Program.twoLevels.block], .invoke main 0 [] default, w⟩
      ⟨[main.block, Program.twoLevels.block], .statement w.store.frames.size inner,
        (w.noting (.invokingRule "main" 0)).entering 0⟩ :=
    .body (Nat.le_refl _) rfl (show [inner] = [] ++ inner :: [] from rfl) rfl
  rw [hsize] at hbody
  have hvisits : Program.twoLevels.Visits 2 (.empty none) 1 _ := ⟨_, hmain, .step hbody .refl⟩
  exact ⟨_, _, hvisits, rfl, ((static_scoping _ 2 _).1 1 _ hvisits).2.2.1⟩

end Runs

end RuleScript
