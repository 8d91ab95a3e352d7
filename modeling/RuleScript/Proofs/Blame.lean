import RuleScript.Proofs.StaticScope

/-!
# What faults are blamed on

A fault is raised in a visit of the run, and the span it blames is that of a part of the
program. A rule that is defined twice is blamed together with the rule of that name which
stands before it in the same block.

* `Visit.Raises`: a visit raises a fault itself. Every fault of a run is raised by a visit
  (`Eval.evaluatorTraces`).
* `Visit.Sited` is the invariant of a visit: what its task blames is written in the program,
  and the scope of a statement has no rules but those of the statements before it.
* `Program.Blamed`: what the faults of a program are blamed on, however it is run
  (`Program.blamed_of_failed`).
* `redefinition_is_static`: a run defines a rule twice only where a block does.
-/

namespace RuleScript

/-! ### Faults are raised by visits -/

/-- A visit **raises** a fault itself. -/
inductive Visit.Raises : Visit → Fault → Prop where
  /-- one that blames a part of its task -/
  | part {v f} (h : f.Blames v.task.blamed) : Raises v f
  /-- that a rule is defined a second time -/
  | twice {path scope r w existing} (h : w.store.ownRule? scope r.name = some existing) :
    Raises ⟨path, .statement scope (.rule r), w⟩
      (.duplicateDefinition r.name r.selector.name.span existing.selector.name.span)

theorem Store.ownRule?_of_define {s : Store} {id : ScopeId} {rule existing : Rule}
    (h : s.define id rule = .error existing) : s.ownRule? id rule.name = some existing := by
  unfold define at h
  split at h
  · next heq =>
    cases h
    exact heq
  · cases h

namespace Eval

variable {α β : Type} {n : Nat} {v : Visit} {w : World}

/-- If the process fails, the fault is raised by a visit that `v` leads to. -/
def Traces (n : Nat) (v : Visit) {α : Type} (x : Eval α) (w : World) : Prop :=
  ∀ f w', x.run w = (.failed f, w') → ∃ m u, Visit.Reaches n v m u ∧ u.Raises f

theorem Traces.bind {x : Eval α} {f : α → Eval β} (hx : Traces n v x w)
    (hf : ∀ a w', x.run w = (.done a, w') → Traces n v (f a) w') : Traces n v (x >>= f) w := by
  intro fault w' hrun
  rw [Process.run_bind] at hrun
  rcases h : x.run w with ⟨a | fault' | _, w₁⟩ <;> rw [h] at hrun
  · exact hf a w₁ h fault w' hrun
  · cases hrun
    exact hx fault w' h
  · cases hrun

/-- A builtin blames the span it is called with. -/
theorem callBuiltin_blames {b : Builtin} {args : List Value} {span : Span} {f : Fault} {w' : World}
    {spans : List Span} (hspan : span ∈ spans)
    (h : (callBuiltin b args span).run w = (.failed f, w')) : f.Blames spans := by
  cases b with
  | print =>
    rw [callBuiltin, Process.run_bind_done rfl] at h
    dsimp only [Builtin.call] at h
    rcases args with _ | ⟨value, _ | ⟨value', args⟩⟩ <;> dsimp only [Builtin.printLine] at h
    · cases h
      exact ⟨rfl, span, hspan, rfl⟩
    · rcases hwrite : w.sink.write (value.display ++ "\n") with ⟨_ | _, sink⟩ <;>
        rw [hwrite] at h <;> cases h
      exact ⟨rfl, span, hspan, rfl⟩
    · cases h
      exact ⟨rfl, span, hspan, rfl⟩

/-- That faults are raised by visits is a **law**. -/
theorem tracesLaw : Visit.Law Traces where
  exhaust _ _ h := nomatch h
  quiet {n v _ _ _} h := fun f w' hrun => ⟨n, v, .refl, .part (h.blames f w' hrun)⟩
  bind := Traces.bind
  define {n _ scope r w} := by
    intro f w' hrun
    refine ⟨n + 1, _, .refl, ?_⟩
    rcases hd : w.store.define scope r with existing | t
    · rw [define_run_of_taken hd] at hrun
      cases hrun
      exact .twice (Store.ownRule?_of_define hd)
    · rw [define_run_of_free hd] at hrun
      cases hrun
  builtin {n v _ _ _ _} h := fun f w' hrun =>
    ⟨n + 1, v, .refl, .part (callBuiltin_blames h.mem_blamed hrun)⟩
  starts hs h := by
    intro f w' hrun
    obtain ⟨m, u, hreach, hraises⟩ := h f w' hrun
    exact ⟨m, u, .step hs hreach, hraises⟩

/-- **Every fault is raised** by a visit, at every depth. -/
theorem evaluatorTraces (n : Nat) : Visit.Follows Traces n := tracesLaw.follows n

end Eval

/-! ### Nodes of a program -/

/-- Names, selectors, declarations, at-rules and expressions may be **blamed**. Parameters and
rules are not blamed as a whole. -/
def Node.Blamable : Node → Prop
  | .name _ | .expr _ | .selector _ | .declaration _ | .atRule _ => True
  | .parameter _ | .rule _ => False

/-- Directly inside an expression there are only names and expressions. -/
theorem Node.blamable_of_mem_children {e : Expr} {c : Node} (h : c ∈ (Node.expr e).children) :
    c.Blamable := by
  cases e <;> simp only [children, List.mem_cons, List.mem_map, List.not_mem_nil] at h <;>
    grind [Blamable]

theorem Node.Contains.trans {n m k : Node} (h : n.Contains m) (hk : m.Contains k) :
    n.Contains k := by
  induction h with
  | self n => exact hk
  | child hm _ ih => exact .child hm (ih hk)

namespace Program

variable {p : Program} {b : Block} {bs : List Block}

theorem Has.child {n c : Node} (h : p.Has n) (hc : c ∈ n.children) : p.Has c := by
  obtain ⟨i, hi, hn⟩ := h
  exact ⟨i, hi, hn.trans (.child hc (.self c))⟩

theorem has_of_item {i : Item} (h : i ∈ p.items) : p.Has (.ofItem i) := ⟨i, h, .self _⟩

/-- The statements of a block of a program are nodes of it. -/
theorem Nest.has {path : List Block} (h : p.Nest path) :
    ∀ b ∈ path, ∀ st ∈ b.body, p.Has (.ofStatement st) := by
  refine h.forall_mem ?_ fun b c hb hc st hst => ?_
  · intro st hst
    obtain ⟨i, hi, rfl⟩ := List.mem_map.1 hst
    have hitem : p.Has (.ofItem i) := has_of_item hi
    cases i <;> exact hitem
  · cases hc with
    | @rule r hr =>
      have hrule := hb _ hr
      exact hrule.child (.tail _ (List.mem_map_of_mem hst))
    | @condition a body ha _ hbody =>
      have hatRule := hb _ ha
      refine hatRule.child (.tail _ (List.mem_append_right _ ?_))
      rw [hbody]
      exact List.mem_map_of_mem hst

/-- What a fault of a program is **blamed** on. -/
inductive Blamed (p : Program) : Fault → Prop where
  /-- a node -/
  | node {f n} (hn : p.Has n) (hkind : n.Blamable) (hspan : f.span? = some n.span)
    (hprevious : f.previous? = none) : Blamed p f
  /-- the name of a rule, and that name in an earlier rule of its block -/
  | twice {b bs before r after earlier} (hnest : p.Nest (b :: bs))
    (hbody : b.body = before ++ .rule r :: after) (hearlier : .rule earlier ∈ before)
    (hname : earlier.name = r.name) :
    Blamed p (.duplicateDefinition r.name r.selector.name.span earlier.selector.name.span)

end Program

/-! ### The invariant of a visit -/

/-- A task is **written** in a program: its expression is, or the node that is blamed for a
call. The statements of a scoped visit are written in the program anyway. -/
def Visit.Task.Written (p : Program) : Visit.Task → Prop
  | .expr _ e => p.Has (.expr e)
  | .statement _ _ => True
  | .invoke _ _ _ span => ∃ n, p.Has n ∧ n.Blamable ∧ n.span = span

/-- The statement of a task is run **in its turn**: it has its place in a block, and the scope
it is run in has no rules but those that stand before it. -/
def Visit.Task.InTurn (path : List Block) (s : Store) : Visit.Task → Prop
  | .statement scope st => ∃ b bs before after, path = b :: bs ∧ b.body = before ++ st :: after ∧
    s.Mirrors scope (⟨b.parameters, before⟩ :: bs)
  | _ => True

/-- A visit is **sited** if it is scoped, its task is written in the program, and a statement
is run in its turn. -/
structure Visit.Sited (p : Program) (v : Visit) : Prop where
  scope : v.Scoped p
  written : v.task.Written p
  inTurn : v.task.InTurn v.path v.world.store

namespace Visit

variable {p : Program} {n m : Nat} {v v' u : Visit}

/-- A statement that a scoped visit starts is run after those before it, in a scope that was
fresh. -/
theorem Scoped.starts_inTurn (h : v.Scoped p) (hs : v.Starts n v') :
    v'.task.InTurn v'.path v'.world.store := by
  have hconf := Eval.evaluatorConfined n
  cases hs
  case inner scope a e body w w₁ before st after value w' hname hparam hbody hcond hsplit hrun =>
    have hm := Eval.mirrors_of_confined (hconf.expr _ _) h.mirrors hcond
    exact ⟨_, _, before, after, rfl, hsplit,
      Eval.sequence_mirrors (hm.add ⟨[], before⟩) (fun _ hst => hst) hrun⟩
  case body path rule holder args span w w₁ before st after value w' hargs hbound hsplit hrun =>
    have hm := Eval.bindParameters_mirrors (b := ⟨rule.selector.parameters, before⟩)
      (hconf.expr holder) (h.mirrors.add _) (fun _ hq => hq) hbound
    exact ⟨_, _, before, after, rfl, hsplit, Eval.sequence_mirrors hm (fun _ hst => hst) hrun⟩
  all_goals exact trivial

/-- The statement of a scoped visit is a node of the program. -/
theorem Scoped.has_statement {path : List Block} {scope : ScopeId} {st : Statement} {w : World}
    (h : Scoped p ⟨path, .statement scope st, w⟩) : p.Has (.ofStatement st) := by
  obtain ⟨b, bs, rfl, hst⟩ := h.stands
  exact h.nest.has b List.mem_cons_self st hst

/-- The rule that a scoped visit calls is a node of the program. -/
theorem Scoped.has_rule {path : List Block} {rule : Rule} {holder : ScopeId} {args : List Value}
    {span : Span} {w : World} (h : Scoped p ⟨path, .invoke rule holder args span, w⟩) :
    p.Has (.rule rule) := by
  obtain ⟨b, bs, rfl, hr⟩ := h.stands
  exact h.nest.has b List.mem_cons_self _ hr

theorem Sited.starts_written (h : v.Sited p) (hs : v.Starts n v') : v'.task.Written p := by
  obtain ⟨hscoped, hwritten, -⟩ := h
  cases hs with
  | operand => exact hwritten.child (.head _)
  | left => exact hwritten.child (.head _)
  | right => exact hwritten.child (.tail _ (.head _))
  | argument => exact hwritten.child (.tail _ (List.mem_map_of_mem (by simp)))
  | call => exact ⟨_, hwritten, trivial, rfl⟩
  | declared _ hv =>
    exact hscoped.has_statement.child (.tail _ (List.mem_map_of_mem (by simp [hv])))
  | statementArgument _ _ hv =>
    exact hscoped.has_statement.child (.tail _ (List.mem_map_of_mem (by simp [hv])))
  | statementCall => exact ⟨_, hscoped.has_statement, trivial, rfl⟩
  | condition _ hparam =>
    refine hscoped.has_statement.child (.tail _ (List.mem_append_left _ ?_))
    exact List.mem_map_of_mem (by simp [hparam])
  | inner => exact trivial
  | payload _ _ hparam =>
    refine hscoped.has_statement.child (.tail _ (List.mem_append_left _ ?_))
    exact List.mem_map_of_mem (by simp [hparam])
  | @default path rule holder args span w before q after e w' _ hsplit _ _ hdefault =>
    -- the default stands in a parameter of the selector of the rule
    have hq : q ∈ rule.selector.parameters := by simp [hsplit]
    have hselector := hscoped.has_rule.child (.head _)
    have hparameter := hselector.child (.tail _ (List.mem_map_of_mem hq))
    refine hparameter.child (.tail _ ?_)
    rw [hdefault]
    exact .head _
  | body => exact trivial

/-- **Step**: what a sited visit starts is sited. -/
theorem Sited.starts (h : v.Sited p) (hs : v.Starts n v') : v'.Sited p :=
  ⟨h.scope.starts hs, h.starts_written hs, h.scope.starts_inTurn hs⟩

/-- **Run**: what a sited visit leads to is sited. -/
theorem Sited.reaches (h : v.Sited p) (hr : Reaches n v m u) : u.Sited p := by
  induction hr with
  | refl => exact h
  | step hs _ ih => exact ih (h.starts hs)

/-- What a sited visit blames are spans of nodes. -/
theorem Sited.blamed (h : v.Sited p) :
    ∀ s ∈ v.task.blamed, ∃ n, p.Has n ∧ n.Blamable ∧ n.span = s := by
  obtain ⟨path, task, w⟩ := v
  intro s hs
  cases task with
  | expr scope e =>
    have hexpr : p.Has (.expr e) := h.written
    obtain ⟨n, hn, rfl⟩ := List.mem_map.1 hs
    obtain rfl | hn := List.mem_cons.1 hn
    · exact ⟨_, hexpr, trivial, rfl⟩
    · exact ⟨n, hexpr.child hn, Node.blamable_of_mem_children hn, rfl⟩
  | statement scope st =>
    have hst := h.scope.has_statement
    cases st with
    | rule r => cases hs
    | declaration d =>
      obtain _ | ⟨_, _ | ⟨_, ⟨⟩⟩⟩ := hs
      · exact ⟨_, hst, trivial, rfl⟩
      · exact ⟨_, hst.child (.head _), trivial, rfl⟩
    | atRule a =>
      obtain _ | ⟨_, _ | ⟨_, hs⟩⟩ := hs
      · exact ⟨_, hst, trivial, rfl⟩
      · exact ⟨_, hst.child (.head _), trivial, rfl⟩
      · obtain ⟨e, he, rfl⟩ := List.mem_map.1 hs
        refine ⟨.expr e, hst.child (.tail _ (List.mem_append_left _ ?_)), trivial, rfl⟩
        exact List.mem_map_of_mem he
  | invoke rule holder args span =>
    obtain rfl := List.mem_singleton.1 hs
    exact h.written

/-- The faults that a sited visit raises are **blamed on the program**. -/
theorem Sited.raises {f : Fault} (h : v.Sited p) (hf : v.Raises f) : p.Blamed f := by
  cases hf with
  | part hblames =>
    obtain ⟨hprevious, s, hs, hspan⟩ := hblames
    obtain ⟨n, hn, hkind, rfl⟩ := h.blamed s hs
    exact .node hn hkind hspan hprevious
  | twice hown =>
    obtain ⟨b, bs, before, after, rfl, hbody, hm⟩ := h.inTurn
    obtain ⟨f, hf, hmirrors⟩ := hm.head
    rw [Store.ownRule?, hf] at hown
    obtain ⟨hname, hearlier⟩ := hmirrors.rules _ _ hown
    exact .twice h.scope.nest hbody hearlier hname

end Visit

/-! ### Programs -/

theorem Frame.Mirrors.mono {f : Frame} {b c : Block} (h : f.Mirrors b)
    (hparams : b.parameters = c.parameters) (hbody : b.body ⊆ c.body) : f.Mirrors c := by
  refine ⟨fun name r hr => ⟨(h.rules name r hr).1, hbody (h.rules name r hr).2⟩, ?_⟩
  intro name value hv
  rw [← hparams]
  exact (h.values name value hv).imp_left fun ⟨d, hd, hname⟩ => ⟨d, hbody hd, hname⟩

namespace Eval

variable {p : Program}

/-- **Registering** the items of a program fails with an at-rule, or with a rule that stands
behind another of its name. -/
theorem register_blamed {before items : List Item} {w w' : World} {root : ScopeId} {frame : Frame}
    {f : Fault} (hframe : w.store.frames[root]? = some frame)
    (hm : frame.Mirrors ⟨[], before.map Item.statement⟩) (hitems : p.items = before ++ items)
    (hrun : (register root items).run w = (.failed f, w')) : p.Blamed f := by
  induction items generalizing before w frame with
  | nil => cases hrun
  | cons item items ih =>
    cases item with
    | atRule a =>
      cases hrun
      have ha : Item.atRule a ∈ p.items := by simp [hitems]
      exact .node (Program.has_of_item ha) trivial rfl rfl
    | rule r =>
      rcases hr : frame.rules[r.name]? with _ | earlier
      · -- the rule is defined, and the others are registered behind it
        obtain ⟨t, ht, hframe'⟩ := Store.define_of_free hframe hr
        rw [register, Process.run_bind_done (define_run_of_free ht)] at hrun
        have hm' : frame.Mirrors ⟨[], (before ++ [Item.rule r]).map Item.statement⟩ :=
          hm.mono rfl (by simp)
        have hitems' : p.items = (before ++ [.rule r]) ++ items := by simp [hitems]
        exact ih hframe' (hm'.insertRule (by simp [Item.statement])) hitems' hrun
      · have htaken := Store.define_of_taken hframe hr
        rw [register, Process.run_bind_failed (define_run_of_taken htaken)] at hrun
        cases hrun
        have hbody : p.block.body =
            before.map Item.statement ++ .rule r :: items.map Item.statement := by
          simp [Program.block, hitems, Item.statement]
        obtain ⟨hname, hearlier⟩ := hm.rules _ _ hr
        exact .twice .top hbody hearlier hname

end Eval

namespace Program

variable {p : Program} {sink : Sink} {v : Visit} {f : Fault}

/-- A run begins with a sited visit: the main rule is called on behalf of its selector. -/
theorem Begins.sited (h : p.Begins sink v) : v.Sited p := by
  have hscoped := h.scoped
  cases h with
  | main hregister hmain =>
    have hselector := hscoped.has_rule.child (.head _)
    exact ⟨hscoped, ⟨_, hselector, trivial, rfl⟩, trivial⟩

/-- **Every fault of a program is blamed** on a part of it, except that there is no main rule. -/
theorem blamed_of_failed {depth : Nat} {w : World}
    (h : (Eval.program depth p).run (.start sink) = (.failed f, w)) :
    f = .missingMain ∨ p.Blamed f := by
  rw [Eval.program_run] at h
  rcases hrun : (Eval.register 0 p.items).run ⟨.add .empty none, sink, #[]⟩
    with ⟨_ | _ | _, w₁⟩ <;> rw [hrun] at h <;> dsimp only at h
  · rcases hrule : w₁.store.rule? 0 Eval.mainName with _ | ⟨rule, holder⟩ <;> rw [hrule] at h
    · cases h
      exact .inl rfl
    · have hmain : p.Begins sink _ := .main hrun hrule
      obtain ⟨m, u, hreach, hraises⟩ :=
        (Eval.evaluatorTraces depth).invoke [p.block] rule holder [] rule.selector.span _ f w h
      exact .inr ((hmain.sited.reaches hreach).raises hraises)
  · cases h
    have hitems : p.items = [] ++ p.items := rfl
    exact .inr (Eval.register_blamed rfl (.within _ _) hitems hrun)
  · cases h

end Program

/-! ### Rules that are defined twice -/

/-- The rules that stand directly in a block, in order. -/
def Block.rules (b : Block) : List Rule :=
  b.body.filterMap fun
    | .rule r => some r
    | _ => none

/-- A block **redefines** a name: of two rules of that name which stand directly in it, the
earlier has its name at one span and the later at the other. -/
def Block.Redefines (b : Block) (name : String) (previous span : Span) : Prop :=
  ∃ earlier later, [earlier, later].Sublist b.rules ∧ earlier.name = name ∧ later.name = name ∧
    earlier.selector.name.span = previous ∧ later.selector.name.span = span

/-- Where names are not used twice, none is redefined. -/
theorem Block.Redefines.not_nodup {b : Block} {name : String} {previous span : Span}
    (h : b.Redefines name previous span) : ¬(b.rules.map Rule.name).Nodup := by
  obtain ⟨earlier, later, hrules, hearlier, hlater, -, -⟩ := h
  intro hnodup
  have hpair := hnodup.sublist (hrules.map Rule.name)
  simp [hearlier, hlater] at hpair

/-- What is blamed for a second definition is a block of the program. -/
theorem Program.Blamed.redefines {p : Program} {name : String} {previous span : Span}
    (h : p.Blamed (.duplicateDefinition name span previous)) :
    ∃ b bs, p.Nest (b :: bs) ∧ b.Redefines name previous span := by
  cases h with
  | node _ _ _ hprevious => cases hprevious
  | @twice b bs before later after earlier hnest hbody hearlier hname =>
    refine ⟨b, bs, hnest, earlier, later, ?_, hname, rfl, rfl, rfl⟩
    -- one of the two stands before the split of the body, the other right behind it
    rw [Block.rules, hbody, List.filterMap_append, List.filterMap_cons]
    have hbefore : earlier ∈ Block.rules ⟨[], before⟩ := List.mem_filterMap.2 ⟨_, hearlier, rfl⟩
    exact (List.singleton_sublist.2 hbefore).append ((List.nil_sublist _).cons_cons later)

/-- **Rules are defined twice only where they are written twice.** When a run fails because a rule
was defined before, two rules of that name stand directly in one block of the program, at the two
spans that are blamed. So it never fails like that if no block has two rules of one name, whatever
is called, and however often. -/
theorem redefinition_is_static (p : Program) (depth : Nat) (sink : Sink) :
    (∀ name span previous w, (Eval.program depth p).run (.start sink) =
        (.failed (.duplicateDefinition name span previous), w) →
      ∃ b bs, p.Nest (b :: bs) ∧ b.Redefines name previous span) ∧
    ((∀ b bs, p.Nest (b :: bs) → (b.rules.map Rule.name).Nodup) →
      ∀ name span previous, ((Eval.program depth p).run (.start sink)).1 ≠
        .failed (.duplicateDefinition name span previous)) := by
  have hstatic (name : String) (span previous : Span) (w : World)
      (h : (Eval.program depth p).run (.start sink) =
        (.failed (.duplicateDefinition name span previous), w)) :
      ∃ b bs, p.Nest (b :: bs) ∧ b.Redefines name previous span := by
    obtain hmain | hblamed := Program.blamed_of_failed h
    · cases hmain
    · exact hblamed.redefines
  refine ⟨hstatic, fun hnodup name span previous hfailed => ?_⟩
  obtain ⟨b, bs, hnest, hredefines⟩ := hstatic name span previous _ (Prod.ext hfailed rfl)
  exact hredefines.not_nodup (hnodup b bs hnest)

/-- A rule that defines another rule and calls itself again, and what defines the other rule a
second time, if anything. -/
def Rule.redefining (again : List Statement) : Rule :=
  .plain "main" (.rule (.plain "inner" []) :: again ++
    [.declaration ⟨⟨"main", default⟩, [], default⟩])

/-- A second rule in the same block is one too many, while one rule can be defined in call after
call. -/
theorem redefinition_is_static_inner :
    let span : Span := ⟨⟨7, 1, 8⟩, ⟨12, 1, 13⟩⟩
    let twice : Program := ⟨[.rule (.redefining [.rule ⟨⟨⟨"inner", span⟩, [], span⟩, [], span⟩])]⟩
    let once : Program := ⟨[.rule (.redefining [])]⟩
    ((Eval.program 2 twice).run (.start (.empty none))).1 =
      .failed (.duplicateDefinition "inner" span default) ∧
    (∃ b bs, twice.Nest (b :: bs) ∧ b.Redefines "inner" default span) ∧
    ∀ depth name span previous, ((Eval.program depth once).run (.start (.empty none))).1 ≠
      .failed (.duplicateDefinition name span previous) := by
  intro span twice once
  have hfailed (sink : Sink) : ((Eval.program 2 twice).run (.start sink)).1 =
      .failed (.duplicateDefinition "inner" span default) := by cbv
  have hblocks (path : List Block) (h : once.Nest path) :
      ∀ b ∈ path, b = once.block ∨ b = (Rule.redefining []).block ∨ b = ⟨[], []⟩ := by
    refine h.forall_mem (.inl rfl) fun b c hb hc => ?_
    obtain rfl | rfl | rfl := hb <;> cases hc <;>
      simp_all [Program.block, Item.statement, Rule.redefining, Rule.plain, Rule.block, once]
  refine ⟨hfailed _,
    (redefinition_is_static twice 2 (.empty none)).1 _ _ _ _ (Prod.ext (hfailed _) rfl), ?_⟩
  intro depth
  refine (redefinition_is_static once depth _).2 fun b bs hnest => ?_
  obtain rfl | rfl | rfl := hblocks _ hnest b List.mem_cons_self <;> decide

end RuleScript
