import RuleScript.Proofs.Course

/-!
# Rules are registered by visits

The record of a run says of every rule that was defined how deep the scope lay
in which it was defined. Here the record is traced back to the visits of the run:
whatever was registered was registered by a statement that was **visited**. So
the visits leave nothing out, and what holds of every visit holds of the record.

`Records n v x w` is the statement that carries the argument: what the process
`x` registers from `w` is registered by visits that `v` leads to. It is a law of
visits, and so the evaluator follows it (`evaluatorRecords`).
-/

namespace RuleScript

/-- A visit **registers** a rule if it leads to a statement that defines it, in a
scope that lies so deep. -/
def Visit.Registers (n : Nat) (v : Visit) (name : String) (depth : Nat) : Prop :=
  ∃ m path scope r w, Visit.Reaches n v m ⟨path, .statement scope (.rule r), w⟩ ∧
    r.name = name ∧ w.store.depth scope = depth

theorem Store.depth_define {s t : Store} {id : ScopeId} {rule : Rule} (h : s.define id rule = .ok t)
    (i : ScopeId) : t.depth i = s.depth i := by
  unfold define at h
  split at h
  · cases h
  · cases h
    rw [depth, depth, chain_modify]

namespace Eval

variable {α β : Type} {n : Nat} {v : Visit} {w : World}

/-- What the process registers is registered by visits that `v` leads to. -/
def Records (n : Nat) (v : Visit) {α : Type} (x : Eval α) (w : World) : Prop :=
  ∀ name depth, .registeredRule name depth ∈ (x.run w).2.events →
    .registeredRule name depth ∈ w.events ∨ v.Registers n name depth

namespace Records

theorem bind {x : Eval α} {f : α → Eval β} (hx : Records n v x w)
    (hf : ∀ a w', x.run w = (.done a, w') → Records n v (f a) w') : Records n v (x >>= f) w := by
  intro name depth hmem
  rw [Process.run_bind] at hmem
  rcases h : x.run w with ⟨a | fault | _, w'⟩ <;> rw [h] at hmem
  · rcases hf a w' h name depth hmem with hmem | hreg
    · exact hx name depth (by rwa [h])
    · exact .inr hreg
  · exact hx name depth (by rwa [h])
  · exact hx name depth (by rwa [h])

/-- What a visit registers that `v` starts, `v` registers. -/
theorem of_starts {v' : Visit} {x : Eval α} (hs : v.Starts n v') (h : Records n v' x w) :
    Records (n + 1) v x w := by
  intro name depth hmem
  rcases h name depth hmem with hmem | ⟨m, path, scope, r, w', hr, hname, hdepth⟩
  · exact .inl hmem
  · exact .inr ⟨m, path, scope, r, w', .step hs hr, hname, hdepth⟩

/-- Calling a builtin is recorded, and nothing is registered. -/
theorem callBuiltin (b : Builtin) (args : List Value) (span : Span) :
    Records n v (Eval.callBuiltin b args span) w := by
  have hrecord : v.Quiet (record (.callingBuiltin b.name args.length)) w := .record (by simp)
  refine bind (fun name depth hmem => .inl (hrecord.registers name depth hmem)) ?_
  intro _ w' _ name depth hmem
  refine .inl ?_
  dsimp only at hmem
  split at hmem <;> exact hmem

end Records

/-- A rule that is defined is registered as deep as the scope it is defined in. -/
theorem define_registers {scope : ScopeId} {rule : Rule} {w : World} {name : String} {depth : Nat}
    (hmem : .registeredRule name depth ∈ ((define scope rule).run w).2.events) :
    .registeredRule name depth ∈ w.events ∨ rule.name = name ∧ w.store.depth scope = depth := by
  rcases hd : w.store.define scope rule with existing | t
  · rw [define_run_of_taken hd] at hmem
    rcases Array.mem_push.1 hmem with hmem | heq
    · exact .inl hmem
    · cases heq
  · rw [define_run_of_free hd] at hmem
    rcases Array.mem_push.1 hmem with hmem | heq
    · exact .inl hmem
    · cases heq
      exact .inr ⟨rfl, (Store.depth_define hd scope).symm⟩

/-- That what is registered is registered by visits is a **law**. -/
theorem recordsLaw : Visit.Law Records where
  exhaust := fun _ _ hmem => .inl hmem
  quiet h := fun name depth hmem => .inl (h.registers name depth hmem)
  bind := Records.bind
  define {n path scope r w} := by
    intro name depth hmem
    rcases define_registers hmem with hmem | ⟨hname, hdepth⟩
    · exact .inl hmem
    · exact .inr ⟨n + 1, path, scope, r, w, .refl, hname, hdepth⟩
  builtin _ := .callBuiltin _ _ _
  starts := Records.of_starts

/-- **The record is accounted for** at every depth. -/
theorem evaluatorRecords (n : Nat) : Visit.Follows Records n := recordsLaw.follows n

end Eval

end RuleScript
