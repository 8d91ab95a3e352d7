import RuleScript.Store

/-!
# Chains of scopes

What the operations of a store do to the scopes around a scope: nothing, for
every scope that is already there. A new scope comes in front of the chain of
the scope it was added in.

* `Store.chain_modify`: declaring something changes no chain.
* `Store.chain_add_of_lt`: adding a scope changes no chain that is there.
* `Store.chain_add`: the chain of a scope just added.
* `Store.drop_chain`: from one of its scopes on, a chain is that scope's own.
-/

namespace RuleScript.Store

/-- The chain of a scope, one step at a time. -/
theorem chain_eq (s : Store) (id : ScopeId) :
    s.chain id = id :: (s.parent? id).elim [] s.chain := by
  rw [chain]
  split
  · next h => simp [h]
  · next p h => simp [h]

/-- Chains are equal where the scopes around each scope up to it are. -/
theorem chain_congr {s t : Store} {id : ScopeId} (h : ∀ i ≤ id, s.parent? i = t.parent? i) :
    s.chain id = t.chain id := by
  induction id using Nat.strongRecOn with
  | ind id ih =>
    rw [chain_eq s, chain_eq t, h id (Nat.le_refl id)]
    cases hp : t.parent? id with
    | none => rfl
    | some p =>
      have hlt := parent?_lt hp
      simp only [Option.elim_some]
      rw [ih p hlt fun i hi => h i (Nat.le_trans hi (Nat.le_of_lt hlt))]

/-- Declaring something does not change the scope around a scope. -/
theorem parent?_modify (s : Store) (id : ScopeId) (change : Frame → Frame)
    (h : ∀ f, (change f).parent = f.parent) (i : ScopeId) :
    (s.modify id change h).parent? i = s.parent? i := by
  unfold parent? modify
  rw [Array.getElem?_modify]
  split
  · cases s.frames[i]? with
    | none => rfl
    | some f => simp [h]
  · rfl

/-- Declaring something does not change a chain. -/
theorem chain_modify (s : Store) (id : ScopeId) (change : Frame → Frame)
    (h : ∀ f, (change f).parent = f.parent) (i : ScopeId) :
    (s.modify id change h).chain i = s.chain i :=
  chain_congr fun j _ => parent?_modify s id change h j

/-- Adding a scope does not change the scope around one that is there. -/
theorem parent?_add_of_lt (s : Store) (parent : Option ScopeId) {i : ScopeId}
    (hi : i < s.frames.size) : (s.add parent).parent? i = s.parent? i := by
  unfold parent? add
  rw [Array.getElem?_push, if_neg (Nat.ne_of_lt hi)]

/-- Adding a scope does not change a chain that is there. -/
theorem chain_add_of_lt (s : Store) (parent : Option ScopeId) {i : ScopeId}
    (hi : i < s.frames.size) : (s.add parent).chain i = s.chain i :=
  chain_congr fun _ hj => parent?_add_of_lt s parent (Nat.lt_of_le_of_lt hj hi)

/-- The scope around a scope that was just added. -/
theorem parent?_add (s : Store) {p : ScopeId} (hp : p < s.frames.size) :
    (s.add (some p)).parent? s.frames.size = some p := by
  unfold parent? add
  rw [Array.getElem?_push, if_pos rfl]
  simp [Frame.within, Option.filter, hp]

/-- The chain of a scope that was just added goes on with that of the scope
around it. -/
theorem chain_add (s : Store) {p : ScopeId} (hp : p < s.frames.size) :
    (s.add (some p)).chain s.frames.size = s.frames.size :: s.chain p := by
  rw [chain_eq, parent?_add s hp]
  simp only [Option.elim_some]
  rw [chain_add_of_lt s (some p) hp]

/-- The first scope lies in no other, for there was none before it. -/
theorem chain_zero (s : Store) : s.chain 0 = [0] := by
  rw [chain_eq]
  rcases hp : s.parent? 0 with _ | p
  · rfl
  · exact absurd (parent?_lt hp) (Nat.not_lt_zero p)

theorem depth_zero (s : Store) : s.depth 0 = 0 := by
  rw [depth, chain_zero]
  rfl

/-- A chain begins with the scope it belongs to. -/
theorem chain_ne_nil (s : Store) (id : ScopeId) : s.chain id ≠ [] := by
  rw [chain_eq]
  exact List.cons_ne_nil _ _

/-- A scope that was just added lies one deeper than the scope around it. -/
theorem depth_add (s : Store) {p : ScopeId} (hp : p < s.frames.size) :
    (s.add (some p)).depth s.frames.size = s.depth p + 1 := by
  unfold depth
  rw [chain_add s hp]
  have := List.length_pos_iff.2 (chain_ne_nil s p)
  simp only [List.length_cons]
  omega

/-! ### Searching a chain -/

variable {s : Store} {i j : ScopeId} {k : Nat}

/-- From one of its scopes on, a chain is the chain of that scope. -/
theorem drop_chain (h : (s.chain i)[k]? = some j) : (s.chain i).drop k = s.chain j := by
  induction i using Nat.strongRecOn generalizing k with
  | ind i ih =>
    rw [chain_eq] at h ⊢
    cases k with
    | zero =>
      obtain rfl : i = j := by simpa using h
      rw [List.drop_zero, ← chain_eq]
    | succ k =>
      rcases hp : s.parent? i with _ | p
      · rw [hp] at h
        simp at h
      · rw [hp] at h
        exact ih p (parent?_lt hp) h

/-- A chain only goes back to scopes that were added before. -/
theorem le_of_mem_chain (h : j ∈ s.chain i) : j ≤ i := by
  induction i using Nat.strongRecOn with
  | ind i ih =>
    rw [chain_eq] at h
    rcases List.mem_cons.1 h with rfl | h
    · exact Nat.le_refl _
    · rcases hp : s.parent? i with _ | p
      · rw [hp] at h
        simp at h
      · rw [hp] at h
        have hlt := parent?_lt hp
        exact Nat.le_trans (ih p hlt h) (Nat.le_of_lt hlt)

/-- The scopes around a scope are other scopes. -/
theorem lt_of_mem_tail_chain (h : j ∈ (s.chain i).tail) : j < i := by
  rw [chain_eq, List.tail_cons] at h
  rcases hp : s.parent? i with _ | p
  · rw [hp] at h
    simp at h
  · rw [hp] at h
    exact Nat.lt_of_le_of_lt (le_of_mem_chain h) (parent?_lt hp)

/-- A chain goes back to scopes that were added before, and so never comes to the same scope
again. -/
theorem pairwise_chain (s : Store) (i : ScopeId) : (s.chain i).Pairwise (· > ·) := by
  induction i using Nat.strongRecOn with
  | ind i ih =>
    rw [chain_eq]
    rcases hp : s.parent? i with _ | p
    · simp
    · have hlt := parent?_lt hp
      refine List.pairwise_cons.2 ⟨fun j hj => ?_, ih p hlt⟩
      exact Nat.lt_of_le_of_lt (le_of_mem_chain hj) hlt

/-- A rule is found in a scope of the chain, under its name. -/
theorem rule?_eq_some {name : String} {rule : Rule} (h : s.rule? i name = some (rule, j)) :
    ∃ k : Nat, (s.chain i)[k]? = some j ∧ s.ownRule? j name = some rule := by
  obtain ⟨l, hl, hrule⟩ := List.exists_of_findSome?_eq_some h
  obtain ⟨r, hr, heq⟩ := Option.map_eq_some_iff.1 hrule
  cases heq
  obtain ⟨k, hk⟩ := List.mem_iff_getElem?.1 hl
  exact ⟨k, hk, hr⟩

end RuleScript.Store
