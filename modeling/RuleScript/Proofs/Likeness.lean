import RuleScript.Proofs.Confinement
import RuleScript.Proofs.Gist

/-!
# Scopes that declare alike

Two scopes, in two stores, are **alike** if they declare the same variables and
rules of the same gist, and so do the scopes around them, step by step. Where the
scopes stand in their stores does not matter, and neither does anything else that
the stores hold.

* `Store.Alike.valueOf?_eq` and `Store.Alike.rule?`: from scopes that are alike
  the same is found, and a rule is held by scopes that are alike.
* `Store.Alike.of_grows`, `Store.Alike.of_own`, `Store.Alike.add`: likeness stays
  while the stores grow, while the same is declared in both, and goes over to
  scopes that are added.
-/

namespace RuleScript

/-- Frames that declare **alike**: the same variables, and rules of one gist. -/
structure Frame.Alike (v : View) (f g : Frame) : Prop where
  values : f.values = g.values
  rules : ∀ name : String, f.rules[name]?.map (Rule.gist v) = g.rules[name]?.map (Rule.gist v)

namespace Frame.Alike

variable {v : View} {f g : Frame}

/-- Frames in which nothing was declared are alike. -/
theorem within (p q : Option ScopeId) : (Frame.within p).Alike v (Frame.within q) :=
  ⟨rfl, fun _ => rfl⟩

theorem insertValue (h : f.Alike v g) (name : String) (value : Value) (p q : Option ScopeId) :
    Frame.Alike v ⟨f.values.insert name value, f.rules, p⟩
      ⟨g.values.insert name value, g.rules, q⟩ :=
  ⟨congrArg (fun values => values.insert name value) h.values, h.rules⟩

theorem insertRule (h : f.Alike v g) {r r' : Rule} (hr : r.gist v = r'.gist v)
    (name : String) (p q : Option ScopeId) :
    Frame.Alike v ⟨f.values, f.rules.insert name r, p⟩ ⟨g.values, g.rules.insert name r', q⟩ := by
  refine ⟨h.values, fun key => ?_⟩
  rw [Std.ExtTreeMap.getElem?_insert, Std.ExtTreeMap.getElem?_insert]
  split
  · exact congrArg some hr
  · exact h.rules key

/-- What statements of one gist declare leaves frames alike. -/
theorem declare (h : f.Alike v g) {st st' : Statement} (hst : st.gist v = st'.gist v)
    (outcome : Outcome Fault Flow) :
    (st.declare outcome f).Alike v (st'.declare outcome g) := by
  cases st <;> cases st' <;>
    simp only [Statement.gist, reduceCtorEq, Statement.rule.injEq, Statement.declaration.injEq]
      at hst
  case rule.rule r r' =>
    cases outcome with
    | done flow =>
      simp only [Statement.declare]
      rw [Rule.name_eq hst]
      exact h.insertRule hst _ _ _
    | failed fault => exact h
    | exhausted => exact h
  case declaration.declaration d d' =>
    have hname : d.property.text = d'.property.text :=
      Name.text_eq_of_seen (Declaration.mk.inj hst).1
    have hvariable : d.property.isVariable = d'.property.isVariable :=
      congrArg Name.hasDashes hname
    have hvar : d.property.variableName = d'.property.variableName :=
      congrArg Name.withoutDashes hname
    rcases outcome with (value | value) | fault | _
    · simp only [Statement.declare]
      rw [hvariable, hvar]
      split
      · exact h.insertValue _ _ _ _
      · exact h
    · exact h
    · exact h
    · exact h
  case atRule.atRule a a' => exact h

end Frame.Alike

/-- Scopes that are **alike**, with all scopes around them. -/
inductive Store.Alike (v : View) (s t : Store) : ScopeId → ScopeId → Prop
  /-- two roots -/
  | root {i j : ScopeId} {f g : Frame} (left : s.frames[i]? = some f)
    (right : t.frames[j]? = some g) (frames : f.Alike v g) (leftRoot : f.parent = none)
    (rightRoot : g.parent = none) : Alike v s t i j
  /-- two scopes inside scopes that are alike -/
  | inner {i j p q : ScopeId} {f g : Frame} (left : s.frames[i]? = some f)
    (right : t.frames[j]? = some g) (frames : f.Alike v g) (leftParent : f.parent = some p)
    (rightParent : g.parent = some q) (around : Alike v s t p q) : Alike v s t i j

namespace Store

/-! ### Looking up, one scope at a time -/

variable {s t : Store} {i j : ScopeId} {f g : Frame}

theorem parent?_of_frame (hf : s.frames[i]? = some f) : s.parent? i = f.parent := by
  rw [parent?, hf]
  rfl

/-- A variable is looked up in the scope itself, and then in the scope around it. -/
theorem valueOf?_of_frame (hf : s.frames[i]? = some f) (name : String) :
    s.valueOf? i name = f.values[name]?.or (f.parent.bind (s.valueOf? · name)) := by
  rw [valueOf?, chain_eq, List.findSome?_cons, hf, parent?_of_frame hf]
  dsimp only [Option.bind_some]
  cases hv : f.values[name]? with
  | some value => rfl
  | none => cases f.parent <;> rfl

/-- A rule is looked up in the scope itself, and then in the scope around it. -/
theorem rule?_of_frame (hf : s.frames[i]? = some f) (name : String) :
    s.rule? i name =
      (f.rules[name]?.map fun r => (r, i)).or (f.parent.bind (s.rule? · name)) := by
  rw [rule?, chain_eq, List.findSome?_cons, ownRule?, hf, parent?_of_frame hf]
  dsimp only [Option.bind_some]
  cases hr : f.rules[name]? with
  | some r => rfl
  | none => cases f.parent <;> rfl

namespace Alike

variable {v : View} {s' t' : Store} {own own' : Option ScopeId}

/-- The frames of two scopes that are alike. -/
theorem frames (h : s.Alike v t i j) :
    ∃ f g, s.frames[i]? = some f ∧ t.frames[j]? = some g ∧ f.Alike v g := by
  cases h with
  | root left right frames => exact ⟨_, _, left, right, frames⟩
  | inner left right frames => exact ⟨_, _, left, right, frames⟩

theorem lt_size (h : s.Alike v t i j) : i < s.frames.size ∧ j < t.frames.size := by
  obtain ⟨f, g, left, right, -⟩ := h.frames
  exact ⟨(Array.getElem?_eq_some_iff.1 left).1, (Array.getElem?_eq_some_iff.1 right).1⟩

/-! ### What is found -/

/-- From scopes that are alike a variable has the same value. -/
theorem valueOf?_eq (h : s.Alike v t i j) (name : String) :
    s.valueOf? i name = t.valueOf? j name := by
  induction h with
  | root left right frames leftRoot rightRoot =>
    rw [valueOf?_of_frame left, valueOf?_of_frame right, frames.values, leftRoot, rightRoot]
    rfl
  | inner left right frames leftParent rightParent around ih =>
    rw [valueOf?_of_frame left, valueOf?_of_frame right, frames.values, leftParent, rightParent]
    exact congrArg _ ih

/-- From scopes that are alike either no rule is found, or rules of one gist are,
held by scopes that are alike. -/
theorem rule? (h : s.Alike v t i j) (name : String) :
    (s.rule? i name = none ∧ t.rule? j name = none) ∨
    ∃ r a r' b, s.rule? i name = some (r, a) ∧ t.rule? j name = some (r', b) ∧
      r.gist v = r'.gist v ∧ s.Alike v t a b := by
  induction h with
  | @root i j f g left right frames leftRoot rightRoot =>
    have hrules := frames.rules name
    rw [rule?_of_frame left, rule?_of_frame right, leftRoot, rightRoot]
    rcases hf : f.rules[name]? with _ | r <;> rcases hg : g.rules[name]? with _ | r' <;>
      rw [hf, hg] at hrules
    · exact .inl ⟨rfl, rfl⟩
    · cases hrules
    · cases hrules
    · exact .inr ⟨r, i, r', j, rfl, rfl, Option.some.inj hrules,
        .root left right frames leftRoot rightRoot⟩
  | @inner i j p q f g left right frames leftParent rightParent around ih =>
    have hrules := frames.rules name
    rw [rule?_of_frame left, rule?_of_frame right, leftParent, rightParent]
    rcases hf : f.rules[name]? with _ | r <;> rcases hg : g.rules[name]? with _ | r' <;>
      rw [hf, hg] at hrules
    · exact ih
    · cases hrules
    · cases hrules
    · exact .inr ⟨r, i, r', j, rfl, rfl, Option.some.inj hrules,
        .inner left right frames leftParent rightParent around⟩

/-- Scopes that are alike lie equally deep. -/
theorem length_chain_eq (h : s.Alike v t i j) : (s.chain i).length = (t.chain j).length := by
  induction h with
  | root left right frames leftRoot rightRoot =>
    rw [chain_eq s, chain_eq t, parent?_of_frame left, parent?_of_frame right, leftRoot, rightRoot]
    rfl
  | inner left right frames leftParent rightParent around ih =>
    rw [chain_eq s, chain_eq t, parent?_of_frame left, parent?_of_frame right, leftParent,
      rightParent]
    simpa using ih

theorem depth_eq (h : s.Alike v t i j) : s.depth i = t.depth j := by
  rw [depth, depth, h.length_chain_eq]

/-! ### Likeness stays -/

/-- Scopes stay alike while nothing is declared in them or around them. What is
declared further in is no matter. -/
theorem of_grows (h : s.Alike v t i j) (hs : s.Grows own s') (ht : t.Grows own' t')
    (hi : ∀ k, own = some k → i < k) (hj : ∀ k, own' = some k → j < k) : s'.Alike v t' i j := by
  induction h with
  | root left right frames leftRoot rightRoot =>
    have left' := hs.same (fun hk => Nat.lt_irrefl _ (hi _ hk)) left
    have right' := ht.same (fun hk => Nat.lt_irrefl _ (hj _ hk)) right
    exact .root left' right' frames leftRoot rightRoot
  | inner left right frames leftParent rightParent around ih =>
    have left' := hs.same (fun hk => Nat.lt_irrefl _ (hi _ hk)) left
    have right' := ht.same (fun hk => Nat.lt_irrefl _ (hj _ hk)) right
    -- the scopes around lie further out still, below the one that is declared in
    have hp := s.outward _ _ left _ leftParent
    have hq := t.outward _ _ right _ rightParent
    exact .inner left' right' frames leftParent rightParent
      (ih (fun k hk => Nat.lt_trans hp (hi k hk)) fun k hk => Nat.lt_trans hq (hj k hk))

/-- Scopes stay alike while nothing is declared in any scope that is there. -/
theorem of_confined (h : s.Alike v t i j) (hs : s.Grows none s') (ht : t.Grows none t') :
    s'.Alike v t' i j :=
  h.of_grows hs ht nofun nofun

/-- Scopes stay alike if what is declared in them leaves their frames alike. -/
theorem of_own {f' g' : Frame} (h : s.Alike v t i j) (hs : s.Grows (some i) s')
    (ht : t.Grows (some j) t') (left : s'.frames[i]? = some f') (right : t'.frames[j]? = some g')
    (frames : f'.Alike v g') : s'.Alike v t' i j := by
  cases h with
  | root left₀ right₀ _ leftRoot rightRoot =>
    -- growth moves no scope, so the new frames stand inside what the old ones did
    obtain ⟨f₁, hf₁, hf₁p, -⟩ := hs _ _ left₀
    obtain ⟨g₁, hg₁, hg₁p, -⟩ := ht _ _ right₀
    obtain rfl := Option.some.inj (left.symm.trans hf₁)
    obtain rfl := Option.some.inj (right.symm.trans hg₁)
    exact .root left right frames (hf₁p.trans leftRoot) (hg₁p.trans rightRoot)
  | inner left₀ right₀ _ leftParent rightParent around =>
    obtain ⟨f₁, hf₁, hf₁p, -⟩ := hs _ _ left₀
    obtain ⟨g₁, hg₁, hg₁p, -⟩ := ht _ _ right₀
    obtain rfl := Option.some.inj (left.symm.trans hf₁)
    obtain rfl := Option.some.inj (right.symm.trans hg₁)
    have hp := s.outward _ _ left₀ _ leftParent
    have hq := t.outward _ _ right₀ _ rightParent
    refine .inner left right frames (hf₁p.trans leftParent) (hg₁p.trans rightParent) ?_
    exact around.of_grows hs ht (fun k hk => Option.some.inj hk ▸ hp)
      fun k hk => Option.some.inj hk ▸ hq

/-- Scopes that are added inside scopes that are alike are alike. -/
theorem add (h : s.Alike v t i j) :
    (s.add (some i)).Alike v (t.add (some j)) s.frames.size t.frames.size := by
  obtain ⟨hi, hj⟩ := h.lt_size
  have left : (s.add (some i)).frames[s.frames.size]? = some (.within (some i)) := by
    simp [Store.add, Option.filter, hi]
  have right : (t.add (some j)).frames[t.frames.size]? = some (.within (some j)) := by
    simp [Store.add, Option.filter, hj]
  exact .inner left right (.within _ _) rfl rfl (h.of_confined (.of_add _) (.of_add _))

/-- Roots that are added are alike. -/
theorem addRoot (s t : Store) :
    (s.add none).Alike v (t.add none) s.frames.size t.frames.size := by
  have left : (s.add none).frames[s.frames.size]? = some (.within none) := by simp [Store.add]
  have right : (t.add none).frames[t.frames.size]? = some (.within none) := by simp [Store.add]
  exact .root left right (.within _ _) rfl rfl

/-- Setting the same variable leaves scopes alike. -/
theorem setVariable (h : s.Alike v t i j) (name : String) (value : Value) :
    (s.setVariable i name value).Alike v (t.setVariable j name value) i j := by
  obtain ⟨f, g, left, right, hframes⟩ := h.frames
  exact h.of_own .of_setVariable .of_setVariable (getElem?_setVariable name value left)
    (getElem?_setVariable name value right) (hframes.insertValue name value _ _)

end Alike

end Store

end RuleScript
