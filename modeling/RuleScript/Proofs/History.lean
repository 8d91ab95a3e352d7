import RuleScript.Store.Chain

/-!
# A store follows its history

Scopes are added and copied, variables are set and read, rules are defined and found, in any
order and through any number of handles. What was **done** decides what is found: here the
answers of a store are read off the list of actions, without the store.

* `Store.Action`, `Store.perform`, `Store.after`: what can be done, what it is answered with,
  and the store that a list of actions leaves.
* `Store.parents`, `Store.lastSet`, `Store.firstDefined`: what the actions say of a scope.
* `Store.Records` is the invariant: a store holds what its history says.
  `Store.Records.perform` is the step lemma, `Store.Records.after` what it comes to.
* `store_follows_history`: what every action is answered with, and how far it is seen.
-/

namespace RuleScript.Store

/-! ### Actions -/

/-- Something that is **done** with scopes. A scope is named by a handle of it. -/
inductive Action where
  /-- add a root -/
  | new
  /-- add a scope inside a scope -/
  | fork (scope : ScopeId)
  /-- copy a handle -/
  | clone (scope : ScopeId)
  /-- set a variable in a scope -/
  | setVariable (scope : ScopeId) (name : String) (value : Value)
  /-- read a variable from a scope -/
  | readVariable (scope : ScopeId) (name : String)
  /-- define a rule in a scope -/
  | define (scope : ScopeId) (rule : Rule)
  /-- find a rule from a scope -/
  | findRule (scope : ScopeId) (name : String)

/-- What an action is **answered** with. -/
inductive Answer where
  /-- a handle -/
  | handle (scope : ScopeId)
  /-- that it is done -/
  | done
  /-- the rule that has the name already -/
  | taken (existing : Rule)
  /-- the value of a variable -/
  | value (result : Except LookupError Value)
  /-- a rule and a handle of the scope that holds it -/
  | rule (result : Except LookupError (Rule × ScopeId))

/-- Performs an action. -/
def perform (s : Store) : Action → Answer × Store
  | .new => (.handle s.frames.size, s.add none)
  | .fork i => (.handle s.frames.size, s.add (some i))
  | .clone i => (.handle i, s)
  | .setVariable i name value => (.done, s.setVariable i name value)
  | .readVariable i name => (.value (s.readVariable i name), s)
  | .define i rule =>
    match s.define i rule with
    | .ok t => (.done, t)
    | .error existing => (.taken existing, s)
  | .findRule i name => (.rule (s.findRule i name), s)

/-- The store after actions. -/
def after (s : Store) (acts : List Action) : Store := acts.foldl (fun s a => (s.perform a).2) s

/-! ### What is read off the actions -/

namespace Action

/-- The scope that an action names. -/
def scope? : Action → Option ScopeId
  | .new => none
  | .fork i | .clone i | .setVariable i _ _ | .readVariable i _ | .define i _ | .findRule i _ =>
    some i

/-- What is around the scope that an action adds, if it adds one. -/
def around? : Action → Option (Option ScopeId)
  | .new => some none
  | .fork i => some (some i)
  | _ => none

/-- The value that an action sets a variable of a scope to, if it does. -/
def value? (i : ScopeId) (name : String) : Action → Option Value
  | .setVariable j other value => if j = i ∧ other = name then some value else none
  | _ => none

/-- The rule that an action is to define in a scope under a name, if it is. -/
def rule? (i : ScopeId) (name : String) : Action → Option Rule
  | .define j rule => if j = i ∧ rule.name = name then some rule else none
  | _ => none

end Action

/-- What is around the scopes that were added, in the order in which they were. -/
def parents (acts : List Action) : List (Option ScopeId) := acts.filterMap Action.around?

/-- The value that a variable of a scope was **last** set to. -/
def lastSet (acts : List Action) (i : ScopeId) (name : String) : Option Value :=
  acts.reverse.findSome? (Action.value? i name)

/-- The rule that was **first** to be defined in a scope under a name. -/
def firstDefined (acts : List Action) (i : ScopeId) (name : String) : Option Rule :=
  acts.findSome? (Action.rule? i name)

/-- Actions that each name a scope which is there at the time, where there are so many scopes
to begin with. -/
def Admissible : Nat → List Action → Prop
  | _, [] => True
  | count, a :: more =>
    (∀ i, a.scope? = some i → i < count) ∧ Admissible (count + (parents [a]).length) more

section Actions

variable {acts more : List Action} {a : Action} {i : ScopeId} {name : String} {count : Nat}

/-- The scopes of a history are those of **its parts**, in order. -/
theorem parents_append : parents (acts ++ more) = parents acts ++ parents more :=
  List.filterMap_append

/-- What was set last was set **in the later part**, if it was set there. -/
theorem lastSet_append :
    lastSet (acts ++ more) i name = (lastSet more i name).or (lastSet acts i name) := by
  rw [lastSet, List.reverse_append, List.findSome?_append]
  rfl

/-- What was defined first was defined **in the earlier part**, if it was defined there. -/
theorem firstDefined_append :
    firstDefined (acts ++ more) i name = (firstDefined acts i name).or (firstDefined more i name) :=
  List.findSome?_append

/-- What is around the scope that the last action adds. -/
theorem getElem?_parents_concat : (parents acts ++ parents [a])[i]? =
    if i = (parents acts).length then a.around? else (parents acts)[i]? := by
  have hlast : parents [a] = a.around?.toList := by
    cases ha : a.around? <;> simp [parents, ha]
  rw [hlast]
  cases a.around? with
  | none =>
    rw [Option.toList_none, List.append_nil]
    split
    · next h => simp [h]
    · rfl
  | some parent =>
    rw [Option.toList_some]
    grind

/-! An action may be left out of a history if it adds, sets or defines something else. -/

/-- An action that opens no scope **may be left out** where scopes are counted. -/
theorem parents_erase (h : a.around? = none) :
    parents (acts ++ a :: more) = parents (acts ++ more) := by
  rw [parents_append, parents_append]
  simp [parents, h]

/-- An action that does not set the variable **may be left out** where it is read. -/
theorem lastSet_erase (h : a.value? i name = none) :
    lastSet (acts ++ a :: more) i name = lastSet (acts ++ more) i name := by
  have hcons : lastSet (a :: more) i name = lastSet more i name := by
    simp [lastSet, List.findSome?_append, h]
  rw [lastSet_append, lastSet_append, hcons]

/-- An action that does not define the rule **may be left out** where it is looked up. -/
theorem firstDefined_erase (h : a.rule? i name = none) :
    firstDefined (acts ++ a :: more) i name = firstDefined (acts ++ more) i name := by
  rw [firstDefined_append, firstDefined_append]
  simp [firstDefined, h]

/-- An action that opens no scope **is not needed** by those behind it. -/
theorem Admissible.erase (h : Admissible count (a :: more)) (ha : a.around? = none) :
    Admissible count more := by
  have hmore := h.2
  simpa [parents, ha] using hmore

end Actions

/-! ### What a scope itself has -/

/-- The value that a scope itself has for a variable. -/
def ownValue? (s : Store) (i : ScopeId) (name : String) : Option Value :=
  s.frames[i]?.bind fun f => f.values[name]?

section Own

variable {s t : Store} {i j : ScopeId} {name other : String}

/-- A scope just added has nothing. -/
theorem ownValue?_add (parent : Option ScopeId) :
    (s.add parent).ownValue? i name = s.ownValue? i name := by
  unfold ownValue? add
  rw [Array.getElem?_push]
  split
  · next h => simp [h, Frame.within]
  · rfl

theorem ownRule?_add (parent : Option ScopeId) :
    (s.add parent).ownRule? i name = s.ownRule? i name := by
  unfold ownRule? add
  rw [Array.getElem?_push]
  split
  · next h => simp [h, Frame.within]
  · rfl

/-- A scope that is opened stands in the one it was **opened in**, if there is such a scope. -/
theorem parent?_add_eq (parent : Option ScopeId) :
    (s.add parent).parent? i =
      if i = s.frames.size then parent.filter (· < s.frames.size) else s.parent? i := by
  unfold parent? add
  rw [Array.getElem?_push]
  split <;> rfl

/-- A variable that is set has **its new value**, in the scope it is set in. -/
theorem ownValue?_setVariable (hi : i < s.frames.size) (value : Value) :
    (s.setVariable i name value).ownValue? j other =
      (Action.value? j other (.setVariable i name value)).or (s.ownValue? j other) := by
  unfold ownValue? setVariable modify
  rw [Array.getElem?_modify, Action.value?]
  by_cases hij : i = j
  · subst hij
    rw [if_pos rfl, Array.getElem?_eq_getElem hi]
    by_cases hname : name = other
    · simp [hname]
    · simp [Std.ExtTreeMap.getElem?_insert, hname]
  · rw [if_neg hij, if_neg (fun h => hij h.1), Option.none_or]

theorem ownRule?_setVariable (value : Value) :
    (s.setVariable i name value).ownRule? j other = s.ownRule? j other := by
  unfold ownRule? setVariable modify
  rw [Array.getElem?_modify]
  split <;> cases s.frames[j]? <;> rfl

/-- A rule is refused where its name is taken, and defined where it is free. -/
theorem perform_define (s : Store) (i : ScopeId) (rule : Rule) :
    (∃ existing, s.ownRule? i rule.name = some existing ∧
      s.perform (.define i rule) = (.taken existing, s)) ∨
    ∃ t, s.ownRule? i rule.name = none ∧ s.define i rule = .ok t ∧
      s.perform (.define i rule) = (.done, t) := by
  simp only [perform, Store.define]
  cases s.ownRule? i rule.name with
  | some existing => exact .inl ⟨existing, rfl, rfl⟩
  | none => exact .inr ⟨_, rfl, rfl, rfl⟩

/-- A rule that is defined is added to the rules of the scope, and nothing else changes. -/
theorem eq_modify_of_define {rule : Rule} (h : s.define i rule = .ok t) :
    t = s.modify i (fun f => ⟨f.values, f.rules.insert rule.name rule, f.parent⟩) fun _ => rfl := by
  unfold Store.define at h
  split at h
  · cases h
  · exact (Except.ok.inj h).symm

theorem ownValue?_define {rule : Rule} (h : s.define i rule = .ok t) :
    t.ownValue? j other = s.ownValue? j other := by
  rw [eq_modify_of_define h]
  unfold ownValue? modify
  rw [Array.getElem?_modify]
  split <;> cases s.frames[j]? <;> rfl

/-- A rule that is defined is found under **its name**, in the scope it is defined in. -/
theorem ownRule?_define {rule : Rule} (hi : i < s.frames.size)
    (hfree : s.ownRule? i rule.name = none) (h : s.define i rule = .ok t) :
    t.ownRule? j other = (s.ownRule? j other).or (Action.rule? j other (.define i rule)) := by
  rw [eq_modify_of_define h]
  unfold ownRule? modify
  rw [Array.getElem?_modify, Action.rule?]
  by_cases hij : i = j
  · subst hij
    rw [ownRule?, Array.getElem?_eq_getElem hi, Option.bind_some] at hfree
    rw [if_pos rfl, Array.getElem?_eq_getElem hi]
    by_cases hname : rule.name = other
    · subst hname
      simp [hfree]
    · simp [Std.ExtTreeMap.getElem?_insert, hname]
  · rw [if_neg hij, if_neg (fun h => hij h.1), Option.or_none]

end Own

/-! ### What one action changes -/

section Perform

variable {s : Store} {a : Action} {i : ScopeId} {name : String}

/-- An action opens **as many scopes as it says**. -/
theorem size_perform : (s.perform a).2.frames.size = s.frames.size + (parents [a]).length := by
  cases a with
  | new => simp [perform, add, parents, Action.around?]
  | fork j => simp [perform, add, parents, Action.around?]
  | setVariable j other value => simp [perform, setVariable, modify, parents, Action.around?]
  | define j rule =>
    obtain ⟨existing, -, hp⟩ | ⟨t, -, hd, hp⟩ := s.perform_define j rule <;> rw [hp]
    · rfl
    · simp [eq_modify_of_define hd, modify, parents, Action.around?]
  | clone j => rfl
  | readVariable j other => rfl
  | findRule j other => rfl

/-- An action moves **no scope**. -/
theorem parent?_perform (ha : ∀ j, a.scope? = some j → j < s.frames.size) :
    (s.perform a).2.parent? i = if i = s.frames.size then a.around?.join else s.parent? i := by
  have hsame : s.parent? i = if i = s.frames.size then none else s.parent? i := by
    split
    · next h => simp [h, parent?]
    · rfl
  cases a with
  | new => exact parent?_add_eq none
  | fork j =>
    have hj : j < s.frames.size := ha j rfl
    rw [perform, parent?_add_eq]
    simp [Action.around?, Option.filter, hj]
  | setVariable j other value =>
    rw [perform, setVariable, parent?_modify]
    exact hsame
  | define j rule =>
    obtain ⟨existing, -, hp⟩ | ⟨t, -, hd, hp⟩ := s.perform_define j rule <;> rw [hp]
    · exact hsame
    · rw [eq_modify_of_define hd, parent?_modify]
      exact hsame
  | clone j => exact hsame
  | readVariable j other => exact hsame
  | findRule j other => exact hsame

/-- A scope has **the value an action sets** there, or the one it had. -/
theorem ownValue?_perform (ha : ∀ j, a.scope? = some j → j < s.frames.size) :
    (s.perform a).2.ownValue? i name = (a.value? i name).or (s.ownValue? i name) := by
  cases a with
  | new => exact ownValue?_add none
  | fork j => exact ownValue?_add (some j)
  | setVariable j other value => exact ownValue?_setVariable (ha j rfl) value
  | define j rule =>
    obtain ⟨existing, -, hp⟩ | ⟨t, -, hd, hp⟩ := s.perform_define j rule <;> rw [hp]
    · rfl
    · exact ownValue?_define hd
  | clone j => rfl
  | readVariable j other => rfl
  | findRule j other => rfl

/-- A scope has **the rule it had**, or the one an action defines there. -/
theorem ownRule?_perform (ha : ∀ j, a.scope? = some j → j < s.frames.size) :
    (s.perform a).2.ownRule? i name = (s.ownRule? i name).or (a.rule? i name) := by
  have hsame : s.ownRule? i name = (s.ownRule? i name).or none := Option.or_none.symm
  cases a with
  | new => exact (ownRule?_add none).trans hsame
  | fork j => exact (ownRule?_add (some j)).trans hsame
  | setVariable j other value => exact (ownRule?_setVariable value).trans hsame
  | define j rule =>
    obtain ⟨existing, hown, hp⟩ | ⟨t, hfree, hd, hp⟩ := s.perform_define j rule <;> rw [hp]
    · -- what is refused would have come after the rule that is there
      rw [Action.rule?]
      split
      · next h =>
        obtain ⟨rfl, rfl⟩ := h
        rw [hown, Option.some_or]
      · exact hsame
    · exact ownRule?_define (ha j rfl) hfree hd
  | clone j => exact hsame
  | readVariable j other => exact hsame
  | findRule j other => exact hsame

end Perform

/-! ### A store holds what its history says -/

/-- A store **records** actions: it has the scopes that they add, with the last values and the
first rules that they give them. -/
structure Records (s : Store) (acts : List Action) : Prop where
  size : s.frames.size = (parents acts).length
  around : ∀ i, s.parent? i = (parents acts)[i]?.join
  values : ∀ i name, s.ownValue? i name = lastSet acts i name
  rules : ∀ i name, s.ownRule? i name = firstDefined acts i name

namespace Records

variable {s t : Store} {acts more : List Action} {a : Action} {i : ScopeId} {name : String}

theorem empty : Store.empty.Records [] :=
  ⟨rfl, fun _ => rfl, fun _ _ => rfl, fun _ _ => rfl⟩

/-- **Step**: one action is recorded. -/
theorem perform (h : s.Records acts) (ha : ∀ i, a.scope? = some i → i < s.frames.size) :
    (s.perform a).2.Records (acts ++ [a]) := by
  refine ⟨?_, fun i => ?_, fun i name => ?_, fun i name => ?_⟩
  · rw [size_perform, h.size, parents_append, List.length_append]
  · rw [parent?_perform ha, h.around, h.size, parents_append, getElem?_parents_concat]
    split <;> rfl
  · rw [ownValue?_perform ha, h.values, lastSet_append]
    cases hv : a.value? i name <;> simp [lastSet, hv]
  · rw [ownRule?_perform ha, h.rules, firstDefined_append]
    cases hr : a.rule? i name <;> simp [firstDefined, hr]

/-- **Run**: all actions are recorded. -/
theorem after (h : s.Records acts) (hmore : Admissible s.frames.size more) :
    (s.after more).Records (acts ++ more) := by
  induction more generalizing s acts with
  | nil => simpa [Store.after] using h
  | cons a more ih =>
    obtain ⟨ha, hmore⟩ := hmore
    rw [← size_perform] at hmore
    have hrest := ih (h.perform ha) hmore
    rw [List.append_assoc] at hrest
    exact hrest

/-- Scopes lie in chains as the actions have it. -/
theorem chain_eq {acts' : List Action} (h : s.Records acts) (h' : t.Records acts')
    (hparents : parents acts = parents acts') : s.chain i = t.chain i :=
  chain_congr fun j _ => by rw [h.around, h'.around, hparents]

/-- What further actions do, they do to no chain. -/
theorem chain_after (h : s.Records acts) (hmore : Admissible s.frames.size more)
    (hi : i < s.frames.size) :
    (s.after more).parent? i = s.parent? i ∧ (s.after more).chain i = s.chain i := by
  have hparent : ∀ j ≤ i, (s.after more).parent? j = s.parent? j := by
    intro j hj
    have hlt : j < (parents acts).length := by
      rw [← h.size]
      exact Nat.lt_of_le_of_lt hj hi
    rw [(h.after hmore).around, h.around, parents_append, List.getElem?_append_left hlt]
  exact ⟨hparent i (Nat.le_refl i), chain_congr hparent⟩

/-- A rule that a scope has stays as it is. -/
theorem ownRule?_after {rule : Rule} (h : s.Records acts) (hmore : Admissible s.frames.size more)
    (hown : s.ownRule? i name = some rule) : (s.after more).ownRule? i name = some rule := by
  rw [h.rules] at hown
  rw [(h.after hmore).rules, firstDefined_append, hown, Option.some_or]

end Records

/-! ### What is found -/

/-- The **nearest** scope of a chain that has something, and what it has. -/
def Nearest {α : Type} (chain : List ScopeId) (has : ScopeId → Option α) (i : ScopeId) (a : α) :
    Prop :=
  ∃ nearer further, chain = nearer ++ i :: further ∧ has i = some a ∧ ∀ j ∈ nearer, has j = none

theorem findSome?_eq_some_iff_nearest {α : Type} {chain : List ScopeId} {has : ScopeId → Option α}
    {a : α} : chain.findSome? has = some a ↔ ∃ i, Nearest chain has i a := by
  rw [List.findSome?_eq_some_iff]
  constructor
  · rintro ⟨nearer, i, further, hchain, hi, hnearer⟩
    exact ⟨i, nearer, further, hchain, hi, hnearer⟩
  · rintro ⟨i, nearer, further, hchain, hi, hnearer⟩
    exact ⟨nearer, i, further, hchain, hi, hnearer⟩

/-- Where one scope has something else, other things are **found** only from where that scope is
the nearest. -/
theorem nearest_of_ne {α : Type} {chain : List ScopeId} {has had : ScopeId → Option α}
    {i : ScopeId} {a : α} (hsame : ∀ j, j ≠ i → has j = had j) (hi : has i = some a)
    (hne : chain.findSome? has ≠ chain.findSome? had) : Nearest chain has i a := by
  induction chain with
  | nil => exact absurd rfl hne
  | cons j chain ih =>
    by_cases hji : j = i
    · subst hji
      exact ⟨[], chain, rfl, hi, nofun⟩
    · have hj := hsame j hji
      rw [List.findSome?_cons, List.findSome?_cons, ← hj] at hne
      cases hhas : has j with
      | some b =>
        rw [hhas] at hne
        exact absurd rfl hne
      | none =>
        rw [hhas] at hne
        obtain ⟨nearer, further, hchain, -, hnearer⟩ := ih hne
        refine ⟨j :: nearer, further, by rw [hchain]; rfl, hi, ?_⟩
        exact List.forall_mem_cons.2 ⟨hhas, hnearer⟩

theorem nearest_map_iff {α : Type} {chain : List ScopeId} {has : ScopeId → Option α}
    {i j : ScopeId} {a : α} :
    Nearest chain (fun k => (has k).map fun b => (b, k)) i (a, j) ↔
      Nearest chain has i a ∧ i = j := by
  simp [Nearest, and_assoc, and_comm, and_left_comm]

section Lookup

variable {s : Store} {acts : List Action} {i j : ScopeId} {name : String}

/-- A variable is read from **the nearest scope** that has it. -/
theorem readVariable_eq_ok_iff {value : Value} : s.readVariable i name = .ok value ↔
    ∃ j, Nearest (s.chain i) (s.ownValue? · name) j value := by
  rw [← findSome?_eq_some_iff_nearest, readVariable]
  change _ ↔ s.valueOf? i name = some value
  cases s.valueOf? i name <;> simp

theorem readVariable_eq_error_iff {e : LookupError} : s.readVariable i name = .error e ↔
    e = .unboundVariable name ∧ ∀ j ∈ s.chain i, s.ownValue? j name = none := by
  rw [← List.findSome?_eq_none_iff, readVariable]
  change _ ↔ _ ∧ s.valueOf? i name = none
  cases s.valueOf? i name <;> simp [eq_comm]

theorem findRule_eq_ok_iff_rule? {found : Rule × ScopeId} :
    s.findRule i name = .ok found ↔ s.rule? i name = some found := by
  rw [findRule]
  cases s.rule? i name <;> simp

/-- A rule is found in **the nearest scope** that has it. -/
theorem findRule_eq_ok_iff {rule : Rule} : s.findRule i name = .ok (rule, j) ↔
    Nearest (s.chain i) (s.ownRule? · name) j rule := by
  rw [findRule_eq_ok_iff_rule?, Store.rule?, findSome?_eq_some_iff_nearest]
  simp only [nearest_map_iff, exists_eq_right]

/-- A rule is missing if **no scope of the chain** has it. It is said then whether there is a
variable of its name. -/
theorem findRule_eq_error_iff {e : LookupError} : s.findRule i name = .error e ↔
    (∀ j ∈ s.chain i, s.ownRule? j name = none) ∧
      e = .unboundFunction name (s.valueOf? i name).isSome := by
  have hnone : s.rule? i name = none ↔ ∀ j ∈ s.chain i, s.ownRule? j name = none := by
    simp [Store.rule?]
  rw [← hnone, findRule]
  cases s.rule? i name <;> simp [eq_comm]

/-- Whether there is such a variable is whether it can be read. -/
theorem unboundFunction_iff {e : LookupError} :
    e = .unboundFunction name (s.valueOf? i name).isSome ↔
      ∃ isVariable, e = .unboundFunction name isVariable ∧
        (isVariable = true ↔ ∃ value, s.readVariable i name = .ok value) := by
  have hread : (s.valueOf? i name).isSome = true ↔ ∃ value, s.readVariable i name = .ok value := by
    rw [readVariable]
    cases s.valueOf? i name <;> simp
  constructor
  · intro he
    exact ⟨_, he, hread⟩
  · rintro ⟨isVariable, rfl, hvariable⟩
    rw [Bool.eq_iff_iff.2 (hvariable.trans hread.symm)]

end Lookup

/-! ### How far an action is seen -/

theorem valueOf?_eq (s : Store) (i : ScopeId) (name : String) :
    s.valueOf? i name = (s.chain i).findSome? (s.ownValue? · name) := rfl

namespace Records

variable {t u : Store} {acts more : List Action} {i : ScopeId}

/-- **A variable that was set**, and what was done since. Had it not been set, all rules would be
found as they are; and only this variable would be read otherwise, only from where the scope is
the nearest to have it. -/
theorem seen_of_setVariable {name : String} {value : Value}
    (ht : t.Records (acts ++ .setVariable i name value :: more)) (hu : u.Records (acts ++ more)) :
    (∀ j other, t.readVariable j other ≠ u.readVariable j other →
      other = name ∧ ∃ held, Nearest (t.chain j) (t.ownValue? · name) i held) ∧
    ∀ j other, t.rule? j other = u.rule? j other := by
  have hchain (j : ScopeId) : t.chain j = u.chain j := ht.chain_eq hu (parents_erase rfl)
  have hvalues (k : ScopeId) (other : String) (hk : ¬(i = k ∧ name = other)) :
      t.ownValue? k other = u.ownValue? k other := by
    rw [ht.values, hu.values]
    exact lastSet_erase (if_neg hk)
  have hrules (k : ScopeId) (other : String) : t.ownRule? k other = u.ownRule? k other := by
    rw [ht.rules, hu.rules]
    exact firstDefined_erase rfl
  refine ⟨fun j other hne => ?_, fun j other => ?_⟩
  · have hvalue : t.valueOf? j other ≠ u.valueOf? j other := fun heq =>
      hne (by rw [readVariable, readVariable, heq])
    rw [valueOf?_eq, valueOf?_eq, ← hchain] at hvalue
    by_cases hname : name = other
    · subst hname
      obtain ⟨held, hheld⟩ : ∃ held, t.ownValue? i name = some held := by
        rw [ht.values, lastSet_append, ← Option.isSome_iff_exists]
        simp [lastSet, List.findSome?_append, Action.value?]
      have hothers (k : ScopeId) (hk : k ≠ i) : t.ownValue? k name = u.ownValue? k name :=
        hvalues k name fun h => hk h.1.symm
      exact ⟨rfl, held, nearest_of_ne hothers hheld hvalue⟩
    · exact absurd (by simp only [hvalues _ other fun h => hname h.2]) hvalue
  · rw [Store.rule?, Store.rule?, hchain]
    simp only [hrules]

/-- **A rule that was defined**, and what was done since. Had it not been defined, all variables
would be read as they are; and only its name would be found otherwise, only from where the scope
is the nearest to have it. -/
theorem seen_of_define {rule : Rule} (hfree : firstDefined acts i rule.name = none)
    (ht : t.Records (acts ++ .define i rule :: more)) (hu : u.Records (acts ++ more)) :
    (∀ j other, t.findRule j other ≠ u.findRule j other →
      other = rule.name ∧ Nearest (t.chain j) (t.ownRule? · rule.name) i rule) ∧
    ∀ j other, t.readVariable j other = u.readVariable j other := by
  have hchain (j : ScopeId) : t.chain j = u.chain j := ht.chain_eq hu (parents_erase rfl)
  have hrules (k : ScopeId) (other : String) (hk : ¬(i = k ∧ rule.name = other)) :
      t.ownRule? k other = u.ownRule? k other := by
    rw [ht.rules, hu.rules]
    exact firstDefined_erase (if_neg hk)
  have hvalues (j : ScopeId) (other : String) : t.valueOf? j other = u.valueOf? j other := by
    have hown (k : ScopeId) : t.ownValue? k other = u.ownValue? k other := by
      rw [ht.values, hu.values]
      exact lastSet_erase rfl
    rw [valueOf?_eq, valueOf?_eq, hchain]
    simp only [hown]
  refine ⟨fun j other hne => ?_, fun j other => ?_⟩
  · have hrule : t.rule? j other ≠ u.rule? j other := fun heq =>
      hne (by rw [findRule, findRule, heq, hvalues])
    rw [Store.rule?, Store.rule?, ← hchain] at hrule
    by_cases hname : rule.name = other
    · subst hname
      have hheld : t.ownRule? i rule.name = some rule := by
        rw [ht.rules, firstDefined_append, hfree]
        simp [firstDefined, Action.rule?]
      have hnearest := nearest_of_ne (a := (rule, i))
        (fun k hk => by rw [hrules k rule.name fun h => hk h.1.symm]) (by rw [hheld]; rfl) hrule
      exact ⟨rfl, (nearest_map_iff.1 hnearest).1⟩
    · exact absurd (by simp only [hrules _ other fun h => hname h.2]) hrule
  · rw [readVariable, readVariable, hvalues]

end Records

/-! ### Everything that is answered -/

/-- A store **follows** a history: what every action is answered with is read off the actions
that were performed before, and so is how far it is seen. -/
structure Follows (s : Store) (acts : List Action) : Prop where
  /-- a chain goes from scope to scope around it, further and further back -/
  chain : ∀ i, s.chain i = i :: (s.parent? i).elim [] s.chain ∧ (s.chain i).Pairwise (· > ·)
  /-- what is around a scope never changes -/
  fixed : ∀ more i, Admissible s.frames.size more → i < s.frames.size →
    (s.after more).parent? i = s.parent? i ∧ (s.after more).chain i = s.chain i ∧
      (s.after more).depth i = s.depth i
  /-- a root is a scope of its own -/
  new : ∃ t, s.perform .new = (.handle s.frames.size, t) ∧ t.parent? s.frames.size = none ∧
    t.depth s.frames.size = 0
  /-- a fork is a scope of its own, one deeper -/
  fork : ∀ i < s.frames.size, ∃ t, s.perform (.fork i) = (.handle s.frames.size, t) ∧
    t.parent? s.frames.size = some i ∧ t.depth s.frames.size = s.depth i + 1
  /-- a copy of a handle is a handle of the same scope -/
  clone : ∀ i, s.perform (.clone i) = (.handle i, s)
  /-- a variable has the value it was last set to, in the nearest scope in which it was set -/
  read : ∀ i name, ∃ result, s.perform (.readVariable i name) = (.value result, s) ∧
    (∀ value, result = .ok value ↔ ∃ j, Nearest (s.chain i) (lastSet acts · name) j value) ∧
    ∀ e, result = .error e ↔
      e = .unboundVariable name ∧ ∀ j ∈ s.chain i, lastSet acts j name = none
  /-- a rule is the first that was defined, in the nearest scope in which there was one, and is
  found with that scope; where there is none, it is told whether there is such a variable -/
  find : ∀ i name, ∃ result, s.perform (.findRule i name) = (.rule result, s) ∧
    (∀ rule j, result = .ok (rule, j) ↔
      Nearest (s.chain i) (firstDefined acts · name) j rule) ∧
    ∀ e, result = .error e ↔ (∀ j ∈ s.chain i, firstDefined acts j name = none) ∧
      ∃ isVariable, e = .unboundFunction name isVariable ∧
        (isVariable = true ↔ ∃ value, s.readVariable i name = .ok value)
  /-- a variable that is set is seen, then and later, from where its scope is the nearest that
  has it; no rule is found otherwise -/
  set : ∀ i name value more, Admissible s.frames.size (.setVariable i name value :: more) →
    (s.perform (.setVariable i name value)).1 = .done ∧
    (∀ j other, (s.after (.setVariable i name value :: more)).readVariable j other ≠
        (s.after more).readVariable j other →
      other = name ∧ ∃ held, Nearest ((s.after (.setVariable i name value :: more)).chain j)
        ((s.after (.setVariable i name value :: more)).ownValue? · name) i held) ∧
    ∀ j other found, (s.after (.setVariable i name value :: more)).findRule j other = .ok found ↔
      (s.after more).findRule j other = .ok found
  /-- a rule that is defined is seen, then and later, from where its scope is the nearest that
  has one of its name; no variable is read otherwise -/
  define : ∀ i rule more, firstDefined acts i rule.name = none →
    Admissible s.frames.size (.define i rule :: more) →
    (s.perform (.define i rule)).1 = .done ∧
    (∀ j other, (s.after (.define i rule :: more)).findRule j other ≠
        (s.after more).findRule j other →
      other = rule.name ∧ Nearest ((s.after (.define i rule :: more)).chain j)
        ((s.after (.define i rule :: more)).ownRule? · rule.name) i rule) ∧
    ∀ j other, (s.after (.define i rule :: more)).readVariable j other =
      (s.after more).readVariable j other
  /-- a rule that is refused is answered with the first of its name, and nothing changes -/
  refuse : ∀ i rule existing, firstDefined acts i rule.name = some existing →
    s.perform (.define i rule) = (.taken existing, s)
  /-- a rule that a scope has stays as it is -/
  stays : ∀ more i name rule, Admissible s.frames.size more → s.ownRule? i name = some rule →
    (s.after more).ownRule? i name = some rule

namespace Records

variable {s : Store} {acts : List Action} {i : ScopeId} {name : String}

theorem depth_new (s : Store) : (s.add none).depth s.frames.size = 0 := by
  have hparent : (s.add none).parent? s.frames.size = none := by simp [parent?_add_eq]
  rw [depth, Store.chain_eq, hparent]
  rfl

/-- A definition is **done**, or refused with the rule that was defined first. -/
theorem define_or_refuse (h : s.Records acts) (rule : Rule) :
    (∃ existing, firstDefined acts i rule.name = some existing ∧
      s.perform (.define i rule) = (.taken existing, s)) ∨
    firstDefined acts i rule.name = none ∧ (s.perform (.define i rule)).1 = .done := by
  rw [← h.rules]
  obtain ⟨existing, hown, hp⟩ | ⟨t, hfree, -, hp⟩ := s.perform_define i rule
  · exact .inl ⟨existing, hown, hp⟩
  · exact .inr ⟨hfree, by rw [hp]⟩

/-- **A store that records its history follows it.** -/
theorem follows (h : s.Records acts) : s.Follows acts where
  chain i := ⟨Store.chain_eq s i, pairwise_chain s i⟩
  fixed more i hmore hi := by
    obtain ⟨hparent, hchain⟩ := h.chain_after hmore hi
    exact ⟨hparent, hchain, by rw [depth, depth, hchain]⟩
  new := ⟨_, rfl, by simp [parent?_add_eq], depth_new s⟩
  fork i hi := ⟨_, rfl, parent?_add s hi, depth_add s hi⟩
  clone i := rfl
  read i name := by
    refine ⟨_, rfl, fun value => ?_, fun e => ?_⟩
    · simp only [readVariable_eq_ok_iff, h.values]
    · simp only [readVariable_eq_error_iff, h.values]
  find i name := by
    refine ⟨_, rfl, fun rule j => ?_, fun e => ?_⟩
    · simp only [findRule_eq_ok_iff, h.rules]
    · rw [findRule_eq_error_iff]
      simp only [h.rules, unboundFunction_iff]
  set i name value more hadm := by
    obtain ⟨hread, hrule⟩ := seen_of_setVariable (h.after hadm) (h.after (hadm.erase rfl))
    refine ⟨rfl, hread, fun j other found => ?_⟩
    rw [findRule_eq_ok_iff_rule?, findRule_eq_ok_iff_rule?, hrule]
  define i rule more hfree hadm := by
    obtain ⟨existing, htaken, -⟩ | ⟨-, hdone⟩ := h.define_or_refuse (i := i) rule
    · rw [hfree] at htaken
      cases htaken
    · exact ⟨hdone, seen_of_define hfree (h.after hadm) (h.after (hadm.erase rfl))⟩
  refuse i rule existing htaken := by
    obtain ⟨first, hfirst, hp⟩ | ⟨hfree, -⟩ := h.define_or_refuse (i := i) rule
    · rw [htaken] at hfirst
      cases hfirst
      exact hp
    · rw [hfree] at htaken
      cases htaken
  stays more i name rule hmore hown := h.ownRule?_after hmore hown

end Records

/-- **A store follows its history.** Whatever was done, through any number of handles: what every
further action is answered with, and from where it is seen, is read off what was done. -/
theorem store_follows_history (acts : List Action) (h : Admissible 0 acts) :
    (Store.empty.after acts).Follows acts := by
  have hrecords : (Store.empty.after acts).Records acts := Records.empty.after h
  exact hrecords.follows

/-- A variable that is set in a scope and in one inside it. -/
def Action.shadowing : List Action :=
  [.new, .fork 0, .setVariable 1 "x" (.int 2), .setVariable 0 "x" (.int 1)]

/-- From the inner scope of `Action.shadowing`, its own value is read, though the other was set
later. -/
theorem store_follows_history_shadowing : Admissible 0 Action.shadowing ∧
    ((Store.empty.after Action.shadowing).perform (.readVariable 1 "x")).1 =
      .value (.ok (.int 2)) := by
  have hadm : Admissible 0 Action.shadowing := by
    refine ⟨nofun, ?_, ?_, ?_, trivial⟩ <;> rintro _ ⟨⟩ <;> decide
  have hfollows := store_follows_history Action.shadowing hadm
  obtain ⟨result, hread, hok, -⟩ := hfollows.read 1 "x"
  have hresult : result = .ok (.int 2) :=
    (hok _).2 ⟨1, [], _, (hfollows.chain 1).1, rfl, nofun⟩
  rw [hread, hresult]
  exact ⟨hadm, rfl⟩

end RuleScript.Store
