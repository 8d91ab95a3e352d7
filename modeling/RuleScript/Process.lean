/-!
# Processes

Parsing and evaluating share one shape of computation. A `Process` takes a
state and gives a state back **in every case**, together with an outcome: it
is done with a result, it failed with an error, or it is exhausted, which means
that its bound on the depth of recursion was too low to tell.

The state survives a failure. That is why a parser can be asked to go on after
an error, and why what a program printed before it failed is still there.

* `Process` is a lawful monad: `bind` goes on only when done.
* `Process.run_bind` unfolds one step.
-/

namespace RuleScript

/-- How a computation ended. -/
inductive Outcome (ε α : Type) where
  /-- with a result -/
  | done (result : α)
  /-- with an error -/
  | failed (error : ε)
  /-- not at all, within the bound on its depth -/
  | exhausted
  deriving DecidableEq, Repr, Inhabited

/-- An outcome with its result changed. -/
def Outcome.map {ε α β : Type} (f : α → β) : Outcome ε α → Outcome ε β
  | .done a => .done (f a)
  | .failed e => .failed e
  | .exhausted => .exhausted

/-- The outcome of what came to an end. -/
def Outcome.ofExcept {ε α : Type} : Except ε α → Outcome ε α
  | .ok a => .done a
  | .error e => .failed e

/-- A computation over a state. -/
structure Process (σ ε α : Type) where
  /-- the outcome from a state, and the state afterwards -/
  run : σ → Outcome ε α × σ

namespace Process

variable {σ ε α β : Type}

/-- Goes on with the result of the first process, if it has one. -/
@[inline]
protected def bind (x : Process σ ε α) (f : α → Process σ ε β) : Process σ ε β where
  run s :=
    match x.run s with
    | (.done a, s') => (f a).run s'
    | (.failed e, s') => (.failed e, s')
    | (.exhausted, s') => (.exhausted, s')

instance : Monad (Process σ ε) where
  pure a := ⟨fun s => (.done a, s)⟩
  bind := Process.bind

/-- Ends with an error and leaves the state alone. -/
@[inline]
def fail (e : ε) : Process σ ε α := ⟨fun s => (.failed e, s)⟩

/-- Ends for want of depth. -/
@[inline]
def exhaust : Process σ ε α := ⟨fun s => (.exhausted, s)⟩

/-- Changes the state. -/
@[inline]
def update (f : σ → σ) : Process σ ε Unit := ⟨fun s => (.done (), f s)⟩

/-- Ends with a result that was computed elsewhere. -/
@[inline]
def ofExcept (r : Except ε α) : Process σ ε α where
  run s :=
    match r with
    | .ok a => (.done a, s)
    | .error e => (.failed e, s)

/-- The result or error of a process that is known to have steps enough, and
the state afterwards. -/
def settle (x : Process σ ε α) (s : σ) (h : ∀ s', x.run s ≠ (.exhausted, s')) : Except ε α × σ :=
  match hx : x.run s with
  | (.done a, s') => (.ok a, s')
  | (.failed e, s') => (.error e, s')
  | (.exhausted, s') => absurd hx (h s')

/-! ### Unfolding -/

@[simp]
theorem run_pure (a : α) (s : σ) : (pure a : Process σ ε α).run s = (.done a, s) := rfl

theorem run_bind (x : Process σ ε α) (f : α → Process σ ε β) (s : σ) :
    (x >>= f).run s = match x.run s with
      | (.done a, s') => (f a).run s'
      | (.failed e, s') => (.failed e, s')
      | (.exhausted, s') => (.exhausted, s') := rfl

@[simp]
theorem run_fail (e : ε) (s : σ) : (fail e : Process σ ε α).run s = (.failed e, s) := rfl

@[simp]
theorem run_exhaust (s : σ) : (exhaust : Process σ ε α).run s = (.exhausted, s) := rfl

@[simp]
theorem run_update (f : σ → σ) (s : σ) :
    (update f : Process σ ε Unit).run s = (.done (), f s) := rfl

/-- A process that is done hands its result and state on. -/
theorem run_bind_done {x : Process σ ε α} {s s' : σ} {a : α} (h : x.run s = (.done a, s'))
    (f : α → Process σ ε β) : (x >>= f).run s = (f a).run s' := by
  rw [run_bind, h]

/-- A process that failed is not gone on with. -/
theorem run_bind_failed {x : Process σ ε α} {s s' : σ} {e : ε} (h : x.run s = (.failed e, s'))
    (f : α → Process σ ε β) : (x >>= f).run s = (.failed e, s') := by
  rw [run_bind, h]

/-- A process that is exhausted is not gone on with. -/
theorem run_bind_exhausted {x : Process σ ε α} {s s' : σ} (h : x.run s = (.exhausted, s'))
    (f : α → Process σ ε β) : (x >>= f).run s = (.exhausted, s') := by
  rw [run_bind, h]

/-- A failure is not gone on with, whatever would follow. -/
theorem fail_bind (e : ε) (f : α → Process σ ε β) : (fail e : Process σ ε α) >>= f = fail e := rfl

theorem map_fail (e : ε) (f : α → β) : f <$> (fail e : Process σ ε α) = fail e := rfl

/-- Changing the result of a process changes its outcome likewise. -/
theorem run_bind_pure (x : Process σ ε α) (f : α → β) (s : σ) :
    ((x >>= fun a => pure (f a)).run s).1 = (x.run s).1.map f := by
  rw [run_bind]
  rcases x.run s with ⟨a | e | _, s'⟩ <;> rfl

/-- A process that went on and is done was done before it went on. -/
theorem exists_of_run_bind_done {x : Process σ ε α} {f : α → Process σ ε β} {s s' : σ} {b : β}
    (h : (x >>= f).run s = (.done b, s')) :
    ∃ a s₁, x.run s = (.done a, s₁) ∧ (f a).run s₁ = (.done b, s') := by
  rw [run_bind] at h
  rcases hx : x.run s with ⟨a | e | _, s₁⟩ <;> rw [hx] at h
  · exact ⟨a, s₁, rfl, h⟩
  · cases h
  · cases h

/-- A process that is done settles with its result. -/
theorem settle_of_done {x : Process σ ε α} {s s' : σ} {a : α} (h : x.run s = (.done a, s'))
    (hx : ∀ s', x.run s ≠ (.exhausted, s')) : x.settle s hx = (.ok a, s') := by
  unfold settle
  split
  · next heq =>
    rw [h] at heq
    cases heq
    rfl
  · next heq =>
    rw [h] at heq
    cases heq
  · next heq =>
    rw [h] at heq
    cases heq

/-- A process that failed settles with its error. -/
theorem settle_of_failed {x : Process σ ε α} {s s' : σ} {e : ε} (h : x.run s = (.failed e, s'))
    (hx : ∀ s', x.run s ≠ (.exhausted, s')) : x.settle s hx = (.error e, s') := by
  unfold settle
  split
  · next heq =>
    rw [h] at heq
    cases heq
  · next heq =>
    rw [h] at heq
    cases heq
    rfl
  · next heq =>
    rw [h] at heq
    cases heq

/-- A process that settles with a result is done with it. -/
theorem done_of_settle {x : Process σ ε α} {s s' : σ} {a : α}
    {hx : ∀ s', x.run s ≠ (.exhausted, s')} (h : x.settle s hx = (.ok a, s')) :
    x.run s = (.done a, s') := by
  rcases hrun : x.run s with ⟨b | e | _, s''⟩
  · rw [settle_of_done hrun] at h
    cases h
    rfl
  · rw [settle_of_failed hrun] at h
    cases h
  · exact absurd hrun (hx s'')

/-- What settles ends **as it settles**. -/
theorem run_eq_of_settle (x : Process σ ε α) (s : σ)
    (h : ∀ s', x.run s ≠ (.exhausted, s')) :
    x.run s = (.ofExcept (x.settle s h).1, (x.settle s h).2) := by
  rcases hrun : x.run s with ⟨a | e | _, s'⟩
  · rw [settle_of_done hrun]
    rfl
  · rw [settle_of_failed hrun]
    rfl
  · exact absurd hrun (h s')

/-- Two processes with the same runs are the same. -/
@[ext]
theorem ext_run {x y : Process σ ε α} (h : ∀ s, x.run s = y.run s) : x = y := by
  cases x
  cases y
  congr
  exact funext h

/-- Going on with nothing changes nothing. -/
theorem bind_pure_eq (x : Process σ ε α) : (x >>= fun a => pure a) = x := by
  ext s : 1
  rw [run_bind]
  split <;> simp_all

/-- Processes are sequenced the same way however they are grouped. -/
theorem bind_bind_eq {γ : Type} (x : Process σ ε α) (f : α → Process σ ε β)
    (g : β → Process σ ε γ) : x >>= f >>= g = x >>= fun a => f a >>= g := by
  ext s : 1
  simp only [run_bind]
  split <;> rename_i h <;> split at h <;> simp_all

instance : LawfulMonad (Process σ ε) :=
  LawfulMonad.mk' (Process σ ε) (fun x => bind_pure_eq x) (fun _ _ => rfl) bind_bind_eq

end Process

end RuleScript
