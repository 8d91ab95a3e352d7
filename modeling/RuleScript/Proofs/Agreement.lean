import RuleScript.Process

/-!
# Two runs that end alike

To compare two processes, each is run from a state of its own. The runs **agree**
if they end in the same way, with results, errors and states that are related as
asked for. The second run may be given more depth than the first; then nothing is
said where the first one is exhausted.

* `Agree`: how two runs end; `Agree.bind` puts agreement together.
* `Depths`: what depths the two runs may be given, one step at a time.
-/

namespace RuleScript

variable {σ τ ε α β γ δ : Type}

/-- **Agreement** of two runs. -/
inductive Agree (ahead : Prop) (S : σ → τ → Prop) (E : ε → σ → ε → τ → Prop) (R : α → β → Prop) :
    Outcome ε α × σ → Outcome ε β × τ → Prop
  /-- both are done -/
  | done {a : α} {b : β} {s : σ} {t : τ} (result : R a b) (state : S s t) :
    Agree ahead S E R (.done a, s) (.done b, t)
  /-- both failed -/
  | failed {e e' : ε} {s : σ} {t : τ} (error : E e s e' t) :
    Agree ahead S E R (.failed e, s) (.failed e', t)
  /-- both are exhausted -/
  | exhausted {s : σ} {t : τ} (state : S s t) : Agree ahead S E R (.exhausted, s) (.exhausted, t)
  /-- the first is exhausted, and the second was given more depth -/
  | behind {s : σ} {end' : Outcome ε β × τ} (h : ahead) : Agree ahead S E R (.exhausted, s) end'

namespace Agree

variable {ahead : Prop} {S : σ → τ → Prop} {E : ε → σ → ε → τ → Prop} {R : α → β → Prop}
variable {Q : γ → δ → Prop} {s : σ} {t : τ}

/-- Agreement goes on if it does after every result. -/
theorem bind {x : Process σ ε α} {y : Process τ ε β} {f : α → Process σ ε γ}
    {g : β → Process τ ε δ} (h : Agree ahead S E R (x.run s) (y.run t))
    (hf : ∀ a b s' t', x.run s = (.done a, s') → y.run t = (.done b, t') → R a b → S s' t' →
      Agree ahead S E Q ((f a).run s') ((g b).run t')) :
    Agree ahead S E Q ((x >>= f).run s) ((y >>= g).run t) := by
  rw [Process.run_bind, Process.run_bind]
  rcases hx : x.run s with ⟨ox, s'⟩
  rcases hy : y.run t with ⟨oy, t'⟩
  rw [hx, hy] at h
  cases h with
  | done result state => exact hf _ _ _ _ hx hy result state
  | failed error => exact .failed error
  | exhausted state => exact .exhausted state
  | behind h => exact .behind h

end Agree

/-- **Depths** that two runs may be given: the same for both, or more for the
second if it may be ahead. -/
inductive Depths (ahead : Prop) : Nat → Nat → Prop
  /-- both are exhausted at once -/
  | zero : Depths ahead 0 0
  /-- the first is exhausted at once -/
  | behind {d : Nat} (h : ahead) : Depths ahead 0 d
  /-- both go one deeper -/
  | succ {d d' : Nat} (h : Depths ahead d d') : Depths ahead (d + 1) (d' + 1)

namespace Depths

theorem refl (ahead : Prop) (d : Nat) : Depths ahead d d := by
  induction d with
  | zero => exact .zero
  | succ d ih => exact .succ ih

theorem of_le {ahead : Prop} (h : ahead) {d d' : Nat} (hd : d ≤ d') : Depths ahead d d' := by
  induction d generalizing d' with
  | zero => exact .behind h
  | succ d ih =>
    obtain ⟨n, rfl⟩ : ∃ n, d' = n + 1 := ⟨d' - 1, by omega⟩
    exact .succ (ih (Nat.le_of_succ_le_succ hd))

end Depths

end RuleScript
