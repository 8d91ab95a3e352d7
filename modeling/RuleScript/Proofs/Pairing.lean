import RuleScript.Parser.Progress
import RuleScript.Proofs.Agreement
import RuleScript.Proofs.View

/-!
# Reading from two supplies of tokens

A parser sees tokens only by looking at the next one and dropping it. So where two
supplies of tokens **correspond**, in what is seen next and after every token that
is dropped, a parser does the same with both: it reads the same up to spans, or
refuses both for the same cause.

* A `Pairing` is such a correspondence, with how spans are looked at and whether
  the second parser may be given more depth.
* `Pairing.Same`: two parsers end the same. The rules for it follow the ways in
  which the grammar puts parsers together.
-/

namespace RuleScript

variable {σ τ α β γ δ : Type} [TokenSource σ] [TokenSource τ]

/-- A **correspondence** of two supplies of tokens. -/
structure Pairing (σ τ : Type) [TokenSource σ] [TokenSource τ] where
  /-- how spans are looked at -/
  view : View
  /-- whether the second parser may be given more depth than the first -/
  ahead : Prop
  /-- the states that correspond -/
  Related : σ → τ → Prop
  /-- the states that parsers are left in if both are refused -/
  Parted : σ → τ → Prop
  /-- tokens of one kind come next in both, in spans that look the same, or errors
  that look the same -/
  peek : ∀ {s t}, Related s t →
    (∃ k a b s' t', TokenSource.peek s = (.ok ⟨k, a⟩, s') ∧
      TokenSource.peek t = (.ok ⟨k, b⟩, t') ∧ view.span a = view.span b ∧ Related s' t') ∨
    ∃ e e' s' t', TokenSource.peek s = (.error e, s') ∧ TokenSource.peek t = (.error e', t') ∧
      e.seen view = e'.seen view ∧ Parted s' t'
  /-- parsers may be refused in states that correspond -/
  part : ∀ {s t}, Related s t → Parted s t
  /-- states that correspond still do after the token that was looked at is dropped -/
  drop : ∀ {s t a b}, Related s t → Parser.Seen a s → Parser.Seen b t →
    Related (TokenSource.drop s) (TokenSource.drop t)

namespace Pairing

/-- Parsers that end **the same**: with results that are related, in states that
correspond, or with errors that look the same. -/
abbrev Same (p : Pairing σ τ) (R : α → β → Prop) :
    Outcome SyntaxError α × σ → Outcome SyntaxError β × τ → Prop :=
  Agree p.ahead p.Related (fun e s e' t => e.seen p.view = e'.seen p.view ∧ p.Parted s t) R

variable {p : Pairing σ τ} {R : α → β → Prop} {Q : γ → δ → Prop} {s : σ} {t : τ}

namespace Same

/-- Parsers that are **done at once** end the same in states that correspond. -/
theorem pure {a : α} {b : β} (h : p.Related s t) (hab : R a b) :
    p.Same R ((Pure.pure a : Parser σ α).run s) ((Pure.pure b : Parser τ β).run t) :=
  .done hab h

theorem fail {e e' : SyntaxError} (h : p.Related s t) (he : e.seen p.view = e'.seen p.view) :
    p.Same R ((Process.fail e : Parser σ α).run s) ((Process.fail e' : Parser τ β).run t) :=
  .failed ⟨he, p.part h⟩

/-- Tokens of one kind are refused with errors that look the same. -/
theorem unexpected {k : TokenKind} {a b : Span} (h : p.Related s t)
    (hab : p.view.span a = p.view.span b) (expected : Expected) :
    p.Same R ((Process.fail (.unexpected expected ⟨k, a⟩) : Parser σ α).run s)
      ((Process.fail (.unexpected expected ⟨k, b⟩) : Parser τ β).run t) :=
  fail h (by simp only [SyntaxError.seen, SyntaxError.unexpected, hab])

/-- Parsers that are **put together** end the same if their parts do. -/
theorem bind {x : Parser σ α} {y : Parser τ β} {f : α → Parser σ γ} {g : β → Parser τ δ}
    (h : p.Same R (x.run s) (y.run t))
    (hf : ∀ a b s' t', R a b → p.Related s' t' → p.Same Q ((f a).run s') ((g b).run t')) :
    p.Same Q ((x >>= f).run s) ((y >>= g).run t) :=
  Agree.bind h fun a b s' t' _ _ hab hst => hf a b s' t' hab hst

/-- Tokens that were looked at can be **dropped** on both sides. -/
theorem skip_bind {f : Unit → Parser σ γ} {g : Unit → Parser τ δ} {a b : Token}
    (h : p.Related s t) (ha : Parser.Seen a s) (hb : Parser.Seen b t)
    (hf : ∀ s' t', p.Related s' t' → p.Same Q ((f ()).run s') ((g ()).run t')) :
    p.Same Q ((Parser.skip >>= f).run s) ((Parser.skip >>= g).run t) :=
  hf _ _ (p.drop h ha hb)

variable [LawfulTokenSource σ] [LawfulTokenSource τ]

/-- The next tokens are of one kind, in spans that look the same. -/
theorem peek_bind {f : Token → Parser σ γ} {g : Token → Parser τ δ} (h : p.Related s t)
    (hf : ∀ k a b s' t', p.view.span a = p.view.span b → p.Related s' t' →
      Parser.Seen ⟨k, a⟩ s' → Parser.Seen ⟨k, b⟩ t' →
      p.Same Q ((f ⟨k, a⟩).run s') ((g ⟨k, b⟩).run t')) :
    p.Same Q ((Parser.peek >>= f).run s) ((Parser.peek >>= g).run t) := by
  obtain ⟨k, a, b, s', t', hs, ht, hab, h'⟩ | ⟨e, e', s', t', hs, ht, he⟩ := p.peek h
  · rw [Process.run_bind_done (Parser.run_peek hs), Process.run_bind_done (Parser.run_peek ht)]
    exact hf k a b s' t' hab h' (LawfulTokenSource.peek_peek hs) (LawfulTokenSource.peek_peek ht)
  · rw [Process.run_bind_failed (Parser.run_peek_error hs),
      Process.run_bind_failed (Parser.run_peek_error ht)]
    exact .failed he

theorem check_bind {symbol : Symbol} {f : Bool → Parser σ γ} {g : Bool → Parser τ δ}
    (h : p.Related s t)
    (hf : ∀ b s' t', p.Related s' t' → p.Same Q ((f b).run s') ((g b).run t')) :
    p.Same Q ((Parser.check symbol >>= f).run s) ((Parser.check symbol >>= g).run t) := by
  rw [Parser.check, Parser.check, bind_assoc, bind_assoc]
  refine peek_bind h fun k a b s' t' _ h' _ _ => ?_
  rw [pure_bind, pure_bind]
  exact hf _ s' t' h'

/-- A symbol is accepted **on both sides or on neither**. -/
theorem accept_bind {symbol : Symbol} {f : Bool → Parser σ γ} {g : Bool → Parser τ δ}
    (h : p.Related s t)
    (hf : ∀ b s' t', p.Related s' t' → p.Same Q ((f b).run s') ((g b).run t')) :
    p.Same Q ((Parser.accept symbol >>= f).run s) ((Parser.accept symbol >>= g).run t) := by
  rw [Parser.accept, Parser.accept, bind_assoc, bind_assoc]
  refine peek_bind h fun k a b s' t' _ h' ha hb => ?_
  dsimp only
  split
  · rw [bind_assoc, bind_assoc]
    refine skip_bind h' ha hb fun s₁ t₁ h₁ => ?_
    rw [pure_bind, pure_bind]
    exact hf true s₁ t₁ h₁
  · rw [pure_bind, pure_bind]
    exact hf false s' t' h'

/-- A symbol that is expected stands in spans that look the same, or is missing **on both sides**.
-/
theorem expect_bind {symbol : Symbol} {e : Expected} {f : Token → Parser σ γ}
    {g : Token → Parser τ δ} (h : p.Related s t)
    (hf : ∀ k a b s' t', p.view.span a = p.view.span b → p.Related s' t' →
      p.Same Q ((f ⟨k, a⟩).run s') ((g ⟨k, b⟩).run t')) :
    p.Same Q ((Parser.expect symbol e >>= f).run s) ((Parser.expect symbol e >>= g).run t) := by
  rw [Parser.expect, Parser.expect, bind_assoc, bind_assoc]
  refine peek_bind h fun k a b s' t' hab h' ha hb => ?_
  dsimp only
  split
  · rw [bind_assoc, bind_assoc]
    refine skip_bind h' ha hb fun s₁ t₁ h₁ => ?_
    rw [pure_bind, pure_bind]
    exact hf k a b s₁ t₁ hab h₁
  · exact unexpected h' hab e

/-- A name that is expected looks the same, or is missing **on both sides**. -/
theorem expectName_bind {e : Expected} {f : Name → Parser σ γ} {g : Name → Parser τ δ}
    (h : p.Related s t)
    (hf : ∀ n n' s' t', n.seen p.view = n'.seen p.view → p.Related s' t' →
      p.Same Q ((f n).run s') ((g n').run t')) :
    p.Same Q ((Parser.expectName e >>= f).run s) ((Parser.expectName e >>= g).run t) := by
  rw [Parser.expectName, Parser.expectName, bind_assoc, bind_assoc]
  refine peek_bind h fun k a b s' t' hab h' ha hb => ?_
  cases k with
  | name text =>
    dsimp only
    rw [bind_assoc, bind_assoc]
    refine skip_bind h' ha hb fun s₁ t₁ h₁ => ?_
    rw [pure_bind, pure_bind]
    exact hf _ _ s₁ t₁ (by simp only [Name.seen, hab]) h₁
  | _ => exact unexpected h' hab e

end Same

end Pairing

end RuleScript
