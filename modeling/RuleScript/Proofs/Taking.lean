import RuleScript.Proofs.Derivation
import RuleScript.Proofs.Extent

/-!
# What a parser takes

A parser that is done took some tokens from the front of a stream, and it would take them
again whatever follows, as long as the next token is the one that it looked at. Many parsers
end with a token of their own and look no further; for these it does not matter what
follows at all.

* `Parser.Takes`: the tokens a parser takes, and what is known of them.
* The rules for it follow the ways in which the grammar puts parsers together. A parser that
  looks at the next token must take one if what follows is not to matter.
-/

namespace RuleScript

variable {α β : Type}

namespace TokenStream

variable {x x' : TokenStream} {t : Token} {used : List Token}

/-- A token that is shown stands before the others, unless it is the end. -/
theorem eq_prepend_of_shown (h : x.shown = .ok t) (ht : t.kind ≠ .eof) :
    x = x.drop.prepend [t] := by
  obtain ⟨tokens, ending⟩ := x
  cases tokens with
  | nil =>
    cases ending with
    | error e => cases h
    | ok span =>
      cases h
      exact absurd rfl ht
  | cons u us =>
    cases h
    rfl

/-- The kinds that were taken are **those of the tokens** that were taken. -/
theorem Took.kinds_eq {ks : List TokenKind} (h : x.Took ks x') (hx : x = x'.prepend used) :
    used.map Token.kind = ks := by
  obtain ⟨used', rfl, htokens, -⟩ := h
  subst hx
  rw [List.append_cancel_right htokens]

end TokenStream

namespace Parser

/-- A parser **takes** tokens from the front of a stream, of which something is known, and
would take them again from any stream that shows the same token after them; from any stream
at all if it is `free`. -/
def Takes (free : Prop) (p : Parser TokenStream α) (x : TokenStream)
    (Q : α → List Token → TokenStream → Prop) : Prop :=
  Ends True p x fun a x' => ∃ used, x = x'.prepend used ∧ Q a used x' ∧
    ∀ y : TokenStream, free ∨ y.shown = x'.shown → p.run (y.prepend used) = (.done a, y)

/-- At some depth a parser reads the result from the tokens, **whatever follows** them. -/
def Repeats (p : Nat → Parser TokenStream α) (a : α) (used : List Token) : Prop :=
  ∃ d, ∀ y : TokenStream, (p d).run (y.prepend used) = (.done a, y)

namespace Takes

variable {free free' : Prop} {x : TokenStream} {t : Token} {symbol : Symbol} {e : Expected}
variable {p : Parser TokenStream α} {R R' : α → List Token → TokenStream → Prop}
variable {Q : β → List Token → TokenStream → Prop}

/-- To be done at once takes **no tokens**. -/
theorem pure {a : α} (h : R a [] x) : Takes free (Pure.pure a : Parser TokenStream α) x R :=
  Ends.pure ⟨[], rfl, h, fun _ _ => rfl⟩

theorem fail {e : SyntaxError} : Takes free (Process.fail e : Parser TokenStream α) x R :=
  Ends.fail trivial

theorem exhaust : Takes free (Process.exhaust : Parser TokenStream α) x R := Ends.exhaust

/-- What is known of the tokens that are taken may be **weakened**. -/
theorem mono (h : Takes free p x R) (hR : ∀ a used x', R a used x' → R' a used x') :
    Takes free p x R' := by
  refine Ends.mono h ?_
  rintro a x' ⟨used, hx, hQ, hagain⟩
  exact ⟨used, hx, hR a used x' hQ, hagain⟩

/-- What is known of how a parser ends can be used for the tokens it takes. -/
theorem ends {S : α → TokenStream → Prop} (hends : Ends True p x S)
    (h : Takes free p x fun a used x' => x = x'.prepend used → S a x' → R a used x') :
    Takes free p x R := by
  rw [Takes, Ends] at h ⊢
  rcases hrun : p.run x with ⟨a | e | _, x'⟩ <;> rw [hrun] at h
  · obtain ⟨used, hx, hR, hagain⟩ := h
    exact ⟨used, hx, hR hx (hends.of_done hrun), hagain⟩
  · trivial
  · trivial

/-- That a parser reads the tokens it takes **again** may be known of them. -/
theorem again {p : Nat → Parser TokenStream α} {d : Nat}
    (h : Takes True (p d) x fun a used x' => Repeats p a used → R a used x') :
    Takes True (p d) x R := by
  refine Ends.mono h ?_
  rintro a x' ⟨used, hx, hR, hagain⟩
  exact ⟨used, hx, hR ⟨d, fun y => hagain y (.inl trivial)⟩, hagain⟩

/-- What follows the first parser is shown by the second one's tokens, if it takes any. -/
theorem bind_of {f : α → Parser TokenStream β} (hp : Takes free' p x R)
    (hf : ∀ a used x₁, R a used x₁ → Takes free (f a) x₁ fun b used' x' =>
      (free → free' ∨ used' ≠ []) ∧ Q b (used ++ used') x') :
    Takes free (p >>= f) x Q := by
  refine Ends.bind hp ?_
  rintro a x₁ ⟨used, rfl, hR, hagain⟩
  refine Ends.mono (hf a used x₁ hR) ?_
  rintro b x' ⟨used', rfl, ⟨hfree, hQ⟩, hagain'⟩
  refine ⟨used ++ used', (x'.prepend_append used used').symm, hQ, fun y hy => ?_⟩
  have hnext : free' ∨ (y.prepend used').shown = (x'.prepend used').shown := by
    cases used' with
    | nil =>
      obtain hy | hy := hy
      · exact .inl ((hfree hy).resolve_right fun h => h rfl)
      · exact .inr hy
    | cons t ts => exact .inr rfl
  rw [y.prepend_append, Process.run_bind_done (hagain _ hnext)]
  exact hagain' y hy

/-- Parsers **one after the other** take the tokens of the first, then those of the second. -/
theorem bind {f : α → Parser TokenStream β} (hp : Takes free p x R)
    (hf : ∀ a used x₁, R a used x₁ → Takes free (f a) x₁ fun b used' x' => Q b (used ++ used') x') :
    Takes free (p >>= f) x Q :=
  bind_of hp fun a used x₁ hR =>
    (hf a used x₁ hR).mono fun _ _ _ hQ => ⟨.inl, hQ⟩

/-- What is made of a result **takes no tokens**. -/
theorem map {f : α → β} (h : Takes free p x fun a used x' => Q (f a) used x') :
    Takes free (p >>= fun a => Pure.pure (f a)) x Q :=
  bind h fun _ _ _ hQ => .pure (by rwa [List.append_nil])

/-- What follows does not matter if the last parser takes a token and looks no further. -/
theorem bind_closed {f : α → Parser TokenStream β} (hp : Takes False p x R)
    (hf : ∀ a used x₁, R a used x₁ → Takes True (f a) x₁ fun b used' x' =>
      used' ≠ [] ∧ Q b (used ++ used') x') :
    Takes True (p >>= f) x Q :=
  bind_of hp fun a used x₁ hR =>
    (hf a used x₁ hR).mono fun _ _ _ hQ => ⟨fun _ => .inr hQ.1, hQ.2⟩

/-- Looking takes nothing. **What follows** matters to it, unless a token is taken behind it. -/
theorem peek_bind_of {f : Token → Parser TokenStream β}
    (hf : ∀ t, x.shown = .ok t → Takes free (f t) x fun b used x' =>
      (free → used ≠ []) ∧ Q b used x') :
    Takes free (Parser.peek >>= f) x Q := by
  refine Ends.peek_bind fun t ht => Ends.mono (hf t ht) ?_
  rintro b x' ⟨used, rfl, ⟨hfree, hQ⟩, hagain⟩
  refine ⟨used, rfl, hQ, fun y hy => ?_⟩
  have hshown : (y.prepend used).shown = .ok t := by
    cases used with
    | nil =>
      obtain hy | hy := hy
      · exact absurd rfl (hfree hy)
      · exact hy.trans ht
    | cons u us => exact ht
  rw [run_peek_bind hshown]
  exact hagain y hy

/-- Looking takes nothing, where what follows **may matter**. -/
theorem peek_bind {f : Token → Parser TokenStream β}
    (hf : ∀ t, x.shown = .ok t → Takes False (f t) x Q) : Takes False (Parser.peek >>= f) x Q :=
  peek_bind_of fun t ht => (hf t ht).mono fun _ _ _ hQ => ⟨False.elim, hQ⟩

/-- Looking takes nothing, and what follows does not matter where **a token is taken** behind it. -/
theorem peek_bind_closed {f : Token → Parser TokenStream β}
    (hf : ∀ t, x.shown = .ok t → Takes True (f t) x fun b used x' => used ≠ [] ∧ Q b used x') :
    Takes True (Parser.peek >>= f) x Q :=
  peek_bind_of fun t ht => (hf t ht).mono fun _ _ _ hQ => ⟨fun _ => hQ.1, hQ.2⟩

/-- A token that is dropped is **the first one taken**. -/
theorem skip_bind {f : Unit → Parser TokenStream β} (h : x.shown = .ok t) (ht : t.kind ≠ .eof)
    (hf : Takes free (f ()) x.drop fun b used x' => Q b (t :: used) x') :
    Takes free (Parser.skip >>= f) x Q := by
  have hx := TokenStream.eq_prepend_of_shown h ht
  refine Ends.skip_bind (Ends.mono hf ?_)
  rintro b x' ⟨used, hdrop, hQ, hagain⟩
  refine ⟨t :: used, ?_, hQ, hagain⟩
  rw [hx, hdrop]
  rfl

/-- A symbol that is accepted is the first token taken. If it is not there, what follows matters,
unless a token is taken then. -/
theorem accept_bind_of {f : Bool → Parser TokenStream β}
    (htaken : ∀ t x₁, t.kind = .symbol symbol →
      Takes free (f true) x₁ fun b used x' => Q b (t :: used) x')
    (hleft : Takes free (f false) x fun b used x' => (free → used ≠ []) ∧ Q b used x') :
    Takes free (Parser.accept symbol >>= f) x Q := by
  rw [Parser.accept, bind_assoc]
  refine peek_bind_of fun t ht => ?_
  split
  · next hk =>
    have hk := TokenKind.isSymbol_iff.1 hk
    rw [bind_assoc]
    refine skip_bind ht (by simp [hk]) ?_
    rw [pure_bind]
    exact (htaken t _ hk).mono fun _ _ _ hQ => ⟨fun _ => List.cons_ne_nil _ _, hQ⟩
  · rw [pure_bind]
    exact hleft

/-- A symbol that is accepted is the first token taken, where what follows **may matter**. -/
theorem accept_bind {f : Bool → Parser TokenStream β}
    (htaken : ∀ t x₁, t.kind = .symbol symbol →
      Takes False (f true) x₁ fun b used x' => Q b (t :: used) x')
    (hleft : Takes False (f false) x Q) : Takes False (Parser.accept symbol >>= f) x Q :=
  accept_bind_of htaken (hleft.mono fun _ _ _ hQ => ⟨False.elim, hQ⟩)

/-- A symbol that is expected is **the first token taken**. -/
theorem expect_bind {f : Token → Parser TokenStream β}
    (hf : ∀ t x₁, t.kind = .symbol symbol →
      Takes free (f t) x₁ fun b used x' => Q b (t :: used) x') :
    Takes free (Parser.expect symbol e >>= f) x Q := by
  rw [Parser.expect, bind_assoc]
  refine peek_bind_of fun t ht => ?_
  split
  · next hk =>
    have hk := TokenKind.isSymbol_iff.1 hk
    rw [bind_assoc]
    refine skip_bind ht (by simp [hk]) ?_
    rw [pure_bind]
    exact (hf t _ hk).mono fun _ _ _ hQ => ⟨fun _ => List.cons_ne_nil _ _, hQ⟩
  · exact .fail

/-- A name that is expected is **the first token taken**, and it keeps its span. -/
theorem expectName_bind {f : Name → Parser TokenStream β}
    (hf : ∀ t text x₁, t.kind = .name text →
      Takes free (f ⟨text, t.span⟩) x₁ fun b used x' => Q b (t :: used) x') :
    Takes free (Parser.expectName e >>= f) x Q := by
  rw [Parser.expectName, bind_assoc]
  refine peek_bind_of fun t ht => ?_
  split
  · next text hk =>
    rw [bind_assoc]
    refine skip_bind ht (by simp [hk]) ?_
    rw [pure_bind]
    exact (hf t text _ hk).mono fun _ _ _ hQ => ⟨fun _ => List.cons_ne_nil _ _, hQ⟩
  · exact .fail

end Takes

end Parser

end RuleScript
