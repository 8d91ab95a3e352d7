import RuleScript.Proofs.Stream

/-!
# How a parser ends

What a parser does with a stream of tokens is said by what holds when it is done, and
by whether it may be refused: `Parser.Ends refused x s Q`. Nothing is said of a parser
that is exhausted, so that a bound on its depth need not be carried along.

There are two sets of rules, for the ways in which the grammar puts parsers together:

* Where a parser **may** be refused, nothing is known of the tokens ahead. What it took
  of them is recorded by `TokenStream.Took`.
* Where it may **not**, the tokens ahead are known: `TokenStream.Shows`.
-/

namespace RuleScript

variable {σ α β : Type}

namespace Parser

/-- A parser **ends** as asked for if it is done, and is refused only if it may be. -/
def Ends (refused : Prop) (x : Parser σ α) (s : σ) (Q : α → σ → Prop) : Prop :=
  match x.run s with
  | (.done a, s') => Q a s'
  | (.failed _, _) => refused
  | (.exhausted, _) => True

namespace Ends

variable {refused : Prop} {s s' : σ} {Q : β → σ → Prop} {R : α → σ → Prop}

/-- A parser that is done **has ended** as asked for. -/
theorem of_done {x : Parser σ α} {a : α} (h : Ends refused x s R) (hx : x.run s = (.done a, s')) :
    R a s' := by
  rwa [Ends, hx] at h

/-- A parser that is refused **may be** refused. -/
theorem of_failed {x : Parser σ α} {e : SyntaxError} (h : Ends refused x s R)
    (hx : x.run s = (.failed e, s')) : refused := by
  rwa [Ends, hx] at h

/-- To be done at once is to end with what is given. -/
theorem pure {a : α} (h : R a s) : Ends refused (Pure.pure a : Parser σ α) s R := h

/-- Only a parser that may be refused **refuses**. -/
theorem fail {e : SyntaxError} (h : refused) :
    Ends refused (Process.fail e : Parser σ α) s R := h

theorem exhaust : Ends refused (Process.exhaust : Parser σ α) s R := trivial

/-- Parsers **one after the other** end as the second does, from where the first one ended. -/
theorem bind {x : Parser σ α} {f : α → Parser σ β} (hx : Ends refused x s R)
    (hf : ∀ a s', R a s' → Ends refused (f a) s' Q) : Ends refused (x >>= f) s Q := by
  rw [Ends] at hx ⊢
  rw [Process.run_bind]
  rcases h : x.run s with ⟨a | e | _, s'⟩ <;> rw [h] at hx
  · exact hf a s' hx
  · exact hx
  · trivial

/-- What a parser ends with may be **weakened**. -/
theorem mono {x : Parser σ α} {R' : α → σ → Prop} (hx : Ends refused x s R)
    (h : ∀ a s', R a s' → R' a s') : Ends refused x s R' := by
  rw [Ends] at hx ⊢
  split at hx
  · exact h _ _ hx
  · exact hx
  · trivial

end Ends

end Parser

/-! ### What a stream shows, and what was taken of it -/

namespace TokenStream

variable {x x' y : TokenStream} {t : Token} {k : TokenKind} {ks ks' : List TokenKind}

/-- The token that comes next, or the error in its place. -/
def shown (x : TokenStream) : Except SyntaxError Token := x.peek.1

theorem peek_eq (x : TokenStream) : TokenSource.peek x = (x.shown, x) :=
  Prod.ext rfl x.peek_snd

/-- A stream with tokens **put before** it. -/
def prepend (ts : List Token) (x : TokenStream) : TokenStream := ⟨ts ++ x.tokens, x.ending⟩

@[simp]
theorem prepend_nil (x : TokenStream) : x.prepend [] = x := rfl

/-- Tokens are put before a stream at once or in two turns. -/
theorem prepend_append (ts us : List Token) (x : TokenStream) :
    x.prepend (ts ++ us) = (x.prepend us).prepend ts := by
  rw [prepend, prepend, prepend, List.append_assoc]

@[simp]
theorem shown_prepend_cons (t : Token) (ts : List Token) (x : TokenStream) :
    (x.prepend (t :: ts)).shown = .ok t := rfl

/-- Tokens of these kinds were **taken** from the first stream, and the second is left. -/
def Took (x : TokenStream) (ks : List TokenKind) (x' : TokenStream) : Prop :=
  ∃ used, used.map Token.kind = ks ∧ x.tokens = used ++ x'.tokens ∧ x'.ending = x.ending

theorem took_nil (x : TokenStream) : x.Took [] x := ⟨[], rfl, rfl, rfl⟩

/-- What was taken in **two turns** was taken one behind the other. -/
theorem Took.append (h : x.Took ks x') (h' : x'.Took ks' y) : x.Took (ks ++ ks') y := by
  obtain ⟨used, rfl, htokens, hending⟩ := h
  obtain ⟨used', rfl, htokens', hending'⟩ := h'
  refine ⟨used ++ used', by rw [List.map_append], ?_, hending'.trans hending⟩
  rw [htokens, htokens', List.append_assoc]

/-- A token that is shown can be taken, unless it is the end. -/
theorem took_drop (h : x.shown = .ok t) (hk : t.kind = k) (hne : k ≠ .eof) :
    x.Took [k] x.drop := by
  subst hk
  obtain ⟨tokens, ending⟩ := x
  cases tokens with
  | nil =>
    cases ending with
    | error e => cases h
    | ok span =>
      cases h
      exact absurd rfl hne
  | cons u us =>
    cases h
    exact ⟨[t], rfl, rfl, rfl⟩

/-- Where the end is shown there are no more tokens, unless it is one of them. -/
theorem eq_nil_of_shown_eof (h : x.shown = .ok t) (ht : t.kind = .eof)
    (hx : ∀ u ∈ x.tokens, u.kind ≠ .eof) : x.tokens = [] ∧ ∃ span, x.ending = .ok span := by
  obtain ⟨tokens, ending⟩ := x
  cases tokens with
  | nil =>
    cases ending with
    | error e => cases h
    | ok span => exact ⟨rfl, span, rfl⟩
  | cons u us =>
    cases h
    exact absurd ht (hx t List.mem_cons_self)

/-- The tokens ahead are of **these kinds**, and then comes the end. -/
structure Shows (x : TokenStream) (ks : List TokenKind) : Prop where
  kinds : x.tokens.map Token.kind = ks
  ending : ∃ span, x.ending = .ok span

/-- The kind of the first token, or of the end if there is none. -/
def first (ks : List TokenKind) : TokenKind := ks.headD .eof

@[simp]
theorem first_cons (k : TokenKind) (ks : List TokenKind) : first (k :: ks) = k := rfl

/-- A stream of which the kinds are known shows **a token of the first kind**. -/
theorem Shows.shown (h : x.Shows ks) : ∃ t, x.shown = .ok t ∧ t.kind = first ks := by
  obtain ⟨rfl, span, hending⟩ := h
  obtain ⟨tokens, ending⟩ := x
  cases hending
  cases tokens with
  | nil => exact ⟨⟨.eof, span⟩, rfl, rfl⟩
  | cons t ts => exact ⟨t, rfl, rfl⟩

/-- Behind the first token, the kinds ahead are the **rest**. -/
theorem Shows.drop (h : x.Shows (k :: ks)) : x.drop.Shows ks := by
  obtain ⟨hkinds, hending⟩ := h
  refine ⟨?_, hending⟩
  rw [TokenStream.drop, List.map_tail, hkinds, List.tail_cons]

end TokenStream

/-! ### Rules for a parser that may be refused -/

theorem Parser.run_peek_bind {x : TokenStream} {t : Token} (h : x.shown = .ok t)
    (f : Token → Parser TokenStream β) : (Parser.peek >>= f).run x = (f t).run x := by
  have hpeek : TokenSource.peek x = (.ok t, x) := by rw [x.peek_eq, h]
  exact Process.run_bind_done (run_peek hpeek) f

theorem Parser.run_peek_bind_error {x : TokenStream} {e : SyntaxError} (h : x.shown = .error e)
    (f : Token → Parser TokenStream β) : (Parser.peek >>= f).run x = (.failed e, x) := by
  have hpeek : TokenSource.peek x = (.error e, x) := by rw [x.peek_eq, h]
  exact Process.run_bind_failed (run_peek_error hpeek) f

namespace Parser.Ends

open TokenStream (Took Shows first)

variable {x : TokenStream} {Q : β → TokenStream → Prop}

/-- A parser that looks goes on with **the token that is shown**, if there is one. -/
theorem peek_bind {f : Token → Parser TokenStream β}
    (hf : ∀ t, x.shown = .ok t → Ends True (f t) x Q) : Ends True (Parser.peek >>= f) x Q := by
  cases h : x.shown with
  | error e =>
    rw [Ends, run_peek_bind_error h]
    trivial
  | ok t =>
    rw [Ends, run_peek_bind h]
    exact hf t h

/-- A parser that drops a token goes on with the stream behind it. -/
theorem skip_bind {refused : Prop} {f : Unit → Parser TokenStream β}
    (hf : Ends refused (f ()) x.drop Q) : Ends refused (Parser.skip >>= f) x Q := hf

/-- A parser that accepts a symbol goes on **with the symbol taken**, or with a token that is not
the symbol. -/
theorem accept_bind {symbol : Symbol} {f : Bool → Parser TokenStream β}
    (htaken : ∀ x', x.Took [.symbol symbol] x' → Ends True (f true) x' Q)
    (hleft : ∀ t, x.shown = .ok t → t.kind ≠ .symbol symbol → Ends True (f false) x Q) :
    Ends True (Parser.accept symbol >>= f) x Q := by
  rw [Parser.accept, bind_assoc]
  refine peek_bind fun t ht => ?_
  split
  · next hk =>
    have hk := TokenKind.isSymbol_iff.1 hk
    have htook := TokenStream.took_drop ht hk (by simp)
    exact htaken _ htook
  · next hk => exact hleft t ht fun h => hk (TokenKind.isSymbol_iff.2 h)

/-- A parser that expects a symbol goes on only with the symbol **taken**. -/
theorem expect_bind {symbol : Symbol} {e : Expected} {f : Token → Parser TokenStream β}
    (hf : ∀ t x', x.Took [.symbol symbol] x' → Ends True (f t) x' Q) :
    Ends True (Parser.expect symbol e >>= f) x Q := by
  rw [Parser.expect, bind_assoc]
  refine peek_bind fun t ht => ?_
  split
  · next hk =>
    have hk := TokenKind.isSymbol_iff.1 hk
    have htook := TokenStream.took_drop ht hk (by simp)
    exact hf t _ htook
  · exact fail trivial

/-- A parser that expects a name goes on only with the name **taken**. -/
theorem expectName_bind {e : Expected} {f : Name → Parser TokenStream β}
    (hf : ∀ n x', x.Took [.name n.text] x' → Ends True (f n) x' Q) :
    Ends True (Parser.expectName e >>= f) x Q := by
  rw [Parser.expectName, bind_assoc]
  refine peek_bind fun t ht => ?_
  split
  · next text hk =>
    have htook := TokenStream.took_drop ht hk (by simp)
    exact hf ⟨text, t.span⟩ _ htook
  · exact fail trivial

/-! ### Rules for a parser that may not be refused -/

variable {ks : List TokenKind} {k : TokenKind} {symbol : Symbol}

/-- A parser that looks sees a token of **the first kind** that is ahead. -/
theorem look_bind {f : Token → Parser TokenStream β} (h : x.Shows ks)
    (hf : ∀ t, t.kind = first ks → Ends False (f t) x Q) : Ends False (Parser.peek >>= f) x Q := by
  obtain ⟨t, ht, hk⟩ := h.shown
  rw [Ends, run_peek_bind ht]
  exact hf t hk

/-- A parser that drops a token leaves **the other kinds** ahead. -/
theorem drop_bind {f : Unit → Parser TokenStream β} (h : x.Shows (k :: ks))
    (hf : ∀ x' : TokenStream, x'.Shows ks → Ends False (f ()) x' Q) :
    Ends False (Parser.skip >>= f) x Q :=
  hf _ h.drop

/-- Whether a symbol comes next is read off **the first kind** that is ahead. -/
theorem check_bind {f : Bool → Parser TokenStream β} (h : x.Shows ks)
    (hf : Ends False (f ((first ks).isSymbol symbol)) x Q) :
    Ends False (Parser.check symbol >>= f) x Q := by
  rw [Parser.check, bind_assoc]
  refine look_bind h fun t ht => ?_
  rw [pure_bind, ht]
  exact hf

/-- A symbol that is ahead is **accepted**. -/
theorem accepted_bind {f : Bool → Parser TokenStream β} (h : x.Shows (.symbol symbol :: ks))
    (hf : ∀ x' : TokenStream, x'.Shows ks → Ends False (f true) x' Q) :
    Ends False (Parser.accept symbol >>= f) x Q := by
  rw [Parser.accept, bind_assoc]
  refine look_bind h fun t ht => ?_
  rw [if_pos (TokenKind.isSymbol_iff.2 ht), bind_assoc]
  exact drop_bind h hf

/-- A symbol that is not ahead is **passed over**, and nothing is taken. -/
theorem passed_bind {f : Bool → Parser TokenStream β} (h : x.Shows ks)
    (hk : first ks ≠ .symbol symbol) (hf : Ends False (f false) x Q) :
    Ends False (Parser.accept symbol >>= f) x Q := by
  rw [Parser.accept, bind_assoc]
  refine look_bind h fun t ht => ?_
  rw [if_neg (by rwa [ht, TokenKind.isSymbol_iff])]
  exact hf

/-- A symbol that is expected and ahead is **taken**, and no error is met. -/
theorem expected_bind {e : Expected} {f : Token → Parser TokenStream β}
    (h : x.Shows (.symbol symbol :: ks))
    (hf : ∀ t (x' : TokenStream), x'.Shows ks → Ends False (f t) x' Q) :
    Ends False (Parser.expect symbol e >>= f) x Q := by
  rw [Parser.expect, bind_assoc]
  refine look_bind h fun t ht => ?_
  rw [if_pos (TokenKind.isSymbol_iff.2 ht), bind_assoc]
  exact drop_bind h fun x' h' => hf t x' h'

/-- A name that is expected and ahead is **taken**, and no error is met. -/
theorem expectedName_bind {e : Expected} {text : String} {f : Name → Parser TokenStream β}
    (h : x.Shows (.name text :: ks))
    (hf : ∀ (n : Name) (x' : TokenStream), n.text = text → x'.Shows ks → Ends False (f n) x' Q) :
    Ends False (Parser.expectName e >>= f) x Q := by
  rw [Parser.expectName, bind_assoc]
  refine look_bind h fun t ht => ?_
  rw [TokenStream.first_cons] at ht
  rw [ht, bind_assoc]
  exact drop_bind h fun x' h' => hf _ x' rfl h'

end Parser.Ends

end RuleScript
