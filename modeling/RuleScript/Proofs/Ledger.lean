import RuleScript.Proofs.Provenance
import RuleScript.Proofs.Supply

/-!
# What a parser has taken

A parser that reads on demand keeps one token that it has looked at, and its source is read up
to behind that token. To say that no token is lost on the way and none read twice, the tokens
that it drops are written down. The parser is the same: it runs over a `Ledger`, which is a
source with a record, and the record is never looked at.

* `Ledger.readExpression_plain` and `Ledger.readProgram_plain`: without the record, a parser
  does what it does over the source alone, and leaves it in the same state.
* `Ledger.Balanced`: what was taken, the token that was looked at and what is still to be read
  are the tokens of the source. `Ledger.books` keeps it through every parser, unless an error
  stands in place of a token.
-/

namespace RuleScript

/-- A source that is read on demand, with the tokens **taken** from it so far. -/
structure Ledger where
  /-- the source -/
  supply : Lookahead
  /-- the tokens that were looked at and dropped -/
  taken : List Token

namespace Ledger

/-- A source of which nothing was taken. -/
def ofString (source : String) : Ledger := ⟨.ofString source, []⟩

/-- Looks at the next token. -/
def peek (r : Ledger) : Except SyntaxError Token × Ledger :=
  (r.supply.peek.1, ⟨r.supply.peek.2, r.taken⟩)

/-- Drops the token that was looked at, and writes it down. -/
def drop (r : Ledger) : Ledger := ⟨r.supply.drop, r.taken ++ r.supply.peeked.toList⟩

instance : TokenSource Ledger := ⟨peek, drop, fun r => r.supply.size⟩

variable {r r' : Ledger} {t : Token} {α : Type}

theorem peek_supply {result : Except SyntaxError Token} (h : r.peek = (result, r')) :
    r.supply.peek = (result, r'.supply) ∧ r'.taken = r.taken := by
  obtain ⟨hresult, hr'⟩ := Prod.mk.inj h
  rw [← hr', ← hresult]
  exact ⟨rfl, rfl⟩

theorem seen_supply (h : Parser.Seen t r) : Parser.Seen t r.supply := (peek_supply h).1

instance : LawfulTokenSource Ledger where
  peek_peek := by
    intro r r' t h
    change r'.peek = (.ok t, r')
    rw [peek, Lookahead.peek_peek (peek_supply h).1]
  size_peek r := r.supply.size_peek
  size_drop := by
    intro r r' t h hk
    exact LawfulTokenSource.size_drop (σ := Lookahead) (peek_supply h).1 hk

/-! ### The record is not looked at -/

/-- A source with a record **corresponds** to the source alone. -/
def plain : Pairing Ledger Lookahead where
  view := .exact
  ahead := False
  Related r s := r.supply = s
  Parted r s := r.supply = s
  peek := by
    rintro r _ rfl
    rcases h : r.peek with ⟨e | t, r'⟩
    · exact .inr ⟨e, e, r', r'.supply, h, (peek_supply h).1, rfl, rfl⟩
    · exact .inl ⟨t.kind, t.span, t.span, r', r'.supply, h, (peek_supply h).1, rfl, rfl⟩
  part h := h
  drop := by
    rintro r _ a b rfl - -
    rfl

/-- Parsers that end the same **settle** the same, in the same state of the source. -/
theorem settle_plain {seen : View → α → α} (hseen : ∀ a, seen .exact a = a)
    {x : Parser Ledger α} {y : Parser Lookahead α} {s : Lookahead}
    (h : plain.SameSeen seen (x.run r) (y.run s))
    (hx : ∀ r', x.run r ≠ (.exhausted, r')) (hy : ∀ s', y.run s ≠ (.exhausted, s')) :
    y.settle s hy = ((x.settle r hx).1, (x.settle r hx).2.supply) := by
  rcases hrun : x.run r with ⟨outcome, r'⟩
  rcases hrun' : y.run s with ⟨outcome', s'⟩
  rw [hrun, hrun'] at h
  cases h with
  | @done a b _ _ result state =>
    obtain rfl : a = b := by
      change seen .exact a = seen .exact b at result
      rwa [hseen, hseen] at result
    rw [Process.settle_of_done hrun, Process.settle_of_done hrun', ← show r'.supply = s' from state]
  | @failed e e' _ _ error =>
    obtain ⟨rfl, rfl⟩ : e = e' ∧ r'.supply = s' := error
    rw [Process.settle_of_failed hrun, Process.settle_of_failed hrun']
  | exhausted _ => exact absurd hrun (hx r')
  | behind h => exact h.elim

/-- An **expression** is read as from the source alone. -/
theorem readExpression_plain (r : Ledger) :
    Parser.readExpression r.supply =
      ((Parser.readExpression r).1, (Parser.readExpression r).2.supply) :=
  settle_plain Expr.seen_exact
    ((Pairing.expressionSame (p := plain) (.refl _ _)).binary 0 (rfl : r.supply = r.supply)) _ _

/-- A **program** is read as from the source alone. -/
theorem readProgram_plain (r : Ledger) :
    Parser.readProgram r.supply = ((Parser.readProgram r).1, (Parser.readProgram r).2.supply) := by
  have hsame := Pairing.items_same (p := plain) (.refl _ (Parser.ampleDepth r))
    (rfl : r.supply = r.supply)
  exact congrArg (fun settled => (settled.1.map Program.mk, settled.2))
    (settle_plain (List.map_id'' Item.seen_exact) hsame _ _)

end Ledger

/-! ### Nothing is lost, and nothing is read twice -/

/-- A token that cannot be read is refused for a **lexical** cause. -/
theorem Cursor.lexical_of_next {c c' : Cursor} {e : SyntaxError} (h : c.next = (.error e, c')) :
    ∃ cause, e.cause = .lexical cause := by
  cases Step.of_next h with
  | refused => exact ⟨_, rfl⟩
  | unclosed => exact ⟨_, rfl⟩

theorem Lookahead.lexical_of_peek {s s' : Lookahead} {e : SyntaxError}
    (h : s.peek = (.error e, s')) : ∃ cause, e.cause = .lexical cause := by
  rw [peek] at h
  split at h
  · cases h
  · split at h
    · cases h
    · next hnext =>
      cases h
      exact Cursor.lexical_of_next hnext

/-- All tokens up to the end, the end included, or the tokens up to an error, and the error. -/
def TokenStream.listed (x : TokenStream) : List Token × Option SyntaxError :=
  match x.ending with
  | .ok span => (x.tokens ++ [⟨.eof, span⟩], none)
  | .error e => (x.tokens, some e)

theorem TokenStream.listed_prepend (ts : List Token) (x : TokenStream) :
    (x.prepend ts).listed = (ts ++ x.listed.1, x.listed.2) := by
  obtain ⟨tokens, e | span⟩ := x
  · rfl
  · simp only [listed, prepend, List.append_assoc]

namespace Lookahead

variable {s s' : Lookahead} {t : Token}

/-- What is **still to be read** of a source: all tokens ahead of the cursor, but nothing once
the end was looked at. -/
def unread (s : Lookahead) : List Token × Option SyntaxError :=
  if s.peeked.any (·.kind.isEof) then ([], none) else s.cursor.tokens

/-- What the stream ahead lists is the token that was looked at and what is still to be read. -/
theorem listed_stream (s : Lookahead) :
    s.stream.listed = (s.peeked.toList ++ s.unread.1, s.unread.2) := by
  obtain ⟨cursor, _ | ⟨kind, span⟩⟩ := s
  · exact cursor.tokens_eq_stream.symm
  · by_cases hk : kind.isEof = true
    · obtain rfl : kind = .eof := TokenKind.isEof_iff.1 hk
      rfl
    · have hunread : unread ⟨cursor, some ⟨kind, span⟩⟩ = cursor.tokens := by simp [unread, hk]
      have hlisted := TokenStream.listed_prepend [⟨kind, span⟩] cursor.stream
      rw [stream_of_peeked rfl, if_neg hk, hunread, cursor.tokens_eq_stream]
      exact hlisted

end Lookahead

namespace Ledger

variable {source : String} {r : Ledger} {t : Token}

/-- The record is **balanced**: what was taken, the token that was looked at and what is still
to be read are all tokens of the source, up to its end or the first error. -/
def Balanced (source : String) (r : Ledger) : Prop :=
  (Cursor.ofString source).tokens =
    (r.taken ++ (r.supply.peeked.toList ++ r.supply.unread.1), r.supply.unread.2)

/-- The stream of the source is what was taken and the stream ahead. -/
structure Kept (source : String) (r : Ledger) : Prop where
  steady : r.supply.Steady
  stream : (Cursor.ofString source).stream = r.supply.stream.prepend r.taken

namespace Kept

theorem ofString (source : String) : (Ledger.ofString source).Kept source :=
  ⟨Lookahead.steady_ofString source, rfl⟩

theorem balanced (h : r.Kept source) : r.Balanced source := by
  have hlisted := Cursor.tokens_eq_stream (Cursor.ofString source)
  rw [h.stream] at hlisted
  have hsplit := TokenStream.listed_prepend r.taken r.supply.stream
  rw [r.supply.listed_stream] at hsplit
  exact hlisted.trans hsplit

/-- The end is never taken. -/
theorem kind_ne_eof (h : r.Kept source) : ∀ t ∈ r.taken, t.kind ≠ .eof := by
  intro t ht
  refine Cursor.kind_ne_eof_of_mem_stream (c := Cursor.ofString source) ?_
  rw [h.stream]
  exact List.mem_append_left _ ht

/-- Where the end was looked at, **all tokens** before it were taken. -/
theorem stream_of_end (h : r.Kept source) (ht : r.supply.peeked = some t) (hk : t.kind = .eof) :
    (Cursor.ofString source).stream = ⟨r.taken, .ok t.span⟩ := by
  rw [h.stream, Lookahead.stream_of_peeked ht, if_pos (TokenKind.isEof_iff.2 hk),
    TokenStream.prepend, List.append_nil]

theorem peek {r' : Ledger} (h : r.Kept source)
    (hpeek : TokenSource.peek r = (.ok t, r')) : r'.Kept source := by
  obtain ⟨hsupply, htaken⟩ := peek_supply hpeek
  obtain ⟨u, s', hshown, -, hstream, hsteady⟩ | ⟨e, s', hshown, -⟩ :=
    Lookahead.peek_stream h.steady <;> cases hsupply.symm.trans hshown
  refine ⟨hsteady, ?_⟩
  rw [h.stream, hstream, htaken]

theorem drop (h : r.Kept source) (hseen : Parser.Seen t r) (hk : t.kind ≠ .eof) :
    r.drop.Kept source := by
  have ht := Lookahead.peeked_of_seen (seen_supply hseen)
  refine ⟨r.supply.steady_drop, ?_⟩
  have hstream := Lookahead.stream_of_peeked ht
  rw [if_neg (by rwa [TokenKind.isEof_iff])] at hstream
  have htaken : r.drop.taken = r.taken ++ [t] := by rw [Ledger.drop, ht, Option.toList_some]
  rw [h.stream, htaken, TokenStream.prepend_append, hstream]
  rfl

end Kept

/-- **Books are kept** by every parser, until an error stands in place of a token. -/
def books (source : String) : Watch Ledger where
  Good _ := True
  Inside := Kept source
  Refused e r := (∀ cause, e.cause ≠ .lexical cause) → r.Kept source
  union _ _ := trivial
  token h hpeek := ⟨trivial, h.peek hpeek⟩
  error := by
    intro r r' e h hpeek hcause
    obtain ⟨hsupply, -⟩ := peek_supply hpeek
    obtain ⟨cause, hlexical⟩ := Lookahead.lexical_of_peek hsupply
    exact absurd hlexical (hcause cause)
  grammar h _ _ := h
  drop h hseen hk := h.drop hseen hk

end Ledger

end RuleScript
