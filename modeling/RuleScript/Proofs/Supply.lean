import RuleScript.Proofs.Demand

/-!
# Depth and supply make no difference

What a parser does is decided by the tokens ahead of it. More depth than it needs changes
nothing (`Parser.rule_deeper`, `Parser.atRule_deeper`, `Parser.items_deeper`), since any
supply of tokens corresponds to itself. And a source may be replaced by any stream of
tokens that looks like the stream ahead of it.

* `TokenStream.seen`: a stream as it is seen, with its ending.
* `parse_of_stream`: reading a source comes to what reading such a stream does, at any depth
  that is enough. `items_stream`: its own stream is one of them.
* `parse_of_tokens`, `refused_of_tokens`: a source that is a sequence of tokens, read from them.
-/

namespace RuleScript

/-! ### Depth -/

/-- A supply of tokens **corresponds to itself**. -/
def Pairing.self (σ : Type) [TokenSource σ] : Pairing σ σ where
  view := .exact
  ahead := True
  Related s t := s = t
  Parted s t := s = t
  peek := by
    rintro s _ rfl
    rcases h : TokenSource.peek s with ⟨e | t, s'⟩
    · exact .inr ⟨e, e, s', s', rfl, rfl, rfl, rfl⟩
    · exact .inl ⟨t.kind, t.span, t.span, s', s', rfl, rfl, rfl, rfl⟩
  part h := h
  drop := by
    rintro s _ a b rfl - -
    rfl

section Depth

variable {σ α : Type} [TokenSource σ]

/-- Where a parser is not exhausted, it ends the same if it is given more depth; and if it
is done, then in the same state. -/
theorem Pairing.Same.deeper {seen : View → α → α} {x y : Outcome SyntaxError α × σ}
    (h : (Pairing.self σ).SameSeen seen x y) (hseen : ∀ a, seen .exact a = a)
    (hx : x.1 ≠ .exhausted) : y.1 = x.1 ∧ ∀ a, x.1 = .done a → y = x := by
  cases h with
  | @done a b s t result state =>
    obtain rfl : a = b := by
      change seen .exact a = seen .exact b at result
      rwa [hseen, hseen] at result
    obtain rfl : s = t := state
    exact ⟨rfl, fun _ _ => rfl⟩
  | @failed e e' s t error =>
    obtain rfl : e = e' := error.1
    exact ⟨rfl, fun _ h => nomatch h⟩
  | exhausted state => exact absurd rfl hx
  | behind h => exact absurd rfl hx

namespace Parser

variable [LawfulTokenSource σ] {d d' : Nat} {s s' : σ}

theorem rule_deeper {name : Name} {r : Rule} (h : (rule d name).run s = (.done r, s'))
    (hd : d ≤ d') : (rule d' name).run s = (.done r, s') := by
  have hsame := (Pairing.programSame (p := Pairing.self σ) (.of_le trivial hd)).rule
    (rfl : s = s) (rfl : name.seen .exact = name.seen .exact)
  rw [h] at hsame
  exact (hsame.deeper Rule.seen_exact nofun).2 r rfl

theorem atRule_deeper {a : AtRule} (h : (atRule d).run s = (.done a, s')) (hd : d ≤ d') :
    (atRule d').run s = (.done a, s') := by
  have hsame := (Pairing.programSame (p := Pairing.self σ) (.of_le trivial hd)).atRule
    (rfl : s = s)
  rw [h] at hsame
  exact (hsame.deeper AtRule.seen_exact nofun).2 a rfl

theorem items_deeper (h : ((items d).run s).1 ≠ .exhausted) (hd : d ≤ d') :
    ((items d').run s).1 = ((items d).run s).1 := by
  have hsame := Pairing.items_same (p := Pairing.self σ) (.of_le trivial hd) (rfl : s = s)
  exact (hsame.deeper (List.map_id'' Item.seen_exact) h).1

end Parser

end Depth

/-! ### Streams as they are seen -/

namespace TokenStream

variable (v : View)

/-- A stream of tokens **as it is seen**: its tokens, and the end or the error after
them. -/
def seen (x : TokenStream) : TokenStream where
  tokens := x.tokens.map (Token.seen v)
  ending := match x.ending with
    | .ok span => .ok (v.span span)
    | .error e => .error (e.seen v)

variable {v} {x y : TokenStream}

theorem drop_seen (h : x.seen v = y.seen v) : x.drop.seen v = y.drop.seen v := by
  obtain ⟨htokens, hending⟩ := TokenStream.mk.inj h
  simp only [seen, drop, List.map_tail, htokens, TokenStream.mk.injEq, true_and]
  exact hending

/-- Streams that look the same show tokens of one kind next, in spans that look the same,
or errors that look the same. -/
theorem shown_seen (h : x.seen v = y.seen v) :
    (∃ k a b, x.shown = .ok ⟨k, a⟩ ∧ y.shown = .ok ⟨k, b⟩ ∧ v.span a = v.span b) ∨
    ∃ e e', x.shown = .error e ∧ y.shown = .error e' ∧ e.seen v = e'.seen v := by
  obtain ⟨xs, xend⟩ := x
  obtain ⟨ys, yend⟩ := y
  obtain ⟨htokens, hending⟩ := TokenStream.mk.inj h
  cases xs with
  | nil =>
    obtain rfl := List.map_eq_nil_iff.1 htokens.symm
    rcases xend with e | a <;> rcases yend with e' | b
    · exact .inr ⟨e, e', rfl, rfl, Except.error.inj hending⟩
    · cases hending
    · cases hending
    · exact .inl ⟨.eof, a, b, rfl, rfl, Except.ok.inj hending⟩
  | cons t ts =>
    obtain ⟨u, us, rfl, hu, -⟩ := List.map_eq_cons_iff.1 htokens.symm
    obtain ⟨hkind, hspan⟩ := Token.mk.inj hu
    refine .inl ⟨t.kind, t.span, u.span, rfl, ?_, hspan.symm⟩
    rw [← hkind]
    rfl

/-- Who sees no spans sees the kinds of tokens. -/
theorem cons_seen {t u : Token} (hkind : t.kind = u.kind) (h : x.seen .blind = y.seen .blind) :
    TokenStream.seen .blind ⟨t :: x.tokens, x.ending⟩ =
      TokenStream.seen .blind ⟨u :: y.tokens, y.ending⟩ := by
  obtain ⟨htokens, hending⟩ := TokenStream.mk.inj h
  have hhead : t.seen .blind = u.seen .blind := congrArg (Token.mk · Inhabited.default) hkind
  refine (TokenStream.mk.injEq ..).mpr ⟨?_, hending⟩
  rw [List.map_cons, List.map_cons, htokens, hhead]

end TokenStream

/-- A stream of tokens **corresponds** to a source while it looks like the stream ahead. -/
def Lookahead.viewed (v : View) : Pairing TokenStream Lookahead where
  view := v
  ahead := True
  Related x s := s.Steady ∧ x.seen v = s.stream.seen v
  Parted _ _ := True
  peek := by
    rintro x s ⟨hs, hseen⟩
    obtain ⟨t, s', hpeek, hshown, hstream, hsteady⟩ | ⟨e, s', hpeek, hshown⟩ := peek_stream hs <;>
      obtain ⟨k, a, b, hx, hy, hspan⟩ | ⟨e₁, e₂, hx, hy, he⟩ := TokenStream.shown_seen hseen <;>
      rw [TokenStream.shown, hshown] at hy <;> cases hy
    · refine .inl ⟨k, a, b, x, s', ?_, hpeek, hspan, hsteady, ?_⟩
      · rw [x.peek_eq, hx]
      · rwa [hstream]
    · exact .inr ⟨e₁, e, x, s', by rw [x.peek_eq, hx], hpeek, he, trivial⟩
  part _ := trivial
  drop := by
    rintro x s t u ⟨hs, hseen⟩ - hu
    refine ⟨s.steady_drop, ?_⟩
    change x.drop.seen v = s.drop.stream.seen v
    rw [Lookahead.stream_drop hs (peeked_of_seen hu)]
    exact TokenStream.drop_seen hseen

/-! ### Sources -/

/-- A source is read the same at any depth that is **enough**. -/
theorem items_run_eq_parse (source : String) {d : Nat}
    (hd : Parser.ampleDepth (Lookahead.ofString source) ≤ d) :
    ((Parser.items d).run (Lookahead.ofString source)).1 =
      .ofExcept ((parse source).map Program.items) := by
  have hends := Parser.items_progress (Parser.ampleDepth (Lookahead.ofString source))
    (Lookahead.ofString source) (by unfold Parser.ampleDepth; omega)
  rcases hrun : (Parser.items (Parser.ampleDepth (Lookahead.ofString source))).run
    (Lookahead.ofString source) with ⟨is | e | _, s⟩
  · rw [Parser.items_deeper (by rw [hrun]; exact nofun) hd, hrun, parse_of_done hrun]
    rfl
  · rw [Parser.items_deeper (by rw [hrun]; exact nofun) hd, hrun, parse_of_failed hrun]
    rfl
  · exact absurd hrun (hends.not_exhausted s)

/-- Reading a source comes to what reading **a stream that looks like it** does. -/
theorem parse_of_stream {v : View} {source : String} {x : TokenStream} {d : Nat}
    (h : x.seen v = (Cursor.ofString source).stream.seen v)
    (hend : ((Parser.items d).run x).1 ≠ .exhausted) :
    (∃ is p, ((Parser.items d).run x).1 = .done is ∧ parse source = .ok p ∧
      p.seen v = Program.seen v ⟨is⟩) ∨
    ∃ e e', ((Parser.items d).run x).1 = .failed e ∧ parse source = .error e' ∧
      e'.seen v = e.seen v := by
  have hle := Nat.le_max_left d (Parser.ampleDepth (Lookahead.ofString source))
  have hsame := Pairing.items_same (p := Lookahead.viewed v) (.of_le trivial hle)
    ⟨Lookahead.steady_ofString source, h⟩
  have hparse := items_run_eq_parse source
    (Nat.le_max_right d (Parser.ampleDepth (Lookahead.ofString source)))
  rcases hx : (Parser.items d).run x with ⟨out, x'⟩
  rcases hs : (Parser.items (max d (Parser.ampleDepth (Lookahead.ofString source)))).run
    (Lookahead.ofString source) with ⟨out', s'⟩
  rw [hx] at hend
  rw [hx, hs] at hsame
  rw [hs] at hparse
  cases hsame with
  | done result state =>
    rcases hp : parse source with e | p <;> rw [hp] at hparse <;> cases hparse
    exact .inl ⟨_, p, rfl, rfl, congrArg Program.mk result.symm⟩
  | failed error =>
    rcases hp : parse source with e | p <;> rw [hp] at hparse <;> cases hparse
    exact .inr ⟨_, _, rfl, rfl, error.1.symm⟩
  | exhausted state => exact absurd rfl hend
  | behind _ => exact absurd rfl hend

/-- To read the **stream of a source** is to read the source. -/
theorem items_run_stream {source : String} {d : Nat}
    (hend : ((Parser.items d).run (Cursor.ofString source).stream).1 ≠ .exhausted) :
    ((Parser.items d).run (Cursor.ofString source).stream).1 =
      .ofExcept ((parse source).map Program.items) := by
  obtain ⟨is, p, hdone, hp, hseen⟩ | ⟨e, e', hfailed, he, hseen⟩ :=
    parse_of_stream (v := .exact) (rfl : _ = (Cursor.ofString source).stream.seen .exact) hend
  · obtain rfl : p = ⟨is⟩ := by simpa only [Program.seen_exact] using hseen
    rw [hdone, hp]
    rfl
  · obtain rfl : e' = e := hseen
    rw [hfailed, he]
    rfl

/-- Reading a source comes to what reading the **stream of its tokens** does. -/
theorem items_stream (source : String) :
    ∃ d, ((Parser.items d).run (Cursor.ofString source).stream).1 =
      .ofExcept ((parse source).map Program.items) := by
  have hends := Parser.items_progress (Parser.ampleDepth (Cursor.ofString source).stream)
    (Cursor.ofString source).stream (by unfold Parser.ampleDepth; omega)
  exact ⟨_, items_run_stream fun h => hends.not_exhausted _ (Prod.ext h rfl)⟩

/-! ### Sources by their tokens -/

/-- A stretch of the **first line**, where columns go with bytes. -/
def Span.inLine (start stop : Nat) : Span := ⟨⟨start, 1, start + 1⟩, ⟨stop, 1, stop + 1⟩⟩

/-- A token in the first line, where columns go with bytes. -/
def Token.inLine (kind : TokenKind) (start stop : Nat) : Token := ⟨kind, .inLine start stop⟩

/-- The stream of a source is its tokens, and **the end**. -/
theorem stream_of_lex {source : String} {tokens : List Token} (h : lex source = .ok tokens) :
    ∃ span, (Cursor.ofString source).stream = ⟨tokens.dropLast, .ok span⟩ := by
  rw [Cursor.stream, tokens_of_lex h]
  exact ⟨_, rfl⟩

section Tokens

variable {source : String} {x : TokenStream} (tokens : List Token) (ending : Span)

theorem stream_of_tokens (h : lex source = .ok (tokens ++ [⟨.eof, ending⟩])) :
    (Cursor.ofString source).stream = ⟨tokens, .ok ending⟩ := by
  rw [Cursor.stream, tokens_of_lex h]
  simp only [List.dropLast_concat, List.getLast?_concat]
  rfl

/-- A source is the program that is read **from its tokens**. -/
theorem parse_of_tokens {items : List Item} (h : lex source = .ok (tokens ++ [⟨.eof, ending⟩]))
    (hrun : (Parser.items (4 * tokens.length + 8)).run ⟨tokens, .ok ending⟩ = (.done items, x)) :
    parse source = .ok ⟨items⟩ := by
  rw [← stream_of_tokens tokens ending h] at hrun
  have hread := items_run_stream (by rw [hrun]; exact nofun)
  rw [hrun] at hread
  rcases hp : parse source with e | p <;> rw [hp] at hread <;> cases hread
  rfl

/-- A source is **refused** with the error that is met in its tokens. -/
theorem refused_of_tokens {e : SyntaxError} (h : lex source = .ok (tokens ++ [⟨.eof, ending⟩]))
    (hrun : (Parser.items (4 * tokens.length + 8)).run ⟨tokens, .ok ending⟩ = (.failed e, x)) :
    parse source = .error e := by
  rw [← stream_of_tokens tokens ending h] at hrun
  have hread := items_run_stream (by rw [hrun]; exact nofun)
  rw [hrun] at hread
  rcases hp : parse source with e | p <;> rw [hp] at hread <;> cases hread
  rfl

end Tokens

end RuleScript
