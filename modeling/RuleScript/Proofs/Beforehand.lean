import RuleScript.Proofs.Coherence
import RuleScript.Proofs.Concatenation
import RuleScript.Proofs.Ledger

/-!
# Reading on demand and reading beforehand

A source may be read token by token while it is parsed, or as a whole before. It makes no
difference: the parser gives the same program, or is refused with the same error, since an
error in place of a token is met only if all tokens before it were taken.

* `parse_beforehand`: parsing a source is parsing the stream of its tokens.
* `refused_of_parse`: a source is refused with the error that ends the stream, or else with an
  error of the grammar, in a span made of spans of tokens.
* `Cursor.start_lt_of_error`: all tokens of a stream begin before the error that ends it.
* `Parser.items_stop`: a program is read up to the end.
-/

namespace RuleScript

open String (utf8Len)

/-! ### Parsing a stream -/

/-- What a stream shows, one by one: its tokens, and then the end or the error. -/
def TokenStream.elements (x : TokenStream) : List (Except SyntaxError Token) :=
  x.tokens.map Except.ok ++ [x.ending.map fun span => ⟨.eof, span⟩]

/-- A lexer gives **the elements of the stream**, one by one. -/
theorem Lexer.results_eq_elements (source : String) (n : Nat) :
    (Lexer.ofString source).results n = (TokenStream.ofString source).elements.take n := by
  have hstream : TokenStream.ofString source = (Cursor.ofString source).stream := rfl
  rw [Lexer.ofString, Lexer.results_eq, Cursor.tokens_eq_stream, hstream]
  rcases (Cursor.ofString source).stream with ⟨tokens, e | span⟩
  · rfl
  · simp [TokenStream.elements, Except.map]

/-- **Parsing a source** is parsing the stream of its tokens. -/
theorem parse_beforehand (source : String) :
    (Parser.readProgram (TokenStream.ofString source)).1 = parse source := by
  set x := TokenStream.ofString source
  have hends := (Parser.items_progress (Parser.ampleDepth x) x
    (by unfold Parser.ampleDepth; omega)).not_exhausted
  obtain ⟨d, hd⟩ := items_stream source
  have hdone : ((Parser.items d).run x).1 ≠ .exhausted := by
    rw [show x = (Cursor.ofString source).stream from rfl, hd]
    cases parse source <;> exact nofun
  -- both depths are enough, so the larger of them gives what each of them does
  have houtcome : ((Parser.items (Parser.ampleDepth x)).run x).1 =
      .ofExcept ((parse source).map Program.items) := by
    rw [← Parser.items_deeper (fun h => hends _ (Prod.ext h rfl)) (Nat.le_max_left _ d),
      Parser.items_deeper hdone (Nat.le_max_right _ d)]
    exact hd
  rw [Parser.readProgram]
  rcases hrun : (Parser.items (Parser.ampleDepth x)).run x with ⟨is | e | _, x'⟩
  · rw [Process.settle_of_done hrun]
    rcases hparse : parse source with e | p <;> rw [hrun, hparse] at houtcome <;> cases houtcome
    rfl
  · rw [Process.settle_of_failed hrun]
    rcases hparse : parse source with e | p <;> rw [hrun, hparse] at houtcome <;> cases houtcome
    rfl
  · exact absurd hrun (hends x')

/-! ### The error a source is refused with -/

/-- A property of the spans of the tokens of a stream, and of its end. -/
def TokenStream.watch (ending : Except SyntaxError Span) (Good : Span → Prop)
    (union : ∀ {s t : Span}, Good s → Good t → Good (s.union t)) : Watch TokenStream where
  Good := Good
  Inside x := x.ending = ending ∧ (∀ t ∈ x.tokens, Good t.span) ∧
    ∀ span, ending = .ok span → Good span
  Refused e _ := ending = .error e ∨ (∃ cause, e.cause = .grammar cause) ∧ Good e.span
  union := union
  token := by
    rintro ⟨_ | ⟨u, us⟩, e | span⟩ x' t ⟨rfl, htokens, hend⟩ hpeek <;> cases hpeek
    · exact ⟨hend span rfl, rfl, htokens, hend⟩
    · exact ⟨htokens u List.mem_cons_self, rfl, htokens, hend⟩
    · exact ⟨htokens u List.mem_cons_self, rfl, htokens, hend⟩
  error := by
    rintro ⟨_ | ⟨u, us⟩, e | span⟩ x' e' ⟨rfl, -, -⟩ hpeek <;> cases hpeek
    exact .inl rfl
  grammar _ hspan := .inr ⟨⟨_, rfl⟩, hspan⟩
  drop := by
    rintro x t ⟨hending, htokens, hend⟩ - -
    exact ⟨hending, fun u hu => htokens u (List.mem_of_mem_tail hu), hend⟩

/-- A source is refused with the **error that ends its stream**, or with an error of the
grammar, in a span that has whatever the spans of tokens have and unions keep. -/
theorem refused_of_parse {source : String} {e : SyntaxError} (Good : Span → Prop)
    (union : ∀ {s t : Span}, Good s → Good t → Good (s.union t))
    (htokens : ∀ t ∈ (Cursor.ofString source).stream.tokens, Good t.span)
    (hend : ∀ span, (Cursor.ofString source).stream.ending = .ok span → Good span)
    (h : parse source = .error e) :
    (Cursor.ofString source).stream.ending = .error e ∨
      (∃ cause, e.cause = .grammar cause) ∧ Good e.span := by
  rw [← parse_beforehand] at h
  exact ((TokenStream.watch _ Good union).readProgram_keeps ⟨rfl, htokens, hend⟩).2 e _
    (Prod.ext h rfl)

namespace Cursor

variable {c c' : Cursor} {t : Token} {e : SyntaxError}

/-- An error is blamed on **some text** behind what was skipped. -/
theorem split_of_error (h : c.next = (.error e, c')) :
    ∃ skipped text rest, c.rest = skipped ++ (text ++ rest) ∧ text ≠ [] ∧
      e.span.start = c.loc.advance skipped ∧ e.span.stop = e.span.start.advance text := by
  cases Step.of_next h with
  | @refused gap cs ch _ _ _ hrest _ =>
    exact ⟨gap, _, _, hrest, Lexeme.read_text_ne_nil ch cs, rfl, rfl⟩
  | @unclosed gap comment _ hskip hrest =>
    exact ⟨gap, comment, [], by rw [List.append_nil, hrest], Trivia.comment_ne_nil hskip, rfl, rfl⟩

/-- The error in place of a token stands **behind** all tokens before it. -/
theorem start_lt_of_error (c : Cursor) (h : c.stream.ending = .error e) :
    c.loc.pos ≤ e.span.start.pos ∧ ∀ t ∈ c.stream.tokens, t.span.start.pos < e.span.start.pos := by
  induction c using tokens_induction with
  | error c e' c' hn =>
    rw [stream_of_error hn] at h ⊢
    cases h
    obtain ⟨skipped, text, rest, -, -, hstart, -⟩ := split_of_error hn
    rw [hstart, Location.pos_advance]
    exact ⟨Nat.le_add_right _ _, nofun⟩
  | ending c t c' hn hk =>
    rw [stream_of_end hn hk] at h
    cases h
  | token c t c' hn hk ih =>
    rw [stream_of_token hn hk] at h ⊢
    have hne : t.kind ≠ .eof := by simpa [TokenKind.isEof_iff] using Bool.eq_false_iff.1 hk
    obtain ⟨gap, text, -, -, htext, -, hstart, hstop, hloc⟩ := reads_of_next hn hne
    obtain ⟨hle, hmore⟩ := ih h
    -- the token is not empty, and the error comes behind it
    have hpos : t.span.start.pos = c.loc.pos + utf8Len gap := by
      rw [hstart, Location.pos_advance]
    have hlong : t.span.start.pos < c'.loc.pos := by
      obtain ⟨ch, cs, rfl⟩ := List.exists_cons_of_ne_nil htext.ne_nil
      have := ch.utf8Size_pos
      rw [hloc, hstop, Location.pos_advance, String.utf8Len_cons]
      omega
    refine ⟨by omega, List.forall_mem_cons.2 ⟨by omega, hmore⟩⟩

end Cursor

/-- A source with an **error in place of a token** is refused, with that error or with an error
of the grammar before it. -/
theorem refused_of_lex {source : String} {e : SyntaxError} (h : lex source = .error e) :
    ∃ e', parse source = .error e' ∧
      (e' = e ∨ (∃ cause, e'.cause = .grammar cause) ∧ e'.span.start.pos < e.span.start.pos) := by
  have hending : (Cursor.ofString source).stream.ending = .error e := by
    rw [lex_eq_stream] at h
    rcases hx : (Cursor.ofString source).stream.ending with e' | span <;> rw [hx] at h <;> cases h
    rfl
  rcases hparse : parse source with e' | p
  · refine ⟨e', rfl, ?_⟩
    have hrefused := refused_of_parse (fun s => s.start.pos < e.span.start.pos)
      (fun hs _ => Nat.lt_of_le_of_lt (Span.start_union_le _ _) hs)
      (Cursor.start_lt_of_error _ hending).2 (by simp [hending]) hparse
    rw [hending] at hrefused
    exact hrefused.imp_left fun h => (Except.error.inj h).symm
  · -- a source that is a program has its end
    obtain ⟨ts, span, hstream, -⟩ := listed_of_parse hparse
    rw [hstream] at hending
    cases hending

/-- A **lexical** cause is that of the error which ends the stream. -/
theorem ending_of_lexical {source : String} {e : SyntaxError} {cause : LexicalCause}
    (h : parse source = .error e) (hcause : e.cause = .lexical cause) :
    (Cursor.ofString source).stream.ending = .error e := by
  have hrefused := refused_of_parse (fun _ => True) (fun _ _ => trivial)
    (fun _ _ => trivial) (fun _ _ => trivial) h
  obtain hending | ⟨⟨cause', hgrammar⟩, -⟩ := hrefused
  · exact hending
  · cases hcause.symm.trans hgrammar

/-! ### Up to the end -/

/-- A program is read **up to the end**, which is looked at and not dropped. -/
theorem Parser.items_stop {σ : Type} [TokenSource σ] [LawfulTokenSource σ] (depth : Nat) (s s' : σ)
    (is : List Item) (h : (Parser.items depth).run s = (.done is, s')) :
    ∃ t, Seen t s' ∧ t.kind = .eof := by
  induction depth generalizing s is with
  | zero => cases h
  | succ depth ih =>
    rw [Parser.items] at h
    obtain ⟨t, s₁, hpeek, hrun⟩ := Process.exists_of_run_bind_done h
    -- the list ends where the end is seen, and else goes on behind an item or a semicolon
    split at hrun
    · next hk =>
      cases hrun
      exact ⟨t, seen_of_peek hpeek, hk⟩
    · exact ih _ _ hrun
    · obtain ⟨a, s₂, -, hrun⟩ := Process.exists_of_run_bind_done hrun
      obtain ⟨more, s₃, hmore, hrun⟩ := Process.exists_of_run_bind_done hrun
      cases hrun
      exact ih _ _ hmore
    · obtain ⟨-, s₂, -, hrun⟩ := Process.exists_of_run_bind_done hrun
      obtain ⟨r, s₃, -, hrun⟩ := Process.exists_of_run_bind_done hrun
      obtain ⟨more, s₄, hmore, hrun⟩ := Process.exists_of_run_bind_done hrun
      cases hrun
      exact ih _ _ hmore
    · cases hrun

/-! ### Sources -/

/-- The states of a parser over a source, with what it has taken, after any expressions that
were read from it, or refused for a cause that is **not lexical**. -/
inductive Ledger.Reached (source : String) : Ledger → Prop
  | start : Reached source (.ofString source)
  | expression {r : Ledger} (h : Reached source r)
    (hcause : ∀ e cause, (Parser.readExpression r).1 = .error e → e.cause ≠ .lexical cause) :
    Reached source (Parser.readExpression r).2

namespace Ledger.Reached

variable {source : String} {r : Ledger}

theorem kept (h : r.Reached source) : r.Kept source := by
  induction h with
  | start => exact .ofString source
  | @expression r _ hcause ih =>
    have hkept := (books source).readExpression_keeps ih
    rcases hread : Parser.readExpression r with ⟨e | e, r'⟩ <;> rw [hread] at hkept hcause
    · exact hkept.2 e r' rfl (fun cause => hcause e cause rfl)
    · exact (hkept.1 e r' rfl).2

/-- The source alone is in a state that it reaches **by the same calls**. -/
theorem supply (h : r.Reached source) : r.supply.Reached source := by
  induction h with
  | start => exact .start
  | @expression r _ _ ih =>
    have hplain := congrArg Prod.snd r.readExpression_plain
    rw [← show _ = (Parser.readExpression r).2.supply from hplain]
    exact .expression ih

end Ledger.Reached

theorem Parser.items_of_readProgram {σ : Type} [TokenSource σ] [LawfulTokenSource σ] {s s' : σ}
    {p : Program} (h : Parser.readProgram s = (.ok p, s')) :
    (Parser.items (Parser.ampleDepth s)).run s = (.done p.items, s') := by
  rw [Parser.readProgram] at h
  generalize hsettled : Process.settle (Parser.items (Parser.ampleDepth s)) s _ = settled at h
  obtain ⟨e | is, s₁⟩ := settled <;> cases h
  exact Process.done_of_settle hsettled

/-- If a source is read as a program, all its tokens before the end were **taken**, each once
and in order. -/
theorem taken_of_parse {source : String} {p : Program} (h : parse source = .ok p) :
    ∃ r ending, Parser.readProgram (Ledger.ofString source) = (.ok p, r) ∧
      r.supply.peeked = some ending ∧ ending.kind = .eof ∧
      lex source = .ok (r.taken ++ [ending]) := by
  have hplain := congrArg Prod.fst (Ledger.readProgram_plain (.ofString source))
  rcases hread : Parser.readProgram (Ledger.ofString source) with ⟨result, r⟩
  rw [hread] at hplain
  obtain rfl : result = .ok p := (hplain.symm.trans h)
  obtain ⟨-, hkept⟩ := ((Ledger.books source).readProgram_keeps (.ofString source)).1 p r hread
  obtain ⟨ending, hseen, hk⟩ := Parser.items_stop _ _ _ _ (Parser.items_of_readProgram hread)
  have hpeeked := Lookahead.peeked_of_seen (Ledger.seen_supply hseen)
  refine ⟨r, ending, rfl, hpeeked, hk, ?_⟩
  rw [lex_eq_stream, hkept.stream_of_end hpeeked hk]
  obtain ⟨kind, span⟩ := ending
  obtain rfl : kind = .eof := hk
  rfl

/-- **Reading on demand is reading beforehand.** The stream of a source is what its lexer gives,
one by one, and the source is parsed as that stream is. If there is an error in place of a
token, the source is refused with it, or with an error of the grammar that stands before it;
and if it is refused for a lexical cause, then with the error that the lexer gives. If it is
read as a program, all its tokens were taken, each once. And in whatever state a parser is
that has met no lexical error, what it has taken, the token it has looked at and what is
still to be read are the tokens of the source. -/
theorem lexing_on_demand (source : String) :
    (∀ n, (Lexer.ofString source).results n = (TokenStream.ofString source).elements.take n) ∧
    (Parser.readProgram (TokenStream.ofString source)).1 = parse source ∧
    (∀ e, lex source = .error e → ∃ e', parse source = .error e' ∧
      (e' = e ∨ (∃ cause, e'.cause = .grammar cause) ∧
        e'.span.start.pos < e.span.start.pos)) ∧
    (∀ e cause, parse source = .error e → e.cause = .lexical cause → lex source = .error e ∧
      ∃ tokens : List Token, ∀ n, (Lexer.ofString source).results n =
        (tokens.map Except.ok ++ [Except.error e]).take n) ∧
    (∀ p, parse source = .ok p → ∃ r ending,
      Parser.readProgram (Ledger.ofString source) = (.ok p, r) ∧
      r.supply.peeked = some ending ∧ ending.kind = .eof ∧
      lex source = .ok (r.taken ++ [ending])) ∧
    ∀ r : Ledger, r.Reached source → r.Balanced source ∧ (∀ t ∈ r.taken, t.kind ≠ .eof) ∧
      r.supply.Reached source ∧ Parser.readExpression r.supply =
        ((Parser.readExpression r).1, (Parser.readExpression r).2.supply) := by
  refine ⟨Lexer.results_eq_elements source, parse_beforehand source, ?_, ?_, ?_, ?_⟩
  · intro e hlex
    exact refused_of_lex hlex
  · intro e cause hparse hcause
    have hending := ending_of_lexical hparse hcause
    refine ⟨?_, (Cursor.ofString source).stream.tokens, fun n => ?_⟩
    · rw [lex_eq_stream, hending]
      rfl
    · rw [Lexer.results_eq_elements, TokenStream.elements]
      exact congrArg (fun ending => List.take n (_ ++ [ending]))
        (congrArg (Except.map fun span => (⟨.eof, span⟩ : Token)) hending)
  · intro p hparse
    exact taken_of_parse hparse
  · intro r hr
    exact ⟨hr.kept.balanced, hr.kept.kind_ne_eof, hr.supply, r.readExpression_plain⟩

/-- An expression is read from a source that has an error further on. As a program the source
is refused before that error. -/
theorem lexing_on_demand_before_error :
    let source := "1 ) &"
    let e : SyntaxError := ⟨.lexical (.halfOperator '&'), ⟨4, 1, 5⟩, ⟨5, 1, 6⟩⟩
    let r := (Parser.readExpression (Ledger.ofString source)).2
    lex source = .error e ∧ (∃ e', parse source = .error e' ∧ (e' = e ∨
      (∃ cause, e'.cause = .grammar cause) ∧ e'.span.start.pos < e.span.start.pos)) ∧
    r.Reached source ∧ r.taken.map Token.kind = [.int 1] ∧
    r.supply.peeked.map Token.kind = some (.symbol .closeParen) ∧ r.Balanced source := by
  intro source e r
  have hone : (Cursor.ofString "1 ) &").next =
      (.ok ⟨.int 1, ⟨0, 1, 1⟩, ⟨1, 1, 2⟩⟩, ⟨[' ', ')', ' ', '&'], ⟨1, 1, 2⟩⟩) := by
    with_unfolding_all rfl
  have htwo : (Cursor.mk [' ', ')', ' ', '&'] ⟨1, 1, 2⟩).next =
      (.ok ⟨.symbol .closeParen, ⟨2, 1, 3⟩, ⟨3, 1, 4⟩⟩, ⟨[' ', '&'], ⟨3, 1, 4⟩⟩) := by
    with_unfolding_all rfl
  have hthree : (Cursor.mk [' ', '&'] ⟨3, 1, 4⟩).next = (.error e, ⟨[], ⟨5, 1, 6⟩⟩) := by
    with_unfolding_all rfl
  have hlex : lex source = .error e := by
    rw [lex, Cursor.tokens_of_token hone rfl, Cursor.tokens_of_token htwo rfl,
      Cursor.tokens_of_error hthree]
  have hread : Parser.readExpression (Ledger.ofString "1 ) &") =
      (.ok (.literal (.int 1) ⟨⟨0, 1, 1⟩, ⟨1, 1, 2⟩⟩),
        ⟨⟨⟨[' ', '&'], ⟨3, 1, 4⟩⟩, some ⟨.symbol .closeParen, ⟨2, 1, 3⟩, ⟨3, 1, 4⟩⟩⟩,
          [⟨.int 1, ⟨0, 1, 1⟩, ⟨1, 1, 2⟩⟩]⟩) :=
    Process.settle_of_done (by with_unfolding_all rfl) _
  have hr : r.Reached source := by
    refine .expression .start fun e' cause he' => ?_
    rw [hread] at he'
    cases he'
  have hall := lexing_on_demand source
  refine ⟨hlex, hall.2.2.1 e hlex, hr, ?_, ?_, (hall.2.2.2.2.2 r hr).1⟩
  · rw [show r = _ from congrArg Prod.snd hread]
    rfl
  · rw [show r = _ from congrArg Prod.snd hread]
    rfl

end RuleScript
