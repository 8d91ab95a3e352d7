import RuleScript.Proofs.Ledger

/-!
# Parsers take tokens

Whatever state a parser starts in, the tokens that it takes are those next ahead of it, and the
end is not one of them. A parser of expressions, statements, rules, at-rules or blocks that is done
has taken at least one.

* `Lookahead.ahead`: the tokens and errors that are ahead of a state, up to the end.
* `Ledger.Spent`: the tokens that were taken between two states. `Ledger.passage` watches them
  through every parser.
* `Ledger.Takes`: a parser does not end, with a result as asked for, without having taken a token.
* `Ledger.takes_binary`, `Ledger.takes_statement`, …: the parsers that take a token.
-/

namespace RuleScript

/-- What a result is need **not be known** to go on. -/
theorem Watch.Keeps.anything {σ α : Type} [TokenSource σ] {w : Watch σ} {x : Parser σ α}
    {Q : α → Prop} (h : w.Keeps x Q) : w.Keeps x fun _ => True := by
  rw [← bind_pure x]
  exact .bind h fun _ _ => .pure trivial

/-! ### What is ahead -/

/-- The tokens and errors **ahead** of a cursor, up to the end, which is not one of them. Reading
goes on after an error. -/
def Cursor.ahead (c : Cursor) : List (Except SyntaxError Token) :=
  match h : c.next with
  | (.error e, c') =>
    have : c'.rest.length < c.rest.length := by
      have hlt := c.length_rest_next (by rw [h]; rfl)
      rwa [h] at hlt
    .error e :: c'.ahead
  | (.ok t, c') =>
    if hk : t.kind.isEof then []
    else
      have : c'.rest.length < c.rest.length := by
        have hlt := c.length_rest_next (by rw [h]; exact Bool.eq_false_iff.2 hk)
        rwa [h] at hlt
      .ok t :: c'.ahead
termination_by c.rest.length

theorem Cursor.ahead_of_ok {c c' : Cursor} {t : Token} (h : c.next = (.ok t, c')) :
    c.ahead = if t.kind.isEof then [] else .ok t :: c'.ahead := by
  rw [ahead]
  split
  · next heq => cases h.symm.trans heq
  · next heq =>
    cases h.symm.trans heq
    rfl

theorem Cursor.ahead_of_error {c c' : Cursor} {e : SyntaxError} (h : c.next = (.error e, c')) :
    c.ahead = .error e :: c'.ahead := by
  rw [ahead]
  split
  · next heq =>
    cases h.symm.trans heq
    rfl
  · next heq => cases h.symm.trans heq

namespace Lookahead

variable {s s' : Lookahead} {t : Token}

/-- What is **ahead** of a parser: the token that was looked at, and what is ahead of the source;
but nothing, once the end was looked at. -/
def ahead (s : Lookahead) : List (Except SyntaxError Token) :=
  match s.peeked with
  | some t => if t.kind.isEof then [] else .ok t :: s.cursor.ahead
  | none => s.cursor.ahead

theorem ahead_of_seen (h : Parser.Seen t s) (hk : t.kind ≠ .eof) :
    s.ahead = .ok t :: s.drop.ahead := by
  rw [ahead, peeked_of_seen h]
  dsimp only
  rw [if_neg (by rwa [TokenKind.isEof_iff])]
  rfl

/-- **Looking** at a token takes nothing away. -/
theorem ahead_peek (h : s.peek = (.ok t, s')) : s'.ahead = s.ahead := by
  obtain ⟨cursor, peeked⟩ := s
  cases peeked with
  | some u =>
    cases h
    rfl
  | none =>
    rcases hnext : cursor.next with ⟨e | u, c'⟩
    · simp [peek, hnext] at h
    · simp only [peek, hnext, Prod.mk.injEq, Except.ok.injEq] at h
      obtain ⟨rfl, rfl⟩ := h
      exact (Cursor.ahead_of_ok hnext).symm

/-- An error in place of a token is **passed over**. -/
theorem ahead_peek_error {e : SyntaxError} (h : s.peek = (.error e, s')) :
    s.ahead = .error e :: s'.ahead := by
  obtain ⟨cursor, peeked⟩ := s
  cases peeked with
  | some u => cases h
  | none =>
    rcases hnext : cursor.next with ⟨e' | u, c'⟩
    · simp only [peek, hnext, Prod.mk.injEq, Except.error.injEq] at h
      obtain ⟨rfl, rfl⟩ := h
      exact Cursor.ahead_of_error hnext
    · simp [peek, hnext] at h

end Lookahead

/-! ### Tokens that were taken -/

namespace Ledger

variable {r r' r'' : Ledger} {ts us : List Token} {t : Token}

/-- **How many tokens** are ahead. -/
def unread (r : Ledger) : Nat := r.supply.ahead.countP Except.isOk

/-- Between two states the **tokens were taken**: they are written down and were next ahead, and
the end is not among them. -/
structure Spent (r : Ledger) (ts : List Token) (r' : Ledger) : Prop where
  taken : r'.taken = r.taken ++ ts
  ahead : r.supply.ahead = ts.map .ok ++ r'.supply.ahead
  kind_ne_eof : ∀ t ∈ ts, t.kind ≠ .eof

/-- Between two states tokens were taken until a parser was **refused**: the end is not among them,
and at most an error is missing between what was taken and what is ahead. -/
structure Halted (r : Ledger) (ts : List Token) (r' : Ledger) : Prop where
  taken : r'.taken = r.taken ++ ts
  ahead : r.supply.ahead = ts.map .ok ++ r'.supply.ahead ∨
    ∃ e, r.supply.ahead = ts.map .ok ++ .error e :: r'.supply.ahead
  kind_ne_eof : ∀ t ∈ ts, t.kind ≠ .eof

namespace Spent

theorem refl (r : Ledger) : r.Spent [] r := ⟨by simp, by simp, nofun⟩

theorem trans (h : r.Spent ts r') (h' : r'.Spent us r'') : r.Spent (ts ++ us) r'' where
  taken := by rw [h'.taken, h.taken, List.append_assoc]
  ahead := by rw [h.ahead, h'.ahead, List.map_append, List.append_assoc]
  kind_ne_eof := List.forall_mem_append.2 ⟨h.kind_ne_eof, h'.kind_ne_eof⟩

theorem halted (h : r.Spent ts r') : r.Halted ts r' := ⟨h.taken, .inl h.ahead, h.kind_ne_eof⟩

theorem trans_halted (h : r.Spent ts r') (h' : r'.Halted us r'') : r.Halted (ts ++ us) r'' where
  taken := by rw [h'.taken, h.taken, List.append_assoc]
  ahead := by simpa [h.ahead] using h'.ahead
  kind_ne_eof := List.forall_mem_append.2 ⟨h.kind_ne_eof, h'.kind_ne_eof⟩

/-- Looking takes nothing. -/
theorem peek (h : TokenSource.peek r = (.ok t, r')) : r.Spent [] r' := by
  obtain ⟨hsupply, htaken⟩ := peek_supply h
  refine ⟨by rw [htaken, List.append_nil], ?_, nofun⟩
  rw [Lookahead.ahead_peek hsupply]
  rfl

/-- Dropping takes the token that was looked at. -/
theorem drop (h : Parser.Seen t r) (hk : t.kind ≠ .eof) : r.Spent [t] (TokenSource.drop r) where
  taken := by
    change r.taken ++ r.supply.peeked.toList = _
    rw [Lookahead.peeked_of_seen (seen_supply h), Option.toList_some]
  ahead := Lookahead.ahead_of_seen (seen_supply h) hk
  kind_ne_eof := by simpa using hk

/-- If any token was taken, **fewer are ahead**. -/
theorem unread_lt (h : r.Spent ts r') (hts : ts ≠ []) : r'.unread < r.unread := by
  have hcount : (ts.map (Except.ok (ε := SyntaxError))).countP Except.isOk = ts.length := by
    rw [List.countP_map, List.countP_eq_length]
    exact fun _ _ => rfl
  have hlength := List.length_pos_iff.2 hts
  rw [unread, unread, h.ahead, List.countP_append, hcount]
  omega

end Spent

/-- An error in place of a token halts a parser that looks at it. -/
theorem Halted.peek {e : SyntaxError} (h : TokenSource.peek r = (.error e, r')) :
    r.Halted [] r' := by
  obtain ⟨hsupply, htaken⟩ := peek_supply h
  exact ⟨by rw [htaken, List.append_nil], .inr ⟨e, Lookahead.ahead_peek_error hsupply⟩, nofun⟩

/-- **Tokens are watched** since a state: only those ahead are taken, and the end is not. -/
def passage (r : Ledger) : Watch Ledger where
  Good _ := True
  Inside r' := ∃ ts, r.Spent ts r'
  Refused _ r' := ∃ ts, r.Halted ts r'
  union _ _ := trivial
  token := by
    rintro r₁ r₂ t ⟨ts, hts⟩ hpeek
    exact ⟨trivial, _, hts.trans (.peek hpeek)⟩
  error := by
    rintro r₁ r₂ e ⟨ts, hts⟩ hpeek
    exact ⟨_, hts.trans_halted (.peek hpeek)⟩
  grammar := by
    rintro r₁ cause span ⟨ts, hts⟩ -
    exact ⟨ts, hts.halted⟩
  drop := by
    rintro r₁ t ⟨ts, hts⟩ hseen hk
    exact ⟨_, hts.trans (.drop hseen hk)⟩

theorem inside_passage (r : Ledger) : r.passage.Inside r := ⟨[], .refl r⟩

/-! ### Parsers that take a token -/

variable {α β : Type} {P : α → Prop} {R : β → Prop}

/-- How a run ends that **takes a token**: done with a result as asked for, it has taken one; and
done or refused, it has not taken the end. -/
def Took (r : Ledger) (P : α → Prop) : Outcome SyntaxError α × Ledger → Prop
  | (.done a, r') => ∃ ts, r.Spent ts r' ∧ (P a → ts ≠ [])
  | (.failed _, r') => ∃ ts, r.Halted ts r'
  | (.exhausted, _) => True

namespace Took

variable {out : Outcome SyntaxError α × Ledger}

/-- Tokens taken before are taken as well. -/
theorem after (h : r.Spent ts r') (hout : r'.Took P out) : r.Took P out := by
  rcases out with ⟨a | e | _, r₁⟩
  · obtain ⟨us, hus, hne⟩ := hout
    exact ⟨ts ++ us, h.trans hus, fun ha => List.append_ne_nil_of_right_ne_nil ts (hne ha)⟩
  · obtain ⟨us, hus⟩ := hout
    exact ⟨ts ++ us, h.trans_halted hus⟩
  · trivial

/-- After a token was taken, **nothing more** is asked for than that tokens are watched. -/
theorem of_kept {Q : α → Prop} (h : r.Spent ts r') (hts : ts ≠ [])
    (hout : r'.passage.Kept Q out) : r.Took P out := by
  rcases out with ⟨a | e | _, r₁⟩
  · obtain ⟨-, us, hus⟩ := hout
    exact ⟨ts ++ us, h.trans hus, fun _ => List.append_ne_nil_of_left_ne_nil hts us⟩
  · obtain ⟨us, hus⟩ := hout
    exact ⟨ts ++ us, h.trans_halted hus⟩
  · trivial

end Took

/-- From this state a parser **takes a token**, if it is done with a result as asked for. -/
def Takes (r : Ledger) (x : Parser Ledger α) (P : α → Prop) : Prop := r.Took P (x.run r)

namespace Takes

theorem exhaust : r.Takes (Process.exhaust : Parser Ledger α) P := trivial

theorem fail {e : SyntaxError} : r.Takes (Process.fail e : Parser Ledger α) P :=
  ⟨[], (Spent.refl r).halted⟩

/-- Only where no token is asked for, none need be taken. -/
theorem pure {a : α} (h : ¬P a) : r.Takes (Pure.pure a) P := ⟨[], .refl r, fun ha => absurd ha h⟩

/-- Every parser through which tokens are watched takes **only those** ahead. -/
theorem of_keeps {Q : α → Prop} {x : Parser Ledger α} (h : r.passage.Keeps x Q) :
    r.Takes x fun _ => False := by
  have hkept := h r r.inside_passage
  unfold Takes
  rcases hrun : x.run r with ⟨a | e | _, r'⟩ <;> rw [hrun] at hkept
  · obtain ⟨-, ts, hts⟩ := hkept
    exact ⟨ts, hts, False.elim⟩
  · exact hkept
  · trivial

/-- A parser **begins** by taking a token. -/
theorem bind {x : Parser Ledger α} {f : α → Parser Ledger β} (hx : r.Takes x fun _ => True)
    (hf : ∀ a r', (passage r').Keeps (f a) fun _ => True) : r.Takes (x >>= f) R := by
  unfold Takes at *
  rw [Process.run_bind]
  rcases hrun : x.run r with ⟨a | e | _, r'⟩ <;> rw [hrun] at hx
  · obtain ⟨ts, hts, hne⟩ := hx
    exact .of_kept hts (hne trivial) (hf a r' r' r'.inside_passage)
  · exact hx
  · trivial

/-- A parser **ends** by taking a token. -/
theorem bind_last {x : Parser Ledger α} {f : α → Parser Ledger β} (hx : r.passage.Keeps x P)
    (hf : ∀ a (r' : Ledger), r'.Takes (f a) R) : r.Takes (x >>= f) R := by
  have hkept := hx r r.inside_passage
  unfold Takes at *
  rw [Process.run_bind]
  rcases hrun : x.run r with ⟨a | e | _, r'⟩ <;> rw [hrun] at hkept
  · obtain ⟨-, ts, hts⟩ := hkept
    exact .after hts (hf a r')
  · exact hkept
  · trivial

/-- Where it is known what is next, **that** is looked at. -/
theorem peek_bind_of {f : Token → Parser Ledger β} (hpeek : TokenSource.peek r = (.ok t, r'))
    (hf : r'.Takes (f t) R) : r.Takes (Parser.peek >>= f) R := by
  unfold Takes at *
  rw [Process.run_bind_done (Parser.run_peek hpeek)]
  exact .after (.peek hpeek) hf

theorem peek_bind {f : Token → Parser Ledger β}
    (hf : ∀ t (r' : Ledger), Parser.Seen t r' → r'.Takes (f t) R) :
    r.Takes (Parser.peek >>= f) R := by
  rcases h : TokenSource.peek r with ⟨e | t, r'⟩
  · unfold Takes
    rw [Process.run_bind_failed (Parser.run_peek_error h)]
    exact ⟨[], .peek h⟩
  · exact peek_bind_of h (hf t r' (LawfulTokenSource.peek_peek h))

/-- **Dropping** the token that was looked at takes it. -/
theorem skip_bind {f : Unit → Parser Ledger β} (ht : Parser.Seen t r) (hk : t.kind ≠ .eof)
    (hf : (passage (TokenSource.drop r)).Keeps (f ()) fun _ => True) :
    r.Takes (Parser.skip >>= f) R :=
  .of_kept (.drop ht hk) (List.cons_ne_nil t []) (hf _ (inside_passage _))

theorem check_bind {symbol : Symbol} {f : Bool → Parser Ledger β}
    (hf : ∀ b (r' : Ledger), r'.Takes (f b) R) : r.Takes (Parser.check symbol >>= f) R :=
  .bind_last (.check symbol) hf

end Takes

/-! ### Expressions -/

theorem takes_primary (r : Ledger) (d : Nat) : r.Takes (Parser.primary d) fun _ => True := by
  cases d with
  | zero => exact .exhaust
  | succ d =>
    rw [Parser.primary]
    refine .peek_bind fun t r' ht => ?_
    let w := passage (TokenSource.drop r')
    split
    case h_5 text hk =>
      refine .skip_bind ht (by simp [hk]) (.bind (.accept _) fun called _ => ?_)
      split
      · refine .bind (w.expressionKept d).arguments fun args _ => ?_
        exact .bind (.expect _ _) fun close _ => .pure trivial
      · exact .pure trivial
    case h_6 hk =>
      exact .skip_bind ht (by simp [hk]) (.bind (.expectName _) fun name _ => .pure trivial)
    case h_7 hk =>
      refine .skip_bind ht (by simp [hk]) (.bind ((w.expressionKept d).binary 0) fun inner _ => ?_)
      exact .bind (.expect _ _) fun close _ => .pure trivial
    case h_8 => exact .fail
    all_goals
      rename_i hk
      exact .skip_bind ht (by simp [hk]) (.pure trivial)

theorem takes_unary (r : Ledger) (d : Nat) : r.Takes (Parser.unary d) fun _ => True := by
  cases d with
  | zero => exact .exhaust
  | succ d =>
    rw [Parser.unary]
    refine .peek_bind fun t r' ht => ?_
    split
    · exact takes_primary r' d
    · next op hop =>
      have hunary := ((passage (TokenSource.drop r')).expressionKept d).unary
      exact .skip_bind ht (Parser.unaryOp_ne_eof hop) (.bind hunary fun operand _ => .pure trivial)

/-- **An expression** takes a token. -/
theorem takes_binary (r : Ledger) (d level : Nat) :
    r.Takes (Parser.binary d level) fun _ => True := by
  cases d with
  | zero => exact .exhaust
  | succ d =>
    rw [Parser.binary]
    refine .bind (takes_unary r d) fun left r' => ?_
    exact ((r'.passage.expressionKept d).climb level left fun _ _ => trivial).anything

/-! ### Statements and rules -/

/-- **An at-rule** takes a token, where its at sign is next. -/
theorem takes_atRule (d : Nat) (hpeek : TokenSource.peek r = (.ok t, r')) (hk : t.kind ≠ .eof) :
    r.Takes (Parser.atRule d) fun _ => True := by
  cases d with
  | zero => exact .exhaust
  | succ d =>
    let w := passage (TokenSource.drop r')
    have ht : Parser.Seen t r' := LawfulTokenSource.peek_peek hpeek
    rw [Parser.atRule]
    refine .peek_bind_of hpeek (.skip_bind ht hk (.bind (.expectName _) fun name _ => ?_))
    -- what ends the expressions is not the end, so it may be dropped
    refine Watch.atRuleParameters_bind d fun params _ t' hk' => ?_
    refine .peek_bind fun _ => .skip_bind hk' ?_
    split
    · exact .bind ((w.programKept d).statements _ trivial) fun block _ => .pure trivial
    · exact .pure trivial

/-- **A rule** takes a token after its name. -/
theorem takes_rule (r : Ledger) (d : Nat) (name : Name) :
    r.Takes (Parser.rule d name) fun _ => True := by
  cases d with
  | zero => exact .exhaust
  | succ d =>
    rw [Parser.rule]
    split
    · exact .fail
    · refine .bind_last (Watch.parameters_keeps d (by simp)) fun params r' => ?_
      refine .peek_bind fun t r₁ ht => ?_
      split
      · next hk =>
        refine .skip_bind ht (Parser.EndsBelow.ne_eof_of_isSymbol hk) ?_
        have hbody := ((passage (TokenSource.drop r₁)).programKept d).statements t.span trivial
        exact .bind hbody fun block _ => .pure trivial
      · exact .fail

/-- **A statement** takes a token. -/
theorem takes_statement (r : Ledger) (d : Nat) : r.Takes (Parser.statement d) fun _ => True := by
  cases d with
  | zero => exact .exhaust
  | succ d =>
    rw [Parser.statement]
    refine .peek_bind fun t r' ht => ?_
    split
    · next hk => exact .bind (takes_atRule d ht (by simp [hk])) fun a r₁ => .pure trivial
    · next text hk =>
      let w := passage (TokenSource.drop r')
      refine .skip_bind ht (by simp [hk]) (.bind (.accept _) fun colon _ => ?_)
      split
      · exact .bind (w.declaration_keeps d trivial) fun q _ => .pure trivial
      · exact .bind ((w.programKept d).rule _ trivial) fun r₁ _ => .pure trivial
    · exact .fail

/-- **A block** takes a token after its opening brace. -/
theorem takes_statements (r : Ledger) (d : Nat) (opening : Span) :
    r.Takes (Parser.statements d opening) fun _ => True := by
  cases d with
  | zero => exact .exhaust
  | succ d =>
    rw [Parser.statements]
    refine .peek_bind fun t r' ht => ?_
    split
    · next hk => exact .skip_bind ht (by simp [hk]) (.pure trivial)
    · next hk =>
      have hmore := ((passage (TokenSource.drop r')).programKept d).statements opening trivial
      exact .skip_bind ht (by simp [hk]) hmore.anything
    · exact .fail
    · refine .bind (takes_statement r' d) fun first r₁ => ?_
      exact .bind ((r₁.passage.programKept d).statements opening trivial) fun _ _ => .pure trivial

end Ledger

end RuleScript
