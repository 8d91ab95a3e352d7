import RuleScript.Proofs.Demand
import RuleScript.Proofs.Grouping

/-!
# Precedence climbing groups as the levels ask

Reading an expression takes tokens that have a grouped derivation, which is the only
one they have, and gives the tree of that derivation. It stops where no operator
follows.

The loop that reads operators carries an invariant: what was read so far may stand to
the **left** of the next operator, if the loop takes that operator at all. A right
operand is read up to the first operator that is too loose for it, and these are the
operators that take the whole as their left operand (`BinaryOp.leftLevel_le_iff`).

* `Parser.expressionGrouped`: what each function of the expression grammar reads.
* `Parser.ReadsGrouped`: what is said of reading a whole expression.
-/

namespace RuleScript

/-- The token that comes next is no operator of the level or a higher one. -/
def TokenStream.StopsAt (n : Nat) (x : TokenStream) : Prop :=
  ∃ t, x.shown = .ok t ∧ ∀ op, BinaryOp.ofKind? t.kind = some op → op.level < n

/-- What was read **goes left** of the next token, if that is an operator of the level
or a higher one. -/
def TokenStream.GoesLeft (n : Nat) (p : Phrase) (x : TokenStream) : Prop :=
  ∀ t op, x.shown = .ok t → BinaryOp.ofKind? t.kind = some op → n ≤ op.level →
    op.leftLevel ≤ p.rank

/-- An expression **reads** as a grouped phrase. -/
structure Expr.ReadsAs (e : Expr) (p : Phrase) : Prop where
  tree : e.seen .blind = p.tree
  grouped : p.Grouped

theorem Expr.ReadsAs.withSpan {e : Expr} {p : Phrase} (h : e.ReadsAs p) (s : Span) :
    (e.withSpan s).ReadsAs (.group p) := by
  refine ⟨?_, h.grouped⟩
  rw [Phrase.tree, ← h.tree]
  cases e <;> rfl

theorem BinaryOp.kind_of_ofKind {k : TokenKind} {op : BinaryOp} (h : ofKind? k = some op) :
    k = .symbol op.symbol := by
  unfold ofKind? at h
  split at h <;> cases h <;> rfl

theorem UnaryOp.kind_of_ofKind {k : TokenKind} {op : UnaryOp} (h : ofKind? k = some op) :
    k = .symbol op.symbol := by
  unfold ofKind? at h
  split at h <;> cases h <;> rfl

/-- Operands that bind **tightly enough** make up a grouped phrase with the operator. -/
theorem Expr.ReadsAs.binary {op : BinaryOp} {left right : Expr} {p q : Phrase}
    (hleft : left.ReadsAs p) (hright : right.ReadsAs q) (hp : op.leftLevel ≤ p.rank)
    (hq : op.rightLevel ≤ q.rank) (s : Span) :
    (Expr.binary op left right s).ReadsAs (.binary op p q) := by
  refine ⟨?_, Phrase.grouped_binary_iff.2 ⟨hp, hq, hleft.grouped, hright.grouped⟩⟩
  rw [Expr.seen, Phrase.tree, hleft.tree, hright.tree]
  rfl

/-- Where a right operand is over, the whole **goes left** of an operator that follows. -/
theorem TokenStream.StopsAt.goesLeft {op : BinaryOp} {x : TokenStream}
    (h : x.StopsAt op.rightLevel) (n : Nat) (p q : Phrase) : x.GoesLeft n (.binary op p q) := by
  intro u o hu ho _
  obtain ⟨v, hv, hlt⟩ := h
  rw [hu] at hv
  cases hv
  exact (BinaryOp.leftLevel_le_iff op o).2 (hlt o ho)

/-- The tokens taken from a stream are those of a grouped phrase that an expression
reads as, and the phrase and what is left of the stream are as asked for. -/
def TokenStream.Gives (x : TokenStream) (fine : Phrase → TokenStream → Prop) (e : Expr)
    (x' : TokenStream) : Prop :=
  ∃ p, x.Took p.kinds x' ∧ e.ReadsAs p ∧ fine p x'

namespace Parser

/-- The expression grammar at one depth reads grouped phrases. -/
structure ExpressionGrouped (d : Nat) : Prop where
  binary : ∀ (n : Nat) (x : TokenStream), n ≤ 8 →
    Ends True (Parser.binary d n) x (x.Gives fun p x' => n ≤ p.rank ∧ x'.StopsAt n)
  climb : ∀ (n : Nat) (left : Expr) (p : Phrase) (x : TokenStream), left.ReadsAs p →
    n ≤ p.rank → x.GoesLeft n p → Ends True (Parser.climb d n left) x fun e x' =>
      ∃ q ks, q.kinds = p.kinds ++ ks ∧ x.Took ks x' ∧ e.ReadsAs q ∧ n ≤ q.rank ∧ x'.StopsAt n
  unary : ∀ x : TokenStream,
    Ends True (Parser.unary d) x (x.Gives fun p _ => p.outer? = none)
  primary : ∀ x : TokenStream,
    Ends True (Parser.primary d) x (x.Gives fun p _ => p.outer? = none)
  arguments : ∀ x : TokenStream, Ends True (Parser.arguments d) x fun es x' =>
    ∃ args : Arguments, x.Took args.kinds x' ∧ Expr.seenAll .blind es = args.trees ∧ args.Grouped

namespace ExpressionGrouped

variable {d : Nat} (ih : ExpressionGrouped d) (x : TokenStream)

include ih

theorem binary_succ (n : Nat) (hn : n ≤ 8) :
    Ends True (Parser.binary (d + 1) n) x (x.Gives fun p x' => n ≤ p.rank ∧ x'.StopsAt n) := by
  rw [Parser.binary]
  refine .bind (ih.unary x) ?_
  rintro left x₁ ⟨p, htook, hleft, houter⟩
  have hrank := Phrase.rank_of_outer houter
  have hgoes : x₁.GoesLeft n p := by
    intro t op _ _ _
    rw [hrank]
    exact op.leftLevel_le
  refine (ih.climb n left p x₁ hleft (by rwa [hrank]) hgoes).mono ?_
  rintro e x' ⟨q, ks, hkinds, htook', hread, hq⟩
  refine ⟨q, ?_, hread, hq⟩
  rw [hkinds]
  exact htook.append htook'

/-- One turn of the loop: a right operand is read and attached. -/
theorem climb_succ (n : Nat) (left : Expr) (p : Phrase) (hleft : left.ReadsAs p)
    (hn : n ≤ p.rank) (hgoes : x.GoesLeft n p) :
    Ends True (Parser.climb (d + 1) n left) x fun e x' =>
      ∃ q ks, q.kinds = p.kinds ++ ks ∧ x.Took ks x' ∧ e.ReadsAs q ∧ n ≤ q.rank ∧
        x'.StopsAt n := by
  rw [Parser.climb]
  refine .peek_bind fun t ht => ?_
  split
  · next hop =>
    refine .pure ⟨p, [], by rw [List.append_nil], x.took_nil, hleft, hn, t, ht, ?_⟩
    intro op hop'
    rw [hop] at hop'
    cases hop'
  · next op hop =>
    split
    · next hlt =>
      refine .pure ⟨p, [], by rw [List.append_nil], x.took_nil, hleft, hn, t, ht, ?_⟩
      intro o ho
      rw [hop] at ho
      rwa [← Option.some.inj ho]
    · next hge =>
      have hlevel : n ≤ op.level := Nat.not_lt.1 hge
      have hkind := BinaryOp.kind_of_ofKind hop
      have htook := TokenStream.took_drop ht hkind (by simp)
      refine .skip_bind (.bind (ih.binary op.rightLevel x.drop op.rightLevel_le) ?_)
      rintro right x₁ ⟨q, htook', hright, hrank, hstops⟩
      have hread := hleft.binary hright (hgoes t op ht hop hlevel) hrank
        (left.span.union right.span)
      have hgoes' := hstops.goesLeft n p q
      refine (ih.climb n _ (.binary op p q) x₁ hread hlevel hgoes').mono ?_
      rintro e x' ⟨q', ks, hkinds, htook'', hread', hq'⟩
      refine ⟨q', .symbol op.symbol :: (q.kinds ++ ks), ?_, ?_, hread', hq'⟩
      · rw [hkinds, Phrase.kinds, List.append_assoc, List.cons_append]
      · exact htook.append (htook'.append htook'')

theorem unary_succ :
    Ends True (Parser.unary (d + 1)) x (x.Gives fun p _ => p.outer? = none) := by
  rw [Parser.unary]
  refine .peek_bind fun t ht => ?_
  split
  · exact ih.primary x
  · next op hop =>
    have hkind := UnaryOp.kind_of_ofKind hop
    have htook := TokenStream.took_drop ht hkind (by simp)
    refine .skip_bind (.bind (ih.unary x.drop) ?_)
    rintro operand x' ⟨p, htook', hread, houter⟩
    refine .pure ⟨.unary op p, htook.append htook', ⟨?_, houter, hread.grouped⟩, rfl⟩
    rw [Expr.seen, Phrase.tree, hread.tree]
    rfl

theorem primary_succ :
    Ends True (Parser.primary (d + 1)) x (x.Gives fun p _ => p.outer? = none) := by
  rw [Parser.primary]
  refine .peek_bind fun t ht => ?_
  -- the four kinds of literals are read in one way
  have hliteral : ∀ l : Literal, t.kind = l.kind → Ends True
      (Parser.skip >>= fun _ => pure (.literal l t.span) : Parser TokenStream Expr) x
      (x.Gives fun p _ => p.outer? = none) := by
    intro l hl
    have htook := TokenStream.took_drop ht hl l.kind_ne_eof
    exact .skip_bind (.pure ⟨.literal l, htook, ⟨rfl, trivial⟩, rfl⟩)
  split
  case h_1 value hk => exact hliteral (.int value) hk
  case h_2 value hk => exact hliteral (.float value) hk
  case h_3 text hk => exact hliteral (.string text) hk
  case h_4 value hk => exact hliteral (.bool value) hk
  case h_5 text hk =>
    have htook := TokenStream.took_drop ht hk (by simp)
    refine .skip_bind (.accept_bind ?_ ?_)
    · intro x₁ hopen
      refine .bind (ih.arguments x₁) ?_
      rintro es x₂ ⟨args, hargs, htrees, hgrouped⟩
      refine .expect_bind fun close x₃ hclose => .pure ⟨.call text args, ?_, ⟨?_, hgrouped⟩, rfl⟩
      · exact htook.append (hopen.append (hargs.append hclose))
      · rw [Expr.seen, Phrase.tree, htrees]
        rfl
    · intro _ _ _
      exact .pure ⟨.bare text, htook, ⟨rfl, trivial⟩, rfl⟩
  case h_6 hk =>
    have htook := TokenStream.took_drop ht hk (by simp)
    refine .skip_bind (.expectName_bind fun name x₁ hname => ?_)
    exact .pure ⟨.deref name.text, htook.append hname, ⟨rfl, trivial⟩, rfl⟩
  case h_7 hk =>
    have htook := TokenStream.took_drop ht hk (by simp)
    refine .skip_bind (.bind (ih.binary 0 x.drop (Nat.zero_le 8)) ?_)
    rintro inner x₁ ⟨p, hinner, hread, -⟩
    refine .expect_bind fun close x₂ hclose => .pure ⟨.group p, ?_, hread.withSpan _, rfl⟩
    exact htook.append (hinner.append hclose)
  case h_8 => exact .fail trivial

theorem arguments_succ :
    Ends True (Parser.arguments (d + 1)) x fun es x' => ∃ args : Arguments,
      x.Took args.kinds x' ∧ Expr.seenAll .blind es = args.trees ∧ args.Grouped := by
  rw [Parser.arguments, Parser.check, bind_assoc]
  refine .peek_bind fun t _ => ?_
  rw [pure_bind]
  split
  · exact .pure ⟨.empty, x.took_nil, rfl, trivial⟩
  · refine .bind (ih.binary 0 x (Nat.zero_le 8)) ?_
    rintro arg x₁ ⟨p, htook, hread, -⟩
    refine .accept_bind ?_ ?_
    · intro x₂ hcomma
      refine .bind (ih.arguments x₂) ?_
      rintro es x₃ ⟨args, hargs, htrees, hgrouped⟩
      refine .pure ⟨.more p args, ?_, ?_, hread.grouped, hgrouped⟩
      · exact htook.append (hcomma.append hargs)
      · rw [Expr.seenAll, Arguments.trees, hread.tree, htrees]
    · intro _ _ _
      refine .pure ⟨.last p, htook, ?_, hread.grouped⟩
      rw [Expr.seenAll, Arguments.trees, hread.tree, Expr.seenAll]

end ExpressionGrouped

/-- Every function of the expression grammar reads **grouped** phrases. -/
theorem expressionGrouped (d : Nat) : ExpressionGrouped d := by
  induction d with
  | zero =>
    refine ⟨fun _ _ _ => ?_, fun _ _ _ _ _ _ _ => ?_, fun _ => ?_, fun _ => ?_, fun _ => ?_⟩ <;>
      exact .exhaust
  | succ d ih =>
    exact ⟨fun n x => ih.binary_succ x n, fun n left p x => ih.climb_succ x n left p, ih.unary_succ,
      ih.primary_succ, ih.arguments_succ⟩

/-! ### Whole expressions -/

/-- An expression was **read** from a stream, and this is left of it. The tokens taken
have one grouped derivation and no more, it is a derivation of the stratified grammar,
and the expression is its tree. The token that comes next is no operator. -/
def ReadsGrouped (x : TokenStream) (e : Expr) (x' : TokenStream) : Prop :=
  ∃ used, x.tokens = used ++ x'.tokens ∧ x'.ending = x.ending ∧
    (∃ p : Phrase, p.kinds = used.map Token.kind ∧ p.Grouped ∧ Stratum 1 p ∧
      e.seen .blind = p.tree ∧
      ∀ q : Phrase, q.kinds = used.map Token.kind → q.Grouped → q = p) ∧
    ∃ t, x'.shown = .ok t ∧ BinaryOp.ofKind? t.kind = none

theorem readsGrouped_of_binary {d : Nat} {x x' : TokenStream} {e : Expr}
    (h : (binary d 0).run x = (.done e, x')) : ReadsGrouped x e x' := by
  obtain ⟨p, ⟨used, hkinds, htokens, hending⟩, hread, -, t, ht, hstops⟩ :=
    ((expressionGrouped d).binary 0 x (Nat.zero_le 8)).of_done h
  refine ⟨used, htokens, hending, ⟨p, hkinds.symm, hread.grouped, ?_, hread.tree, ?_⟩, t, ht, ?_⟩
  · exact Phrase.stratum_iff.2 ⟨hread.grouped, p.one_le_rank⟩
  · intro q hq hgrouped
    exact Phrase.unique hgrouped hread.grouped (hq.trans hkinds)
  · cases hop : BinaryOp.ofKind? t.kind with
    | none => rfl
    | some op => exact absurd (hstops op hop) (Nat.not_lt_zero _)

/-- Nothing but the shape of an expression is spoken of. -/
theorem ReadsGrouped.of_seen {x x' : TokenStream} {e e' : Expr} (h : ReadsGrouped x e' x')
    (he : e.seen .blind = e'.seen .blind) : ReadsGrouped x e x' := by
  obtain ⟨used, htokens, hending, ⟨p, hkinds, hgrouped, hstratum, htree, hunique⟩, hnext⟩ := h
  exact ⟨used, htokens, hending, ⟨p, hkinds, hgrouped, hstratum, he.trans htree, hunique⟩, hnext⟩

/-- A source that has shown its end holds no expression any more. -/
theorem steady_of_binary {d : Nat} {s s' : Lookahead} {e : Expr}
    (h : (binary d 0).run s = (.done e, s')) : s.Steady := by
  intro t hpeeked hend
  have hpeek : TokenSource.peek s = (.ok t, s) := by
    simp only [TokenSource.peek, Lookahead.peek, hpeeked]
  have hkind : t.kind = .eof := TokenKind.isEof_iff.1 hend
  have hprimary : ∀ d e s', (primary d).run s ≠ (.done e, s') := by
    intro d e s' h
    cases d with
    | zero => cases h
    | succ d =>
      rw [primary, Process.run_bind_done (run_peek hpeek), hkind] at h
      cases h
  have hunary : ∀ d e s', (unary d).run s ≠ (.done e, s') := by
    intro d e s' h
    cases d with
    | zero => cases h
    | succ d =>
      rw [unary, Process.run_bind_done (run_peek hpeek), hkind] at h
      exact hprimary d e s' h
  cases d with
  | zero => cases h
  | succ d =>
    rw [binary] at h
    obtain ⟨left, s₁, hleft, -⟩ := Process.exists_of_run_bind_done h
    exact absurd hleft (hunary d left s₁)

/-- **Precedence climbing.** Wherever an expression is read, be it from tokens that were
read beforehand or from a source in any state, the tokens taken have one grouped
derivation, the same as by the stratified grammar. The expression is the tree of that
derivation, and no operator follows it. -/
theorem precedence_climbing :
    (∀ (x : TokenStream) (e : Expr) (x' : TokenStream),
      readExpression x = (.ok e, x') → ReadsGrouped x e x') ∧
    ∀ (s : Lookahead) (e : Expr) (s' : Lookahead),
      readExpression s = (.ok e, s') → ReadsGrouped s.stream e s'.stream := by
  refine ⟨fun x e x' h => readsGrouped_of_binary (Process.done_of_settle h), ?_⟩
  intro s e s' h
  have hrun := Process.done_of_settle h
  have hsame := (Pairing.expressionSame (p := Lookahead.onDemand) (.refl _ (ampleDepth s))).binary
    0 ⟨steady_of_binary hrun, rfl⟩
  rw [hrun] at hsame
  rcases hstream : (binary (ampleDepth s) 0).run s.stream with ⟨out, x'⟩
  rw [hstream] at hsame
  cases hsame with
  | done hseen hstate =>
    obtain ⟨-, rfl⟩ := hstate
    exact (readsGrouped_of_binary hstream).of_seen hseen

/-- Subtraction groups to the left, and the power operator to the right and tighter. -/
theorem precedence_climbing_chain :
    let stream (ks : List TokenKind) : TokenStream := ⟨ks.map (⟨·, default⟩), .ok default⟩
    let one : Phrase := .literal (.int 1)
    let p : Phrase := .binary .sub (.binary .sub one (.binary .pow one (.binary .pow one one))) one
    let x := stream (p.kinds ++ [.symbol .semicolon])
    readExpression x = (.ok p.tree, stream [.symbol .semicolon]) ∧
      ReadsGrouped x p.tree (stream [.symbol .semicolon]) :=
  ⟨rfl, precedence_climbing.1 _ _ _ rfl⟩

end Parser

end RuleScript
