import RuleScript.Proofs.Taking

/-!
# Every node was read from its tokens

Spans are joined at many places while a tree is put together, and widened afterwards where
an expression stands in brackets. They come out right everywhere: a node covers the tokens
that were taken for it, no more and no fewer, and these would be read as the same node by
themselves.

* `Node.Fits`: the tokens of an expression have a grouped phrase that the expression reads
  as; from the tokens of a rule or an at-rule the parser reads it again, whatever follows.
* `Parser.expressionRead` and `Parser.programRead`: all functions of the grammar, each by the
  rules for `Parser.Takes`. The operator loop carries the tokens of the left operand.
* `Listed`: the tokens of a whole program.
-/

namespace RuleScript

/-- What the tokens of a node are **good for** when they stand by themselves. -/
def Node.Fits : Node → List Token → Prop
  | .expr e, ts => ∃ p : Phrase, p.kinds = ts.map Token.kind ∧ e.ReadsAs p
  | .atRule a, ts => ∃ t used, ts = t :: used ∧ t.kind = .symbol .at ∧
      Parser.Repeats Parser.atRule a ts
  | .rule r, ts => ∃ t used text, ts = t :: used ∧ t.kind = .name text ∧
      Parser.Repeats (Parser.rule · ⟨text, t.span⟩) r used
  | _, _ => True

/-- A node was read from tokens that are good for it. -/
abbrev Node.Read : Node → List Token → Prop := Node.ReadFrom Node.Fits

/-- A name is read from **one token**, of which it has the span. -/
theorem Node.read_name {n : Name} {t : Token} (hk : t.kind = .name n.text) (h : n.span = t.span) :
    Node.Read (.name n) [t] :=
  .mk (List.cons_ne_nil _ _) h trivial (.name n) (.own hk)

namespace Parser

/-! ### Expressions -/

namespace Takes

variable {free : Prop} {p : Parser TokenStream Expr} {x : TokenStream}
variable {R : Expr → List Token → TokenStream → Prop} {fine : Phrase → TokenStream → Prop}

/-- The tokens taken for an expression are those of a phrase it reads as. -/
theorem gives (hends : Ends True p x (x.Gives fine)) (h : Takes free p x R) :
    Takes free p x fun e used x' => R e used x' ∧
      ∃ q : Phrase, q.kinds = used.map Token.kind ∧ e.ReadsAs q ∧ fine q x' := by
  refine .ends hends (h.mono ?_)
  rintro e used x' hR hx ⟨q, htook, hread, hfine⟩
  exact ⟨hR, q, (htook.kinds_eq hx).symm, hread, hfine⟩

/-- What is taken for an expression **fits** it: the expression is spanned by its tokens. -/
theorem fitting (hends : Ends True p x (x.Gives fine))
    (h : Takes free p x fun e used x' => Node.Fits (.expr e) used → R e used x') :
    Takes free p x R := by
  refine (gives hends h).mono ?_
  rintro e used x' ⟨hR, q, hkinds, hread, -⟩
  exact hR ⟨q, hkinds, hread⟩

end Takes

/-- The expression grammar at one depth reads every node from its tokens. -/
structure ExpressionRead (d : Nat) : Prop where
  binary : ∀ (n : Nat) (x : TokenStream), Takes False (Parser.binary d n) x
    fun e used _ => InRow used → Node.Read (.expr e) used
  climb : ∀ (n : Nat) (left : Expr) (p : Phrase) (ts : List Token) (x : TokenStream),
    left.ReadsAs p → p.kinds = ts.map Token.kind → x.GoesLeft n p →
    (InRow ts → Node.Read (.expr left) ts) → Takes False (Parser.climb d n left) x
      fun e used _ => InRow (ts ++ used) → Node.Read (.expr e) (ts ++ used)
  unary : ∀ x : TokenStream, Takes False (Parser.unary d) x
    fun e used _ => InRow used → Node.Read (.expr e) used
  primary : ∀ x : TokenStream, Takes False (Parser.primary d) x
    fun e used _ => InRow used → Node.Read (.expr e) used
  arguments : ∀ x : TokenStream, Takes False (Parser.arguments d) x
    fun es used _ => InRow used → ∃ ps, Piece.Separated es ps ∧ Filled Node.Read ps used

namespace ExpressionRead

variable {d : Nat} (ih : ExpressionRead d) (x : TokenStream)

include ih

/-- **Operands and operators** are read from their tokens. -/
theorem binary_succ (n : Nat) : Takes False (Parser.binary (d + 1) n) x
    fun e used _ => InRow used → Node.Read (.expr e) used := by
  rw [Parser.binary]
  refine .bind (.gives ((expressionGrouped d).unary x) (ih.unary x)) ?_
  rintro left ts x₁ ⟨hleft, p, hkinds, hread, houter⟩
  refine ih.climb n left p ts x₁ hread hkinds ?_ hleft
  intro t op _ _ _
  rw [Phrase.rank_of_outer houter]
  exact op.leftLevel_le

/-- One turn of the loop: the left operand, the operator and the right operand stand in a
row. -/
theorem climb_succ (n : Nat) (left : Expr) (p : Phrase) (ts : List Token) (hread : left.ReadsAs p)
    (hkinds : p.kinds = ts.map Token.kind) (hgoes : x.GoesLeft n p)
    (hleft : InRow ts → Node.Read (.expr left) ts) : Takes False (Parser.climb (d + 1) n left) x
      fun e used _ => InRow (ts ++ used) → Node.Read (.expr e) (ts ++ used) := by
  rw [Parser.climb]
  refine .peek_bind fun t ht => ?_
  split
  · refine .pure ?_
    rwa [List.append_nil]
  · next op hop =>
    split
    · refine .pure ?_
      rwa [List.append_nil]
    · next hge =>
      have hlevel : n ≤ op.level := Nat.not_lt.1 hge
      have hkind := BinaryOp.kind_of_ofKind hop
      refine .skip_bind ht (by simp [hkind]) ?_
      refine .bind (.gives ((expressionGrouped d).binary op.rightLevel x.drop op.rightLevel_le)
        (ih.binary op.rightLevel x.drop)) ?_
      rintro right us x₁ ⟨hright, q, hkinds', hread', hrank, hstops⟩
      have hwhole := hread.binary hread' (hgoes t op ht hop hlevel) hrank
        (left.span.union right.span)
      have hall : (Phrase.binary op p q).kinds = (ts ++ t :: us).map Token.kind := by
        simp [Phrase.kinds, hkinds, hkinds', hkind]
      refine (ih.climb n _ _ (ts ++ t :: us) x₁ hwhole hall (hstops.goesLeft n p q)
        fun hrow => ?_).mono ?_
      · have hl := hleft hrow.left
        have hr := hright hrow.right.tail
        refine .mk (by simp) ?_ ⟨_, hall, hwhole⟩ (.binary op left right _) ?_
        · rw [Node.span, Expr.span, show left.span = cover ts from hl.span,
            show right.span = cover us from hr.span]
          exact cover_join [t] hrow hl.ne_nil hr.ne_nil
        · exact .node hl (.token hkind (.one hr))
      · intro e used _ h hrow
        simpa using h (by simpa using hrow)

/-- An operator **in front** is read from its sign and the tokens of its operand. -/
theorem unary_succ : Takes False (Parser.unary (d + 1)) x
    fun e used _ => InRow used → Node.Read (.expr e) used := by
  refine .fitting ((expressionGrouped (d + 1)).unary x) ?_
  rw [Parser.unary]
  refine .peek_bind fun t ht => ?_
  split
  · exact (ih.primary x).mono fun _ _ _ h _ => h
  · next op hop =>
    have hkind := UnaryOp.kind_of_ofKind hop
    refine .skip_bind ht (by simp [hkind]) (.map ((ih.unary x.drop).mono ?_))
    intro operand us x' hoperand hfits hrow
    have h := hoperand hrow.tail
    refine .mk (List.cons_ne_nil _ _) ?_ hfits (.unary op operand _) (.token hkind (.one h))
    rw [Node.span, Expr.span, show operand.span = cover us from h.span]
    exact cover_join [] hrow (List.cons_ne_nil t []) h.ne_nil

/-- **Literals, names, calls and groups** are read from their tokens, a group with its brackets. -/
theorem primary_succ : Takes False (Parser.primary (d + 1)) x
    fun e used _ => InRow used → Node.Read (.expr e) used := by
  refine .fitting ((expressionGrouped (d + 1)).primary x) ?_
  rw [Parser.primary]
  refine .peek_bind fun t ht => ?_
  -- the four kinds of literals are read in one way
  have hliteral : ∀ l : Literal, t.kind = l.kind → Takes False
      (Parser.skip >>= fun _ => pure (.literal l t.span) : Parser TokenStream Expr) x
      fun e used _ => Node.Fits (.expr e) used → InRow used → Node.Read (.expr e) used := by
    intro l hl
    refine .skip_bind ht (by rw [hl]; exact l.kind_ne_eof) (.pure fun hfits _ => ?_)
    exact .mk (List.cons_ne_nil _ _) rfl hfits (.literal l t.span) (.own hl)
  split
  case h_1 value hk => exact hliteral (.int value) hk
  case h_2 value hk => exact hliteral (.float value) hk
  case h_3 text hk => exact hliteral (.string text) hk
  case h_4 value hk => exact hliteral (.bool value) hk
  case h_5 text hk =>
    refine .skip_bind ht (by simp [hk]) (.accept_bind ?_ ?_)
    · intro u x₁ hu
      refine .bind (ih.arguments x₁) fun es us x₂ hargs => ?_
      refine .expect_bind fun c x₃ hc => .pure fun hfits hrow => ?_
      obtain ⟨ps, hes, hps⟩ := hargs hrow.tail.tail.left
      refine .mk (List.cons_ne_nil _ _) ?_ hfits (.call ⟨text, t.span⟩ _ hes) ?_
      · exact cover_join (u :: us) hrow (List.cons_ne_nil t []) (List.cons_ne_nil c [])
      · have hname : Node.Read (.name ⟨text, t.span⟩) [t] := Node.read_name hk rfl
        exact .node hname (.token hu (hps.append (.own hc)))
    · refine .pure fun hfits _ => ?_
      exact .mk (List.cons_ne_nil _ _) rfl hfits (.bare ⟨text, t.span⟩) (.own hk)
  case h_6 hk =>
    refine .skip_bind ht (by simp [hk]) (.expectName_bind fun u text x₁ hu => ?_)
    refine .pure fun hfits hrow => .mk (List.cons_ne_nil _ _) ?_ hfits (.deref ⟨text, u.span⟩ _) ?_
    · exact cover_join [] hrow (List.cons_ne_nil t []) (List.cons_ne_nil u [])
    · exact .token hk (.one (Node.read_name hu rfl))
  case h_7 hk =>
    refine .skip_bind ht (by simp [hk]) (.bind (ih.binary 0 x.drop) ?_)
    intro inner us x₁ hinner
    refine .expect_bind fun c x₂ hc => .pure fun hfits hrow => ?_
    obtain ⟨ps, hproduction, hps⟩ := (hinner hrow.tail.left).pieces
    refine .mk (List.cons_ne_nil _ _) ?_ hfits (.group _ hproduction) ?_
    · rw [Node.span, Expr.span_withSpan]
      exact cover_join us hrow (List.cons_ne_nil t []) (List.cons_ne_nil c [])
    · exact .token hk (hps.append (.own hc))
  case h_8 => exact .fail

/-- **Arguments** are read from their tokens, with commas between them. -/
theorem arguments_succ : Takes False (Parser.arguments (d + 1)) x
    fun es used _ => InRow used → ∃ ps, Piece.Separated es ps ∧ Filled Node.Read ps used := by
  rw [Parser.arguments, Parser.check, bind_assoc]
  refine .peek_bind fun t _ => ?_
  rw [pure_bind]
  split
  · exact .pure fun _ => ⟨[], .nil, .nil⟩
  · refine .bind (ih.binary 0 x) fun arg us x₁ harg => .accept_bind ?_ ?_
    · intro c x₂ hc
      refine .map ((ih.arguments x₂).mono fun es vs x₃ hes hrow => ?_)
      obtain ⟨ps, hes, hps⟩ := hes hrow.right.tail
      exact ⟨_, .more arg hes, .node (harg hrow.left) (.token hc hps)⟩
    · refine .pure fun hrow => ?_
      rw [List.append_nil] at hrow ⊢
      exact ⟨_, .last arg, .one (harg hrow)⟩

end ExpressionRead

/-- Every node of an **expression** was read from its tokens. -/
theorem expressionRead (d : Nat) : ExpressionRead d := by
  induction d with
  | zero => constructor <;> intros <;> exact .exhaust
  | succ d ih =>
    exact ⟨fun n x => ih.binary_succ x n, fun n left p ts x => ih.climb_succ x n left p ts,
      ih.unary_succ, ih.primary_succ, ih.arguments_succ⟩

/-! ### Values and parameters -/

/-- **Values** are read from their tokens, with nothing between them. -/
theorem values_read (d : Nat) (x : TokenStream) : Takes False (values d) x
    fun es used _ => InRow used → Filled Node.Read (Piece.row (es.map .expr)) used := by
  induction d generalizing x with
  | zero => exact .exhaust
  | succ d ih =>
    rw [values]
    refine .peek_bind fun t _ => ?_
    split
    · refine .bind ((expressionRead d).binary 0 x) fun e us x₁ he => ?_
      refine .map ((ih x₁).mono fun es vs x₂ hes hrow => ?_)
      exact .node (he hrow.left) (hes hrow.right)
    · exact .pure fun _ => .nil

theorem declarationValues_read (d : Nat) (property : Name) (x : TokenStream) :
    Takes False (declarationValues d property) x
      fun es used _ => InRow used → Filled Node.Read (Piece.row (es.map .expr)) used := by
  rw [declarationValues]
  split
  · exact .map (((expressionRead d).binary 0 x).mono fun e us x₁ he hrow => .one (he hrow))
  · exact values_read d x

/-- A declaration was read from its property, the colon, and the tokens taken after them. -/
theorem declaration_read (d : Nat) (property : Name) (x : TokenStream) :
    Takes True (declaration d property) x fun q used _ => used ≠ [] ∧ ∀ t c : Token,
      t.kind = .name property.text → property.span = t.span → c.kind = .symbol .colon →
      InRow (t :: c :: used) → Node.Read (.declaration q) (t :: c :: used) := by
  rw [declaration]
  refine .bind_closed (declarationValues_read d property x) fun es us x₁ hes => ?_
  refine .expect_bind fun s x₂ hs => .pure ⟨List.cons_ne_nil _ _, by simp, ?_⟩
  intro t c ht hspan hc hrow
  have hes := hes hrow.tail.tail.left
  refine .mk (List.cons_ne_nil _ _) ?_ trivial (.declaration _) ?_
  · rw [Node.span, hspan]
    exact cover_join (c :: us) hrow (List.cons_ne_nil t []) (List.cons_ne_nil s [])
  · exact .node (Node.read_name ht hspan) (.token hc (hes.append (.own hs)))

theorem parameterDefault_read (d : Nat) (x : TokenStream) : Takes False (parameterDefault d) x
    fun e used _ => InRow used → Filled Node.Read (Piece.assigned e) used := by
  rw [parameterDefault]
  refine .accept_bind ?_ ?_
  · intro t x₁ ht
    refine .map (((expressionRead d).binary 0 x₁).mono fun e us x₂ he hrow => ?_)
    exact .token ht (.one (he hrow.tail))
  · exact .pure fun _ => .nil

/-- The parameters of a rule after those already read **make up** the tokens taken. -/
theorem parameters_read (d : Nat) (rule : Name) (seen : List Parameter) (x : TokenStream) :
    Takes False (parameters d rule seen) x fun params used _ => ∃ new, params = seen ++ new ∧
      (InRow used → Filled Node.Read (Piece.row (new.map .parameter)) used) := by
  induction d generalizing seen x with
  | zero => exact .exhaust
  | succ d ih =>
    rw [parameters]
    refine .peek_bind fun t ht => ?_
    split
    · next hopen =>
      have hopen := TokenKind.isSymbol_iff.1 hopen
      refine .skip_bind ht (by simp [hopen]) (.expectName_bind fun u text x₁ hu => ?_)
      split
      · exact .fail
      · refine .bind (parameterDefault_read d x₁) fun e us x₂ he => ?_
        refine .expect_bind fun c x₃ hc => (ih _ x₃).mono ?_
        rintro params vs _ ⟨new, rfl, hnew⟩
        refine ⟨⟨⟨text, u.span⟩, e, t.span.union c.span⟩ :: new, by simp, fun hrow => ?_⟩
        have hrow : InRow ((t :: u :: (us ++ [c])) ++ vs) := by simpa using hrow
        have he := he hrow.left.tail.tail.left
        have hslot : Node.Read (.parameter ⟨⟨text, u.span⟩, e, t.span.union c.span⟩)
            (t :: u :: (us ++ [c])) := by
          refine .mk (List.cons_ne_nil _ _) ?_ trivial (.parameter _) ?_
          · exact cover_join (u :: us) hrow.left (List.cons_ne_nil t []) (List.cons_ne_nil c [])
          · have hname : Node.Read (.name ⟨text, u.span⟩) [u] := Node.read_name hu rfl
            exact .token hopen (.node hname (he.append (.own hc)))
        simpa using Filled.node hslot (hnew hrow.right)
    · exact .pure ⟨[], by simp, fun _ => .nil⟩

/-- A **selector** is read from its name and its parameters. -/
theorem selector_read {name : Name} {params : List Parameter} {t : Token} {us : List Token}
    (hk : t.kind = .name name.text) (hname : name.span = t.span) (hrow : InRow (t :: us))
    (hparams : Filled Node.Read (Piece.row (params.map .parameter)) us) :
    Node.Read (.selector ⟨name, params, selectorSpan name params⟩) (t :: us) := by
  refine .mk (List.cons_ne_nil _ _) ?_ trivial (.selector _)
    (.node (Node.read_name hk hname) hparams)
  · rw [Node.span, selectorSpan]
    cases hlast : params.getLast? with
    | none =>
      obtain rfl := List.getLast?_eq_none_iff.1 hlast
      cases hparams
      exact hname
    | some q =>
      have hq : (params.map Node.parameter).getLast? = some (.parameter q) := by
        rw [List.getLast?_map, hlast]
        rfl
      obtain ⟨before, vs, rfl, hread⟩ := hparams.last hq
      dsimp only
      rw [hname, show q.span = cover vs from hread.span]
      exact cover_join before hrow (List.cons_ne_nil t []) hread.ne_nil

/-- The **expressions** of an at-rule are read from their tokens. -/
theorem atRuleParameters_read (d : Nat) (name : Name) (x : TokenStream) :
    Takes False (atRuleParameters d name) x
      fun es used _ => InRow used → Filled Node.Read (Piece.row (es.map .expr)) used := by
  induction d generalizing x with
  | zero => exact .exhaust
  | succ d ih =>
    rw [atRuleParameters]
    refine .peek_bind fun t _ => ?_
    split
    · exact .pure fun _ => .nil
    · exact .pure fun _ => .nil
    · exact .fail
    · refine .bind ((expressionRead d).binary 0 x) fun e us x₁ he => ?_
      refine .map ((ih x₁).mono fun es vs x₂ hes hrow => ?_)
      exact .node (he hrow.left) (hes hrow.right)

/-- After the parameters of an at-rule comes its block or its end. -/
theorem atRuleParameters_ended (d : Nat) (name : Name) (x : TokenStream) :
    Takes False (atRuleParameters d name) x fun es used x' =>
      (InRow used → Filled Node.Read (Piece.row (es.map .expr)) used) ∧ ∃ t, x'.shown = .ok t ∧
        (t.kind = .symbol .openBrace ∨ t.kind = .symbol .semicolon) :=
  .ends (atRuleParameters_derived d name x)
    ((atRuleParameters_read d name x).mono fun _ _ _ h _ hend => ⟨h, hend.2⟩)

/-! ### Statements and rules -/

/-- The program grammar at one depth reads every node from its tokens, and looks no further
than these. -/
structure ProgramRead (d : Nat) : Prop where
  statements : ∀ (opening : Span) (x : TokenStream), Takes True (Parser.statements d opening) x
    fun block used _ => ∃ body brace, used = body ++ [brace] ∧ brace.kind = .symbol .closeBrace ∧
      block.2 = brace.span ∧ (InRow body → ∃ ps, Piece.Strewn (block.1.map Node.ofStatement) ps ∧
        Filled Node.Read ps body)
  statement : ∀ x : TokenStream, Takes True (Parser.statement d) x
    fun st used _ => used ≠ [] ∧ (InRow used → Node.Read (.ofStatement st) used)
  atRule : ∀ (t : Token) (x : TokenStream), x.shown = .ok t → t.kind = .symbol .at →
    Takes True (Parser.atRule d) x
      fun a used _ => used ≠ [] ∧ (InRow used → Node.Read (.atRule a) used)
  rule : ∀ (name : Name) (x : TokenStream), Takes True (Parser.rule d name) x
    fun r used _ => used ≠ [] ∧ ∀ t : Token, t.kind = .name name.text → name.span = t.span →
      InRow (t :: used) → Node.Read (.rule r) (t :: used)

namespace ProgramRead

variable {d : Nat} (ih : ProgramRead d) (x : TokenStream)

include ih

/-- A **block** is read from the tokens of its statements, with semicolons among them, up to its
brace. -/
theorem statements_succ (opening : Span) : Takes True (Parser.statements (d + 1) opening) x
    fun block used _ => ∃ body brace, used = body ++ [brace] ∧ brace.kind = .symbol .closeBrace ∧
      block.2 = brace.span ∧ (InRow body → ∃ ps, Piece.Strewn (block.1.map Node.ofStatement) ps ∧
        Filled Node.Read ps body) := by
  rw [Parser.statements]
  refine .peek_bind_closed fun t ht => ?_
  split
  · next hk =>
    refine .skip_bind ht (by simp [hk]) (.pure ⟨List.cons_ne_nil _ _, ?_⟩)
    exact ⟨[], t, rfl, hk, rfl, fun _ => ⟨[], .nil, .nil⟩⟩
  · next hk =>
    refine .skip_bind ht (by simp [hk]) ((ih.statements opening x.drop).mono ?_)
    rintro block _ _ ⟨body, brace, rfl, hbrace, hclose, hbody⟩
    refine ⟨List.cons_ne_nil _ _, t :: body, brace, rfl, hbrace, hclose, fun hrow => ?_⟩
    obtain ⟨ps, hsts, hps⟩ := hbody hrow.tail
    exact ⟨_, .semicolon hsts, .token hk hps⟩
  · exact .fail
  · refine .bind (ih.statement x) ?_
    rintro st us x₁ ⟨hne, hst⟩
    refine .bind (ih.statements opening x₁) ?_
    rintro block _ x₂ ⟨body, brace, rfl, hbrace, hclose, hbody⟩
    refine .pure ⟨by simp [hne], us ++ body, brace, by simp, hbrace, hclose, fun hrow => ?_⟩
    obtain ⟨ps, hsts, hps⟩ := hbody hrow.right
    exact ⟨_, .node (.ofStatement st) hsts, .node (hst hrow.left) hps⟩

/-- **Statements** are read from their tokens, and there is at least one. -/
theorem statement_succ : Takes True (Parser.statement (d + 1)) x
    fun st used _ => used ≠ [] ∧ (InRow used → Node.Read (.ofStatement st) used) := by
  rw [Parser.statement]
  refine .peek_bind_closed fun t ht => ?_
  split
  · next hk =>
    refine .map ((ih.atRule t x ht hk).mono ?_)
    rintro a us x₁ ⟨hne, ha⟩
    exact ⟨hne, hne, ha⟩
  · next text hk =>
    refine .skip_bind ht (by simp [hk]) (.accept_bind_of ?_ ?_)
    · intro c x₁ hc
      refine .map ((declaration_read d ⟨text, t.span⟩ x₁).mono ?_)
      rintro q us x₂ ⟨-, hq⟩
      exact ⟨List.cons_ne_nil _ _, List.cons_ne_nil _ _, hq t c hk rfl hc⟩
    · refine .map ((ih.rule ⟨text, t.span⟩ x.drop).mono ?_)
      rintro r us x₁ ⟨hne, hr⟩
      exact ⟨fun _ => hne, List.cons_ne_nil _ _, List.cons_ne_nil _ _, hr t hk rfl⟩
  · exact .fail

/-- An **at-rule** is read from its sign on. -/
theorem atRule_succ (t : Token) (ht : x.shown = .ok t) (hk : t.kind = .symbol .at) :
    Takes True (Parser.atRule (d + 1)) x
      fun a used _ => used ≠ [] ∧ (InRow used → Node.Read (.atRule a) used) := by
  refine .again ?_
  rw [Parser.atRule]
  refine .peek_bind_closed fun sign hsign => ?_
  obtain rfl : t = sign := Except.ok.inj (ht.symm.trans hsign)
  refine .skip_bind ht (by simp [hk]) (.expectName_bind fun u text x₁ hu => ?_)
  have hname : Node.Read (.name ⟨text, u.span⟩) [u] := Node.read_name hu rfl
  refine .bind_closed (atRuleParameters_ended d ⟨text, u.span⟩ x₁) ?_
  rintro es us x₂ ⟨hes, v, hv, hend⟩
  refine .peek_bind_closed fun w hw => ?_
  obtain rfl : v = w := Except.ok.inj (hv.symm.trans hw)
  have hne : v.kind ≠ .eof := by obtain h | h := hend <;> rw [h] <;> simp
  refine .skip_bind hv hne ?_
  obtain hopen | hclose := hend
  · rw [if_pos (TokenKind.isSymbol_iff.2 hopen)]
    refine .bind (ih.statements v.span x₂.drop) ?_
    rintro ⟨sts, _⟩ _ x₃ ⟨body, brace, rfl, hbrace, rfl, hbody⟩
    refine .pure ?_
    rw [List.append_nil]
    refine ⟨List.cons_ne_nil _ _, by simp, List.cons_ne_nil _ _, fun hrepeats =>
      ⟨List.cons_ne_nil _ _, fun hrow => ?_⟩⟩
    have hrest : InRow (us ++ v :: (body ++ [brace])) := hrow.tail.tail
    obtain ⟨ps, hsts, hps⟩ := hbody hrest.right.tail.left
    refine .mk (List.cons_ne_nil _ _) ?_ ⟨t, _, rfl, hk, hrepeats⟩ (.atBlock _ es _ hsts) ?_
    · exact cover_block (u :: us) hrow (List.cons_ne_nil t [])
    · have hblock := (hes hrest.left).append (.token hopen (hps.append (.own hbrace)))
      exact .token hk (.node hname hblock)
  · rw [if_neg (by rw [hclose]; decide)]
    refine .pure ⟨List.cons_ne_nil _ _, by simp, List.cons_ne_nil _ _, fun hrepeats =>
      ⟨List.cons_ne_nil _ _, fun hrow => ?_⟩⟩
    have hrest : InRow (us ++ [v]) := hrow.tail.tail
    refine .mk (List.cons_ne_nil _ _) ?_ ⟨t, _, rfl, hk, hrepeats⟩ (.atRule _ es _) ?_
    · exact cover_join (u :: us) hrow (List.cons_ne_nil t []) (List.cons_ne_nil v [])
    · exact .token hk (.node hname ((hes hrest.left).append (.own hclose)))

/-- A **rule** is read from its name on, which was taken before. -/
theorem rule_succ (name : Name) : Takes True (Parser.rule (d + 1) name) x
    fun r used _ => used ≠ [] ∧ ∀ t : Token, t.kind = .name name.text → name.span = t.span →
      InRow (t :: used) → Node.Read (.rule r) (t :: used) := by
  refine .again (p := (Parser.rule · name)) ?_
  rw [Parser.rule]
  split
  · exact .fail
  · refine .bind_closed (parameters_read d name [] x) ?_
    rintro params us x₁ ⟨_, rfl, hparams⟩
    refine .peek_bind_closed fun v hv => ?_
    dsimp only
    split
    · next hopen =>
      have hopen := TokenKind.isSymbol_iff.1 hopen
      refine .skip_bind hv (by simp [hopen]) (.bind (ih.statements v.span x₁.drop) ?_)
      rintro ⟨sts, _⟩ _ x₂ ⟨body, brace, rfl, hbrace, rfl, hbody⟩
      refine .pure ?_
      rw [List.append_nil]
      refine ⟨List.cons_ne_nil _ _, by simp, fun hrepeats => ⟨by simp, ?_⟩⟩
      intro t hk hspan hrow
      have hhead : InRow ((t :: us) ++ v :: (body ++ [brace])) := hrow
      have hselector := selector_read hk hspan hhead.left (hparams hhead.left.tail)
      obtain ⟨ps, hsts, hps⟩ := hbody hhead.right.tail.left
      refine .mk (List.cons_ne_nil _ _) ?_ ⟨t, _, name.text, rfl, hk, ?_⟩ (.rule _ _ hsts) ?_
      · rw [Node.span, show selectorSpan name params = cover (t :: us) from hselector.span]
        exact cover_block [] hrow (List.cons_ne_nil t us)
      · rwa [← hspan]
      · exact .node hselector (.token hopen (hps.append (.own hbrace)))
    · exact .fail

end ProgramRead

/-- Every node of a **statement or rule** was read from its tokens. -/
theorem programRead (d : Nat) : ProgramRead d := by
  induction d with
  | zero => constructor <;> intros <;> exact .exhaust
  | succ d ih =>
    exact ⟨fun opening x => ih.statements_succ x opening, ih.statement_succ,
      fun t x => ih.atRule_succ x t, fun name x => ih.rule_succ x name⟩

end Parser

/-! ### Whole programs -/

/-- The items of a program were read from its tokens: each from its own, and there is nothing
else but **semicolons**. -/
inductive Listed : List Item → List Token → Prop
  | nil : Listed [] []
  | semicolon {is : List Item} {t : Token} {ts : List Token} (ht : t.kind = .symbol .semicolon)
    (h : Listed is ts) : Listed is (t :: ts)
  | item {i : Item} {is : List Item} {ts us : List Token} (hi : Node.Read (.ofItem i) ts)
    (h : Listed is us) : Listed (i :: is) (ts ++ us)

/-- The items of a program have their tokens **in order**. -/
theorem Listed.spread {is : List Item} {ts : List Token} (h : Listed is ts) :
    Spread Node.Read (is.map .ofItem) ts := by
  induction h with
  | nil => exact .nil []
  | @semicolon is t ts _ _ ih => exact ih.behind [t]
  | item hi _ ih => exact (Spread.one hi).append ih

/-- The items of a **program** were read from its tokens. -/
theorem Parser.items_read (d : Nat) (x : TokenStream) :
    Takes False (items d) x fun is used _ => InRow used → Listed is used := by
  induction d generalizing x with
  | zero => exact .exhaust
  | succ d ih =>
    rw [items]
    refine .peek_bind fun t ht => ?_
    split
    · exact .pure fun _ => .nil
    · next hk =>
      refine .skip_bind ht (by simp [hk]) ((ih x.drop).mono ?_)
      intro is used _ h hrow
      exact .semicolon hk (h hrow.tail)
    · next hk =>
      refine .bind_of ((programRead d).atRule t x ht hk) ?_
      rintro a us x₁ ⟨-, ha⟩
      refine .map ((ih x₁).mono fun is vs x₂ his => ⟨False.elim, fun hrow => ?_⟩)
      exact Listed.item (i := .atRule a) (ha hrow.left) (his hrow.right)
    · next text hk =>
      refine .skip_bind ht (by simp [hk])
        (.bind_of ((programRead d).rule ⟨text, t.span⟩ x.drop) ?_)
      rintro r us x₁ ⟨-, hr⟩
      refine .map ((ih x₁).mono fun is vs x₂ his => ⟨False.elim, fun hrow => ?_⟩)
      have hrow : InRow ((t :: us) ++ vs) := hrow
      exact Listed.item (i := .rule r) (hr t hk rfl hrow.left) (his hrow.right)
    · exact .fail

end RuleScript
