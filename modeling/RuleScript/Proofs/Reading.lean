import RuleScript.Proofs.Pairing

/-!
# The grammar reads the same from both

From supplies of tokens that correspond, every function of the grammar reads the
same, up to how spans are looked at, or refuses both for the same cause. Spans are
passed along, joined and widened on the way, but nothing is ever decided by them.

* `Pairing.expressionSame` and `Pairing.programSame`: the two grammars, each by
  induction on the depth, all functions at once.
* `Pairing.items_same`: what they come to for a whole program.
-/

namespace RuleScript

/-! ### Spans on the way -/

section Spans

variable {v : View}

/-- An expression that gets another span looks like itself **with the span as it is seen**. -/
theorem Expr.seen_withSpan (s : Span) (e : Expr) :
    (e.withSpan s).seen v = (e.seen v).withSpan (v.span s) := by
  cases e <;> rfl

/-- Expressions that look the same have **spans that look the same**. -/
theorem Expr.span_eq_of_seen {e e' : Expr} (h : e.seen v = e'.seen v) :
    v.span e.span = v.span e'.span := by
  rw [← Expr.span_seen, h, Expr.span_seen]

/-- Whether a parameter of some name was already read does not depend on spans. -/
theorem Parameter.any_name_eq {qs qs' : List Parameter}
    (h : qs.map (Parameter.seen v) = qs'.map (Parameter.seen v)) (text : String) :
    (qs.any fun q => q.name.text == text) = qs'.any fun q => q.name.text == text := by
  have hany := congrArg (fun l : List Parameter => l.any fun q => q.name.text == text) h
  simpa only [List.any_map, Function.comp_def, Parameter.seen, Name.seen] using hany

/-- Selectors that look the same have **spans that look the same**. -/
theorem Parser.selectorSpan_seen {n n' : Name} (hn : n.seen v = n'.seen v)
    {qs qs' : List Parameter} (hqs : qs.map (Parameter.seen v) = qs'.map (Parameter.seen v)) :
    v.span (Parser.selectorSpan n qs) = v.span (Parser.selectorSpan n' qs') := by
  have hspan := (Name.mk.inj hn).2
  have hlast := congrArg List.getLast? hqs
  rw [List.getLast?_map, List.getLast?_map] at hlast
  rw [Parser.selectorSpan, Parser.selectorSpan]
  rcases hq : qs.getLast? with _ | q <;> rcases hq' : qs'.getLast? with _ | q' <;>
    rw [hq, hq'] at hlast
  · exact hspan
  · cases hlast
  · cases hlast
  · exact v.union hspan (Parameter.mk.inj (Option.some.inj hlast)).2.2

end Spans

namespace Pairing

variable {σ τ : Type} [TokenSource σ] [TokenSource τ] {p : Pairing σ τ} {s : σ} {t : τ}

/-- Parsers that end the same, with results that **look** the same. -/
abbrev SameSeen (p : Pairing σ τ) {α : Type} (seen : View → α → α) :
    Outcome SyntaxError α × σ → Outcome SyntaxError α × τ → Prop :=
  p.Same fun a b => seen p.view a = seen p.view b

/-! ### Expressions -/

/-- The expression grammar at two depths reads the same. -/
structure ExpressionSame (p : Pairing σ τ) (d d' : Nat) : Prop where
  binary : ∀ {s t} (level : Nat), p.Related s t →
    p.SameSeen Expr.seen ((Parser.binary d level).run s) ((Parser.binary d' level).run t)
  climb : ∀ {s t left left'} (level : Nat), p.Related s t →
    left.seen p.view = left'.seen p.view →
    p.SameSeen Expr.seen ((Parser.climb d level left).run s) ((Parser.climb d' level left').run t)
  unary : ∀ {s t}, p.Related s t →
    p.SameSeen Expr.seen ((Parser.unary d).run s) ((Parser.unary d').run t)
  primary : ∀ {s t}, p.Related s t →
    p.SameSeen Expr.seen ((Parser.primary d).run s) ((Parser.primary d').run t)
  arguments : ∀ {s t}, p.Related s t →
    p.SameSeen Expr.seenAll ((Parser.arguments d).run s) ((Parser.arguments d').run t)

variable {d d' : Nat}

namespace ExpressionSame

/-- **Operands and operators** are read the same, if what they are made of is. -/
theorem binary_succ (ih : p.ExpressionSame d d') (level : Nat) (h : p.Related s t) :
    p.SameSeen Expr.seen ((Parser.binary (d + 1) level).run s)
      ((Parser.binary (d' + 1) level).run t) := by
  rw [Parser.binary, Parser.binary]
  exact .bind (ih.unary h) fun left left' s₁ t₁ hleft h₁ => ih.climb level h₁ hleft

variable [LawfulTokenSource σ] [LawfulTokenSource τ]

/-- **Further operators** behind an operand are read the same. -/
theorem climb_succ (ih : p.ExpressionSame d d') {left left' : Expr} (level : Nat)
    (h : p.Related s t) (hleft : left.seen p.view = left'.seen p.view) :
    p.SameSeen Expr.seen ((Parser.climb (d + 1) level left).run s)
      ((Parser.climb (d' + 1) level left').run t) := by
  rw [Parser.climb, Parser.climb]
  refine .peek_bind h fun k a b s₁ t₁ _ h₁ ha hb => ?_
  dsimp only
  split
  · exact .pure h₁ hleft
  · next op _ =>
    split
    · exact .pure h₁ hleft
    · refine .skip_bind h₁ ha hb fun s₂ t₂ h₂ => ?_
      refine .bind (ih.binary _ h₂) fun right right' s₃ t₃ hright h₃ => ?_
      refine ih.climb level h₃ ?_
      have hspan := p.view.union (Expr.span_eq_of_seen hleft) (Expr.span_eq_of_seen hright)
      simp only [Expr.seen, hleft, hright, hspan]

/-- **Operators in front** are read the same. -/
theorem unary_succ (ih : p.ExpressionSame d d') (h : p.Related s t) :
    p.SameSeen Expr.seen ((Parser.unary (d + 1)).run s) ((Parser.unary (d' + 1)).run t) := by
  rw [Parser.unary, Parser.unary]
  refine .peek_bind h fun k a b s₁ t₁ hab h₁ ha hb => ?_
  dsimp only
  split
  · exact ih.primary h₁
  · refine .skip_bind h₁ ha hb fun s₂ t₂ h₂ => ?_
    refine .bind (ih.unary h₂) fun operand operand' s₃ t₃ hoperand h₃ => .pure h₃ ?_
    have hspan := p.view.union hab (Expr.span_eq_of_seen hoperand)
    simp only [Expr.seen, hoperand, hspan]

/-- **Literals, names, calls and groups** are read the same. -/
theorem primary_succ (ih : p.ExpressionSame d d') (h : p.Related s t) :
    p.SameSeen Expr.seen ((Parser.primary (d + 1)).run s) ((Parser.primary (d' + 1)).run t) := by
  rw [Parser.primary, Parser.primary]
  refine .peek_bind h fun k a b s₁ t₁ hab h₁ ha hb => ?_
  -- the four kinds of literals are read in one way
  have hliteral : ∀ l : Literal, p.SameSeen Expr.seen
      ((Parser.skip >>= fun _ => pure (.literal l a) : Parser σ Expr).run s₁)
      ((Parser.skip >>= fun _ => pure (.literal l b) : Parser τ Expr).run t₁) := by
    intro l
    exact .skip_bind h₁ ha hb fun s₂ t₂ h₂ => .pure h₂ (by simp only [Expr.seen, hab])
  cases k with
  | int value => exact hliteral (.int value)
  | float value => exact hliteral (.float value)
  | string text => exact hliteral (.string text)
  | bool value => exact hliteral (.bool value)
  | eof => exact .unexpected h₁ hab _
  | name text =>
    refine .skip_bind h₁ ha hb fun s₂ t₂ h₂ => .accept_bind h₂ fun called s₃ t₃ h₃ => ?_
    have hname : Name.seen p.view ⟨text, a⟩ = Name.seen p.view ⟨text, b⟩ := by
      simp only [Name.seen, hab]
    cases called with
    | false => exact .pure h₃ (by simp only [Expr.seen, hname])
    | true =>
      refine .bind (ih.arguments h₃) fun args args' s₄ t₄ hargs h₄ => ?_
      refine .expect_bind h₄ fun _ close close' s₅ t₅ hclose h₅ => .pure h₅ ?_
      simp only [Expr.seen, hname, hargs, p.view.union hab hclose]
  | symbol symbol =>
    cases symbol
    case dollar =>
      refine .skip_bind h₁ ha hb fun s₂ t₂ h₂ => ?_
      refine .expectName_bind h₂ fun name name' s₃ t₃ hname h₃ => .pure h₃ ?_
      have hspan := p.view.union hab (Name.mk.inj hname).2
      simp only [Expr.seen, hname, hspan]
    case openParen =>
      refine .skip_bind h₁ ha hb fun s₂ t₂ h₂ => ?_
      refine .bind (ih.binary 0 h₂) fun inner inner' s₃ t₃ hinner h₃ => ?_
      refine .expect_bind h₃ fun _ close close' s₄ t₄ hclose h₄ => .pure h₄ ?_
      -- brackets widen the span of what stands between them
      rw [Expr.seen_withSpan, Expr.seen_withSpan, hinner, p.view.union hab hclose]
    all_goals exact .unexpected h₁ hab _

/-- **Arguments** are read the same. -/
theorem arguments_succ (ih : p.ExpressionSame d d') (h : p.Related s t) :
    p.SameSeen Expr.seenAll ((Parser.arguments (d + 1)).run s)
      ((Parser.arguments (d' + 1)).run t) := by
  rw [Parser.arguments, Parser.arguments]
  refine .check_bind h fun closed s₁ t₁ h₁ => ?_
  cases closed with
  | true => exact .pure h₁ rfl
  | false =>
    refine .bind (ih.binary 0 h₁) fun arg arg' s₂ t₂ harg h₂ => ?_
    refine .accept_bind h₂ fun comma s₃ t₃ h₃ => ?_
    cases comma with
    | false => exact .pure h₃ (by simp only [Expr.seenAll, harg])
    | true =>
      refine .bind (ih.arguments h₃) fun more more' s₄ t₄ hmore h₄ => ?_
      exact .pure h₄ (by simp only [Expr.seenAll, harg, hmore])

end ExpressionSame

variable [LawfulTokenSource σ] [LawfulTokenSource τ]

/-- **Expressions** are read the same. -/
theorem expressionSame (h : Depths p.ahead d d') : p.ExpressionSame d d' := by
  induction h with
  | zero =>
    refine ⟨fun _ h => ?_, fun _ h _ => ?_, fun h => ?_, fun h => ?_, fun h => ?_⟩ <;>
      exact .exhausted h
  | behind hahead =>
    refine ⟨fun _ _ => ?_, fun _ _ _ => ?_, fun _ => ?_, fun _ => ?_, fun _ => ?_⟩ <;>
      exact .behind hahead
  | succ _ ih =>
    exact ⟨ih.binary_succ, ih.climb_succ, ih.unary_succ, ih.primary_succ, ih.arguments_succ⟩

/-! ### Parts of programs -/

section Parts

variable {n n' : Name}

/-- The **values** of a declaration are read the same. -/
theorem values_same (hd : Depths p.ahead d d') (h : p.Related s t) :
    p.SameSeen Expr.seenAll ((Parser.values d).run s) ((Parser.values d').run t) := by
  induction hd generalizing s t with
  | zero => exact .exhausted h
  | behind hahead => exact .behind hahead
  | @succ d m hm ih =>
    rw [Parser.values, Parser.values]
    refine .peek_bind h fun k a b s₁ t₁ _ h₁ _ _ => ?_
    dsimp only
    split
    · refine .bind ((expressionSame hm).binary 0 h₁) fun value value' s₂ t₂ hvalue h₂ => ?_
      refine .bind (ih h₂) fun more more' s₃ t₃ hmore h₃ => .pure h₃ ?_
      simp only [Expr.seenAll, hvalue, hmore]
    · exact .pure h₁ rfl

/-- What follows the name of a declaration is read the same. -/
theorem declarationValues_same (hd : Depths p.ahead d d') (h : p.Related s t)
    (hn : n.seen p.view = n'.seen p.view) :
    p.SameSeen Expr.seenAll ((Parser.declarationValues d n).run s)
      ((Parser.declarationValues d' n').run t) := by
  have hdashes : n.isVariable = n'.isVariable := congrArg Name.hasDashes (Name.mk.inj hn).1
  rw [Parser.declarationValues, Parser.declarationValues, hdashes]
  split
  · refine .bind ((expressionSame hd).binary 0 h) fun value value' s₁ t₁ hvalue h₁ => .pure h₁ ?_
    simp only [Expr.seenAll, hvalue]
  · exact values_same hd h

/-- **Declarations** are read the same. -/
theorem declaration_same (hd : Depths p.ahead d d') (h : p.Related s t)
    (hn : n.seen p.view = n'.seen p.view) :
    p.SameSeen Declaration.seen ((Parser.declaration d n).run s)
      ((Parser.declaration d' n').run t) := by
  obtain ⟨htext, hspan⟩ := Name.mk.inj hn
  have hend : Parser.declarationEnd n = Parser.declarationEnd n' := by
    rw [Parser.declarationEnd, Parser.declarationEnd, Name.isVariable, Name.isVariable, htext]
  rw [Parser.declaration, Parser.declaration, hend]
  refine .bind (declarationValues_same hd h hn) fun exprs exprs' s₁ t₁ hexprs h₁ => ?_
  refine .expect_bind h₁ fun _ close close' s₂ t₂ hclose h₂ => .pure h₂ ?_
  rw [Expr.seenAll_eq_map, Expr.seenAll_eq_map] at hexprs
  simp only [Declaration.seen, hn, hexprs, p.view.union hspan hclose]

/-- **Defaults** of parameters are read the same. -/
theorem parameterDefault_same (hd : Depths p.ahead d d') (h : p.Related s t) :
    p.SameSeen (fun v => Option.map (Expr.seen v)) ((Parser.parameterDefault d).run s)
      ((Parser.parameterDefault d').run t) := by
  rw [Parser.parameterDefault, Parser.parameterDefault]
  refine .accept_bind h fun given s₁ t₁ h₁ => ?_
  cases given with
  | false => exact .pure h₁ rfl
  | true =>
    refine .bind ((expressionSame hd).binary 0 h₁) fun value value' s₂ t₂ hvalue h₂ => ?_
    exact .pure h₂ (congrArg some hvalue)

/-- **Parameters** are read the same, behind such as look the same. -/
theorem parameters_same (hd : Depths p.ahead d d') (h : p.Related s t)
    (hn : n.seen p.view = n'.seen p.view) {qs qs' : List Parameter}
    (hqs : qs.map (Parameter.seen p.view) = qs'.map (Parameter.seen p.view)) :
    p.SameSeen (fun v => List.map (Parameter.seen v)) ((Parser.parameters d n qs).run s)
      ((Parser.parameters d' n' qs').run t) := by
  induction hd generalizing s t qs qs' with
  | zero => exact .exhausted h
  | behind hahead => exact .behind hahead
  | @succ d m hm ih =>
    rw [Parser.parameters, Parser.parameters]
    refine .peek_bind h fun k a b s₁ t₁ hab h₁ ha hb => ?_
    dsimp only
    split
    · refine .skip_bind h₁ ha hb fun s₂ t₂ h₂ => ?_
      refine .expectName_bind h₂ fun name name' s₃ t₃ hname h₃ => ?_
      obtain ⟨htext, hspan⟩ := Name.mk.inj hname
      rw [htext, Parameter.any_name_eq hqs]
      split
      · exact .fail h₃ (by simp only [SyntaxError.seen, (Name.mk.inj hn).1, hspan])
      · refine .bind (parameterDefault_same hm h₃) fun value value' s₄ t₄ hvalue h₄ => ?_
        refine .expect_bind h₄ fun _ close close' s₅ t₅ hclose h₅ => ih h₅ ?_
        have hspan := p.view.union hab hclose
        simp only [List.map_append, List.map_cons, List.map_nil, hqs, Parameter.seen, hname,
          hvalue, hspan]
    · exact .pure h₁ hqs

/-- The **expressions** of an at-rule are read the same. -/
theorem atRuleParameters_same (hd : Depths p.ahead d d') (h : p.Related s t)
    (hn : n.seen p.view = n'.seen p.view) :
    p.SameSeen Expr.seenAll ((Parser.atRuleParameters d n).run s)
      ((Parser.atRuleParameters d' n').run t) := by
  induction hd generalizing s t with
  | zero => exact .exhausted h
  | behind hahead => exact .behind hahead
  | @succ d m hm ih =>
    rw [Parser.atRuleParameters, Parser.atRuleParameters, (Name.mk.inj hn).1]
    refine .peek_bind h fun k a b s₁ t₁ hab h₁ _ _ => ?_
    -- every token but a semicolon, an opening brace and the end begins a parameter
    have hmore : p.SameSeen Expr.seenAll
        ((do
          let param ← Parser.binary d 0
          let more ← Parser.atRuleParameters d n
          return param :: more : Parser σ (List Expr)).run s₁)
        ((do
          let param ← Parser.binary m 0
          let more ← Parser.atRuleParameters m n'
          return param :: more : Parser τ (List Expr)).run t₁) := by
      refine .bind ((expressionSame hm).binary 0 h₁) fun param param' s₂ t₂ hparam h₂ => ?_
      refine .bind (ih h₂) fun more more' s₃ t₃ hmore h₃ => .pure h₃ ?_
      simp only [Expr.seenAll, hparam, hmore]
    cases k with
    | eof => exact .unexpected h₁ hab _
    | symbol symbol =>
      cases symbol
      case openBrace => exact .pure h₁ rfl
      case semicolon => exact .pure h₁ rfl
      all_goals exact hmore
    | _ => exact hmore

end Parts

/-! ### Statements and rules -/

/-- Blocks that look the same, up to braces that look the same. -/
def SameBlock (p : Pairing σ τ) (a b : List Statement × Span) : Prop :=
  Statement.seenAll p.view a.1 = Statement.seenAll p.view b.1 ∧ p.view.span a.2 = p.view.span b.2

/-- The program grammar at two depths reads the same. -/
structure ProgramSame (p : Pairing σ τ) (d d' : Nat) : Prop where
  statements : ∀ {s t opening opening'}, p.Related s t →
    p.view.span opening = p.view.span opening' →
    p.Same p.SameBlock ((Parser.statements d opening).run s)
      ((Parser.statements d' opening').run t)
  statement : ∀ {s t}, p.Related s t →
    p.SameSeen Statement.seen ((Parser.statement d).run s) ((Parser.statement d').run t)
  atRule : ∀ {s t}, p.Related s t →
    p.SameSeen AtRule.seen ((Parser.atRule d).run s) ((Parser.atRule d').run t)
  rule : ∀ {s t n n'}, p.Related s t → n.seen p.view = n'.seen p.view →
    p.SameSeen Rule.seen ((Parser.rule d n).run s) ((Parser.rule d' n').run t)

namespace ProgramSame

/-- **Blocks** are read the same, if their statements are. -/
theorem statements_succ (ih : p.ProgramSame d d') {opening opening' : Span} (h : p.Related s t)
    (ho : p.view.span opening = p.view.span opening') :
    p.Same p.SameBlock ((Parser.statements (d + 1) opening).run s)
      ((Parser.statements (d' + 1) opening').run t) := by
  rw [Parser.statements, Parser.statements]
  refine .peek_bind h fun k a b s₁ t₁ hab h₁ ha hb => ?_
  -- every token but a semicolon, a closing brace and the end begins a statement
  have hstatement : p.Same p.SameBlock
      ((do
        let first ← Parser.statement d
        let block ← Parser.statements d opening
        return (first :: block.1, block.2) : Parser σ (List Statement × Span)).run s₁)
      ((do
        let first ← Parser.statement d'
        let block ← Parser.statements d' opening'
        return (first :: block.1, block.2) : Parser τ (List Statement × Span)).run t₁) := by
    refine .bind (ih.statement h₁) fun first first' s₂ t₂ hfirst h₂ => ?_
    refine .bind (ih.statements h₂ ho) fun more more' s₃ t₃ hmore h₃ => .pure h₃ ?_
    exact ⟨by simp only [Statement.seenAll, hfirst, hmore.1], hmore.2⟩
  cases k with
  | eof => exact .fail h₁ (by simp only [SyntaxError.seen, ho])
  | symbol symbol =>
    cases symbol
    case closeBrace =>
      exact .skip_bind h₁ ha hb fun s₂ t₂ h₂ => .pure h₂ ⟨rfl, hab⟩
    case semicolon =>
      exact .skip_bind h₁ ha hb fun s₂ t₂ h₂ => ih.statements h₂ ho
    all_goals exact hstatement
  | _ => exact hstatement

/-- **Statements** are read the same. -/
theorem statement_succ (ih : p.ProgramSame d d') (hd : Depths p.ahead d d') (h : p.Related s t) :
    p.SameSeen Statement.seen ((Parser.statement (d + 1)).run s)
      ((Parser.statement (d' + 1)).run t) := by
  rw [Parser.statement, Parser.statement]
  refine .peek_bind h fun k a b s₁ t₁ hab h₁ ha hb => ?_
  cases k with
  | name text =>
    have hname : Name.seen p.view ⟨text, a⟩ = Name.seen p.view ⟨text, b⟩ := by
      simp only [Name.seen, hab]
    refine .skip_bind h₁ ha hb fun s₂ t₂ h₂ => .accept_bind h₂ fun colon s₃ t₃ h₃ => ?_
    cases colon with
    | true =>
      refine .bind (declaration_same hd h₃ hname) fun q q' s₄ t₄ hq h₄ => .pure h₄ ?_
      simp only [Statement.seen, hq]
    | false =>
      refine .bind (ih.rule h₃ hname) fun r r' s₄ t₄ hr h₄ => .pure h₄ ?_
      simp only [Statement.seen, hr]
  | symbol symbol =>
    cases symbol
    case «at» =>
      refine .bind (ih.atRule h₁) fun q q' s₂ t₂ hq h₂ => .pure h₂ ?_
      simp only [Statement.seen, hq]
    all_goals exact .unexpected h₁ hab _
  | _ => exact .unexpected h₁ hab _

/-- **At-rules** are read the same. -/
theorem atRule_succ (ih : p.ProgramSame d d') (hd : Depths p.ahead d d') (h : p.Related s t) :
    p.SameSeen AtRule.seen ((Parser.atRule (d + 1)).run s) ((Parser.atRule (d' + 1)).run t) := by
  rw [Parser.atRule, Parser.atRule]
  refine .peek_bind h fun _ sign sign' s₁ t₁ hsign h₁ ha hb => ?_
  refine .skip_bind h₁ ha hb fun s₂ t₂ h₂ => ?_
  refine .expectName_bind h₂ fun name name' s₃ t₃ hname h₃ => ?_
  refine .bind (atRuleParameters_same hd h₃ hname) fun params params' s₄ t₄ hparams h₄ => ?_
  rw [Expr.seenAll_eq_map, Expr.seenAll_eq_map] at hparams
  refine .peek_bind h₄ fun k a b s₅ t₅ hab h₅ ha hb => ?_
  refine .skip_bind h₅ ha hb fun s₆ t₆ h₆ => ?_
  dsimp only
  split
  · refine .bind (ih.statements h₆ hab) fun block block' s₇ t₇ hblock h₇ => .pure h₇ ?_
    have hspan := p.view.union hsign (p.view.union hab hblock.2)
    simp only [AtRule.seen, hname, hparams, Statement.seenBody, hblock.1, hspan]
  · refine .pure h₆ ?_
    simp only [AtRule.seen, hname, hparams, Statement.seenBody, p.view.union hsign hab]

/-- **Rules** are read the same, behind names that look the same. -/
theorem rule_succ (ih : p.ProgramSame d d') (hd : Depths p.ahead d d') {n n' : Name}
    (h : p.Related s t) (hn : n.seen p.view = n'.seen p.view) :
    p.SameSeen Rule.seen ((Parser.rule (d + 1) n).run s) ((Parser.rule (d' + 1) n').run t) := by
  obtain ⟨htext, hspan⟩ := Name.mk.inj hn
  have hdashes : n.isVariable = n'.isVariable := congrArg Name.hasDashes htext
  rw [Parser.rule, Parser.rule, hdashes, htext]
  split
  · exact .fail h (by simp only [SyntaxError.seen, hspan])
  · refine .bind (parameters_same hd h hn rfl) fun params params' s₁ t₁ hparams h₁ => ?_
    have hselector := Parser.selectorSpan_seen hn hparams
    refine .peek_bind h₁ fun k a b s₂ t₂ hab h₂ ha hb => ?_
    dsimp only
    split
    · refine .skip_bind h₂ ha hb fun s₃ t₃ h₃ => ?_
      refine .bind (ih.statements h₃ hab) fun block block' s₄ t₄ hblock h₄ => .pure h₄ ?_
      have hrule := p.view.union hselector (p.view.union hab hblock.2)
      simp only [Rule.seen, Selector.seen, hn, hparams, hselector, hblock.1, hrule]
    · exact .unexpected h₂ hab _

end ProgramSame

/-- **Statements and rules** are read the same. -/
theorem programSame (h : Depths p.ahead d d') : p.ProgramSame d d' := by
  induction h with
  | zero =>
    refine ⟨fun h _ => ?_, fun h => ?_, fun h => ?_, fun h _ => ?_⟩ <;> exact .exhausted h
  | behind hahead =>
    refine ⟨fun _ _ => ?_, fun _ => ?_, fun _ => ?_, fun _ _ => ?_⟩ <;> exact .behind hahead
  | succ hd ih =>
    exact ⟨ih.statements_succ, ih.statement_succ hd, ih.atRule_succ hd, ih.rule_succ hd⟩

/-- **Whole programs** are read the same. -/
theorem items_same (hd : Depths p.ahead d d') (h : p.Related s t) :
    p.SameSeen (fun v => List.map (Item.seen v)) ((Parser.items d).run s)
      ((Parser.items d').run t) := by
  induction hd generalizing s t with
  | zero => exact .exhausted h
  | behind hahead => exact .behind hahead
  | succ hd ih =>
    rw [Parser.items, Parser.items]
    refine .peek_bind h fun k a b s₁ t₁ hab h₁ ha hb => ?_
    cases k with
    | eof => exact .pure h₁ rfl
    | name text =>
      have hname : Name.seen p.view ⟨text, a⟩ = Name.seen p.view ⟨text, b⟩ := by
        simp only [Name.seen, hab]
      refine .skip_bind h₁ ha hb fun s₂ t₂ h₂ => ?_
      refine .bind ((programSame hd).rule h₂ hname) fun r r' s₃ t₃ hr h₃ => ?_
      refine .bind (ih h₃) fun more more' s₄ t₄ hmore h₄ => .pure h₄ ?_
      simp only [List.map_cons, Item.seen, hr, hmore]
    | symbol symbol =>
      cases symbol
      case semicolon => exact .skip_bind h₁ ha hb fun s₂ t₂ h₂ => ih h₂
      case «at» =>
        refine .bind ((programSame hd).atRule h₁) fun q q' s₂ t₂ hq h₂ => ?_
        refine .bind (ih h₂) fun more more' s₃ t₃ hmore h₃ => .pure h₃ ?_
        simp only [List.map_cons, Item.seen, hq, hmore]
      all_goals exact .unexpected h₁ hab _
    | _ => exact .unexpected h₁ hab _

end Pairing

end RuleScript
