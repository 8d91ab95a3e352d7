import RuleScript.Parse
import RuleScript.Proofs.Node

/-!
# Where spans come from

A parser makes no spans of its own. Those in the tree it gives, and the span of the error
it is refused with, are spans of tokens and errors that its supply of tokens showed, or
unions of such. So whatever is true of spans that are shown, and of unions with their
parts, is true of all spans that come out.

* A `Watch` is such a property, with the states of a supply in which it can be relied on and
  what is true where a parser is refused. Only a token that was looked at, and is not the
  end, is ever dropped.
* `Watch.Keeps`: what a parser gives has the property, in every case, and leaves the supply
  in such a state. The functions of the grammar follow one by one.
* `Watch.readExpression_keeps` and `Watch.readProgram_keeps`: what they come to.
-/

namespace RuleScript

/-- A property of spans that is **kept** by a supply of tokens and by unions. -/
structure Watch (σ : Type) [TokenSource σ] where
  /-- the property -/
  Good : Span → Prop
  /-- the states in which the supply keeps it -/
  Inside : σ → Prop
  /-- the errors a parser is refused with, and the states they leave it in -/
  Refused : SyntaxError → σ → Prop
  union : ∀ {s t : Span}, Good s → Good t → Good (s.union t)
  token : ∀ {s s' : σ} {t : Token}, Inside s → TokenSource.peek s = (.ok t, s') →
    Good t.span ∧ Inside s'
  error : ∀ {s s' : σ} {e : SyntaxError}, Inside s → TokenSource.peek s = (.error e, s') →
    Refused e s'
  grammar : ∀ {s : σ} {cause : GrammarCause} {span : Span}, Inside s → Good span →
    Refused ⟨.grammar cause, span⟩ s
  drop : ∀ {s : σ} {t : Token}, Inside s → Parser.Seen t s → t.kind ≠ .eof →
    Inside (TokenSource.drop s)

namespace Watch

variable {σ α β : Type} [TokenSource σ] (w : Watch σ)

/-- The spans of a node and of all nodes inside it have the property. -/
abbrev Holds (n : Node) : Prop := n.Everywhere w.Good

/-- How a run ends if the property is kept: with a result as asked for, or refused. -/
def Kept (Q : α → Prop) : Outcome SyntaxError α × σ → Prop
  | (.done a, s) => Q a ∧ w.Inside s
  | (.failed e, s) => w.Refused e s
  | (.exhausted, _) => True

/-- A parser **keeps** the property. -/
def Keeps (x : Parser σ α) (Q : α → Prop) : Prop := ∀ s, w.Inside s → w.Kept Q (x.run s)

/-- A parser keeps the property where the given token **was looked at**. -/
def KeepsAt (t : Token) (x : Parser σ α) (Q : α → Prop) : Prop :=
  ∀ s, w.Inside s → Parser.Seen t s → w.Kept Q (x.run s)

variable {w} {Q : α → Prop} {R : β → Prop} {t : Token}

/-- Runs **one after the other** keep the property if each of them does. -/
theorem Kept.bind {x : Parser σ α} {f : α → Parser σ β} {s : σ} (hx : w.Kept Q (x.run s))
    (hf : ∀ a s', x.run s = (.done a, s') → Q a → w.Inside s' → w.Kept R ((f a).run s')) :
    w.Kept R ((x >>= f).run s) := by
  rw [Process.run_bind]
  rcases hrun : x.run s with ⟨a | e | _, s'⟩ <;> rw [hrun] at hx
  · exact hf a s' hrun hx.1 hx.2
  · exact hx
  · trivial

namespace Keeps

theorem pure {a : α} (h : Q a) : w.Keeps (Pure.pure a) Q := fun _ hs => ⟨h, hs⟩

/-- A grammar error may be met where its **span** has the property. -/
theorem fail {cause : GrammarCause} {span : Span} (h : w.Good span) :
    w.Keeps (Process.fail ⟨.grammar cause, span⟩) Q :=
  fun _ hs => w.grammar hs h

theorem exhaust : w.Keeps Process.exhaust Q := fun _ _ => trivial

/-- Parsers that are **put together** keep the property if their parts do. -/
theorem bind {x : Parser σ α} {f : α → Parser σ β} (hx : w.Keeps x Q)
    (hf : ∀ a, Q a → w.Keeps (f a) R) : w.Keeps (x >>= f) R :=
  fun s hs => (hx s hs).bind fun a s' _ ha hs' => hf a ha s' hs'

/-- What keeps the property anywhere does so where a token was looked at. -/
theorem seeing {x : Parser σ α} (h : w.Keeps x Q) : w.KeepsAt t x Q := fun s hs _ => h s hs

/-- How a reading ends if the property is kept. -/
theorem settle {s : σ} {x : Parser σ α} (h : w.Keeps x Q)
    (hx : ∀ s', x.run s ≠ (.exhausted, s')) (hs : w.Inside s) :
    (∀ a s', x.settle s hx = (.ok a, s') → Q a ∧ w.Inside s') ∧
      ∀ e s', x.settle s hx = (.error e, s') → w.Refused e s' := by
  have hkept := h s hs
  rcases hrun : x.run s with ⟨a | e | _, s'⟩ <;> rw [hrun] at hkept
  · rw [Process.settle_of_done hrun]
    refine ⟨?_, fun _ _ h => nomatch h⟩
    rintro _ _ ⟨⟩
    exact hkept
  · rw [Process.settle_of_failed hrun]
    refine ⟨fun _ _ h => (nomatch h), ?_⟩
    rintro _ _ ⟨⟩
    exact hkept
  · exact absurd hrun (hx s')

end Keeps

namespace KeepsAt

theorem pure {a : α} (h : Q a) : w.KeepsAt t (Pure.pure a) Q := (Keeps.pure h).seeing

theorem fail {cause : GrammarCause} {span : Span} (h : w.Good span) :
    w.KeepsAt t (Process.fail ⟨.grammar cause, span⟩) Q :=
  (Keeps.fail h).seeing

/-- The token that was looked at may be **used by the first parser** of two. -/
theorem seen_bind {x : Parser σ α} {f : α → Parser σ β} (hx : w.KeepsAt t x Q)
    (hf : ∀ a, Q a → w.Keeps (f a) R) : w.KeepsAt t (x >>= f) R :=
  fun s hs ht => (hx s hs ht).bind fun a s' _ ha hs' => hf a ha s' hs'

theorem bind {x : Parser σ α} {f : α → Parser σ β} (hx : w.Keeps x Q)
    (hf : ∀ a, Q a → w.Keeps (f a) R) : w.KeepsAt t (x >>= f) R :=
  seen_bind hx.seeing hf

/-- The token that was looked at can be **dropped**, unless it is the end. -/
theorem skip_bind {f : Unit → Parser σ β} (ht : t.kind ≠ .eof) (hf : w.Keeps (f ()) R) :
    w.KeepsAt t (Parser.skip >>= f) R :=
  fun _ hs hseen => hf _ (w.drop hs hseen ht)

/-- Looking again shows the same token. -/
theorem peek_bind {f : Token → Parser σ β} (hf : w.Good t.span → w.KeepsAt t (f t) R) :
    w.KeepsAt t (Parser.peek >>= f) R := by
  intro s hs hseen
  rw [Process.run_bind_done (Parser.run_peek hseen)]
  exact hf (w.token hs hseen).1 s hs hseen

end KeepsAt

namespace Keeps

variable [LawfulTokenSource σ]

/-- The span of a token that is **looked at** has the property. -/
theorem peek_bind {f : Token → Parser σ β} (hf : ∀ t, w.Good t.span → w.KeepsAt t (f t) R) :
    w.Keeps (Parser.peek >>= f) R := by
  intro s hs
  rcases h : TokenSource.peek s with ⟨e | t, s'⟩
  · rw [Process.run_bind_failed (Parser.run_peek_error h)]
    exact w.error hs h
  · rw [Process.run_bind_done (Parser.run_peek h)]
    exact hf t (w.token hs h).1 s' (w.token hs h).2 (LawfulTokenSource.peek_peek h)

/-- A symbol may be **accepted**. -/
theorem accept (symbol : Symbol) : w.Keeps (Parser.accept symbol) fun _ => True := by
  rw [Parser.accept]
  refine .peek_bind fun t _ => ?_
  split
  · next hk => exact .skip_bind (Parser.EndsBelow.ne_eof_of_isSymbol hk) (.pure trivial)
  · exact .pure trivial

theorem check (symbol : Symbol) : w.Keeps (Parser.check symbol) fun _ => True := by
  rw [Parser.check]
  exact .peek_bind fun t _ => .pure trivial

/-- A symbol that is **expected** stands in a span with the property. -/
theorem expect (symbol : Symbol) (e : Expected) :
    w.Keeps (Parser.expect symbol e) fun t => w.Good t.span := by
  rw [Parser.expect]
  refine .peek_bind fun t ht => ?_
  split
  · next hk => exact .skip_bind (Parser.EndsBelow.ne_eof_of_isSymbol hk) (.pure ht)
  · exact .fail ht

/-- A name that is **expected** stands in a span with the property. -/
theorem expectName (e : Expected) :
    w.Keeps (Parser.expectName e) fun n => w.Good n.span := by
  rw [Parser.expectName]
  refine .peek_bind fun t ht => ?_
  split
  · next hk => exact .skip_bind (by simp [hk]) (.pure ht)
  · exact .fail ht

end Keeps

/-! ### Nodes -/

theorem holds_name {n : Name} (h : w.Good n.span) : w.Holds (.name n) :=
  Node.everywhere_iff.2 ⟨h, nofun⟩

/-- A node of which all spans have the property has a **span** with it. -/
theorem Holds.good {n : Node} (h : w.Holds n) : w.Good n.span := (Node.everywhere_iff.1 h).1

/-- An expression may **get another span**, if that has the property. -/
theorem Holds.withSpan {e : Expr} {s : Span} (h : w.Holds (.expr e)) (hs : w.Good s) :
    w.Holds (.expr (e.withSpan s)) := by
  refine Node.everywhere_iff.2 ⟨?_, ?_⟩
  · rw [Node.span, Expr.span_withSpan]
    exact hs
  · rw [Node.children_withSpan]
    exact (Node.everywhere_iff.1 h).2

theorem forall_mem_map {γ : Type} {f : γ → Node} {xs : List γ} (h : ∀ x ∈ xs, w.Holds (f x)) :
    ∀ n ∈ xs.map f, w.Holds n :=
  List.forall_mem_map.2 h

/-- A **selector** is spanned by its name and its parameters. -/
theorem holds_selector {name : Name} {qs : List Parameter} (hname : w.Good name.span)
    (hqs : ∀ q ∈ qs, w.Holds (.parameter q)) :
    w.Holds (.selector ⟨name, qs, Parser.selectorSpan name qs⟩) := by
  refine Node.everywhere_iff.2 ⟨?_, List.forall_mem_cons.2 ⟨holds_name hname, forall_mem_map hqs⟩⟩
  rw [Node.span, Parser.selectorSpan]
  split
  · next last hlast => exact w.union hname (hqs last (List.mem_of_getLast? hlast)).good
  · exact hname

/-! ### Expressions -/

/-- The expression grammar at one depth keeps the property. -/
structure ExpressionKept (w : Watch σ) (d : Nat) : Prop where
  binary : ∀ n, w.Keeps (Parser.binary d n) fun e => w.Holds (.expr e)
  climb : ∀ n left, w.Holds (.expr left) →
    w.Keeps (Parser.climb d n left) fun e => w.Holds (.expr e)
  unary : w.Keeps (Parser.unary d) fun e => w.Holds (.expr e)
  primary : w.Keeps (Parser.primary d) fun e => w.Holds (.expr e)
  arguments : w.Keeps (Parser.arguments d) fun es => ∀ e ∈ es, w.Holds (.expr e)

namespace ExpressionKept

variable {d : Nat} (ih : w.ExpressionKept d)

include ih

/-- **Operands and operators** keep the property, if what they are made of does. -/
theorem binary_succ (n : Nat) :
    w.Keeps (Parser.binary (d + 1) n) fun e => w.Holds (.expr e) := by
  rw [Parser.binary]
  exact .bind ih.unary fun left hleft => ih.climb n left hleft

variable [LawfulTokenSource σ]

/-- An operator is spanned by the **union** of its operands. -/
theorem climb_succ (n : Nat) (left : Expr) (hleft : w.Holds (.expr left)) :
    w.Keeps (Parser.climb (d + 1) n left) fun e => w.Holds (.expr e) := by
  rw [Parser.climb]
  refine .peek_bind fun t _ => ?_
  split
  · exact .pure hleft
  · next op hop =>
    split
    · exact .pure hleft
    · refine .skip_bind (Parser.binaryOp_ne_eof hop) (.bind (ih.binary _) fun right hright => ?_)
      refine ih.climb n _ ?_
      refine Node.everywhere_iff.2 ⟨w.union hleft.good hright.good, ?_⟩
      exact List.forall_mem_cons.2 ⟨hleft, List.forall_mem_singleton.2 hright⟩

/-- An operator in front is spanned by the **union** of its sign and its operand. -/
theorem unary_succ : w.Keeps (Parser.unary (d + 1)) fun e => w.Holds (.expr e) := by
  rw [Parser.unary]
  refine .peek_bind fun t ht => ?_
  split
  · exact ih.primary.seeing
  · next op hop =>
    refine .skip_bind (Parser.unaryOp_ne_eof hop) (.bind ih.unary fun operand hoperand => .pure ?_)
    refine Node.everywhere_iff.2 ⟨w.union ht hoperand.good, ?_⟩
    exact List.forall_mem_singleton.2 hoperand

/-- **Literals, names, calls and groups** keep the property. -/
theorem primary_succ : w.Keeps (Parser.primary (d + 1)) fun e => w.Holds (.expr e) := by
  rw [Parser.primary]
  refine .peek_bind fun t ht => ?_
  -- what is made of one token has its span and nothing inside
  have hleaf : ∀ e : Expr, e.span = t.span → (Node.expr e).children = [] →
      w.Holds (.expr e) := by
    intro e hspan hchildren
    refine Node.everywhere_iff.2 ⟨?_, by simp [hchildren]⟩
    rw [Node.span, hspan]
    exact ht
  split
  case h_5 text hk =>
    refine .skip_bind (by simp [hk]) (.bind (.accept _) fun called _ => ?_)
    split
    · refine .bind ih.arguments fun args hargs => .bind (.expect _ _) fun close hclose => .pure ?_
      refine Node.everywhere_iff.2 ⟨w.union ht hclose, ?_⟩
      exact List.forall_mem_cons.2 ⟨holds_name ht, forall_mem_map hargs⟩
    · exact .pure (hleaf _ rfl rfl)
  case h_6 hk =>
    refine .skip_bind (by simp [hk]) (.bind (.expectName _) fun name hname => .pure ?_)
    refine Node.everywhere_iff.2 ⟨w.union ht hname, ?_⟩
    exact List.forall_mem_singleton.2 (holds_name hname)
  case h_7 hk =>
    refine .skip_bind (by simp [hk]) (.bind (ih.binary 0) fun inner hinner => ?_)
    exact .bind (.expect _ _) fun close hclose => .pure (hinner.withSpan (w.union ht hclose))
  case h_8 => exact .fail ht
  all_goals
    rename_i hk
    exact .skip_bind (by simp [hk]) (.pure (hleaf _ rfl rfl))

theorem arguments_succ :
    w.Keeps (Parser.arguments (d + 1)) fun es => ∀ e ∈ es, w.Holds (.expr e) := by
  rw [Parser.arguments]
  refine .bind (.check _) fun closed _ => ?_
  split
  · exact .pure (by simp)
  · refine .bind (ih.binary 0) fun arg harg => .bind (.accept _) fun comma _ => ?_
    split
    · refine .bind ih.arguments fun more hmore => .pure ?_
      exact List.forall_mem_cons.2 ⟨harg, hmore⟩
    · exact .pure (List.forall_mem_singleton.2 harg)

end ExpressionKept

variable [LawfulTokenSource σ] (w)

/-- **Expressions** keep the property. -/
theorem expressionKept (d : Nat) : w.ExpressionKept d := by
  induction d with
  | zero =>
    refine ⟨fun _ => ?_, fun _ _ _ => ?_, ?_, ?_, ?_⟩ <;> exact .exhaust
  | succ d ih =>
    exact ⟨ih.binary_succ, ih.climb_succ, ih.unary_succ, ih.primary_succ, ih.arguments_succ⟩

/-! ### Parts of programs -/

/-- The **values** of a declaration keep the property. -/
theorem values_keeps (d : Nat) :
    w.Keeps (Parser.values d) fun es => ∀ e ∈ es, w.Holds (.expr e) := by
  induction d with
  | zero => exact .exhaust
  | succ d ih =>
    rw [Parser.values]
    refine .peek_bind fun t _ => ?_
    split
    · refine .bind ((w.expressionKept d).binary 0) fun value hvalue => ?_
      refine .bind ih fun more hmore => .pure ?_
      exact List.forall_mem_cons.2 ⟨hvalue, hmore⟩
    · exact .pure (by simp)

theorem declarationValues_keeps (d : Nat) (property : Name) :
    w.Keeps (Parser.declarationValues d property) fun es => ∀ e ∈ es, w.Holds (.expr e) := by
  rw [Parser.declarationValues]
  split
  · refine .bind ((w.expressionKept d).binary 0) fun value hvalue => .pure ?_
    exact List.forall_mem_singleton.2 hvalue
  · exact w.values_keeps d

variable {w} {name : Name}

/-- **Declarations** are spanned by their name and what ends them. -/
theorem declaration_keeps (d : Nat) (hname : w.Good name.span) :
    w.Keeps (Parser.declaration d name) fun q => w.Holds (.declaration q) := by
  rw [Parser.declaration]
  refine .bind (w.declarationValues_keeps d name) fun es hes => ?_
  refine .bind (.expect _ _) fun close hclose => .pure ?_
  refine Node.everywhere_iff.2 ⟨w.union hname hclose, ?_⟩
  exact List.forall_mem_cons.2 ⟨holds_name hname, forall_mem_map hes⟩

theorem parameterDefault_keeps (d : Nat) :
    w.Keeps (Parser.parameterDefault d) fun e => ∀ x ∈ e.toList, w.Holds (.expr x) := by
  rw [Parser.parameterDefault]
  refine .bind (.accept _) fun given _ => ?_
  split
  · refine .bind ((w.expressionKept d).binary 0) fun value hvalue => .pure ?_
    exact List.forall_mem_singleton.2 hvalue
  · exact .pure (by simp)

/-- **Parameters** keep the property, behind such as have it. -/
theorem parameters_keeps (d : Nat) {seen : List Parameter}
    (hseen : ∀ q ∈ seen, w.Holds (.parameter q)) :
    w.Keeps (Parser.parameters d name seen) fun qs => ∀ q ∈ qs, w.Holds (.parameter q) := by
  induction d generalizing seen with
  | zero => exact .exhaust
  | succ d ih =>
    rw [Parser.parameters]
    refine .peek_bind fun t ht => ?_
    split
    · next hk =>
      refine .skip_bind (Parser.EndsBelow.ne_eof_of_isSymbol hk) ?_
      refine .bind (.expectName _) fun n hn => ?_
      split
      · exact .fail hn
      · refine .bind (parameterDefault_keeps d) fun value hvalue => ?_
        refine .bind (.expect _ _) fun close hclose => ih ?_
        refine List.forall_mem_append.2 ⟨hseen, List.forall_mem_singleton.2 ?_⟩
        refine Node.everywhere_iff.2 ⟨w.union ht hclose, ?_⟩
        exact List.forall_mem_cons.2 ⟨holds_name hn, forall_mem_map hvalue⟩
    · exact .pure hseen

/-- The **expressions** of an at-rule keep the property. -/
theorem atRuleParameters_keeps (d : Nat) :
    w.Keeps (Parser.atRuleParameters d name) fun es => ∀ e ∈ es, w.Holds (.expr e) := by
  induction d with
  | zero => exact .exhaust
  | succ d ih =>
    rw [Parser.atRuleParameters]
    refine .peek_bind fun t ht => ?_
    split
    · exact .pure (by simp)
    · exact .pure (by simp)
    · exact .fail ht
    · refine .bind ((w.expressionKept d).binary 0) fun param hparam => ?_
      refine .bind ih fun more hmore => .pure ?_
      exact List.forall_mem_cons.2 ⟨hparam, hmore⟩

/-- The expressions of an at-rule stop **before a token** that is not the end. -/
theorem atRuleParameters_bind (d : Nat) {f : List Expr → Parser σ β}
    (hf : ∀ es, (∀ e ∈ es, w.Holds (.expr e)) → ∀ t : Token, t.kind ≠ .eof → w.KeepsAt t (f es) R) :
    w.Keeps (Parser.atRuleParameters d name >>= f) R := by
  refine fun s hs => (atRuleParameters_keeps d s hs).bind fun es s' hrun hes hs' => ?_
  obtain ⟨t, hseen, ht⟩ := Parser.atRuleParameters_stop d name s s' es hrun
  exact hf es hes t ht s' hs' hseen

/-! ### Statements and rules -/

/-- Every statement of a block holds the property, and so does its closing brace. -/
structure HoldsBlock (w : Watch σ) (block : List Statement × Span) : Prop where
  body : ∀ st ∈ block.1, w.Holds (Node.ofStatement st)
  close : w.Good block.2

/-- The program grammar at one depth keeps the property. -/
structure ProgramKept (w : Watch σ) (d : Nat) : Prop where
  statements : ∀ opening, w.Good opening → w.Keeps (Parser.statements d opening) w.HoldsBlock
  statement : w.Keeps (Parser.statement d) fun st => w.Holds (Node.ofStatement st)
  atRule : ∀ sign : Token, sign.kind ≠ .eof →
    w.KeepsAt sign (Parser.atRule d) fun a => w.Holds (.atRule a)
  rule : ∀ name : Name, w.Good name.span →
    w.Keeps (Parser.rule d name) fun r => w.Holds (.rule r)

namespace ProgramKept

variable {d : Nat} (ih : w.ProgramKept d)

include ih

/-- **Blocks** keep the property, if their statements do. -/
theorem statements_succ (opening : Span) (ho : w.Good opening) :
    w.Keeps (Parser.statements (d + 1) opening) w.HoldsBlock := by
  rw [Parser.statements]
  refine .peek_bind fun t ht => ?_
  split
  · next hk => exact .skip_bind (by simp [hk]) (.pure ⟨by simp, ht⟩)
  · next hk => exact .skip_bind (by simp [hk]) (ih.statements opening ho)
  · exact .fail ho
  · refine .bind ih.statement fun first hfirst => ?_
    refine .bind (ih.statements opening ho) fun block hblock => .pure ?_
    exact ⟨List.forall_mem_cons.2 ⟨hfirst, hblock.body⟩, hblock.close⟩

/-- **Statements** keep the property. -/
theorem statement_succ :
    w.Keeps (Parser.statement (d + 1)) fun st => w.Holds (Node.ofStatement st) := by
  rw [Parser.statement]
  refine .peek_bind fun t ht => ?_
  split
  · next hk => exact .seen_bind (ih.atRule t (by simp [hk])) fun a ha => .pure ha
  · next hk =>
    refine .skip_bind (by simp [hk]) (.bind (.accept _) fun colon _ => ?_)
    split
    · exact .bind (declaration_keeps d ht) fun q hq => .pure hq
    · exact .bind (ih.rule _ ht) fun r hr => .pure hr
  · exact .fail ht

/-- **At-rules** keep the property, from the sign they begin with. -/
theorem atRule_succ (sign : Token) (hk : sign.kind ≠ .eof) :
    w.KeepsAt sign (Parser.atRule (d + 1)) fun a => w.Holds (.atRule a) := by
  rw [Parser.atRule]
  refine .peek_bind fun hsign => .skip_bind hk ?_
  refine .bind (.expectName _) fun name hname => ?_
  refine atRuleParameters_bind d fun params hparams t hend => ?_
  refine .peek_bind fun ht => .skip_bind hend ?_
  split
  · refine .bind (ih.statements t.span ht) fun block hblock => .pure ?_
    refine Node.everywhere_iff.2 ⟨w.union hsign (w.union ht hblock.close), ?_⟩
    refine List.forall_mem_cons.2 ⟨holds_name hname, List.forall_mem_append.2 ⟨?_, ?_⟩⟩
    · exact forall_mem_map hparams
    · exact forall_mem_map hblock.body
  · refine .pure (Node.everywhere_iff.2 ⟨w.union hsign ht, ?_⟩)
    refine List.forall_mem_cons.2 ⟨holds_name hname, List.forall_mem_append.2 ⟨?_, by simp⟩⟩
    exact forall_mem_map hparams

/-- **Rules** keep the property, behind a name that has it. -/
theorem rule_succ (name : Name) (hname : w.Good name.span) :
    w.Keeps (Parser.rule (d + 1) name) fun r => w.Holds (.rule r) := by
  rw [Parser.rule]
  split
  · exact .fail hname
  · refine .bind (parameters_keeps d (by simp)) fun params hparams => ?_
    have hselector := holds_selector hname hparams
    refine .peek_bind fun t ht => ?_
    dsimp only
    split
    · next hk =>
      refine .skip_bind (Parser.EndsBelow.ne_eof_of_isSymbol hk) ?_
      refine .bind (ih.statements t.span ht) fun block hblock => .pure ?_
      refine Node.everywhere_iff.2 ⟨w.union hselector.good (w.union ht hblock.close), ?_⟩
      exact List.forall_mem_cons.2 ⟨hselector, forall_mem_map hblock.body⟩
    · exact .fail ht

end ProgramKept

variable (w)

/-- **Statements and rules** keep the property. -/
theorem programKept (d : Nat) : w.ProgramKept d := by
  induction d with
  | zero =>
    refine ⟨fun _ _ => .exhaust, .exhaust, fun _ _ => ?_, fun _ _ => .exhaust⟩
    exact Keeps.exhaust.seeing
  | succ d ih => exact ⟨ih.statements_succ, ih.statement_succ, ih.atRule_succ, ih.rule_succ⟩

/-- **Whole programs** keep the property. -/
theorem items_keeps (d : Nat) :
    w.Keeps (Parser.items d) fun is => ∀ i ∈ is, w.Holds (Node.ofItem i) := by
  induction d with
  | zero => exact .exhaust
  | succ d ih =>
    rw [Parser.items]
    refine .peek_bind fun t ht => ?_
    split
    · exact .pure (by simp)
    · next hk => exact .skip_bind (by simp [hk]) ih
    · next hk =>
      refine .seen_bind ((w.programKept d).atRule t (by simp [hk])) fun a ha => ?_
      exact .bind ih fun more hmore => .pure (List.forall_mem_cons.2 ⟨ha, hmore⟩)
    · next hk =>
      refine .skip_bind (by simp [hk]) (.bind ((w.programKept d).rule _ ht) fun r hr => ?_)
      exact .bind ih fun more hmore => .pure (List.forall_mem_cons.2 ⟨hr, hmore⟩)
    · exact .fail ht

/-! ### Reading -/

variable {w} {s : σ}

/-- **Reading an expression** keeps the property, and so does the state after it. -/
theorem readExpression_keeps (hs : w.Inside s) :
    (∀ e s', Parser.readExpression s = (.ok e, s') → w.Holds (.expr e) ∧ w.Inside s') ∧
      ∀ e s', Parser.readExpression s = (.error e, s') → w.Refused e s' :=
  ((w.expressionKept _).binary 0).settle _ hs

/-- **Reading a program** keeps the property, and so does the state after it. -/
theorem readProgram_keeps (hs : w.Inside s) :
    (∀ p s', Parser.readProgram s = (.ok p, s') →
      (∀ n, p.Has n → w.Good n.span) ∧ w.Inside s') ∧
      ∀ e s', Parser.readProgram s = (.error e, s') → w.Refused e s' := by
  rw [Parser.readProgram]
  have hkept := fun hx => (w.items_keeps (Parser.ampleDepth s)).settle hx hs
  generalize hsettled : Process.settle (Parser.items (Parser.ampleDepth s)) s _ = out
  obtain ⟨hdone, hfailed⟩ := hkept _
  rw [hsettled] at hdone hfailed
  obtain ⟨e | is, s₁⟩ := out
  · constructor
    · rintro _ _ ⟨⟩
    · rintro _ _ ⟨⟩
      exact hfailed e s₁ rfl
  · constructor
    · rintro _ _ ⟨⟩
      obtain ⟨his, hs₁⟩ := hdone is s₁ rfl
      refine ⟨?_, hs₁⟩
      rintro n ⟨i, hi, hn⟩
      exact his i hi n hn
    · rintro _ _ ⟨⟩

end Watch

end RuleScript
