import RuleScript.Proofs.Taking

/-!
# One token of lookahead

The grammar never looks further than the next token. So what a parser does with a stream, **whether
it is done or refused**, it does with every stream that has the same tokens in front and then shows
the same token: `Parser.LooksAhead`.

That is so of looking and of dropping, and it is kept by all ways in which the grammar puts parsers
together (`Parser.LooksAhead.bind`). Every function of the grammar therefore has it, which is proved
function by function and depth by depth, without a word on what is read.

* `Parser.items_looksAhead`: whole programs.
* `Parser.refused_again`: a program that is refused at a token is refused there whatever follows.
-/

namespace RuleScript

variable {α β : Type}

namespace TokenStream

/-- No token of a stream is the end. -/
def Proper (x : TokenStream) : Prop := ∀ t ∈ x.tokens, t.kind ≠ .eof

variable {x y : TokenStream} {used : List Token}

/-- The end is not among the tokens in front, nor **behind** them. -/
theorem proper_prepend_iff :
    (x.prepend used).Proper ↔ (∀ t ∈ used, t.kind ≠ .eof) ∧ x.Proper :=
  List.forall_mem_append

/-- Streams that show the same behind all tokens **have no more tokens** either. -/
theorem Proper.tokens_eq_nil (hy : y.Proper) (hx : x.tokens = []) (h : y.shown = x.shown) :
    y.tokens = [] := by
  obtain ⟨tokens, ending⟩ := x
  obtain rfl : tokens = [] := hx
  obtain ⟨_ | ⟨t, ts⟩, ending'⟩ := y
  · rfl
  · cases ending with
    | error e => cases h
    | ok span =>
      cases h
      exact absurd rfl (hy _ (.head _))

/-- Tokens in front of two streams are shown by both; behind them the streams themselves are. -/
theorem shown_prepend_congr (h : y.shown = x.shown) (ts : List Token) :
    (y.prepend ts).shown = (x.prepend ts).shown := by
  cases ts with
  | nil => exact h
  | cons t ts => rfl

end TokenStream

namespace Parser

/-- A parser **looks ahead** by one token and no more: it takes some tokens, and ends in the same
way with every stream that has these in front and shows the same token after them. -/
def LooksAhead (p : Parser TokenStream α) : Prop :=
  ∀ x : TokenStream, x.Proper → ∃ used, x = (p.run x).2.prepend used ∧
    ∀ y : TokenStream, y.Proper → y.shown = (p.run x).2.shown →
      p.run (y.prepend used) = ((p.run x).1, y)

namespace LooksAhead

/-- To be done at once is to look at nothing. -/
theorem pure (a : α) : LooksAhead (Pure.pure a : Parser TokenStream α) :=
  fun _ _ => ⟨[], rfl, fun _ _ _ => rfl⟩

theorem fail (e : SyntaxError) : LooksAhead (Process.fail e : Parser TokenStream α) :=
  fun _ _ => ⟨[], rfl, fun _ _ _ => rfl⟩

theorem exhaust : LooksAhead (Process.exhaust : Parser TokenStream α) :=
  fun _ _ => ⟨[], rfl, fun _ _ _ => rfl⟩

/-- **Looking** takes nothing. -/
theorem peek : LooksAhead (Parser.peek : Parser TokenStream Token) := by
  have hrun (x : TokenStream) : (Parser.peek : Parser TokenStream Token).run x =
      (Process.ofExcept x.shown).run x := by
    rw [Parser.peek]
    dsimp only
    rw [x.peek_eq]
    cases x.shown <;> rfl
  intro x _
  rw [hrun]
  cases hx : x.shown with
  | ok t =>
    refine ⟨[], rfl, fun y _ h => ?_⟩
    rw [y.prepend_nil, hrun, h.trans hx]
    rfl
  | error e =>
    refine ⟨[], rfl, fun y _ h => ?_⟩
    rw [y.prepend_nil, hrun, h.trans hx]
    rfl

/-- **Dropping** takes one token, and nothing where there is none. -/
theorem skip : LooksAhead (Parser.skip : Parser TokenStream Unit) := by
  rintro ⟨_ | ⟨t, ts⟩, ending⟩ _
  · refine ⟨[], rfl, fun y hy h => ?_⟩
    have hnil := hy.tokens_eq_nil (x := ⟨[], ending⟩) rfl h
    obtain ⟨tokens, ending'⟩ := y
    obtain rfl : tokens = [] := hnil
    rfl
  · exact ⟨[t], rfl, fun y _ _ => rfl⟩

/-- **One parser after another.** What follows the tokens of the first is shown by those of the
second, if it takes any. -/
theorem bind {p : Parser TokenStream α} {f : α → Parser TokenStream β} (hp : LooksAhead p)
    (hf : ∀ a, LooksAhead (f a)) : LooksAhead (p >>= f) := by
  intro x hx
  obtain ⟨used, hused, hagain⟩ := hp x hx
  rcases hrun : p.run x with ⟨a | e | _, x₁⟩ <;> rw [hrun] at hused hagain
  · subst hused
    obtain ⟨hfirst, hx₁⟩ := TokenStream.proper_prepend_iff.1 hx
    obtain ⟨used', hused', hagain'⟩ := hf a x₁ hx₁
    rw [Process.run_bind_done hrun]
    refine ⟨used ++ used', ?_, fun y hy h => ?_⟩
    · rw [TokenStream.prepend_append, ← hused']
    · have hproper : (y.prepend used').Proper := by
        rw [hused'] at hx₁
        exact TokenStream.proper_prepend_iff.2 ⟨(TokenStream.proper_prepend_iff.1 hx₁).1, hy⟩
      have hshown : (y.prepend used').shown = x₁.shown := by
        rw [hused']
        exact TokenStream.shown_prepend_congr h used'
      rw [TokenStream.prepend_append, Process.run_bind_done (hagain _ hproper hshown)]
      exact hagain' y hy h
  · rw [Process.run_bind_failed hrun]
    exact ⟨used, hused, fun y hy h => Process.run_bind_failed (hagain y hy h) f⟩
  · rw [Process.run_bind_exhausted hrun]
    exact ⟨used, hused, fun y hy h => Process.run_bind_exhausted (hagain y hy h) f⟩

/-- A parser whose result is changed afterwards. -/
theorem map {p : Parser TokenStream α} (hp : LooksAhead p) (f : α → β) :
    LooksAhead (p >>= fun a => Pure.pure (f a)) :=
  hp.bind fun a => pure (f a)

variable (symbol : Symbol) (e : Expected)

/-- To compare the next token with a symbol is to look at **that token**. -/
theorem check : LooksAhead (Parser.check symbol : Parser TokenStream Bool) :=
  .map .peek _

/-- To take the next token if it is **some symbol** is to look at that token. -/
theorem accept : LooksAhead (Parser.accept symbol : Parser TokenStream Bool) := by
  refine .bind .peek fun token => ?_
  split
  · exact .bind .skip fun _ => .pure true
  · exact .pure false

/-- To take **some symbol** or be refused is to look at the next token. -/
theorem expect : LooksAhead (Parser.expect symbol e : Parser TokenStream Token) := by
  refine .bind .peek fun token => ?_
  split
  · exact .bind .skip fun _ => .pure token
  · exact .fail _

/-- To take **a name** or be refused is to look at the next token. -/
theorem expectName : LooksAhead (Parser.expectName e : Parser TokenStream Name) := by
  refine .bind .peek fun token => ?_
  split
  · exact .bind .skip fun _ => .pure _
  · exact .fail _

end LooksAhead

/-! ### Expressions -/

/-- The functions of the expression grammar at one depth look ahead by one token. -/
structure ExpressionLooksAhead (d : Nat) : Prop where
  binary : ∀ n, LooksAhead (Parser.binary d n : Parser TokenStream Expr)
  climb : ∀ n left, LooksAhead (Parser.climb d n left : Parser TokenStream Expr)
  unary : LooksAhead (Parser.unary d : Parser TokenStream Expr)
  primary : LooksAhead (Parser.primary d : Parser TokenStream Expr)
  arguments : LooksAhead (Parser.arguments d : Parser TokenStream (List Expr))

namespace ExpressionLooksAhead

variable {d : Nat} (ih : ExpressionLooksAhead d)

include ih

/-- **Further operators** look one token ahead, to see whether there is one more. -/
theorem climb_succ (n : Nat) (left : Expr) :
    LooksAhead (Parser.climb (d + 1) n left : Parser TokenStream Expr) := by
  rw [Parser.climb]
  refine .bind .peek fun token => ?_
  split
  · exact .pure left
  · next op _ =>
    split
    · exact .pure left
    · exact .bind .skip fun _ => (ih.binary _).bind fun right => ih.climb n _

/-- **Operators in front** look one token ahead. -/
theorem unary_succ : LooksAhead (Parser.unary (d + 1) : Parser TokenStream Expr) := by
  rw [Parser.unary]
  refine .bind .peek fun token => ?_
  split
  · exact ih.primary
  · exact .bind .skip fun _ => ih.unary.map _

/-- **Literals, names, calls and groups** look one token ahead: a name does, for a bracket. -/
theorem primary_succ : LooksAhead (Parser.primary (d + 1) : Parser TokenStream Expr) := by
  rw [Parser.primary]
  refine .bind .peek fun token => ?_
  split
  case h_1 | h_2 | h_3 | h_4 => exact .bind .skip fun _ => .pure _
  case h_5 text _ =>
    refine .bind .skip fun _ => .bind (.accept _) fun opened => ?_
    split
    · exact ih.arguments.bind fun args => .map (.expect _ _) _
    · exact .pure _
  case h_6 => exact .bind .skip fun _ => .map (.expectName _) _
  case h_7 => exact .bind .skip fun _ => (ih.binary 0).bind fun inner => .map (.expect _ _) _
  case h_8 => exact .fail _

/-- **Arguments** look one token ahead. -/
theorem arguments_succ :
    LooksAhead (Parser.arguments (d + 1) : Parser TokenStream (List Expr)) := by
  rw [Parser.arguments]
  refine .bind (.check _) fun closed => ?_
  split
  · exact .pure []
  · refine (ih.binary 0).bind fun arg => .bind (.accept _) fun more => ?_
    split
    · exact ih.arguments.map _
    · exact .pure [arg]

end ExpressionLooksAhead

/-- **Expressions** are read with one token of lookahead. -/
theorem expressionLooksAhead (d : Nat) : ExpressionLooksAhead d := by
  induction d with
  | zero => exact ⟨fun _ => .exhaust, fun _ _ => .exhaust, .exhaust, .exhaust, .exhaust⟩
  | succ d ih =>
    refine ⟨fun n => ?_, ih.climb_succ, ih.unary_succ, ih.primary_succ, ih.arguments_succ⟩
    exact ih.unary.bind fun left => ih.climb n left

/-! ### Values and parameters -/

/-- **Values** look one token ahead. -/
theorem values_looksAhead (d : Nat) : LooksAhead (values d : Parser TokenStream (List Expr)) := by
  induction d with
  | zero => exact .exhaust
  | succ d ih =>
    rw [values]
    refine .bind .peek fun token => ?_
    split
    · exact ((expressionLooksAhead d).binary 0).bind fun value => ih.map _
    · exact .pure []

/-- **Declarations** look one token ahead. -/
theorem declaration_looksAhead (d : Nat) (property : Name) :
    LooksAhead (declaration d property : Parser TokenStream Declaration) := by
  have hvalues : LooksAhead (declarationValues d property : Parser TokenStream (List Expr)) := by
    rw [declarationValues]
    split
    · exact ((expressionLooksAhead d).binary 0).map _
    · exact values_looksAhead d
  exact hvalues.bind fun exprs => .map (.expect _ _) _

theorem parameterDefault_looksAhead (d : Nat) :
    LooksAhead (parameterDefault d : Parser TokenStream (Option Expr)) := by
  refine .bind (.accept _) fun assigned => ?_
  split
  · exact ((expressionLooksAhead d).binary 0).map _
  · exact .pure none

/-- **Parameters** look one token ahead. -/
theorem parameters_looksAhead (d : Nat) (rule : Name) (seen : List Parameter) :
    LooksAhead (parameters d rule seen : Parser TokenStream (List Parameter)) := by
  induction d generalizing seen with
  | zero => exact .exhaust
  | succ d ih =>
    rw [parameters]
    refine .bind .peek fun token => ?_
    split
    · refine .bind .skip fun _ => .bind (.expectName _) fun name => ?_
      split
      · exact .fail _
      · exact (parameterDefault_looksAhead d).bind fun e => .bind (.expect _ _) fun close => ih _
    · exact .pure seen

/-- The **expressions** of an at-rule look one token ahead. -/
theorem atRuleParameters_looksAhead (d : Nat) (name : Name) :
    LooksAhead (atRuleParameters d name : Parser TokenStream (List Expr)) := by
  induction d with
  | zero => exact .exhaust
  | succ d ih =>
    rw [atRuleParameters]
    refine .bind .peek fun token => ?_
    split
    · exact .pure []
    · exact .pure []
    · exact .fail _
    · exact ((expressionLooksAhead d).binary 0).bind fun param => ih.map _

/-! ### Statements and rules -/

/-- The functions of the program grammar at one depth look ahead by one token. -/
structure ProgramLooksAhead (d : Nat) : Prop where
  statements : ∀ opening,
    LooksAhead (Parser.statements d opening : Parser TokenStream (List Statement × Span))
  statement : LooksAhead (Parser.statement d : Parser TokenStream Statement)
  atRule : LooksAhead (Parser.atRule d : Parser TokenStream AtRule)
  rule : ∀ name, LooksAhead (Parser.rule d name : Parser TokenStream Rule)

namespace ProgramLooksAhead

variable {d : Nat} (ih : ProgramLooksAhead d)

include ih

/-- **Blocks** look one token ahead. -/
theorem statements_succ (opening : Span) :
    LooksAhead
      (Parser.statements (d + 1) opening : Parser TokenStream (List Statement × Span)) := by
  rw [Parser.statements]
  refine .bind .peek fun token => ?_
  split
  · exact .bind .skip fun _ => .pure _
  · exact .bind .skip fun _ => ih.statements opening
  · exact .fail _
  · exact ih.statement.bind fun first => (ih.statements opening).map _

/-- **Statements** look one token ahead. -/
theorem statement_succ : LooksAhead (Parser.statement (d + 1) : Parser TokenStream Statement) := by
  rw [Parser.statement]
  refine .bind .peek fun token => ?_
  split
  · exact ih.atRule.map _
  · refine .bind .skip fun _ => .bind (.accept _) fun declared => ?_
    split
    · exact (declaration_looksAhead d _).map _
    · exact (ih.rule _).map _
  · exact .fail _

/-- **At-rules** look one token ahead. -/
theorem atRule_succ : LooksAhead (Parser.atRule (d + 1) : Parser TokenStream AtRule) := by
  rw [Parser.atRule]
  refine .bind .peek fun sign => .bind .skip fun _ => .bind (.expectName _) fun name => ?_
  refine (atRuleParameters_looksAhead d name).bind fun params => ?_
  refine .bind .peek fun token => .bind .skip fun _ => ?_
  split
  · exact (ih.statements _).map _
  · exact .pure _

/-- **Rules** look one token ahead. -/
theorem rule_succ (name : Name) :
    LooksAhead (Parser.rule (d + 1) name : Parser TokenStream Rule) := by
  rw [Parser.rule]
  split
  · exact .fail _
  · refine (parameters_looksAhead d name []).bind fun params => .bind .peek fun token => ?_
    dsimp only
    split
    · exact .bind .skip fun _ => (ih.statements _).map _
    · exact .fail _

end ProgramLooksAhead

/-- **Statements and rules** are read with one token of lookahead. -/
theorem programLooksAhead (d : Nat) : ProgramLooksAhead d := by
  induction d with
  | zero => exact ⟨fun _ => .exhaust, .exhaust, .exhaust, fun _ => .exhaust⟩
  | succ d ih => exact ⟨ih.statements_succ, ih.statement_succ, ih.atRule_succ, ih.rule_succ⟩

/-! ### Whole programs -/

/-- **Programs** are read with one token of lookahead. -/
theorem items_looksAhead (d : Nat) : LooksAhead (items d : Parser TokenStream (List Item)) := by
  induction d with
  | zero => exact .exhaust
  | succ d ih =>
    rw [items]
    refine .bind .peek fun token => ?_
    split
    · exact .pure []
    · exact .bind .skip fun _ => ih
    · exact (programLooksAhead d).atRule.bind fun a => ih.map _
    · exact .bind .skip fun _ => ((programLooksAhead d).rule _).bind fun r => ih.map _
    · exact .fail _

/-- A stream that is refused is refused **again**, with the same error, whatever stands behind the
token that was shown. -/
theorem refused_again {d : Nat} {x x' : TokenStream} {e : SyntaxError} (hx : x.Proper)
    (h : (items d).run x = (.failed e, x')) : ∃ used, x = x'.prepend used ∧
      ∀ y : TokenStream, y.Proper → y.shown = x'.shown →
        (items d).run (y.prepend used) = (.failed e, y) := by
  have hlooks := items_looksAhead d x hx
  rwa [h] at hlooks

end Parser

end RuleScript
