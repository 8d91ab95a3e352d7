import RuleScript.Proofs.Ending
import RuleScript.Proofs.Phrase

/-!
# Greed loses no derivation

Values may stand side by side, and then a minus sign or a bracket either goes on with the
value before it or begins the next one. The parser always goes on. It may cut a sequence
of tokens into other values than a given derivation does, but it finds values in
whatever has a derivation.

The reason is that after an operand only its **end** matters. `Row many` are the tokens
from an operand on, of one expression or of several side by side, and `Rest many` are
those after an operand. Both are closed under what the parser does: a sign that began a
value is as good an operator between two (`Rest.front`), and a group after a name is as
good a list of arguments.

* `Parser.expressionGreedy`: from a row of values, every function of the expression
  grammar leaves the rest of one.
* `Parser.values_greedy` and `Parser.atRuleParameters_greedy`: lists of values are read to
  their end.
-/

namespace RuleScript

/-! ### What comes first -/

namespace Phrase

/-- Whether a phrase needs no operator. -/
def isAtom : Phrase → Bool
  | .unary .. => false
  | .binary .. => false
  | _ => true

/-- The **front** of a phrase: an operator with one operand, or else an operand that needs
none, with nothing after it or with an operator between two operands. -/
theorem front (p : Phrase) :
    (∃ (op : UnaryOp) (q : Phrase), p.kinds = .symbol op.symbol :: q.kinds) ∨
    ∃ a : Phrase, a.isAtom = true ∧ (p.kinds = a.kinds ∨
      ∃ (op : BinaryOp) (q : Phrase), p.kinds = a.kinds ++ .symbol op.symbol :: q.kinds) := by
  cases p with
  | literal | bare | deref | call | group => exact .inr ⟨_, rfl, .inl rfl⟩
  | unary op operand => exact .inl ⟨op, operand, rfl⟩
  | binary op left right =>
    -- whatever the left operand begins with, the right one goes to its end
    obtain ⟨u, q, hleft⟩ | ⟨a, ha, hleft | ⟨o, q, hleft⟩⟩ := left.front
    · exact .inl ⟨u, .binary op q right, by rw [kinds, hleft, kinds]; rfl⟩
    · exact .inr ⟨a, ha, .inr ⟨op, right, by rw [kinds, hleft]⟩⟩
    · refine .inr ⟨a, ha, .inr ⟨o, .binary op q right, ?_⟩⟩
      rw [kinds, hleft, kinds, List.append_assoc, List.cons_append]

end Phrase

/-- The tokens of an expression, or of **several** side by side. -/
def Row (many : Bool) (ks : List TokenKind) : Prop :=
  ∃ p ps, ks = Phrase.kindsAll (p :: ps) ∧ (many = false → ps = [])

/-- The tokens **after** an operand: none, an operator with what follows it, or the next
value where there may be several. -/
def Rest (many : Bool) (ks : List TokenKind) : Prop :=
  ks = [] ∨
    (∃ (op : BinaryOp) (ks' : List TokenKind), ks = .symbol op.symbol :: ks' ∧ Row many ks') ∨
    (many = true ∧ Row many ks)

/-- A phrase stands **alone** in a row. -/
theorem Phrase.row (p : Phrase) : Row false p.kinds := ⟨p, [], by simp, fun _ => rfl⟩

theorem row_kindsAll (p : Phrase) (ps : List Phrase) : Row true (Phrase.kindsAll (p :: ps)) :=
  ⟨p, ps, rfl, nofun⟩

theorem rest_kindsAll (ps : List Phrase) : Rest true (Phrase.kindsAll ps) := by
  cases ps with
  | nil => exact .inl rfl
  | cons p ps => exact .inr (.inr ⟨rfl, row_kindsAll p ps⟩)

/-- A row begins with **an operator in front** of it, or with an operand that is no operation. -/
theorem Row.front {many : Bool} {ks : List TokenKind} (h : Row many ks) :
    (∃ (op : UnaryOp) (ks' : List TokenKind), ks = .symbol op.symbol :: ks' ∧ Row many ks') ∨
    ∃ (a : Phrase) (ks' : List TokenKind), a.isAtom = true ∧ ks = a.kinds ++ ks' ∧
      Rest many ks' := by
  obtain ⟨p, ps, rfl, hps⟩ := h
  obtain ⟨op, q, hp⟩ | ⟨a, ha, hp | ⟨op, q, hp⟩⟩ := p.front <;> rw [Phrase.kindsAll_cons, hp]
  · exact .inl ⟨op, _, List.cons_append, q, ps, rfl, hps⟩
  · refine .inr ⟨a, Phrase.kindsAll ps, ha, rfl, ?_⟩
    cases many with
    | true => exact rest_kindsAll ps
    | false =>
      rw [hps rfl]
      exact .inl rfl
  · refine .inr ⟨a, .symbol op.symbol :: Phrase.kindsAll (q :: ps), ha, ?_, ?_⟩
    · rw [Phrase.kindsAll_cons, List.append_assoc, List.cons_append]
    · exact .inr (.inl ⟨op, _, rfl, q, ps, rfl, hps⟩)

open TokenStream (first Shows)

/-- A value comes first in every phrase. -/
theorem Phrase.startsValue_first (p : Phrase) (ks : List TokenKind) :
    Parser.startsValue (TokenStream.first (p.kinds ++ ks)) = true := by
  obtain ⟨k, ks', hp, hk⟩ := p.exists_kinds_eq_cons
  rw [hp]
  exact hk

/-- No operator comes first in what needs none. -/
theorem Phrase.first_atom {a : Phrase} (h : a.isAtom = true) (ks : List TokenKind) :
    BinaryOp.ofKind? (TokenStream.first (a.kinds ++ ks)) = none ∧
      UnaryOp.ofKind? (TokenStream.first (a.kinds ++ ks)) = none := by
  cases a with
  | literal value => cases value <;> exact ⟨rfl, rfl⟩
  | bare | deref | call | group => exact ⟨rfl, rfl⟩
  | unary | binary => cases h

/-- A sign that begins a value is as good an **operator** between two. -/
theorem Rest.front {many : Bool} {ks : List TokenKind} (h : Rest many ks) :
    ks = [] ∨
    (∃ (op : BinaryOp) (ks' : List TokenKind), ks = .symbol op.symbol :: ks' ∧ Row many ks') ∨
    (many = true ∧ Row many ks ∧ ∀ rest, BinaryOp.ofKind? (first (ks ++ rest)) = none) := by
  obtain rfl | hop | ⟨hmany, hrow⟩ := h
  · exact .inl rfl
  · exact .inr (.inl hop)
  · obtain ⟨op, ks', rfl, hrow'⟩ | ⟨a, ks', ha, rfl, -⟩ := hrow.front
    · cases op with
      | plus => exact .inr (.inl ⟨.add, ks', rfl, hrow'⟩)
      | neg => exact .inr (.inl ⟨.sub, ks', rfl, hrow'⟩)
      | not => exact .inr (.inr ⟨hmany, hrow, fun _ => rfl⟩)
    · refine .inr (.inr ⟨hmany, hrow, fun rest => ?_⟩)
      rw [List.append_assoc]
      exact (Phrase.first_atom ha _).1

/-- A bracket in the rest of a row opens a **group**. -/
theorem Rest.group {many : Bool} {ks : List TokenKind} (h : Rest many ks) {tail : List TokenKind}
    (hopen : ks = .symbol .openParen :: tail) :
    ∃ (inner : Phrase) (ks' : List TokenKind),
      tail = inner.kinds ++ .symbol .closeParen :: ks' ∧ Rest many ks' := by
  obtain rfl | ⟨op, ks', rfl, -⟩ | ⟨-, hrow⟩ := h
  · cases hopen
  · cases op <;> cases hopen
  · obtain ⟨op, ks', rfl, -⟩ | ⟨a, ks', ha, rfl, hrest⟩ := hrow.front
    · cases op <;> cases hopen
    · cases a with
      | group inner =>
        refine ⟨inner, ks', ?_, hrest⟩
        simpa [Phrase.kinds] using (List.cons.inj hopen).2.symm
      | literal value => cases value <;> cases hopen
      | bare | deref | call => cases hopen
      | unary | binary => cases ha

/-- Tokens that **close** what stands before them: no value and no operator comes next. -/
structure Closes (rest : List TokenKind) : Prop where
  value : Parser.startsValue (first rest) = false
  operator : BinaryOp.ofKind? (first rest) = none

/-! ### Expressions -/

namespace Parser

/-- What is left of a row of values, with no operator of the level or a higher one next. -/
def Leaves (n : Nat) (many : Bool) (rest : List TokenKind) (x' : TokenStream) : Prop :=
  ∃ ks', Rest many ks' ∧ x'.Shows (ks' ++ rest) ∧
    ∀ op, BinaryOp.ofKind? (first (ks' ++ rest)) = some op → op.level < n

/-- The expression grammar at one depth reads from a row of values and is not refused. -/
structure ExpressionGreedy (d : Nat) : Prop where
  binary : ∀ {n many ks rest} {x : TokenStream}, Row many ks → Closes rest →
    x.Shows (ks ++ rest) → Ends False (Parser.binary d n) x fun _ => Leaves n many rest
  climb : ∀ {n left many ks rest} {x : TokenStream}, Rest many ks → Closes rest →
    x.Shows (ks ++ rest) → Ends False (Parser.climb d n left) x fun _ => Leaves n many rest
  unary : ∀ {many ks rest} {x : TokenStream}, Row many ks → Closes rest → x.Shows (ks ++ rest) →
    Ends False (Parser.unary d) x fun _ x' => ∃ ks', Rest many ks' ∧ x'.Shows (ks' ++ rest)
  primary : ∀ {a : Phrase} {many ks rest} {x : TokenStream}, a.isAtom = true → Rest many ks →
    Closes rest → x.Shows (a.kinds ++ (ks ++ rest)) →
    Ends False (Parser.primary d) x fun _ x' => ∃ ks', Rest many ks' ∧ x'.Shows (ks' ++ rest)
  arguments : ∀ {args : Arguments} {rest} {x : TokenStream},
    x.Shows (args.kinds ++ .symbol .closeParen :: rest) →
    Ends False (Parser.arguments d) x fun _ x' => x'.Shows (.symbol .closeParen :: rest)

theorem Leaves.nothing {rest : List TokenKind} {x : TokenStream} (h : Leaves 0 false rest x) :
    x.Shows rest := by
  obtain ⟨ks', hrest, hshows, hlevel⟩ := h
  obtain rfl | ⟨op, ks'', rfl, -⟩ | ⟨hmany, -⟩ := hrest
  · exact hshows
  · exact absurd (hlevel op (BinaryOp.ofKind?_symbol op)) (Nat.not_lt_zero _)
  · cases hmany

/-- Some symbols **close** what stands before them. -/
theorem closes_symbol {symbol : Symbol} (h : symbol = .closeParen ∨ symbol = .comma ∨
    symbol = .closeBracket ∨ symbol = .semicolon ∨ symbol = .openBrace) (rest : List TokenKind) :
    Closes (.symbol symbol :: rest) := by
  obtain rfl | rfl | rfl | rfl | rfl := h <;> exact ⟨rfl, rfl⟩

namespace ExpressionGreedy

variable {d : Nat} (ih : ExpressionGreedy d) {x : TokenStream} {many : Bool}
variable {ks rest : List TokenKind}

include ih

/-- **One expression** is read to its end. -/
theorem whole {p : Phrase} (hrest : Closes rest) (h : x.Shows (p.kinds ++ rest)) :
    Ends False (Parser.binary d 0) x fun _ x' => x'.Shows rest :=
  (ih.binary p.row hrest h).mono fun _ _ h => h.nothing

/-- **Operands and operators** are taken as long as there are any. -/
theorem binary_succ {n : Nat} (hrow : Row many ks) (hrest : Closes rest)
    (h : x.Shows (ks ++ rest)) :
    Ends False (Parser.binary (d + 1) n) x fun _ => Leaves n many rest := by
  rw [Parser.binary]
  refine .bind (ih.unary hrow hrest h) ?_
  rintro left x₁ ⟨ks', hks', h₁⟩
  exact ih.climb hks' hrest h₁

/-- **Further operators** are taken as long as they bind tightly enough. -/
theorem climb_succ {n : Nat} {left : Expr} (hks : Rest many ks) (hrest : Closes rest)
    (h : x.Shows (ks ++ rest)) :
    Ends False (Parser.climb (d + 1) n left) x fun _ => Leaves n many rest := by
  rw [Parser.climb]
  refine .look_bind h fun t ht => ?_
  rw [ht]
  obtain rfl | ⟨op, ks', rfl, hrow⟩ | ⟨hmany, hrow, hop⟩ := hks.front
  · have hop : BinaryOp.ofKind? (first ([] ++ rest)) = none := hrest.operator
    rw [hop]
    exact .pure ⟨[], hks, h, by rw [hop]; simp⟩
  · have hop : BinaryOp.ofKind? (first (.symbol op.symbol :: ks' ++ rest)) = some op :=
      BinaryOp.ofKind?_symbol op
    rw [hop]
    dsimp only
    split
    · next hlt =>
      refine .pure ⟨_, hks, h, fun o ho => ?_⟩
      rw [hop] at ho
      rwa [← Option.some.inj ho]
    · refine .drop_bind h fun x₁ h₁ => .bind (ih.binary hrow hrest h₁) ?_
      rintro right x₂ ⟨ks₂, hks₂, h₂, -⟩
      exact ih.climb hks₂ hrest h₂
  · rw [hop rest]
    exact .pure ⟨ks, hks, h, by rw [hop rest]; simp⟩

/-- **Operators in front** are taken with their operand. -/
theorem unary_succ (hrow : Row many ks) (hrest : Closes rest) (h : x.Shows (ks ++ rest)) :
    Ends False (Parser.unary (d + 1)) x fun _ x' =>
      ∃ ks', Rest many ks' ∧ x'.Shows (ks' ++ rest) := by
  rw [Parser.unary]
  refine .look_bind h fun t ht => ?_
  rw [ht]
  obtain ⟨op, ks', rfl, hrow'⟩ | ⟨a, ks', ha, rfl, hks'⟩ := hrow.front
  · have hop : UnaryOp.ofKind? (first (.symbol op.symbol :: ks' ++ rest)) = some op := by
      cases op <;> rfl
    rw [hop]
    refine .drop_bind h fun x₁ h₁ => .bind (ih.unary hrow' hrest h₁) ?_
    intro operand x₂ hleft
    exact .pure hleft
  · rw [List.append_assoc] at h ⊢
    rw [(Phrase.first_atom ha _).2]
    exact ih.primary ha hks' hrest h

/-- A name with a bracket after it is read as a **call**, whether it was one or not. -/
theorem bracket {text : String} {span : Span} (args : Arguments) (hks : Rest many ks)
    (h : x.Shows (args.kinds ++ .symbol .closeParen :: (ks ++ rest))) :
    Ends False (do
      let es ← Parser.arguments d
      let close ← Parser.expect .closeParen (.callEnd text)
      return .call ⟨text, span⟩ es (span.union close.span) : Parser TokenStream Expr) x
      fun _ x' => ∃ ks', Rest many ks' ∧ x'.Shows (ks' ++ rest) := by
  refine .bind (ih.arguments h) fun es x₁ h₁ => ?_
  exact .expected_bind h₁ fun close x₂ h₂ => .pure ⟨ks, hks, h₂⟩

/-- **Literals, names, calls and groups** are taken whole. -/
theorem primary_succ {a : Phrase} (ha : a.isAtom = true) (hks : Rest many ks)
    (hrest : Closes rest) (h : x.Shows (a.kinds ++ (ks ++ rest))) :
    Ends False (Parser.primary (d + 1)) x fun _ x' =>
      ∃ ks', Rest many ks' ∧ x'.Shows (ks' ++ rest) := by
  rw [Parser.primary]
  refine .look_bind h fun t ht => ?_
  rw [ht]
  cases a with
  | literal value => cases value <;> exact .drop_bind h fun x₁ h₁ => .pure ⟨ks, hks, h₁⟩
  | deref name =>
    refine .drop_bind h fun x₁ h₁ => ?_
    exact .expectedName_bind h₁ fun n x₂ _ h₂ => .pure ⟨ks, hks, h₂⟩
  | group inner =>
    simp only [Phrase.kinds, List.cons_append, List.append_assoc, List.nil_append] at h
    refine .drop_bind h fun x₁ h₁ => ?_
    refine .bind (ih.whole (closes_symbol (.inl rfl) _) h₁) fun e x₂ h₂ => ?_
    exact .expected_bind h₂ fun close x₃ h₃ => .pure ⟨ks, hks, h₃⟩
  | call callee args =>
    simp only [Phrase.kinds, List.cons_append, List.append_assoc, List.nil_append] at h
    refine .drop_bind h fun x₁ h₁ => .accepted_bind h₁ fun x₂ h₂ => ?_
    exact ih.bracket args hks h₂
  | bare name =>
    refine .drop_bind h fun x₁ h₁ => ?_
    by_cases hopen : first (ks ++ rest) = .symbol .openParen
    · -- the group after the name is taken for its arguments
      cases ks with
      | nil =>
        have hvalue := hrest.value
        rw [show first rest = .symbol .openParen from hopen] at hvalue
        cases hvalue
      | cons k ks =>
        obtain rfl : k = .symbol .openParen := hopen
        obtain ⟨inner, ks', rfl, hks'⟩ := hks.group rfl
        simp only [List.cons_append, List.append_assoc] at h₁
        refine .accepted_bind h₁ fun x₂ h₂ => ?_
        exact ih.bracket (.last inner) hks' h₂
    · exact .passed_bind h₁ hopen (.pure ⟨ks, hks, h₁⟩)
  | unary | binary => cases ha

/-- **Arguments** are taken up to their bracket. -/
theorem arguments_succ {args : Arguments}
    (h : x.Shows (args.kinds ++ .symbol .closeParen :: rest)) :
    Ends False (Parser.arguments (d + 1)) x fun _ x' =>
      x'.Shows (.symbol .closeParen :: rest) := by
  rw [Parser.arguments]
  refine .check_bind h ?_
  have harg : ∀ (p : Phrase) (ks : List TokenKind),
      (first (p.kinds ++ ks)).isSymbol .closeParen = false := by
    intro p ks
    have hvalue := p.startsValue_first ks
    rw [Bool.eq_false_iff]
    intro hclose
    rw [TokenKind.isSymbol_iff.1 hclose] at hvalue
    cases hvalue
  cases args with
  | empty => exact .pure h
  | last arg =>
    rw [Arguments.kinds] at h ⊢
    rw [harg]
    refine .bind (ih.whole (closes_symbol (.inl rfl) _) h) fun e x₁ h₁ => ?_
    exact .passed_bind h₁ (by simp) (.pure h₁)
  | more arg others =>
    rw [Arguments.kinds, List.append_assoc] at h ⊢
    rw [harg]
    refine .bind (ih.whole (closes_symbol (.inr (.inl rfl)) _) h) fun e x₁ h₁ => ?_
    refine .accepted_bind h₁ fun x₂ h₂ => .bind (ih.arguments h₂) fun es x₃ h₃ => ?_
    exact .pure h₃

end ExpressionGreedy

/-- **Expressions** are read from whatever has a derivation. -/
theorem expressionGreedy (d : Nat) : ExpressionGreedy d := by
  induction d with
  | zero => constructor <;> intros <;> exact .exhaust
  | succ d ih =>
    exact ⟨ih.binary_succ, ih.climb_succ, ih.unary_succ, ih.primary_succ, ih.arguments_succ⟩

/-! ### Values side by side -/

/-- What is left of values side by side is **values** again. -/
theorem Leaves.values {rest : List TokenKind} {x : TokenStream} (h : Leaves 0 true rest x) :
    ∃ ps, x.Shows (Phrase.kindsAll ps ++ rest) := by
  obtain ⟨ks', hrest, hshows, hlevel⟩ := h
  obtain rfl | ⟨op, ks'', rfl, -⟩ | ⟨-, p, ps, rfl, -⟩ := hrest
  · exact ⟨[], hshows⟩
  · exact absurd (hlevel op (BinaryOp.ofKind?_symbol op)) (Nat.not_lt_zero _)
  · exact ⟨p :: ps, hshows⟩

/-- Of values side by side the parser leaves **none**. -/
theorem values_greedy (d : Nat) {ps : List Phrase} {rest : List TokenKind} {x : TokenStream}
    (hrest : Closes rest) (h : x.Shows (Phrase.kindsAll ps ++ rest)) :
    Ends False (values d) x fun _ x' => x'.Shows rest := by
  induction d generalizing ps x with
  | zero => exact .exhaust
  | succ d ih =>
    rw [values]
    refine .look_bind h fun t ht => ?_
    rw [ht]
    cases ps with
    | nil =>
      rw [if_neg (by rw [Phrase.kindsAll_nil, List.nil_append, hrest.value]; simp)]
      exact .pure h
    | cons p ps =>
      rw [if_pos (by rw [Phrase.kindsAll_cons, List.append_assoc, Phrase.startsValue_first])]
      refine .bind ((expressionGreedy d).binary (row_kindsAll p ps) hrest h) ?_
      intro value x₁ hleft
      obtain ⟨ps', h₁⟩ := hleft.values
      exact .bind (ih h₁) fun more x₂ h₂ => .pure h₂

/-- Before the block or end of an at-rule the parser leaves no value. -/
theorem atRuleParameters_greedy (d : Nat) (name : Name) {ps : List Phrase} {symbol : Symbol}
    {rest : List TokenKind} {x : TokenStream} (hsymbol : symbol = .semicolon ∨ symbol = .openBrace)
    (h : x.Shows (Phrase.kindsAll ps ++ .symbol symbol :: rest)) :
    Ends False (atRuleParameters d name) x fun _ x' => x'.Shows (.symbol symbol :: rest) := by
  have hrest : Closes (.symbol symbol :: rest) := by
    obtain rfl | rfl := hsymbol <;> exact ⟨rfl, rfl⟩
  induction d generalizing ps x with
  | zero => exact .exhaust
  | succ d ih =>
    rw [atRuleParameters]
    refine .look_bind h fun t ht => ?_
    rw [ht]
    cases ps with
    | nil => obtain rfl | rfl := hsymbol <;> exact .pure h
    | cons p ps =>
      have hvalue :
          startsValue (first (Phrase.kindsAll (p :: ps) ++ .symbol symbol :: rest)) = true := by
        rw [Phrase.kindsAll_cons, List.append_assoc, p.startsValue_first]
      split
      case h_4 =>
        refine .bind ((expressionGreedy d).binary (row_kindsAll p ps) hrest h) ?_
        intro value x₁ hleft
        obtain ⟨ps', h₁⟩ := hleft.values
        exact .bind (ih h₁) fun more x₂ h₂ => .pure h₂
      all_goals
        rename_i hk
        rw [hk] at hvalue
        cases hvalue

end Parser

end RuleScript
