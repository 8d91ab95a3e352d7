import RuleScript.Parser.Program
import RuleScript.Proofs.View

/-!
# Expressions as they are written

The tree of an expression forgets the brackets it was written with. A `Phrase` keeps
them: it is a derivation of the grammar of expressions, in which any two expressions
may stand around an operator. `Phrase.kinds` are the tokens it derives and
`Phrase.tree` is the expression it stands for, which has no spans.

One sequence of tokens has many derivations. Levels single out one of them:

* `Phrase.Grouped`: next to an operator stand only operands that bind tightly enough,
  unless they are bracketed.
* `Stratum`: the same phrases by a grammar with a rule for each level.
  `Phrase.stratum_iff` says that these are the grouped phrases.
-/

namespace RuleScript

/-- The token a literal is written as. -/
def Literal.kind : Literal → TokenKind
  | .bool value => .bool value
  | .int value => .int value
  | .float value => .float value
  | .string text => .string text

theorem Literal.kind_ne_eof (l : Literal) : l.kind ≠ .eof := by
  cases l <;> exact nofun

/-- A literal is **known by its token**. -/
theorem Literal.kind_inj {l m : Literal} (h : l.kind = m.kind) : l = m := by
  cases l <;> cases m <;> cases h <;> rfl

theorem Literal.kind_ne_name (l : Literal) (text : String) : l.kind ≠ .name text := by
  cases l <;> exact nofun

theorem Literal.kind_ne_symbol (l : Literal) (s : Symbol) : l.kind ≠ .symbol s := by
  cases l <;> exact nofun

mutual

/-- An expression as it is **written**. -/
inductive Phrase where
  /-- a value written out -/
  | literal (value : Literal)
  /-- a name by itself -/
  | bare (name : String)
  /-- a dollar sign and a name -/
  | deref (name : String)
  /-- a name and arguments in brackets -/
  | call (callee : String) (args : Arguments)
  /-- an expression in brackets -/
  | group (inner : Phrase)
  /-- an operator and its operand -/
  | unary (op : UnaryOp) (operand : Phrase)
  /-- an operator between its operands -/
  | binary (op : BinaryOp) (left right : Phrase)

/-- The arguments of a call as they are written. A comma may follow the last one. -/
inductive Arguments where
  /-- nothing at all -/
  | empty
  /-- an argument with no comma after it -/
  | last (arg : Phrase)
  /-- an argument, a comma, and what follows it -/
  | more (arg : Phrase) (others : Arguments)

end

mutual

/-- The tokens of a phrase. -/
def Phrase.kinds : Phrase → List TokenKind
  | .literal value => [value.kind]
  | .bare name => [.name name]
  | .deref name => [.symbol .dollar, .name name]
  | .call callee args =>
    .name callee :: .symbol .openParen :: (args.kinds ++ [.symbol .closeParen])
  | .group inner => .symbol .openParen :: (inner.kinds ++ [.symbol .closeParen])
  | .unary op operand => .symbol op.symbol :: operand.kinds
  | .binary op left right => left.kinds ++ .symbol op.symbol :: right.kinds

/-- The tokens of the arguments of a call. -/
def Arguments.kinds : Arguments → List TokenKind
  | .empty => []
  | .last arg => arg.kinds
  | .more arg others => arg.kinds ++ .symbol .comma :: others.kinds

end

/-- The tokens of phrases side by side. -/
def Phrase.kindsAll (ps : List Phrase) : List TokenKind := ps.flatMap Phrase.kinds

@[simp]
theorem Phrase.kindsAll_nil : kindsAll [] = [] := rfl

@[simp]
theorem Phrase.kindsAll_cons (p : Phrase) (ps : List Phrase) :
    kindsAll (p :: ps) = p.kinds ++ kindsAll ps := rfl

/-- A phrase begins with a token that **starts a value**. -/
theorem Phrase.exists_kinds_eq_cons (p : Phrase) :
    ∃ k ks, p.kinds = k :: ks ∧ Parser.startsValue k = true := by
  match p with
  | .literal value => exact ⟨value.kind, [], rfl, by cases value <;> rfl⟩
  | .bare _ | .deref _ | .call .. | .group _ => exact ⟨_, _, rfl, rfl⟩
  | .unary op operand => exact ⟨.symbol op.symbol, operand.kinds, rfl, by cases op <;> rfl⟩
  | .binary op left right =>
    obtain ⟨k, ks, hleft, hk⟩ := left.exists_kinds_eq_cons
    exact ⟨k, ks ++ .symbol op.symbol :: right.kinds, by rw [Phrase.kinds, hleft]; rfl, hk⟩

mutual

/-- The expression that a phrase stands for, without spans. -/
def Phrase.tree : Phrase → Expr
  | .literal value => .literal value default
  | .bare name => .bare ⟨name, default⟩
  | .deref name => .deref ⟨name, default⟩ default
  | .call callee args => .call ⟨callee, default⟩ args.trees default
  | .group inner => inner.tree
  | .unary op operand => .unary op operand.tree default
  | .binary op left right => .binary op left.tree right.tree default

/-- The expressions that the arguments of a call stand for. -/
def Arguments.trees : Arguments → List Expr
  | .empty => []
  | .last arg => [arg.tree]
  | .more arg others => arg.tree :: others.trees

end

/-! ### Levels -/

/-- An operator in front is **known by its symbol**. -/
theorem UnaryOp.symbol_inj {op o : UnaryOp} (h : op.symbol = o.symbol) : op = o := by
  cases op <;> cases o <;> cases h <;> rfl

namespace BinaryOp

/-- The least level of what may stand unbracketed to the left of an operator: the
power operator takes no operator there. -/
def leftLevel : BinaryOp → Nat
  | .pow => 8
  | op => op.level

/-- An operator between operands is **known by its symbol**. -/
theorem symbol_inj {op o : BinaryOp} (h : op.symbol = o.symbol) : op = o := by
  have hkind := ofKind?_symbol op
  rw [h, ofKind?_symbol] at hkind
  exact (Option.some.inj hkind).symm

theorem level_le (op : BinaryOp) : op.level ≤ 7 := by cases op <;> decide

theorem one_le_level (op : BinaryOp) : 1 ≤ op.level := by cases op <;> decide

/-- A left operand binds **at least as tightly** as the operator. -/
theorem level_le_leftLevel (op : BinaryOp) : op.level ≤ op.leftLevel := by cases op <;> decide

/-- A right operand binds **at least as tightly** as the operator. -/
theorem level_le_rightLevel (op : BinaryOp) : op.level ≤ op.rightLevel := by cases op <;> decide

/-- To the left the operator itself may stand again, unless it is a power: all others **group to the
left**. -/
theorem leftLevel_of_ne {op : BinaryOp} (h : op ≠ .pow) : op.leftLevel = op.level := by
  cases op
  case pow => exact absurd rfl h
  all_goals rfl

/-- To the right only what binds **more tightly** may stand, unless it is a power. -/
theorem rightLevel_of_ne {op : BinaryOp} (h : op ≠ .pow) : op.rightLevel = op.level + 1 := by
  cases op
  case pow => exact absurd rfl h
  all_goals rfl

theorem leftLevel_le (op : BinaryOp) : op.leftLevel ≤ 8 := by cases op <;> decide

theorem rightLevel_le (op : BinaryOp) : op.rightLevel ≤ 8 := by cases op <;> decide

/-- Where the right operand of an operator is over, an operator may follow that takes
what was read as its **left** operand, and no other. -/
theorem leftLevel_le_iff (op next : BinaryOp) :
    next.leftLevel ≤ op.level ↔ next.level < op.rightLevel := by
  cases op <;> cases next <;> decide

end BinaryOp

namespace Phrase

/-- The operator that holds a phrase together, unless it stands in brackets. -/
def outer? : Phrase → Option BinaryOp
  | .binary op _ _ => some op
  | _ => none

/-- How tightly a phrase binds: as its outer operator, and tighter than all of them if
it has none. -/
def rank (p : Phrase) : Nat :=
  match p.outer? with
  | some op => op.level
  | none => 8

/-- What has no operator outside of it binds **most tightly**. -/
theorem rank_of_outer {p : Phrase} (h : p.outer? = none) : p.rank = 8 := by rw [rank, h]

theorem one_le_rank (p : Phrase) : 1 ≤ p.rank := by
  rw [rank]
  split
  · exact BinaryOp.one_le_level _
  · decide

end Phrase

mutual

/-- Every operator of a phrase has operands that bind **tightly enough**. What stands
unbracketed to its left has an outer operator of no lower level, and to its right one
of a higher level; for the power operator it is the other way round. Behind an operator
with one operand no other operator stands unbracketed. -/
def Phrase.Grouped : Phrase → Prop
  | .literal _ => True
  | .bare _ => True
  | .deref _ => True
  | .call _ args => args.Grouped
  | .group inner => inner.Grouped
  | .unary _ operand => operand.outer? = none ∧ operand.Grouped
  | .binary op left right =>
    (∀ o ∈ left.outer?, if op = .pow then op.level < o.level else op.level ≤ o.level) ∧
    (∀ o ∈ right.outer?, if op = .pow then op.level ≤ o.level else op.level < o.level) ∧
    left.Grouped ∧ right.Grouped

/-- Every operator of the arguments has operands that bind tightly enough. -/
def Arguments.Grouped : Arguments → Prop
  | .empty => True
  | .last arg => arg.Grouped
  | .more arg others => arg.Grouped ∧ others.Grouped

end

namespace Phrase

variable {op : BinaryOp} {p left right : Phrase}

/-- What may stand **to the left** of an operator, by the operator outside of it. -/
theorem left_rank_iff :
    op.leftLevel ≤ p.rank ↔
      ∀ o ∈ p.outer?, if op = .pow then op.level < o.level else op.level ≤ o.level := by
  rw [rank]
  cases p.outer? with
  | none => simpa using op.leftLevel_le
  | some o => cases op <;> cases o <;> decide

/-- What may stand **to the right** of an operator, by the operator outside of it. -/
theorem right_rank_iff :
    op.rightLevel ≤ p.rank ↔
      ∀ o ∈ p.outer?, if op = .pow then op.level ≤ o.level else op.level < o.level := by
  rw [rank]
  cases p.outer? with
  | none => simpa using op.rightLevel_le
  | some o => cases op <;> cases o <;> decide

/-- What it takes for two operands to be put around an operator. -/
theorem grouped_binary_iff :
    (binary op left right).Grouped ↔
      op.leftLevel ≤ left.rank ∧ op.rightLevel ≤ right.rank ∧ left.Grouped ∧ right.Grouped := by
  rw [Grouped, left_rank_iff, right_rank_iff]

end Phrase

/-! ### A grammar with a rule for each level -/

/-- The arguments of a call in order. -/
def Arguments.toList : Arguments → List Phrase
  | .empty => []
  | .last arg => [arg]
  | .more arg others => arg :: others.toList

/-- The **stratified** grammar. The operators of a level from one to six group to the
left, those of level seven to the right, and operators with one operand make up the
last level together with what needs no operator. -/
inductive Stratum : Nat → Phrase → Prop
  /-- what binds tighter may stand wherever less is asked for -/
  | tighter {n : Nat} {p : Phrase} (h : Stratum (n + 1) p) : Stratum n p
  /-- an operator that groups to the left -/
  | leftward {op : BinaryOp} {left right : Phrase} (hop : op ≠ .pow)
    (hleft : Stratum op.level left) (hright : Stratum (op.level + 1) right) :
    Stratum op.level (.binary op left right)
  /-- the operator that groups to the right -/
  | rightward {left right : Phrase} (hleft : Stratum 8 left) (hright : Stratum 7 right) :
    Stratum 7 (.binary .pow left right)
  /-- an operator in front of its operand -/
  | signed {op : UnaryOp} {operand : Phrase} (h : Stratum 8 operand) :
    Stratum 8 (.unary op operand)
  | literal (value : Literal) : Stratum 8 (.literal value)
  | bare (name : String) : Stratum 8 (.bare name)
  | deref (name : String) : Stratum 8 (.deref name)
  /-- in brackets all levels are open again -/
  | call {callee : String} {args : Arguments} (h : ∀ p ∈ args.toList, Stratum 1 p) :
    Stratum 8 (.call callee args)
  | group {inner : Phrase} (h : Stratum 1 inner) : Stratum 8 (.group inner)

/-- Arguments are grouped if **each of them** is. -/
theorem Arguments.grouped_iff (args : Arguments) :
    args.Grouped ↔ ∀ p ∈ args.toList, p.Grouped := by
  match args with
  | .empty => simp [Grouped, toList]
  | .last arg => simp [Grouped, toList]
  | .more arg others => simp [Grouped, toList, others.grouped_iff]

namespace Stratum

/-- What is derived at a level is **grouped**, and binds at least as tightly as the level says. -/
theorem grouped {n : Nat} {p : Phrase} (h : Stratum n p) : p.Grouped ∧ n ≤ p.rank := by
  induction h with
  | tighter _ ih => exact ⟨ih.1, Nat.le_of_succ_le ih.2⟩
  | @leftward op left right hop _ _ ihleft ihright =>
    refine ⟨Phrase.grouped_binary_iff.2 ⟨?_, ?_, ihleft.1, ihright.1⟩, Nat.le_refl _⟩
    · rw [BinaryOp.leftLevel_of_ne hop]
      exact ihleft.2
    · rw [BinaryOp.rightLevel_of_ne hop]
      exact ihright.2
  | rightward _ _ ihleft ihright =>
    exact ⟨Phrase.grouped_binary_iff.2 ⟨ihleft.2, ihright.2, ihleft.1, ihright.1⟩, Nat.le_refl _⟩
  | @signed op operand _ ih =>
    have houter : operand.outer? = none := by
      cases ho : operand.outer? with
      | none => rfl
      | some o =>
        have hrank : 8 ≤ operand.rank := ih.2
        rw [Phrase.rank, ho] at hrank
        exact absurd o.level_le (Nat.not_le.2 hrank)
    exact ⟨⟨houter, ih.1⟩, Nat.le_refl _⟩
  | literal | bare | deref => exact ⟨trivial, Nat.le_refl _⟩
  | call _ ih =>
    refine ⟨?_, Nat.le_refl _⟩
    exact (Arguments.grouped_iff _).2 fun p hp => (ih p hp).1
  | group _ ih => exact ⟨ih.1, Nat.le_refl _⟩

/-- What is derived at a level is derived at **every lower one**. -/
theorem of_le {m n : Nat} {p : Phrase} (h : Stratum n p) (hmn : m ≤ n) : Stratum m p := by
  induction hmn with
  | refl => exact h
  | step _ ih => exact ih h.tighter

end Stratum

mutual

/-- What is grouped is derived at the level **of its own**. -/
theorem Phrase.stratum_rank (p : Phrase) (h : p.Grouped) : Stratum p.rank p := by
  match p with
  | .literal value => exact .literal value
  | .bare name => exact .bare name
  | .deref name => exact .deref name
  | .call callee args => exact .call (args.stratum_one h)
  | .group inner => exact .group ((inner.stratum_rank h).of_le inner.one_le_rank)
  | .unary op operand =>
    obtain ⟨houter, hoperand⟩ := h
    have := operand.stratum_rank hoperand
    rw [Phrase.rank_of_outer houter] at this
    exact .signed this
  | .binary op left right =>
    obtain ⟨hl, hr, hleft, hright⟩ := Phrase.grouped_binary_iff.1 h
    have hleft := (left.stratum_rank hleft).of_le hl
    have hright := (right.stratum_rank hright).of_le hr
    by_cases hop : op = .pow
    · subst hop
      exact .rightward hleft hright
    · rw [BinaryOp.leftLevel_of_ne hop] at hleft
      rw [BinaryOp.rightLevel_of_ne hop] at hright
      exact .leftward hop hleft hright

theorem Arguments.stratum_one (args : Arguments) (h : args.Grouped) :
    ∀ p ∈ args.toList, Stratum 1 p := by
  match args with
  | .empty => exact nofun
  | .last arg =>
    intro p hp
    rw [List.mem_singleton.1 hp]
    exact (arg.stratum_rank h).of_le arg.one_le_rank
  | .more arg others =>
    intro p hp
    rcases List.mem_cons.1 hp with harg | hp
    · rw [harg]
      exact (arg.stratum_rank h.1).of_le arg.one_le_rank
    · exact others.stratum_one h.2 p hp

end

/-- The phrases of a **level** of the stratified grammar are the grouped ones that bind
as tightly. -/
theorem Phrase.stratum_iff {n : Nat} {p : Phrase} : Stratum n p ↔ p.Grouped ∧ n ≤ p.rank :=
  ⟨Stratum.grouped, fun h => (p.stratum_rank h.1).of_le h.2⟩

end RuleScript
