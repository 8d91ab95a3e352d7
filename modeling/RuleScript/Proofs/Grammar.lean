import RuleScript.Proofs.Phrase

/-!
# Programs as they are written

The grammar of programs. A `Clause` is a derivation of one of the things that may stand
in a block or at the top level; its expressions are phrases. `Clause.kinds` are the tokens
it derives, `Clause.statement?` is the statement it stands for, without spans, and
`Clause.Legal` is what is asked of it beyond its form.

* `Derivable`: the sequences of tokens that are programs.
* `Program.yield`: the tokens that a tree remembers, in order. Brackets around
  expressions, commas and semicolons are forgotten, and nothing else
  (`Clause.yield_program`).
-/

namespace RuleScript

/-! ### Derivations -/

/-- A parameter of a rule as it is written, in square brackets. -/
structure Slot where
  /-- its name -/
  name : String
  /-- the expression after the equals sign, if there is one -/
  default : Option Phrase

/-- The tokens of a default. -/
def Slot.defaultKinds : Option Phrase → List TokenKind
  | none => []
  | some p => .symbol .assign :: p.kinds

/-- The tokens of a parameter. -/
def Slot.kinds (s : Slot) : List TokenKind :=
  .symbol .openBracket :: .name s.name :: (defaultKinds s.default ++ [.symbol .closeBracket])

/-- The parameter that is written so. -/
def Slot.tree (s : Slot) : Parameter :=
  ⟨⟨s.name, Inhabited.default⟩, s.default.map Phrase.tree, Inhabited.default⟩

/-- What may stand in a block or at the top level, as it is **written**. -/
inductive Clause where
  /-- a semicolon by itself -/
  | semicolon
  /-- a name, a colon, values and a semicolon -/
  | declaration (property : String) (values : List Phrase)
  /-- an at sign, a name, values and a semicolon -/
  | atRule (name : String) (parameters : List Phrase)
  /-- an at sign, a name, values and a block -/
  | atBlock (name : String) (parameters : List Phrase) (body : List Clause)
  /-- a name, parameters and a block -/
  | rule (name : String) (slots : List Slot) (body : List Clause)

namespace Clause

mutual

/-- The tokens of a clause. -/
def kinds : Clause → List TokenKind
  | .semicolon => [.symbol .semicolon]
  | .declaration property values =>
    .name property :: .symbol .colon :: (Phrase.kindsAll values ++ [.symbol .semicolon])
  | .atRule name parameters =>
    .symbol .at :: .name name :: (Phrase.kindsAll parameters ++ [.symbol .semicolon])
  | .atBlock name parameters body =>
    .symbol .at :: .name name :: (Phrase.kindsAll parameters ++
      .symbol .openBrace :: (kindsAll body ++ [.symbol .closeBrace]))
  | .rule name slots body =>
    .name name :: (slots.flatMap Slot.kinds ++
      .symbol .openBrace :: (kindsAll body ++ [.symbol .closeBrace]))

/-- The tokens of clauses one after the other. -/
def kindsAll : List Clause → List TokenKind
  | [] => []
  | c :: cs => kinds c ++ kindsAll cs

end

mutual

/-- The statement that a clause stands for, if it is more than a semicolon. -/
def statement? : Clause → Option Statement
  | .semicolon => none
  | .declaration property values =>
    some (.declaration ⟨⟨property, default⟩, values.map Phrase.tree, default⟩)
  | .atRule name parameters =>
    some (.atRule ⟨⟨name, default⟩, parameters.map Phrase.tree, none, default⟩)
  | .atBlock name parameters body =>
    some (.atRule ⟨⟨name, default⟩, parameters.map Phrase.tree, some (statements body), default⟩)
  | .rule name slots body =>
    some (.rule ⟨⟨⟨name, default⟩, slots.map Slot.tree, default⟩, statements body, default⟩)

/-- The statements that clauses stand for, in order. -/
def statements : List Clause → List Statement
  | [] => []
  | c :: cs => (statement? c).toList ++ statements cs

end

mutual

/-- What is asked of a clause beyond its form: a variable is declared with one value, a
rule does not have the name of a variable, and no two of its parameters are spelled
alike. -/
def Legal : Clause → Prop
  | .semicolon => True
  | .declaration property values => Name.hasDashes property = true → values.length = 1
  | .atRule _ _ => True
  | .atBlock _ _ body => AllLegal body
  | .rule name slots body =>
    Name.hasDashes name = false ∧ (slots.map Slot.name).Nodup ∧ AllLegal body

/-- All clauses are legal. -/
def AllLegal : List Clause → Prop
  | [] => True
  | c :: cs => Legal c ∧ AllLegal cs

end

/-- Whether a clause may stand at the top level. -/
def isItem : Clause → Bool
  | .declaration .. => false
  | _ => true

/-- Clauses that make up a **program**. -/
structure IsProgram (cs : List Clause) : Prop where
  legal : AllLegal cs
  items : ∀ c ∈ cs, c.isItem = true

end Clause

/-- A statement as an item of a program, if it may stand at the top level. -/
def Statement.item? : Statement → Option Item
  | .declaration _ => none
  | .atRule a => some (.atRule a)
  | .rule r => some (.rule r)

/-- The program that clauses stand for. -/
def Clause.program (cs : List Clause) : Program := ⟨(statements cs).filterMap Statement.item?⟩

/-- An item in front of a program makes **a program**. -/
theorem Clause.IsProgram.cons {c : Clause} {cs : List Clause} (h : IsProgram cs)
    (hlegal : c.Legal) (hitem : c.isItem = true) : IsProgram (c :: cs) :=
  ⟨⟨hlegal, h.legal⟩, List.forall_mem_cons.2 ⟨hitem, h.items⟩⟩

/-- An item in front is **the first item** of the program. -/
theorem Clause.program_cons_item {c : Clause} {cs : List Clause} {st : Statement} {i : Item}
    (hc : c.statement? = some st) (hi : st.item? = some i) :
    program (c :: cs) = ⟨i :: (program cs).items⟩ := by
  rw [program, statements, hc, Option.toList_some, List.singleton_append, List.filterMap_cons, hi]
  rfl

/-- Tokens that are a **program** by the grammar: clauses, and then the end. -/
def Derivable (ks : List TokenKind) : Prop :=
  ∃ cs, Clause.IsProgram cs ∧ ks = Clause.kindsAll cs ++ [.eof]

/-! ### What a tree remembers of its tokens -/

/-- Whether a token can be told from the tree of a program. -/
def TokenKind.remembered : TokenKind → Bool
  | .symbol s => s ∉ [.openParen, .closeParen, .comma, .semicolon]
  | .eof => false
  | .name _ | .int _ | .float _ | .string _ | .bool _ => true

mutual

/-- The tokens of an expression, in order. -/
def Expr.yield : Expr → List TokenKind
  | .literal value _ => [value.kind]
  | .bare name => [.name name.text]
  | .deref name _ => [.symbol .dollar, .name name.text]
  | .call callee args _ => .name callee.text :: Expr.yields args
  | .unary op operand _ => .symbol op.symbol :: operand.yield
  | .binary op left right _ => left.yield ++ .symbol op.symbol :: right.yield

/-- The tokens of expressions, in order. -/
def Expr.yields : List Expr → List TokenKind
  | [] => []
  | e :: es => e.yield ++ Expr.yields es

end

/-- The tokens of a default, in order. -/
def Parameter.yieldDefault : Option Expr → List TokenKind
  | none => []
  | some e => .symbol .assign :: e.yield

/-- The tokens of a parameter, in order. -/
def Parameter.yield (q : Parameter) : List TokenKind :=
  .symbol .openBracket :: .name q.name.text ::
    (yieldDefault q.default ++ [.symbol .closeBracket])

/-- The tokens of a selector, in order. -/
def Selector.yield (s : Selector) : List TokenKind :=
  .name s.name.text :: s.parameters.flatMap Parameter.yield

/-- The tokens of a declaration, in order. -/
def Declaration.yield (d : Declaration) : List TokenKind :=
  .name d.property.text :: .symbol .colon :: Expr.yields d.values

mutual

/-- The tokens of a statement, in order. -/
def Statement.yield : Statement → List TokenKind
  | .declaration d => d.yield
  | .atRule a => AtRule.yield a
  | .rule r => Rule.yield r

/-- The tokens of an at-rule, in order. -/
def AtRule.yield : AtRule → List TokenKind
  | ⟨name, parameters, body, _⟩ =>
    .symbol .at :: .name name.text :: (Expr.yields parameters ++ Statement.yieldBody body)

/-- The tokens of a rule, in order. -/
def Rule.yield : Rule → List TokenKind
  | ⟨selector, body, _⟩ =>
    selector.yield ++ .symbol .openBrace :: (Statement.yields body ++ [.symbol .closeBrace])

/-- The tokens of the block of an at-rule, in order. -/
def Statement.yieldBody : Option (List Statement) → List TokenKind
  | none => []
  | some body => .symbol .openBrace :: (Statement.yields body ++ [.symbol .closeBrace])

/-- The tokens of statements, in order. -/
def Statement.yields : List Statement → List TokenKind
  | [] => []
  | st :: sts => Statement.yield st ++ Statement.yields sts

end

/-- The tokens of an item, in order. -/
def Item.yield : Item → List TokenKind
  | .rule r => r.yield
  | .atRule a => a.yield

/-- The tokens that a program **remembers**, in order. -/
def Program.yield (p : Program) : List TokenKind := p.items.flatMap Item.yield

/-! ### Spans do not count -/

section Seen

variable (v : View)

mutual

/-- What an expression remembers **has no spans** in it. -/
theorem Expr.yield_seen (e : Expr) : (e.seen v).yield = e.yield := by
  match e with
  | .literal .. | .bare _ | .deref .. => rfl
  | .call callee args s => rw [seen, yield, yield, yields_seenAll args]; rfl
  | .unary op operand s => rw [seen, yield, yield, operand.yield_seen]
  | .binary op left right s => rw [seen, yield, yield, left.yield_seen, right.yield_seen]

theorem Expr.yields_seenAll (es : List Expr) :
    Expr.yields (Expr.seenAll v es) = Expr.yields es := by
  match es with
  | [] => rfl
  | e :: es => rw [Expr.seenAll, Expr.yields, Expr.yields, e.yield_seen, yields_seenAll es]

end

theorem Expr.yields_map_seen (es : List Expr) :
    Expr.yields (es.map (Expr.seen v)) = Expr.yields es := by
  rw [← Expr.seenAll_eq_map, Expr.yields_seenAll]

theorem Parameter.yield_seen (q : Parameter) : (q.seen v).yield = q.yield := by
  have hdefault : yieldDefault (q.default.map (Expr.seen v)) = yieldDefault q.default := by
    cases q.default with
    | none => rfl
    | some e => rw [Option.map_some, yieldDefault, yieldDefault, e.yield_seen]
  rw [yield, yield, Parameter.seen, hdefault]
  rfl

theorem Selector.yield_seen (s : Selector) : (s.seen v).yield = s.yield := by
  rw [yield, yield, Selector.seen, List.flatMap_map]
  simp only [Parameter.yield_seen]
  rfl

theorem Declaration.yield_seen (d : Declaration) : (d.seen v).yield = d.yield := by
  rw [yield, yield, Declaration.seen, Expr.yields_map_seen]
  rfl

mutual

/-- What a statement remembers **has no spans** in it. -/
theorem Statement.yield_seen (st : Statement) : (st.seen v).yield = st.yield := by
  match st with
  | .declaration d => exact d.yield_seen v
  | .atRule a => exact a.yield_seen
  | .rule r => exact r.yield_seen

theorem AtRule.yield_seen (a : AtRule) : (a.seen v).yield = a.yield := by
  match a with
  | ⟨name, parameters, body, s⟩ =>
    rw [AtRule.seen, AtRule.yield, AtRule.yield, Expr.yields_map_seen,
      Statement.yieldBody_seen body]
    rfl

/-- What a rule remembers **has no spans** in it. -/
theorem Rule.yield_seen (r : Rule) : (r.seen v).yield = r.yield := by
  match r with
  | ⟨selector, body, s⟩ =>
    rw [Rule.seen, Rule.yield, Rule.yield, selector.yield_seen, Statement.yields_seenAll body]

theorem Statement.yieldBody_seen (body : Option (List Statement)) :
    Statement.yieldBody (Statement.seenBody v body) = Statement.yieldBody body := by
  match body with
  | none => rfl
  | some body =>
    rw [Statement.seenBody, Statement.yieldBody, Statement.yieldBody, Statement.yields_seenAll body]

theorem Statement.yields_seenAll (sts : List Statement) :
    Statement.yields (Statement.seenAll v sts) = Statement.yields sts := by
  match sts with
  | [] => rfl
  | st :: sts =>
    rw [Statement.seenAll, Statement.yields, Statement.yields, st.yield_seen,
      Statement.yields_seenAll sts]

end

/-- What a program remembers **has no spans** in it. -/
theorem Program.yield_seen (p : Program) : (p.seen v).yield = p.yield := by
  rw [Program.yield, Program.yield, Program.seen, List.flatMap_map]
  refine congrArg (fun f => p.items.flatMap f) (funext fun i => ?_)
  cases i with
  | rule r => exact r.yield_seen v
  | atRule a => exact a.yield_seen v

end Seen

/-! ### What was derived is what is remembered -/

section Remembered

open TokenKind (remembered)

@[simp]
theorem TokenKind.remembered_name (text : String) : remembered (.name text) = true := by
  rw [remembered]

/-- Of symbols, all are remembered but **brackets around groups and arguments, commas and
semicolons**. -/
@[simp]
theorem TokenKind.remembered_symbol (s : Symbol) : remembered (.symbol s) =
    decide (s ∉ [Symbol.openParen, .closeParen, .comma, .semicolon]) := rfl

theorem Literal.remembered_kind (l : Literal) : remembered l.kind = true := by cases l <;> rfl

theorem UnaryOp.remembered_symbol (op : UnaryOp) : remembered (.symbol op.symbol) = true := by
  cases op <;> rfl

theorem BinaryOp.remembered_symbol (op : BinaryOp) : remembered (.symbol op.symbol) = true := by
  cases op <;> rfl

mutual

/-- The tree of a phrase remembers **the tokens that are remembered**, in order. -/
theorem Phrase.filter_kinds (p : Phrase) : p.kinds.filter remembered = p.tree.yield := by
  match p with
  | .literal value => simp [Phrase.tree, Expr.yield, Phrase.kinds, value.remembered_kind]
  | .bare name => simp [Phrase.tree, Expr.yield, Phrase.kinds]
  | .deref name => simp [Phrase.tree, Expr.yield, Phrase.kinds]
  | .call callee args =>
    simp [Phrase.tree, Expr.yield, Phrase.kinds, args.filter_kinds]
  | .group inner => simp [Phrase.tree, Phrase.kinds, inner.filter_kinds]
  | .unary op operand =>
    simp [Phrase.tree, Expr.yield, Phrase.kinds, op.remembered_symbol, operand.filter_kinds]
  | .binary op left right =>
    simp [Phrase.tree, Expr.yield, Phrase.kinds, op.remembered_symbol, left.filter_kinds,
      right.filter_kinds]

theorem Arguments.filter_kinds (args : Arguments) :
    args.kinds.filter remembered = Expr.yields args.trees := by
  match args with
  | .empty => rfl
  | .last arg => simp [Arguments.trees, Arguments.kinds, Expr.yields, arg.filter_kinds]
  | .more arg others =>
    simp [Arguments.trees, Arguments.kinds, Expr.yields, arg.filter_kinds,
      others.filter_kinds]

end

theorem Phrase.filter_kindsAll (ps : List Phrase) :
    (kindsAll ps).filter remembered = Expr.yields (ps.map Phrase.tree) := by
  induction ps with
  | nil => rfl
  | cons p ps ih => simp [Expr.yields, p.filter_kinds, ih]

/-- The tree of a parameter remembers **the tokens that are remembered**, in order. -/
theorem Slot.filter_kinds (s : Slot) : s.kinds.filter remembered = s.tree.yield := by
  have hdefault : (defaultKinds s.default).filter remembered =
      Parameter.yieldDefault (s.default.map Phrase.tree) := by
    cases s.default with
    | none => rfl
    | some p => simp [Parameter.yieldDefault, defaultKinds, p.filter_kinds]
  simp [Parameter.yield, Slot.tree, Slot.kinds, hdefault]

theorem Slot.filter_flatMap_kinds (slots : List Slot) :
    (slots.flatMap Slot.kinds).filter remembered =
      (slots.map Slot.tree).flatMap Parameter.yield := by
  induction slots with
  | nil => rfl
  | cons s slots ih => simp [s.filter_kinds, ih]

namespace Clause

mutual

/-- The tree of a clause remembers **the tokens that are remembered**, in order. -/
theorem filter_kinds (c : Clause) :
    c.kinds.filter remembered = Statement.yields c.statement?.toList := by
  match c with
  | .semicolon => rfl
  | .declaration property values =>
    simp [statement?, kinds, Statement.yields, Statement.yield, Declaration.yield,
      Phrase.filter_kindsAll]
  | .atRule name parameters =>
    simp [statement?, kinds, Statement.yields, Statement.yield, AtRule.yield, Statement.yieldBody,
      Phrase.filter_kindsAll]
  | .atBlock name parameters body =>
    simp [statement?, kinds, Statement.yields, Statement.yield, AtRule.yield, Statement.yieldBody,
      Phrase.filter_kindsAll, filter_kindsAll body]
  | .rule name slots body =>
    simp [statement?, kinds, Statement.yields, Statement.yield, Rule.yield, Selector.yield,
      Slot.filter_flatMap_kinds, filter_kindsAll body]

/-- The trees of clauses remember **the tokens that are remembered**, in order. -/
theorem filter_kindsAll (cs : List Clause) :
    (kindsAll cs).filter remembered = Statement.yields (statements cs) := by
  match cs with
  | [] => rfl
  | c :: cs =>
    rw [statements, kindsAll, List.filter_append, filter_kinds c, filter_kindsAll cs]
    cases statement? c with
    | none => rfl
    | some st => simp [Statement.yields]

end

/-- The tree of a program **remembers** all of its tokens but brackets around
expressions, commas and semicolons. -/
theorem yield_program {cs : List Clause} (h : IsProgram cs) :
    (program cs).yield = (kindsAll cs).filter remembered := by
  rw [program, Program.yield, filter_kindsAll]
  induction cs with
  | nil => rfl
  | cons c cs ih =>
    have hcs := ih ⟨h.legal.2, fun c hc => h.items c (List.mem_cons_of_mem _ hc)⟩
    have hc := h.items c List.mem_cons_self
    cases c with
    | declaration => cases hc
    | semicolon => exact hcs
    | _ =>
      rw [statements]
      simp [statement?, Statement.item?, Statement.yields, Item.yield, Statement.yield, hcs]

end Clause

end Remembered

end RuleScript
