import RuleScript.Eval.Semantics
import RuleScript.SyntaxError

/-!
# Looking at a program without its spans

A program keeps at every node where it was read from. To say that two programs
are equal **up to spans** both are looked at through a `View`, which sees spans
as they are or not at all, or something in between: `Program.seen v p` is the
program `p` as the view `v` has it, and likewise for every part of a program, for
tokens, and for what a program can end or be refused with.
-/

namespace RuleScript

/-- A way of **looking at spans**. Where two spans look the same, so do the
locations at which they start, and unions look the same if their parts do. -/
structure View where
  /-- what is seen of a span -/
  span : Span → Span
  /-- what is seen of a location -/
  location : Location → Location
  /-- spans that look the same start at locations that look the same -/
  start : ∀ {s t : Span}, span s = span t → location s.start = location t.start
  /-- unions of spans that look the same look the same -/
  union : ∀ {s s' t t' : Span}, span s = span s' → span t = span t' →
    span (s.union t) = span (s'.union t')

namespace View

/-- Every span is seen as it is. -/
def exact : View where
  span := id
  location := id
  start h := congrArg Span.start h
  union h₁ h₂ := by
    rw [id, id] at h₁ h₂
    rw [h₁, h₂]

/-- No span is seen. -/
def blind : View where
  span _ := default
  location _ := default
  start _ := rfl
  union _ _ := rfl

end View

variable (v : View)

/-! ### Expressions -/

/-- A name as it is seen. -/
def Name.seen (n : Name) : Name := ⟨n.text, v.span n.span⟩

mutual

/-- An expression as it is seen. -/
def Expr.seen : Expr → Expr
  | .literal value s => .literal value (v.span s)
  | .bare name => .bare (name.seen v)
  | .deref name s => .deref (name.seen v) (v.span s)
  | .call callee args s => .call (callee.seen v) (Expr.seenAll args) (v.span s)
  | .unary op operand s => .unary op (Expr.seen operand) (v.span s)
  | .binary op left right s => .binary op (Expr.seen left) (Expr.seen right) (v.span s)

/-- Expressions as they are seen. -/
def Expr.seenAll : List Expr → List Expr
  | [] => []
  | e :: es => Expr.seen e :: Expr.seenAll es

end

theorem Expr.seenAll_eq_map (es : List Expr) : Expr.seenAll v es = es.map (Expr.seen v) := by
  induction es with
  | nil => rfl
  | cons e es ih => rw [Expr.seenAll, ih, List.map_cons]

/-- An expression as it is seen has **the span as it is seen**. -/
@[simp]
theorem Expr.span_seen (e : Expr) : (e.seen v).span = v.span e.span := by
  cases e <;> rfl

/-! ### Statements, rules and programs -/

/-- A parameter as it is seen. -/
def Parameter.seen (q : Parameter) : Parameter :=
  ⟨q.name.seen v, q.default.map (Expr.seen v), v.span q.span⟩

/-- A selector as it is seen. -/
def Selector.seen (s : Selector) : Selector :=
  ⟨s.name.seen v, s.parameters.map (Parameter.seen v), v.span s.span⟩

/-- A declaration as it is seen. -/
def Declaration.seen (d : Declaration) : Declaration :=
  ⟨d.property.seen v, d.values.map (Expr.seen v), v.span d.span⟩

mutual

/-- A statement as it is seen. -/
def Statement.seen : Statement → Statement
  | .declaration d => .declaration (d.seen v)
  | .atRule a => .atRule (AtRule.seen a)
  | .rule r => .rule (Rule.seen r)

/-- An at-rule as it is seen. -/
def AtRule.seen : AtRule → AtRule
  | ⟨name, parameters, body, s⟩ =>
    ⟨name.seen v, parameters.map (Expr.seen v), Statement.seenBody body, v.span s⟩

/-- A rule as it is seen. -/
def Rule.seen : Rule → Rule
  | ⟨selector, body, s⟩ => ⟨selector.seen v, Statement.seenAll body, v.span s⟩

/-- The block of an at-rule as it is seen, if it has one. -/
def Statement.seenBody : Option (List Statement) → Option (List Statement)
  | none => none
  | some body => some (Statement.seenAll body)

/-- Statements as they are seen. -/
def Statement.seenAll : List Statement → List Statement
  | [] => []
  | st :: sts => Statement.seen st :: Statement.seenAll sts

end

/-- An item of a program as it is seen. -/
def Item.seen : Item → Item
  | .rule r => .rule (r.seen v)
  | .atRule a => .atRule (a.seen v)

/-- A program as it is seen. -/
def Program.seen (p : Program) : Program := ⟨p.items.map (Item.seen v)⟩

/-! ### Seeing everything -/

mutual

/-- Who sees everything sees **the expression itself**. -/
@[simp]
theorem Expr.seen_exact (e : Expr) : e.seen .exact = e := by
  match e with
  | .literal .. | .bare _ | .deref .. => rfl
  | .call callee args s =>
    rw [Expr.seen, Expr.seenAll_exact args]
    rfl
  | .unary op operand s =>
    rw [Expr.seen, operand.seen_exact]
    rfl
  | .binary op left right s =>
    rw [Expr.seen, left.seen_exact, right.seen_exact]
    rfl

@[simp]
theorem Expr.seenAll_exact (es : List Expr) : Expr.seenAll .exact es = es := by
  match es with
  | [] => rfl
  | e :: es => rw [Expr.seenAll, e.seen_exact, Expr.seenAll_exact es]

end

/-- Who sees everything sees **the parameter itself**. -/
@[simp]
theorem Parameter.seen_exact (q : Parameter) : q.seen .exact = q := by
  obtain ⟨name, default, s⟩ := q
  cases default with
  | none => rfl
  | some e =>
    rw [Parameter.seen, Option.map_some, e.seen_exact]
    rfl

@[simp]
theorem Selector.seen_exact (s : Selector) : s.seen .exact = s := by
  rw [Selector.seen, List.map_id'' Parameter.seen_exact]
  rfl

@[simp]
theorem Declaration.seen_exact (d : Declaration) : d.seen .exact = d := by
  rw [Declaration.seen, List.map_id'' Expr.seen_exact]
  rfl

mutual

/-- Who sees everything sees **the statement itself**. -/
@[simp]
theorem Statement.seen_exact (st : Statement) : st.seen .exact = st := by
  match st with
  | .declaration d => rw [Statement.seen, d.seen_exact]
  | .atRule a => rw [Statement.seen, a.seen_exact]
  | .rule r => rw [Statement.seen, r.seen_exact]

@[simp]
theorem AtRule.seen_exact (a : AtRule) : a.seen .exact = a := by
  match a with
  | ⟨name, parameters, body, s⟩ =>
    rw [AtRule.seen, List.map_id'' Expr.seen_exact, Statement.seenBody_exact body]
    rfl

/-- Who sees everything sees **the rule itself**. -/
@[simp]
theorem Rule.seen_exact (r : Rule) : r.seen .exact = r := by
  match r with
  | ⟨selector, body, s⟩ =>
    rw [Rule.seen, selector.seen_exact, Statement.seenAll_exact body]
    rfl

theorem Statement.seenBody_exact (body : Option (List Statement)) :
    Statement.seenBody .exact body = body := by
  match body with
  | none => rfl
  | some body => rw [Statement.seenBody, Statement.seenAll_exact body]

theorem Statement.seenAll_exact (sts : List Statement) : Statement.seenAll .exact sts = sts := by
  match sts with
  | [] => rfl
  | st :: sts => rw [Statement.seenAll, st.seen_exact, Statement.seenAll_exact sts]

end

@[simp]
theorem Item.seen_exact (i : Item) : i.seen .exact = i := by
  cases i with
  | rule r => rw [Item.seen, r.seen_exact]
  | atRule a => rw [Item.seen, a.seen_exact]

/-- Who sees everything sees **the program itself**. -/
@[simp]
theorem Program.seen_exact (p : Program) : p.seen .exact = p := by
  rw [Program.seen, List.map_id'' Item.seen_exact]

/-! ### Tokens and syntax errors -/

/-- A token as it is seen. -/
def Token.seen (t : Token) : Token := ⟨t.kind, v.span t.span⟩

/-- A syntax error as it is seen. -/
def SyntaxError.seen (e : SyntaxError) : SyntaxError := ⟨e.cause, v.span e.span⟩

/-! ### Faults and events -/

/-- A fault as it is seen. -/
def Fault.seen : Fault → Fault
  | .unboundVariable name s => .unboundVariable name (v.span s)
  | .unboundFunction name isVariable s => .unboundFunction name isVariable (v.span s)
  | .duplicateDefinition name s previous => .duplicateDefinition name (v.span s) (v.span previous)
  | .missingParameter name rule s => .missingParameter name rule (v.span s)
  | .arityMismatch name expected received s => .arityMismatch name expected received (v.span s)
  | .typeMismatch clash s => .typeMismatch clash (v.span s)
  | .nameAsValue name usage s => .nameAsValue name usage (v.span s)
  | .invalidAtRule name problem s => .invalidAtRule name problem (v.span s)
  | .unsupportedAtRule name s => .unsupportedAtRule name (v.span s)
  | .globalAtRule name s => .globalAtRule name (v.span s)
  | .missingMain => .missingMain
  | .divisionByZero s => .divisionByZero (v.span s)
  | .overflow op s => .overflow op (v.span s)
  | .output reason s => .output reason (v.span s)

/-- An event as it is seen: only a duplicate definition speaks of a location. -/
def Event.seen : Event → Event
  | .duplicateRule rule previous => .duplicateRule rule (v.location previous)
  | event => event

/-- Who sees everything sees **the fault itself**. -/
@[simp]
theorem Fault.seen_exact (fault : Fault) : fault.seen .exact = fault := by
  cases fault <;> rfl

/-- Who sees everything sees **the event itself**. -/
@[simp]
theorem Event.seen_exact (event : Event) : event.seen .exact = event := by
  cases event <;> rfl

/-! ### Operators -/

theorem Fault.mapError_seen {α : Type} (v : View) (fault : Fault) :
    (Except.error fault : Except Fault α).mapError (Fault.seen v) = .error (fault.seen v) :=
  rfl

namespace Operator

variable {v : View} {s s' : Span}

/-- Results **that do not fit** have faults that look the same, in spans that do. -/
theorem fitting_seen (h : v.span s = v.span s') (op : BinaryOp) (n : Option Int64) :
    (fitting op s n).mapError (Fault.seen v) = (fitting op s' n).mapError (Fault.seen v) := by
  cases n with
  | none => simp only [fitting, Fault.mapError_seen, Fault.seen, h]
  | some n => rfl

/-- Operators with **one operand** give what looks the same, in spans that do. -/
theorem unary_seen (h : v.span s = v.span s') (op : UnaryOp) (value : Value) :
    (unary op value s).mapError (Fault.seen v) = (unary op value s').mapError (Fault.seen v) := by
  unfold unary
  split
  · rfl
  · split
    · rfl
    · simp only [Fault.mapError_seen, Fault.seen, h]
  · rfl
  · rfl
  · simp only [Fault.mapError_seen, Fault.seen, h]

/-- Arithmetic of **integers** gives what looks the same, in spans that do. -/
theorem integer_seen (h : v.span s = v.span s') (op : BinaryOp) (a b : Int64) :
    (integer op a b s).mapError (Fault.seen v) = (integer op a b s').mapError (Fault.seen v) := by
  unfold integer
  split
  · exact fitting_seen h _ _
  · exact fitting_seen h _ _
  · exact fitting_seen h _ _
  · split
    · simp only [Fault.mapError_seen, Fault.seen, h]
    · exact fitting_seen h _ _
  · split
    · simp only [Fault.mapError_seen, Fault.seen, h]
    · exact fitting_seen h _ _
  · split
    · rfl
    · exact fitting_seen h _ _
  · simp only [Fault.mapError_seen, Fault.seen, h]

theorem float_seen (h : v.span s = v.span s') (op : BinaryOp) (a b : Float) :
    (float op a b s).mapError (Fault.seen v) = (float op a b s').mapError (Fault.seen v) := by
  cases op <;> simp only [float, Fault.mapError_seen, Fault.seen, h]

/-- **Arithmetic** gives what looks the same, in spans that do. -/
theorem numeric_seen (h : v.span s = v.span s') (op : BinaryOp) (a b : Value) :
    (numeric op a b s).mapError (Fault.seen v) = (numeric op a b s').mapError (Fault.seen v) := by
  unfold numeric
  split
  · exact integer_seen h _ _ _
  · split
    · rfl
    · split
      · exact float_seen h _ _ _
      · simp only [Fault.mapError_seen, Fault.seen, h]

/-- **Comparisons** give what looks the same, in spans that do. -/
theorem comparison_seen (h : v.span s = v.span s') (op : BinaryOp) (a b : Value) :
    (comparison op a b s).mapError (Fault.seen v)
      = (comparison op a b s').mapError (Fault.seen v) := by
  unfold comparison
  split
  · rfl
  · simp only [Fault.mapError_seen, Fault.seen, h]

/-- **Logical operators** give what looks the same, in spans that do. -/
theorem logical_seen (h : v.span s = v.span s') (op : BinaryOp) (a b : Value) :
    (logical op a b s).mapError (Fault.seen v) = (logical op a b s').mapError (Fault.seen v) := by
  unfold logical
  split
  · rfl
  · simp only [Fault.mapError_seen, Fault.seen, h]

/-- The result of an operator does not depend on where it is written, and its
fault blames the operator as it is seen. -/
theorem binary_seen (h : v.span s = v.span s') (op : BinaryOp) (a b : Value) :
    (binary op a b s).mapError (Fault.seen v) = (binary op a b s').mapError (Fault.seen v) := by
  cases op with
  | add | sub | mul | div | rem | pow => exact numeric_seen h _ a b
  | eq | notEq | lt | ltEq | gt | gtEq => exact comparison_seen h _ a b
  | and | or => exact logical_seen h _ a b

end Operator

end RuleScript
