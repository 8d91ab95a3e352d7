import RuleScript.Syntax.Tree

/-!
# Nodes of a program

Whatever has a span in a program is a **node** of it: names, expressions, parameters,
selectors, declarations, at-rules and rules. `Node.children` are the nodes directly inside
a node, in the order in which they are written, and `Node.Contains` goes down any number
of times.

A name by itself is an expression with no node inside it; a name that is called, read,
declared or defined is a node of its own.
-/

namespace RuleScript

/-- A part of a program that has a span. -/
inductive Node where
  | name (n : Name)
  | expr (e : Expr)
  | parameter (q : Parameter)
  | selector (s : Selector)
  | declaration (d : Declaration)
  | atRule (a : AtRule)
  | rule (r : Rule)

namespace Node

/-- Where a node is written. -/
def span : Node → Span
  | .name n => n.span
  | .expr e => e.span
  | .parameter q => q.span
  | .selector s => s.span
  | .declaration d => d.span
  | .atRule a => a.span
  | .rule r => r.span

def ofStatement : Statement → Node
  | .declaration d => .declaration d
  | .atRule a => .atRule a
  | .rule r => .rule r

def ofItem : Item → Node
  | .rule r => .rule r
  | .atRule a => .atRule a

/-- The nodes **directly inside** a node, in order. -/
def children : Node → List Node
  | .name _ => []
  | .expr (.literal _ _) => []
  | .expr (.bare _) => []
  | .expr (.deref n _) => [.name n]
  | .expr (.call callee args _) => .name callee :: args.map .expr
  | .expr (.unary _ operand _) => [.expr operand]
  | .expr (.binary _ left right _) => [.expr left, .expr right]
  | .parameter q => .name q.name :: q.default.toList.map .expr
  | .selector s => .name s.name :: s.parameters.map .parameter
  | .declaration d => .name d.property :: d.values.map .expr
  | .atRule a => .name a.name :: (a.parameters.map .expr ++ (a.body.getD []).map ofStatement)
  | .rule r => .selector r.selector :: r.body.map ofStatement

/-- Brackets around an expression change its span and nothing inside it. -/
theorem children_withSpan (e : Expr) (s : Span) :
    (expr (e.withSpan s)).children = (expr e).children := by
  cases e <;> rfl

/-- A node and all nodes inside it, at any depth. -/
inductive Contains : Node → Node → Prop
  | self (n : Node) : Contains n n
  | child {n c m : Node} (hc : c ∈ n.children) (h : Contains c m) : Contains n m

/-- Something is true of the spans of a node and of **all nodes inside** it. -/
def Everywhere (P : Span → Prop) (n : Node) : Prop := ∀ m, n.Contains m → P m.span

theorem everywhere_iff {P : Span → Prop} {n : Node} :
    n.Everywhere P ↔ P n.span ∧ ∀ c ∈ n.children, c.Everywhere P := by
  constructor
  · intro h
    exact ⟨h n (.self n), fun c hc m hm => h m (.child hc hm)⟩
  · rintro ⟨hself, hchildren⟩ m hm
    cases hm with
    | self => exact hself
    | child hc hm => exact hchildren _ hc m hm

end Node

/-- A node anywhere in a program. -/
def Program.Has (p : Program) (n : Node) : Prop := ∃ i ∈ p.items, (Node.ofItem i).Contains n

end RuleScript
