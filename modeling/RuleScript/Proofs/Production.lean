import RuleScript.Proofs.Node
import RuleScript.Proofs.Phrase

/-!
# How a node is written

A node is written as a row of **pieces**: nodes that stand inside it, and tokens of its own,
which are signs, brackets, names and values. A production of a node lists its pieces in order,
and says nothing of what its children are written as.

* `Node.Production`: the pieces of each kind of node. An expression may stand in any number of
  brackets, which are pieces of that expression and of no other node.
* `Node.Production.children`: the nodes among the pieces of a node are its children.
-/

namespace RuleScript

/-- A part of a node as it is written. -/
inductive Piece where
  /-- a token of its own -/
  | token (kind : TokenKind)
  /-- a node inside it -/
  | node (n : Node)

namespace Piece

/-- A sign or a bracket. -/
def sign (s : Symbol) : Piece := .token (.symbol s)

/-- Nodes side by side. -/
def row (ns : List Node) : List Piece := ns.map .node

@[simp]
theorem row_cons (n : Node) (ns : List Node) : row (n :: ns) = .node n :: row ns := rfl

/-- The default of a parameter, after an equals sign. -/
def assigned : Option Expr → List Piece
  | none => []
  | some e => [sign .assign, .node (.expr e)]

/-- The node that a piece is, if it is one. -/
def node? : Piece → Option Node
  | .token _ => none
  | .node n => some n

/-- The nodes among pieces, in order. -/
def nodes (ps : List Piece) : List Node := ps.filterMap node?

@[simp]
theorem nodes_nil : nodes [] = [] := rfl

@[simp]
theorem nodes_token (k : TokenKind) (ps : List Piece) : nodes (.token k :: ps) = nodes ps := rfl

@[simp]
theorem nodes_sign (s : Symbol) (ps : List Piece) : nodes (sign s :: ps) = nodes ps := rfl

@[simp]
theorem nodes_node (n : Node) (ps : List Piece) : nodes (.node n :: ps) = n :: nodes ps := rfl

/-- The nodes of two lists of pieces are those of **one and of the other**. -/
@[simp]
theorem nodes_append (ps qs : List Piece) : nodes (ps ++ qs) = nodes ps ++ nodes qs :=
  List.filterMap_append

/-- Nodes in a row are **the nodes** of the row. -/
@[simp]
theorem nodes_row (ns : List Node) : nodes (row ns) = ns := by
  induction ns with
  | nil => rfl
  | cons n ns ih => rw [row_cons, nodes_node, ih]

@[simp]
theorem nodes_assigned (e : Option Expr) : nodes (assigned e) = e.toList.map .expr := by
  cases e <;> rfl

/-- The arguments of a call with commas **between** them. One may follow the last. -/
inductive Separated : List Expr → List Piece → Prop
  | nil : Separated [] []
  | last (e : Expr) : Separated [e] [.node (.expr e)]
  | more (e : Expr) {es : List Expr} {ps : List Piece} (h : Separated es ps) :
    Separated (e :: es) (.node (.expr e) :: sign .comma :: ps)

/-- The statements of a block, with **semicolons** anywhere around them. -/
inductive Strewn : List Node → List Piece → Prop
  | nil : Strewn [] []
  | semicolon {ns : List Node} {ps : List Piece} (h : Strewn ns ps) :
    Strewn ns (sign .semicolon :: ps)
  | node (n : Node) {ns : List Node} {ps : List Piece} (h : Strewn ns ps) :
    Strewn (n :: ns) (.node n :: ps)

/-- Commas between expressions are **no nodes**. -/
theorem Separated.nodes {es : List Expr} {ps : List Piece} (h : Separated es ps) :
    nodes ps = es.map .expr := by
  induction h with
  | nil => rfl
  | last e => rfl
  | more e _ ih => rw [nodes_node, nodes_sign, ih, List.map_cons]

/-- Semicolons among statements are **no nodes**. -/
theorem Strewn.nodes {ns : List Node} {ps : List Piece} (h : Strewn ns ps) : nodes ps = ns := by
  induction h with
  | nil => rfl
  | semicolon _ ih => rw [nodes_sign, ih]
  | node n _ ih => rw [nodes_node, ih]

end Piece

open Piece

/-- The **pieces** of a node. -/
inductive Node.Production : Node → List Piece → Prop
  | name (n : Name) : Production (.name n) [.token (.name n.text)]
  | literal (l : Literal) (s : Span) : Production (.expr (.literal l s)) [.token l.kind]
  | bare (n : Name) : Production (.expr (.bare n)) [.token (.name n.text)]
  | deref (n : Name) (s : Span) : Production (.expr (.deref n s)) [sign .dollar, .node (.name n)]
  | call (n : Name) {args : List Expr} (s : Span) {ps : List Piece} (h : Separated args ps) :
    Production (.expr (.call n args s))
      (.node (.name n) :: sign .openParen :: (ps ++ [sign .closeParen]))
  | unary (op : UnaryOp) (e : Expr) (s : Span) :
    Production (.expr (.unary op e s)) [sign op.symbol, .node (.expr e)]
  | binary (op : BinaryOp) (left right : Expr) (s : Span) :
    Production (.expr (.binary op left right s))
      [.node (.expr left), sign op.symbol, .node (.expr right)]
  /-- brackets widen the span of what stands in them -/
  | group {e : Expr} (s : Span) {ps : List Piece} (h : Production (.expr e) ps) :
    Production (.expr (e.withSpan s)) (sign .openParen :: (ps ++ [sign .closeParen]))
  | parameter (q : Parameter) :
    Production (.parameter q)
      (sign .openBracket :: .node (.name q.name) :: (assigned q.default ++ [sign .closeBracket]))
  | selector (s : Selector) :
    Production (.selector s) (.node (.name s.name) :: row (s.parameters.map .parameter))
  | declaration (d : Declaration) :
    Production (.declaration d)
      (.node (.name d.property) :: sign .colon :: (row (d.values.map .expr) ++ [sign .semicolon]))
  | atRule (n : Name) (params : List Expr) (s : Span) :
    Production (.atRule ⟨n, params, none, s⟩)
      (sign .at :: .node (.name n) :: (row (params.map .expr) ++ [sign .semicolon]))
  | atBlock (n : Name) (params : List Expr) {body : List Statement} (s : Span) {ps : List Piece}
    (h : Strewn (body.map ofStatement) ps) :
    Production (.atRule ⟨n, params, some body, s⟩)
      (sign .at :: .node (.name n) ::
        (row (params.map .expr) ++ sign .openBrace :: (ps ++ [sign .closeBrace])))
  | rule (sel : Selector) {body : List Statement} (s : Span) {ps : List Piece}
    (h : Strewn (body.map ofStatement) ps) :
    Production (.rule ⟨sel, body, s⟩)
      (.node (.selector sel) :: sign .openBrace :: (ps ++ [sign .closeBrace]))

/-- The nodes among the pieces of a node are **its children**. -/
theorem Node.Production.children {n : Node} {ps : List Piece} (h : n.Production ps) :
    nodes ps = n.children := by
  induction h with
  | call n s h => simp [Node.children, h.nodes]
  | group s _ ih => simpa [Node.children_withSpan] using ih
  | atBlock n params s h => simp [Node.children, h.nodes]
  | rule sel s h => simp [Node.children, h.nodes]
  | _ => simp [Node.children]

end RuleScript
