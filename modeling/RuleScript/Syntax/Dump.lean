import RuleScript.Syntax.Tree
import RuleScript.Text.Quoted

/-!
# Dumping syntax trees

A tree in full, one part to a line, for a reader who wants to see what was
read. A `Dump` is the shape of such a text: a line, a line with a label, or a
group of parts between two brackets. The parts of a group are indented and each
is followed by a comma; a group without parts stands on one line.
-/

namespace RuleScript

/-- The shape of a text with nested parts. -/
inductive Dump where
  /-- a line -/
  | leaf (text : String)
  /-- a part with a name in front -/
  | labelled (label : String) (part : Dump)
  /-- parts between two brackets -/
  | group (opening closing : String) (parts : List Dump)

namespace Dump

/-- Puts a text in front of the first line. -/
def before (text : String) : List String → List String
  | [] => []
  | line :: more => (text ++ line) :: more

/-- Puts a text after the last line. -/
def after (text : String) : List String → List String
  | [] => []
  | [line] => [line ++ text]
  | line :: more => line :: after text more

mutual

/-- The lines of a dump. -/
def lines : Dump → List String
  | .leaf text => [text]
  | .labelled label part => before (label ++ ": ") part.lines
  | .group opening closing [] => [opening ++ closing]
  | .group opening closing (part :: parts) =>
    opening :: partLines (part :: parts) ++ [closing]

/-- The lines of the parts of a group. -/
def partLines : List Dump → List String
  | [] => []
  | part :: parts => (after "," part.lines).map ("    " ++ ·) ++ partLines parts

end

/-- The text of a dump. -/
def render (d : Dump) : String := String.intercalate "\n" d.lines

/-- A named group of labelled parts. -/
def record (name : String) (fields : List (String × Dump)) : Dump :=
  .group (name ++ " \x7b") "\x7d" (fields.map fun (label, part) => .labelled label part)

/-- A named group of parts without labels. -/
def tuple (name : String) (parts : List Dump) : Dump := .group (name ++ "(") ")" parts

/-- A list of parts. -/
def list (parts : List Dump) : Dump := .group "[" "]" parts

/-- A part that may be missing. -/
def option : Option Dump → Dump
  | some part => tuple "Some" [part]
  | none => .leaf "None"

/-- A number. -/
def nat (n : Nat) : Dump := .leaf (toString n)

/-! ### The nodes of a tree -/

/-- A location. -/
def location (l : Location) : Dump :=
  record "Location" [("pos", nat l.pos), ("line", nat l.line), ("col", nat l.col)]

/-- A span. -/
def span (s : Span) : Dump := record "Span" [("start", location s.start), ("end", location s.stop)]

/-- A name. -/
def name (n : Name) : Dump :=
  record "Identifier" [("name", .leaf (Quoted.encode n.text)), ("span", span n.span)]

/-- An operator in front of its operand. -/
def unaryOp : UnaryOp → Dump
  | .plus => .leaf "Plus"
  | .neg => .leaf "Neg"
  | .not => .leaf "Not"

/-- An operator between its operands. -/
def binaryOp : BinaryOp → Dump
  | .add => .leaf "Add"
  | .sub => .leaf "Sub"
  | .mul => .leaf "Mul"
  | .div => .leaf "Div"
  | .rem => .leaf "Rem"
  | .pow => .leaf "Pow"
  | .eq => .leaf "Eq"
  | .notEq => .leaf "NotEq"
  | .lt => .leaf "Lt"
  | .ltEq => .leaf "LtEq"
  | .gt => .leaf "Gt"
  | .gtEq => .leaf "GtEq"
  | .and => .leaf "And"
  | .or => .leaf "Or"

/-- A value written out. -/
def literal (s : Span) : Literal → Dump
  | .bool b => tuple "Boolean" [.leaf (toString b), span s]
  | .int n => tuple "Int" [.leaf (Integer.display n), span s]
  | .float x => tuple "Float" [.leaf (Decimal.display x), span s]
  | .string text => tuple "String" [.leaf (Quoted.encode text), span s]

mutual

/-- An expression. -/
def expr : Expr → Dump
  | .literal v s => tuple "Literal" [literal s v]
  | .bare n => tuple "Identifier" [name n]
  | .deref n s => record "VariableDeref" [("name", name n), ("span", span s)]
  | .call callee args s =>
    record "FunctionCall" [("callee", name callee), ("args", list (exprs args)), ("span", span s)]
  | .unary op x s =>
    record "Unary" [("op", unaryOp op), ("expr", expr x), ("span", span s)]
  | .binary op l r s =>
    record "Binary"
      [("op", binaryOp op), ("left", expr l), ("right", expr r), ("span", span s)]

/-- Expressions in order. -/
def exprs : List Expr → List Dump
  | [] => []
  | e :: es => expr e :: exprs es

end

/-- A parameter. -/
def parameter (p : Parameter) : Dump :=
  record "Attribute"
    [("name", name p.name), ("default", option (p.default.map expr)), ("span", span p.span)]

/-- A name with parameters. -/
def selector (s : Selector) : Dump :=
  record "Selector"
    [("identifier", name s.name), ("attributes", list (s.parameters.map parameter)),
      ("span", span s.span)]

/-- A declaration. -/
def declaration (d : Declaration) : Dump :=
  record "Declaration"
    [("property", name d.property), ("parameters", list (exprs d.values)), ("span", span d.span)]

mutual

/-- A statement. -/
def statement : Statement → Dump
  | .declaration d => tuple "Declaration" [declaration d]
  | .atRule a => tuple "AtRule" [atRule a]
  | .rule r => tuple "Rule" [rule r]

/-- An at-rule. -/
def atRule : AtRule → Dump
  | ⟨n, parameters, body, s⟩ =>
    record "AtRule"
      [("name", name n), ("parameters", list (exprs parameters)), ("body", block body),
        ("span", span s)]

/-- A rule. -/
def rule : Rule → Dump
  | ⟨sel, body, s⟩ =>
    record "Rule"
      [("selector", selector sel), ("body", list (statements body)), ("span", span s)]

/-- The block of an at-rule, if it has one. -/
def block : Option (List Statement) → Dump
  | none => option none
  | some body => option (some (list (statements body)))

/-- Statements in order. -/
def statements : List Statement → List Dump
  | [] => []
  | st :: sts => statement st :: statements sts

end

/-- An item of a program. -/
def item : Item → Dump
  | .rule r => tuple "Rule" [rule r]
  | .atRule a => tuple "AtRule" [atRule a]

/-- A program. -/
def program (p : Program) : Dump := record "Program" [("items", list (p.items.map item))]

end Dump

/-- A program in full. -/
def Program.dump (p : Program) : String := (Dump.program p).render

end RuleScript
