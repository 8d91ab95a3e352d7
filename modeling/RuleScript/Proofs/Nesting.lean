import RuleScript.Eval.Semantics

/-!
# Blocks, and what is evaluated in them

Two structures are set side by side here. The **text** of a program is a nest of
blocks: the top level, the bodies of rules and the blocks of `@if`. A **run** of a
program is a tree of visits: evaluating an expression or a statement and calling
a rule are tasks, each of which starts further ones.

* `Program.Nest p path`: `path` is a block of `p` and the blocks around it,
  innermost first.
* `Visit.Starts`: what a visit starts directly, one constructor for each place
  at which the evaluator goes on to a part. Every visit carries the path of the
  block it belongs to. A call goes on in the block of the rule it has found:
  where the rule was found `k` scopes outward, its body is a block `k` levels
  outward in the text.
* `Program.Visits`: all visits of the runs of a program.
-/

namespace RuleScript

/-! ### Blocks of a program -/

/-- A block: statements, and the parameters of the rule whose body they are. -/
structure Block where
  /-- the parameters that are variables of the block -/
  parameters : List Parameter
  /-- the statements that stand directly in the block -/
  body : List Statement

/-- An item of a program as a statement of the outermost block. -/
def Item.statement : Item → Statement
  | .rule r => .rule r
  | .atRule a => .atRule a

/-- The top level of a program. -/
def Program.block (p : Program) : Block := ⟨[], p.items.map Item.statement⟩

/-- The body of a rule. -/
def Rule.block (r : Rule) : Block := ⟨r.selector.parameters, r.body⟩

/-- A block that stands **directly** in another: the body of a rule that is
defined there, or the block of an `@if` that stands there. -/
inductive Block.Holds (outer : Block) : Block → Prop where
  /-- the body of a rule -/
  | rule {r : Rule} (hr : .rule r ∈ outer.body) : outer.Holds r.block
  /-- the block of an `@if` -/
  | condition {a : AtRule} {body : List Statement} (ha : .atRule a ∈ outer.body)
    (hname : a.name.text = "if") (hbody : a.body = some body) : outer.Holds ⟨[], body⟩

/-- The **nests** of a program: a block and all blocks around it, innermost
first. -/
inductive Program.Nest (p : Program) : List Block → Prop where
  /-- the top level, around which there is nothing -/
  | top : p.Nest [p.block]
  /-- a block in a block -/
  | inner {b c : Block} {bs : List Block} (h : p.Nest (b :: bs)) (hc : b.Holds c) :
    p.Nest (c :: b :: bs)

/-- What is true of the top level, and of every block that stands directly in one of which it is
true, is true of **all blocks**. -/
theorem Program.Nest.forall_mem {p : Program} {P : Block → Prop} {path : List Block}
    (h : p.Nest path) (htop : P p.block) (hinner : ∀ b c, P b → b.Holds c → P c) :
    ∀ b ∈ path, P b := by
  induction h with
  | top => exact List.forall_mem_singleton.2 htop
  | inner _ hc ih => exact List.forall_mem_cons.2 ⟨hinner _ _ (ih _ List.mem_cons_self) hc, ih⟩

/-! ### Visits of a run -/

/-- Something the evaluator is asked to do. -/
inductive Visit.Task where
  /-- evaluate an expression in a scope -/
  | expr (scope : ScopeId) (e : Expr)
  /-- run a statement in a scope -/
  | statement (scope : ScopeId) (st : Statement)
  /-- call a rule that is held by a scope -/
  | invoke (rule : Rule) (holder : ScopeId) (args : List Value) (span : Span)

/-- A task that is taken up in some world. The path is the block the task belongs
to, with the blocks around it; for a call it is the block that defines the rule. -/
structure Visit where
  /-- the block of the task, innermost first -/
  path : List Block
  /-- the task -/
  task : Visit.Task
  /-- the world in which it is taken up -/
  world : World

/-- The scope a task is done in; for a call, the one that holds the rule. -/
def Visit.scope (v : Visit) : ScopeId :=
  match v.task with
  | .expr scope _ => scope
  | .statement scope _ => scope
  | .invoke _ holder _ _ => holder

/-- A task **stands in** a nest if its text stands directly in the innermost
block: a statement is one of the block's, and a rule that is called is defined
there. -/
def Visit.Task.StandsIn (path : List Block) : Visit.Task → Prop
  | .expr _ _ => True
  | .statement _ st => ∃ b bs, path = b :: bs ∧ st ∈ b.body
  | .invoke rule _ _ _ => ∃ b bs, path = b :: bs ∧ .rule rule ∈ b.body

/-- The world with a scope added inside another. -/
def World.entering (w : World) (parent : ScopeId) : World :=
  ⟨w.store.add (some parent), w.sink, w.events⟩

/-- The world with an event recorded. -/
def World.noting (w : World) (event : Event) : World :=
  ⟨w.store, w.sink, w.events.push event⟩

/-- Whether the right operand of an operator is evaluated after this left one. -/
def BinaryOp.goesOn : BinaryOp → Value → Prop
  | .and, left => left = .bool true
  | .or, left => left = .bool false
  | _, _ => True

theorem BinaryOp.goesOn_of_ne {op : BinaryOp} (hand : op ≠ .and) (hor : op ≠ .or) (left : Value) :
    op.goesOn left := by
  unfold goesOn
  split
  · exact absurd rfl hand
  · exact absurd rfl hor
  · trivial

open Eval in
/-- What a visit starts **directly**, where its parts are evaluated at the given
depth. Parts before the one that is started have been evaluated, and the world is
the one they left. -/
inductive Visit.Starts (depth : Nat) : Visit → Visit → Prop where
  /-- the operand of an operator -/
  | operand {path scope op e span w} :
    Starts depth ⟨path, .expr scope (.unary op e span), w⟩ ⟨path, .expr scope e, w⟩
  /-- the left operand -/
  | left {path scope op l r span w} :
    Starts depth ⟨path, .expr scope (.binary op l r span), w⟩ ⟨path, .expr scope l, w⟩
  /-- the right operand, unless the left one decides -/
  | right {path scope op l r span w a w'}
    (hleft : (expr depth scope l).run w = (.done a, w')) (hgoes : op.goesOn a) :
    Starts depth ⟨path, .expr scope (.binary op l r span), w⟩ ⟨path, .expr scope r, w'⟩
  /-- an argument of a call -/
  | argument {path scope name before e after span w values w'}
    (hbefore : (arguments (expr depth scope) before).run w = (.done values, w')) :
    Starts depth ⟨path, .expr scope (.call name (before ++ e :: after) span), w⟩
      ⟨path, .expr scope e, w'⟩
  /-- the rule that is called, found `k` scopes outward after the arguments -/
  | call {path scope name args span w values w' rule holder k}
    (hargs : (arguments (expr depth scope) args).run w = (.done values, w'))
    (hfound : callee w'.store scope name = .ok (.rule rule holder))
    (hk : (w'.store.chain scope)[k]? = some holder) :
    Starts depth ⟨path, .expr scope (.call name args span), w⟩
      ⟨path.drop k, .invoke rule holder values span, w'⟩
  /-- the value of a variable that is declared -/
  | declared {path scope d e w} (hd : d.property.isVariable = true) (hv : d.values = [e]) :
    Starts depth ⟨path, .statement scope (.declaration d), w⟩ ⟨path, .expr scope e, w⟩
  /-- an argument of a call statement, once the callee is known -/
  | statementArgument {path scope d w target before e after values w'}
    (hd : d.property.isVariable = false)
    (hfound : callee w.store scope d.property = .ok target)
    (hv : d.values = before ++ e :: after)
    (hbefore : (arguments (expr depth scope) before).run w = (.done values, w')) :
    Starts depth ⟨path, .statement scope (.declaration d), w⟩ ⟨path, .expr scope e, w'⟩
  /-- the rule of a call statement, found `k` scopes outward before the arguments -/
  | statementCall {path scope d w rule holder k values w'}
    (hd : d.property.isVariable = false)
    (hfound : callee w.store scope d.property = .ok (.rule rule holder))
    (hk : (w.store.chain scope)[k]? = some holder)
    (hargs : (arguments (expr depth scope) d.values).run w = (.done values, w')) :
    Starts depth ⟨path, .statement scope (.declaration d), w⟩
      ⟨path.drop k, .invoke rule holder values d.span, w'⟩
  /-- the condition of an `@if` -/
  | condition {path scope a e body w} (hname : a.name.text = "if") (hparam : a.parameters = [e])
    (hbody : a.body = some body) :
    Starts depth ⟨path, .statement scope (.atRule a), w⟩ ⟨path, .expr scope e, w⟩
  /-- a statement in the block of an `@if`, in a scope of its own -/
  | inner {path scope a e body w w' before st after value w''} (hname : a.name.text = "if")
    (hparam : a.parameters = [e]) (hbody : a.body = some body)
    (hcond : (expr depth scope e).run w = (.done (.bool true), w'))
    (hsplit : body = before ++ st :: after)
    (hbefore : (sequence (statement depth w'.store.frames.size) .nil before).run
      (w'.entering scope) = (.done (.next value), w'')) :
    Starts depth ⟨path, .statement scope (.atRule a), w⟩
      ⟨⟨[], body⟩ :: path, .statement w'.store.frames.size st, w''⟩
  /-- the value that is returned -/
  | payload {path scope a e w} (hname : a.name.text = "return") (hbody : a.body = none)
    (hparam : a.parameters = [e]) :
    Starts depth ⟨path, .statement scope (.atRule a), w⟩ ⟨path, .expr scope e, w⟩
  /-- the default of a parameter without a value, in the scope that holds the
  rule -/
  | default {path rule holder args span w before q after e w'}
    (hargs : args.length ≤ rule.selector.parameters.length)
    (hsplit : rule.selector.parameters = before ++ q :: after)
    (hbefore : (bindParameters (expr depth holder) rule.name span w.store.frames.size before
      args).run ((w.noting (.invokingRule rule.name args.length)).entering holder) = (.done (), w'))
    (harg : (args.drop before.length).head?.filter (!·.isNil) = none)
    (hdefault : q.default = some e) :
    Starts depth ⟨path, .invoke rule holder args span, w⟩ ⟨path, .expr holder e, w'⟩
  /-- a statement in the body of the rule, in a scope of its own -/
  | body {path rule holder args span w w' before st after value w''}
    (hargs : args.length ≤ rule.selector.parameters.length)
    (hbound : (bindParameters (expr depth holder) rule.name span w.store.frames.size
      rule.selector.parameters args).run
      ((w.noting (.invokingRule rule.name args.length)).entering holder) = (.done (), w'))
    (hsplit : rule.body = before ++ st :: after)
    (hbefore : (sequence (statement depth w.store.frames.size) .nil before).run w' =
      (.done (.next value), w'')) :
    Starts depth ⟨path, .invoke rule holder args span, w⟩
      ⟨rule.block :: path, .statement w.store.frames.size st, w''⟩

/-- What a visit at one depth leads to, in any number of steps. -/
inductive Visit.Reaches : Nat → Visit → Nat → Visit → Prop where
  /-- the visit itself -/
  | refl {n v} : Reaches n v n v
  /-- what is reached from a visit that it starts -/
  | step {n m v v' u} (h : v.Starts n v') (hu : Reaches n v' m u) : Reaches (n + 1) v m u

/-- The visit that a run of a program begins with, once its rules are defined:
the call of the main rule. -/
inductive Program.Begins (p : Program) (sink : Sink) : Visit → Prop where
  /-- the call of the main rule -/
  | main {w rule holder}
    (hregister : (Eval.register 0 p.items).run ⟨.add .empty none, sink, #[]⟩ = (.done (), w))
    (hmain : w.store.rule? 0 Eval.mainName = some (rule, holder)) :
    p.Begins sink ⟨[p.block], .invoke rule holder [] rule.selector.span,
      w.noting (.invokingMain p.items.length)⟩

/-- The **visits** of a program that is run on a sink with so much depth. -/
def Program.Visits (p : Program) (limit : Nat) (sink : Sink) (depth : Nat) (v : Visit) : Prop :=
  ∃ main, p.Begins sink main ∧ Visit.Reaches limit main depth v

end RuleScript
