import RuleScript.Proofs.Reports
import RuleScript.Proofs.WellFormed

/-!
# Dashes in front of variables

A variable is read, and a parameter is named, with two dashes in front or without them. A program
is **undashed** by leaving the dashes out wherever a variable is read and wherever a parameter is
named; what is declared, called or defined keeps its name as it is.

* `Program.undashed`: the program without those dashes.
* `Program.gist_undashed`: no name has dashes left behind its dashes, so nothing that evaluation
  sees has changed.
* `dashes_irrelevant`: a program that was read does the same without those dashes.
-/

namespace RuleScript

/-! ### Leaving out the dashes -/

/-- The variable that a name stands for, where the name is written. -/
def Name.undashed (n : Name) : Name := ⟨n.variableName, n.span⟩

mutual

/-- An expression in which variables are read without dashes. -/
def Expr.undashed : Expr → Expr
  | .literal value s => .literal value s
  | .bare name => .bare name
  | .deref name s => .deref name.undashed s
  | .call callee args s => .call callee (Expr.undashedAll args) s
  | .unary op operand s => .unary op (Expr.undashed operand) s
  | .binary op left right s => .binary op (Expr.undashed left) (Expr.undashed right) s

/-- Expressions in which variables are read without dashes. -/
def Expr.undashedAll : List Expr → List Expr
  | [] => []
  | e :: es => Expr.undashed e :: Expr.undashedAll es

end

/-- A parameter without dashes, in its name and in its default. -/
def Parameter.undashed (q : Parameter) : Parameter :=
  ⟨q.name.undashed, q.default.map Expr.undashed, q.span⟩

/-- A selector whose parameters have no dashes. The name that it defines is kept. -/
def Selector.undashed (s : Selector) : Selector :=
  ⟨s.name, s.parameters.map Parameter.undashed, s.span⟩

/-- A declaration whose values have no dashes. The name that it declares is kept: without its dashes
it would not be that of a variable. -/
def Declaration.undashed (d : Declaration) : Declaration :=
  ⟨d.property, d.values.map Expr.undashed, d.span⟩

mutual

/-- A statement without dashes. -/
def Statement.undashed : Statement → Statement
  | .declaration d => .declaration d.undashed
  | .atRule a => .atRule (AtRule.undashed a)
  | .rule r => .rule (Rule.undashed r)

/-- An at-rule without dashes. -/
def AtRule.undashed : AtRule → AtRule
  | ⟨name, parameters, body, s⟩ =>
    ⟨name, parameters.map Expr.undashed, Statement.undashedBody body, s⟩

/-- A rule without dashes. -/
def Rule.undashed : Rule → Rule
  | ⟨selector, body, s⟩ => ⟨selector.undashed, Statement.undashedAll body, s⟩

/-- The block of an at-rule without dashes, if it has one. -/
def Statement.undashedBody : Option (List Statement) → Option (List Statement)
  | none => none
  | some body => some (Statement.undashedAll body)

/-- Statements without dashes. -/
def Statement.undashedAll : List Statement → List Statement
  | [] => []
  | st :: sts => Statement.undashed st :: Statement.undashedAll sts

end

/-- An item of a program without dashes. -/
def Item.undashed : Item → Item
  | .rule r => .rule r.undashed
  | .atRule a => .atRule a.undashed

/-- **A program without dashes**: they are left out wherever a variable is read and wherever a
parameter is named. -/
def Program.undashed (p : Program) : Program := ⟨p.items.map Item.undashed⟩

/-! ### Names that have dashes once -/

/-- No name inside a node has **dashes behind its dashes**. -/
def Node.OnceDashed (n : Node) : Prop :=
  ∀ c m, n.Contains c → c.identifier? = some m → Name.hasDashes m.variableName = false

namespace Node.OnceDashed

/-- What is said of the names of a node is said of those of **its children**. -/
theorem child {n c : Node} (h : n.OnceDashed) (hc : c ∈ n.children) : c.OnceDashed :=
  fun _ _ hcontains => h _ _ (.child hc hcontains)

theorem name {n : Name} (h : (Node.name n).OnceDashed) : Name.hasDashes n.variableName = false :=
  h _ _ (.self _) rfl

/-- The names of a program that was read have dashes at most once. -/
theorem of_parse {source : String} {p : Program} (h : parse source = .ok p) {i : Item}
    (hi : i ∈ p.items) : (Node.ofItem i).OnceDashed :=
  fun _ _ hcontains hm => (names_of_parse h ⟨i, hi, hcontains⟩ hm).hasDashes_variableName

end Node.OnceDashed

/-! ### What evaluation sees without dashes -/

/-- A name without its dashes stands for **the same variable**. -/
theorem Name.variableGist_undashed {n : Name} (h : hasDashes n.variableName = false) :
    n.undashed.variableGist = n.variableGist := by
  have hname : n.undashed.variableName = n.variableName := withoutDashes_of_not_hasDashes h
  rw [variableGist, hname, variableGist]

variable (v : View)

mutual

/-- An expression without dashes has **the same gist**. -/
theorem Expr.gist_undashed (e : Expr) (h : (Node.expr e).OnceDashed) :
    e.undashed.gist v = e.gist v := by
  cases e with
  | literal value s => rfl
  | bare name => rfl
  | deref name s =>
    have hname : (Node.name name).OnceDashed := h.child (.head _)
    rw [Expr.undashed, Expr.gist, Expr.gist, Name.variableGist_undashed hname.name]
  | call callee args s =>
    have hargs : ∀ e ∈ args, (Node.expr e).OnceDashed := fun e he =>
      h.child (.tail _ (List.mem_map_of_mem he))
    rw [Expr.undashed, Expr.gist, Expr.gist, Expr.gists_undashedAll args hargs]
  | unary op operand s =>
    rw [Expr.undashed, Expr.gist, Expr.gist, Expr.gist_undashed operand (h.child (.head _))]
  | binary op left right s =>
    rw [Expr.undashed, Expr.gist, Expr.gist, Expr.gist_undashed left (h.child (.head _)),
      Expr.gist_undashed right (h.child (.tail _ (.head _)))]

theorem Expr.gists_undashedAll (es : List Expr) (h : ∀ e ∈ es, (Node.expr e).OnceDashed) :
    Expr.gists v (Expr.undashedAll es) = Expr.gists v es := by
  cases es with
  | nil => rfl
  | cons e es =>
    rw [Expr.undashedAll, Expr.gists, Expr.gists, Expr.gist_undashed e (h e (.head _)),
      Expr.gists_undashedAll es fun e' he' => h e' (.tail _ he')]

end

theorem Expr.map_gist_undashed {es : List Expr} (h : ∀ e ∈ es, (Node.expr e).OnceDashed) :
    (es.map Expr.undashed).map (Expr.gist v) = es.map (Expr.gist v) := by
  rw [List.map_map]
  apply List.map_congr_left
  intro e he
  exact Expr.gist_undashed v e (h e he)

/-- A parameter without dashes has **the same gist**. -/
theorem Parameter.gist_undashed (q : Parameter) (h : (Node.parameter q).OnceDashed) :
    q.undashed.gist v = q.gist v := by
  have hname : (Node.name q.name).OnceDashed := h.child (.head _)
  have hdefault : (q.default.map Expr.undashed).map (Expr.gist v)
      = q.default.map (Expr.gist v) := by
    rw [Option.map_map]
    apply Option.map_congr
    intro e he
    apply Expr.gist_undashed
    exact h.child (.tail _ (List.mem_map_of_mem (Option.mem_toList.2 he)))
  rw [Parameter.undashed, Parameter.gist, Name.variableGist_undashed hname.name, hdefault,
    Parameter.gist]

theorem Selector.gist_undashed (s : Selector) (h : (Node.selector s).OnceDashed) :
    s.undashed.gist v = s.gist v := by
  have hparameters : (s.parameters.map Parameter.undashed).map (Parameter.gist v)
      = s.parameters.map (Parameter.gist v) := by
    rw [List.map_map]
    apply List.map_congr_left
    intro q hq
    exact Parameter.gist_undashed v q (h.child (.tail _ (List.mem_map_of_mem hq)))
  rw [Selector.undashed, Selector.gist, hparameters, Selector.gist]

theorem Statement.isReturn_undashed (st : Statement) : st.undashed.isReturn = st.isReturn := by
  cases st with
  | declaration d => rfl
  | rule r => rfl
  | atRule a => cases a; rfl

mutual

/-- A statement without dashes has **the same gist**. -/
theorem Statement.gist_undashed (st : Statement) (h : (Node.ofStatement st).OnceDashed) :
    st.undashed.gist v = st.gist v := by
  cases st with
  | declaration d =>
    have hvalues : ∀ e ∈ d.values, (Node.expr e).OnceDashed := fun e he =>
      h.child (.tail _ (List.mem_map_of_mem he))
    rw [Statement.undashed, Statement.gist, Statement.gist, Declaration.undashed, Declaration.gist,
      Expr.map_gist_undashed v hvalues, Declaration.gist]
  | atRule a => rw [Statement.undashed, Statement.gist, Statement.gist, AtRule.gist_undashed a h]
  | rule r => rw [Statement.undashed, Statement.gist, Statement.gist, Rule.gist_undashed r h]

theorem AtRule.gist_undashed (a : AtRule) (h : (Node.atRule a).OnceDashed) :
    a.undashed.gist v = a.gist v := by
  cases a with
  | mk name parameters body s =>
    have hparameters : ∀ e ∈ parameters, (Node.expr e).OnceDashed := fun e he =>
      h.child (.tail _ (List.mem_append_left _ (List.mem_map_of_mem he)))
    have hbody : ∀ st ∈ body.getD [], (Node.ofStatement st).OnceDashed := fun st hst =>
      h.child (.tail _ (List.mem_append_right _ (List.mem_map_of_mem hst)))
    rw [AtRule.undashed, AtRule.gist, AtRule.gist, Expr.map_gist_undashed v hparameters,
      Statement.gistBody_undashed body hbody]

/-- A rule without dashes has **the same gist**. -/
theorem Rule.gist_undashed (r : Rule) (h : (Node.rule r).OnceDashed) :
    r.undashed.gist v = r.gist v := by
  cases r with
  | mk selector body s =>
    have hselector : (Node.selector selector).OnceDashed := h.child (.head _)
    have hbody : ∀ st ∈ body, (Node.ofStatement st).OnceDashed := fun st hst =>
      h.child (.tail _ (List.mem_map_of_mem hst))
    rw [Rule.undashed, Rule.gist, Rule.gist, Selector.gist_undashed v selector hselector,
      Statement.gists_undashedAll body hbody]

theorem Statement.gistBody_undashed (body : Option (List Statement))
    (h : ∀ st ∈ body.getD [], (Node.ofStatement st).OnceDashed) :
    Statement.gistBody v (Statement.undashedBody body) = Statement.gistBody v body := by
  cases body with
  | none => rfl
  | some body =>
    rw [Statement.undashedBody, Statement.gistBody, Statement.gistBody,
      Statement.gists_undashedAll body h]

theorem Statement.gists_undashedAll (sts : List Statement)
    (h : ∀ st ∈ sts, (Node.ofStatement st).OnceDashed) :
    Statement.gists v (Statement.undashedAll sts) = Statement.gists v sts := by
  cases sts with
  | nil => rfl
  | cons st sts =>
    rw [Statement.undashedAll, Statement.gists, Statement.gists,
      Statement.gist_undashed st (h st (.head _)),
      Statement.gists_undashedAll sts fun st' hst' => h st' (.tail _ hst'),
      Statement.isReturn_undashed]

end

theorem Item.gist_undashed (i : Item) (h : (Node.ofItem i).OnceDashed) :
    i.undashed.gist v = i.gist v := by
  cases i with
  | rule r => rw [Item.undashed, Item.gist, Item.gist, Rule.gist_undashed v r h]
  | atRule a => rw [Item.undashed, Item.gist, Item.gist, AtRule.gist_undashed v a h]

/-- Where names have dashes at most once, a program and the program without dashes have items of
**the same gist**. -/
theorem Program.gist_undashed {p : Program} (h : ∀ i ∈ p.items, (Node.ofItem i).OnceDashed) :
    p.undashed.items.map (Item.gist v) = p.items.map (Item.gist v) := by
  rw [Program.undashed, List.map_map]
  apply List.map_congr_left
  intro i hi
  exact Item.gist_undashed v i (h i hi)

/-! ### Running without dashes -/

/-- **Dashes in front of a variable are irrelevant** where it is read and where a parameter is
named. A program that was read does the same without them, at every depth and on every sink: it
ends with the same value or the same fault or does not come to an end, prints the same and records
the same. -/
theorem dashes_irrelevant (source : String) (p : Program) (h : parse source = .ok p) (depth : Nat)
    (sink : Sink) : p.undashed.report depth sink = p.report depth sink := by
  have hgists : p.undashed.items.map (Item.gist .exact) = p.items.map (Item.gist .exact) :=
    Program.gist_undashed .exact fun _ hi => .of_parse h hi
  exact Program.report_eq_of_gist (.refl False depth) hgists False.elim

/-- A program that writes **dashes wherever it can**. -/
def Program.dashed : Program :=
  let parameter : Parameter :=
    ⟨⟨"--a", .inLine 5 8⟩, some (.literal (.int 2) (.inLine 11 12)), .inLine 4 13⟩
  let returning : Statement := .atRule ⟨⟨"return", .inLine 16 22⟩,
    [.deref ⟨"--a", .inLine 24 27⟩ (.inLine 23 27)], none, .inLine 15 28⟩
  ⟨[.rule ⟨⟨⟨"main", .inLine 0 4⟩, [parameter], .inLine 0 13⟩, [returning], .inLine 0 29⟩]⟩

/-- A program that writes dashes does what it does without them. -/
theorem dashes_irrelevant_written :
    let source := "main[--a = 2] \x7b@return $--a;\x7d"
    ∃ p, parse source = .ok p ∧
      p.undashed ≠ p ∧
      (p.report 10 (.empty none)).1.outcome = .done (.int 2) ∧
      (p.undashed.report 10 (.empty none)).1.outcome = .done (.int 2) := by
  intro source
  have hparse : parse "main[--a = 2] \x7b@return $--a;\x7d" = .ok .dashed :=
    parse_of_tokens [.inLine (.name "main") 0 4, .inLine (.symbol .openBracket) 4 5,
      .inLine (.name "--a") 5 8, .inLine (.symbol .assign) 9 10, .inLine (.int 2) 11 12,
      .inLine (.symbol .closeBracket) 12 13, .inLine (.symbol .openBrace) 14 15,
      .inLine (.symbol .at) 15 16, .inLine (.name "return") 16 22, .inLine (.symbol .dollar) 23 24,
      .inLine (.name "--a") 24 27, .inLine (.symbol .semicolon) 27 28,
      .inLine (.symbol .closeBrace) 28 29] (.inLine 29 29) (by with_unfolding_all rfl)
      (by with_unfolding_all rfl)
  have hvalue : (Program.dashed.report 10 (.empty none)).1.outcome = .done (.int 2) := by
    with_unfolding_all rfl
  have hne : Program.dashed.undashed ≠ .dashed := by
    simp [Program.dashed, Program.undashed, Item.undashed, Rule.undashed, Selector.undashed,
      Parameter.undashed, Name.undashed, Name.variableName, Name.withoutDashes]
  refine ⟨.dashed, hparse, hne, hvalue, ?_⟩
  rw [dashes_irrelevant source .dashed hparse]
  exact hvalue

end RuleScript
