import RuleScript.Proofs.View

/-!
# What evaluation sees of a program

Programs that differ in where things are written, or in what is never reached,
behave alike. To say so, a program is brought into a form in which only that is
left which evaluation depends on: its **gist**.

* `Expr.gist`, `Statement.gist`, `Rule.gist`, …: spans are taken as a view has
  them; a variable that is read and a parameter keep the variable they stand for,
  with or without dashes; what follows a return is gone.
* `Program.gist_eq_of_seen`: programs that are equal up to spans have items of the
  same gist.
-/

namespace RuleScript

variable (v : View)

/-! ### Expressions -/

/-- The name of a variable that is read, or of a parameter: only the variable
counts. -/
def Name.variableGist (n : Name) : Name := ⟨n.variableName, Inhabited.default⟩

mutual

/-- The gist of an expression. -/
def Expr.gist : Expr → Expr
  | .literal value s => .literal value (v.span s)
  | .bare name => .bare (name.seen v)
  | .deref name s => .deref name.variableGist (v.span s)
  | .call callee args s => .call (callee.seen v) (Expr.gists args) (v.span s)
  | .unary op operand s => .unary op (Expr.gist operand) (v.span s)
  | .binary op left right s => .binary op (Expr.gist left) (Expr.gist right) (v.span s)

/-- The gists of expressions. -/
def Expr.gists : List Expr → List Expr
  | [] => []
  | e :: es => Expr.gist e :: Expr.gists es

end

theorem Expr.gists_eq_map (es : List Expr) : Expr.gists v es = es.map (Expr.gist v) := by
  induction es with
  | nil => rfl
  | cons e es ih => rw [Expr.gists, ih, List.map_cons]

/-- The gist of an expression keeps its **span** as it is seen. -/
@[simp]
theorem Expr.span_gist (e : Expr) : (e.gist v).span = v.span e.span := by
  cases e <;> rfl

/-! ### Statements and rules -/

/-- The gist of a parameter. -/
def Parameter.gist (q : Parameter) : Parameter :=
  ⟨q.name.variableGist, q.default.map (Expr.gist v), Inhabited.default⟩

/-- The gist of a selector. -/
def Selector.gist (s : Selector) : Selector :=
  ⟨s.name.seen v, s.parameters.map (Parameter.gist v), v.span s.span⟩

/-- The gist of a declaration. -/
def Declaration.gist (d : Declaration) : Declaration :=
  ⟨d.property.seen v, d.values.map (Expr.gist v), v.span d.span⟩

/-- Whether a statement is a return, after which nothing is reached. -/
def Statement.isReturn : Statement → Bool
  | .atRule a => a.name.text = "return"
  | _ => false

mutual

/-- The gist of a statement. -/
def Statement.gist : Statement → Statement
  | .declaration d => .declaration (d.gist v)
  | .atRule a => .atRule (AtRule.gist a)
  | .rule r => .rule (Rule.gist r)

/-- The gist of an at-rule. -/
def AtRule.gist : AtRule → AtRule
  | ⟨name, parameters, body, s⟩ =>
    ⟨name.seen v, parameters.map (Expr.gist v), Statement.gistBody body, v.span s⟩

/-- The gist of a rule. -/
def Rule.gist : Rule → Rule
  | ⟨selector, body, _⟩ => ⟨selector.gist v, Statement.gists body, default⟩

/-- The gist of the block of an at-rule, if it has one. -/
def Statement.gistBody : Option (List Statement) → Option (List Statement)
  | none => none
  | some body => some (Statement.gists body)

/-- The gists of statements, up to the first return. -/
def Statement.gists : List Statement → List Statement
  | [] => []
  | st :: sts => Statement.gist st :: if st.isReturn then [] else Statement.gists sts

end

theorem Statement.gistBody_eq_map (body : Option (List Statement)) :
    Statement.gistBody v body = body.map (Statement.gists v) := by
  cases body <;> rfl

/-- The gist of an item of a program. -/
def Item.gist : Item → Item
  | .rule r => .rule (r.gist v)
  | .atRule a => .atRule (a.gist v)

/-- The gist of a return is a return, and **of nothing else**. -/
@[simp]
theorem Statement.isReturn_gist (st : Statement) : (st.gist v).isReturn = st.isReturn := by
  cases st with
  | declaration d => rfl
  | rule r => rfl
  | atRule a => cases a; rfl

/-! ### Parts of one gist -/

section Parts

variable {v}

theorem Name.text_eq_of_seen {n n' : Name} (h : n.seen v = n'.seen v) : n.text = n'.text :=
  (Name.mk.inj h).1

theorem Name.span_eq_of_seen {n n' : Name} (h : n.seen v = n'.seen v) :
    v.span n.span = v.span n'.span :=
  (Name.mk.inj h).2

/-- Names of one gist stand for **the same variable**. -/
theorem Name.variableName_eq_of_gist {n n' : Name} (h : n.variableGist = n'.variableGist) :
    n.variableName = n'.variableName :=
  (Name.mk.inj h).1

/-- Expressions of one gist have **spans that look the same**. -/
theorem Expr.span_eq_of_gist {e e' : Expr} (h : e.gist v = e'.gist v) :
    v.span e.span = v.span e'.span := by
  rw [← Expr.span_gist, h, Expr.span_gist]

/-- Rules have one gist if their **selectors and bodies** have. -/
theorem Rule.gist_eq_iff {r r' : Rule} : r.gist v = r'.gist v ↔
    r.selector.gist v = r'.selector.gist v ∧
      Statement.gists v r.body = Statement.gists v r'.body := by
  cases r
  cases r'
  simp [Rule.gist]

/-- Selectors have one gist if their names look the same and their **parameters** have one gist. -/
theorem Selector.gist_eq_iff {s s' : Selector} : s.gist v = s'.gist v ↔
    s.name.seen v = s'.name.seen v ∧
      s.parameters.map (Parameter.gist v) = s'.parameters.map (Parameter.gist v) ∧
      v.span s.span = v.span s'.span := by
  simp [Selector.gist]

/-- At-rules have one gist if their names look the same and their **expressions and blocks** have
one gist. -/
theorem AtRule.gist_eq_iff {a a' : AtRule} : a.gist v = a'.gist v ↔
    a.name.seen v = a'.name.seen v ∧
      a.parameters.map (Expr.gist v) = a'.parameters.map (Expr.gist v) ∧
      a.body.map (Statement.gists v) = a'.body.map (Statement.gists v) ∧
      v.span a.span = v.span a'.span := by
  cases a
  cases a'
  simp [AtRule.gist, Statement.gistBody_eq_map]

/-- Rules of one gist have one name, written where it looks the same. -/
theorem Rule.name_seen_eq {r r' : Rule} (h : r.gist v = r'.gist v) :
    r.selector.name.seen v = r'.selector.name.seen v :=
  (Selector.gist_eq_iff.1 (Rule.gist_eq_iff.1 h).1).1

/-- Rules of one gist have **the same name**. -/
theorem Rule.name_eq {r r' : Rule} (h : r.gist v = r'.gist v) : r.name = r'.name :=
  Name.text_eq_of_seen (Rule.name_seen_eq h)

end Parts

/-! ### Programs that are equal up to spans -/

mutual

/-- The gist of an expression **as it is seen** is the gist in that view. -/
theorem Expr.gist_seen (e : Expr) : (e.seen v).gist .exact = e.gist v := by
  cases e with
  | literal value s => rfl
  | bare name => rfl
  | deref name s => rfl
  | call callee args s =>
    rw [Expr.seen, Expr.gist, Expr.gist, Expr.gists_seenAll args]
    rfl
  | unary op operand s =>
    rw [Expr.seen, Expr.gist, Expr.gist, Expr.gist_seen operand]
    rfl
  | binary op left right s =>
    rw [Expr.seen, Expr.gist, Expr.gist, Expr.gist_seen left, Expr.gist_seen right]
    rfl

theorem Expr.gists_seenAll (es : List Expr) :
    Expr.gists .exact (Expr.seenAll v es) = Expr.gists v es := by
  cases es with
  | nil => rfl
  | cons e es =>
    rw [Expr.seenAll, Expr.gists, Expr.gists, Expr.gist_seen e, Expr.gists_seenAll es]

end

theorem Expr.map_gist_seen (es : List Expr) :
    (es.map (Expr.seen v)).map (Expr.gist .exact) = es.map (Expr.gist v) := by
  rw [List.map_map]
  exact List.map_congr_left fun e _ => Expr.gist_seen v e

/-- The gist of a **parameter** as it is seen is the gist in that view. -/
theorem Parameter.gist_seen (q : Parameter) : (q.seen v).gist .exact = q.gist v := by
  have hdefault : (q.default.map (Expr.seen v)).map (Expr.gist .exact)
      = q.default.map (Expr.gist v) := by
    rw [Option.map_map]
    exact Option.map_congr fun e _ => Expr.gist_seen v e
  rw [Parameter.seen, Parameter.gist, hdefault]
  rfl

theorem Selector.gist_seen (s : Selector) : (s.seen v).gist .exact = s.gist v := by
  have hparameters : (s.parameters.map (Parameter.seen v)).map (Parameter.gist .exact)
      = s.parameters.map (Parameter.gist v) := by
    rw [List.map_map]
    exact List.map_congr_left fun q _ => Parameter.gist_seen v q
  rw [Selector.seen, Selector.gist, hparameters]
  rfl

theorem Statement.isReturn_seen (st : Statement) : (st.seen v).isReturn = st.isReturn := by
  cases st with
  | declaration d => rfl
  | rule r => rfl
  | atRule a => cases a; rfl

mutual

/-- The gist of a **statement** as it is seen is the gist in that view. -/
theorem Statement.gist_seen (st : Statement) : (st.seen v).gist .exact = st.gist v := by
  cases st with
  | declaration d =>
    rw [Statement.seen, Statement.gist, Statement.gist, Declaration.seen, Declaration.gist,
      Expr.map_gist_seen]
    rfl
  | atRule a => rw [Statement.seen, Statement.gist, Statement.gist, AtRule.gist_seen a]
  | rule r => rw [Statement.seen, Statement.gist, Statement.gist, Rule.gist_seen r]

/-- The gist of an **at-rule** as it is seen is the gist in that view. -/
theorem AtRule.gist_seen (a : AtRule) : (a.seen v).gist .exact = a.gist v := by
  cases a with
  | mk name parameters body s =>
    rw [AtRule.seen, AtRule.gist, AtRule.gist, Expr.map_gist_seen, Statement.gistBody_seen body]
    rfl

/-- The gist of a **rule** as it is seen is the gist in that view. -/
theorem Rule.gist_seen (r : Rule) : (r.seen v).gist .exact = r.gist v := by
  cases r with
  | mk selector body s =>
    rw [Rule.seen, Rule.gist, Rule.gist, Selector.gist_seen, Statement.gists_seenAll body]

theorem Statement.gistBody_seen (body : Option (List Statement)) :
    Statement.gistBody .exact (Statement.seenBody v body) = Statement.gistBody v body := by
  cases body with
  | none => rfl
  | some body =>
    rw [Statement.seenBody, Statement.gistBody, Statement.gistBody, Statement.gists_seenAll body]

theorem Statement.gists_seenAll (sts : List Statement) :
    Statement.gists .exact (Statement.seenAll v sts) = Statement.gists v sts := by
  cases sts with
  | nil => rfl
  | cons st sts =>
    rw [Statement.seenAll, Statement.gists, Statement.gists, Statement.gist_seen st,
      Statement.gists_seenAll sts, Statement.isReturn_seen]

end

theorem Item.gist_seen (item : Item) : (item.seen v).gist .exact = item.gist v := by
  cases item with
  | rule r => rw [Item.seen, Item.gist, Item.gist, Rule.gist_seen]
  | atRule a => rw [Item.seen, Item.gist, Item.gist, AtRule.gist_seen]

/-- Programs that are **equal up to spans** have items of the same gist. -/
theorem Program.gist_eq_of_seen {p q : Program} (h : p.seen v = q.seen v) :
    p.items.map (Item.gist v) = q.items.map (Item.gist v) := by
  have hitems := congrArg (fun r : Program => r.items.map (Item.gist .exact)) h
  simpa only [Program.seen, List.map_map, Function.comp_def, Item.gist_seen] using hitems

end RuleScript
