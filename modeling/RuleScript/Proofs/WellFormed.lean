import RuleScript.Proofs.Acceptance
import RuleScript.Proofs.Coverage
import RuleScript.Proofs.Tiling

/-!
# Programs that were read are well formed

The grammar asks more of a program than its form, and so does the spelling of tokens. Both hold of
a program that was read **at every depth**: a variable is declared with one value, no rule has the
name of a variable, the parameters of a rule are spelled differently, names are names, and integers
are not negative.

* `Statement.Derived`: the statement was derived by a legal clause. So were the statements inside it
  (`Node.Derived.child`), and what is legal is lawful (`Node.Derived.lawful`).
* `Node.identifier?`: the name that a node is, and `Expr.ownKind?`, the token of an expression that
  has no node inside it.
-/

namespace RuleScript

/-! ### What the grammar asks for -/

/-- The statement was **derived** by a legal clause. -/
def Statement.Derived (st : Statement) : Prop :=
  ∃ c : Clause, c.Legal ∧ c.statement? = some (st.seen .blind)

theorem Statement.seenAll_eq_map (v : View) (sts : List Statement) :
    Statement.seenAll v sts = sts.map (Statement.seen v) := by
  induction sts with
  | nil => rfl
  | cons st sts ih => rw [Statement.seenAll, ih, List.map_cons]

namespace Clause

/-- What legal clauses stand for, one of them stands for. -/
theorem exists_of_mem_statements {cs : List Clause} {st : Statement} (hlegal : AllLegal cs)
    (h : st ∈ statements cs) : ∃ c : Clause, c.Legal ∧ c.statement? = some st := by
  induction cs with
  | nil => cases h
  | cons c cs ih =>
    obtain ⟨hc, hcs⟩ := hlegal
    obtain h | h := List.mem_append.1 h
    · exact ⟨c, hc, Option.mem_toList.1 h⟩
    · exact ih hcs h

theorem derived_of_statements {cs : List Clause} {sts : List Statement} (hlegal : AllLegal cs)
    (htrees : Statement.seenAll .blind sts = statements cs) : ∀ st ∈ sts, st.Derived := by
  intro st hst
  refine exists_of_mem_statements hlegal ?_
  rw [← htrees, Statement.seenAll_eq_map]
  exact List.mem_map_of_mem hst

end Clause

namespace Statement.Derived

/-- A **variable** was derived with one value. -/
theorem declaration {d : Declaration} (h : (Statement.declaration d).Derived)
    (hd : d.property.isVariable = true) : d.values.length = 1 := by
  obtain ⟨c, hlegal, htree⟩ := h
  rw [Statement.seen, Declaration.seen, Name.seen] at htree
  cases c <;> simp only [Clause.statement?, reduceCtorEq, Option.some.injEq,
    Statement.declaration.injEq, Declaration.mk.injEq, Name.mk.injEq] at htree
  case declaration property values =>
    obtain ⟨⟨rfl, -⟩, hvalues, -⟩ := htree
    have hlength := congrArg List.length hvalues
    rw [List.length_map, List.length_map] at hlength
    exact hlength ▸ hlegal hd

/-- The statements in the block of an **at-rule** were derived. -/
theorem atRule {a : AtRule} (h : (Statement.atRule a).Derived) :
    ∀ st ∈ a.body.getD [], st.Derived := by
  obtain ⟨name, parameters, body, s⟩ := a
  obtain ⟨c, hlegal, htree⟩ := h
  rw [Statement.seen, AtRule.seen] at htree
  cases c <;> simp only [Clause.statement?, reduceCtorEq, Option.some.injEq,
    Statement.atRule.injEq, AtRule.mk.injEq] at htree
  case atRule =>
    cases body with
    | none => exact nofun
    | some body => cases htree.2.2.1
  case atBlock cs =>
    cases body with
    | none => exact nofun
    | some body =>
      rw [Statement.seenBody, Option.some.injEq] at htree
      exact Clause.derived_of_statements hlegal htree.2.2.1.symm

/-- A **rule** was derived with a name that is no variable's and with parameters that are spelled
differently, and so were the statements of its body. -/
theorem rule {r : Rule} (h : (Statement.rule r).Derived) :
    r.selector.name.isVariable = false ∧ (r.selector.parameters.map (·.name.text)).Nodup ∧
      ∀ st ∈ r.body, st.Derived := by
  obtain ⟨⟨name, parameters, s⟩, body, s'⟩ := r
  obtain ⟨c, hlegal, htree⟩ := h
  rw [Statement.seen, Rule.seen, Selector.seen, Name.seen] at htree
  cases c <;> simp only [Clause.statement?, reduceCtorEq, Option.some.injEq,
    Statement.rule.injEq, Rule.mk.injEq, Selector.mk.injEq, Name.mk.injEq] at htree
  case rule rule slots cs =>
    obtain ⟨⟨⟨rfl, -⟩, hslots, -⟩, hbody, -⟩ := htree
    obtain ⟨hname, hnames, hlegal⟩ := hlegal
    refine ⟨hname, ?_, Clause.derived_of_statements hlegal hbody.symm⟩
    have hspelled := congrArg (List.map fun q : Parameter => q.name.text) hslots
    rw [List.map_map, List.map_map] at hspelled
    exact (hspelled ▸ hnames :)

end Statement.Derived

namespace Node

/-- A declaration, at-rule or rule was derived by a legal clause. -/
def Derived : Node → Prop
  | .declaration d => (Statement.declaration d).Derived
  | .atRule a => (Statement.atRule a).Derived
  | .rule r => (Statement.rule r).Derived
  | _ => True

theorem derived_ofStatement {st : Statement} (h : st.Derived) : (ofStatement st).Derived := by
  cases st <;> exact h

/-- What the grammar **asks of a node** beyond its form. -/
def Lawful : Node → Prop
  | .declaration d => d.property.isVariable = true → d.values.length = 1
  | .rule r => r.selector.name.isVariable = false ∧
      (r.selector.parameters.map (·.name.text)).Nodup
  | _ => True

/-- **Step**: the statements inside a derived node are derived. -/
theorem Derived.child {n m : Node} (h : n.Derived) (hm : m ∈ n.children) : m.Derived := by
  cases n with
  | name x => cases hm
  | expr e =>
    cases e <;> simp only [children, List.mem_cons, List.mem_map, List.not_mem_nil] at hm <;>
      grind [Derived]
  | parameter q =>
    obtain _ | ⟨_, hm⟩ := hm
    · trivial
    · obtain ⟨e, -, rfl⟩ := List.mem_map.1 hm
      trivial
  | selector s =>
    obtain _ | ⟨_, hm⟩ := hm
    · trivial
    · obtain ⟨q, -, rfl⟩ := List.mem_map.1 hm
      trivial
  | declaration d =>
    obtain _ | ⟨_, hm⟩ := hm
    · trivial
    · obtain ⟨e, -, rfl⟩ := List.mem_map.1 hm
      trivial
  | atRule a =>
    obtain _ | ⟨_, hm⟩ := hm
    · trivial
    · obtain hm | hm := List.mem_append.1 hm
      · obtain ⟨e, -, rfl⟩ := List.mem_map.1 hm
        trivial
      · obtain ⟨st, hst, rfl⟩ := List.mem_map.1 hm
        exact derived_ofStatement (Statement.Derived.atRule h st hst)
  | rule r =>
    obtain _ | ⟨_, hm⟩ := hm
    · trivial
    · obtain ⟨st, hst, rfl⟩ := List.mem_map.1 hm
      exact derived_ofStatement ((Statement.Derived.rule h).2.2 st hst)

/-- **Run**: so are those at any depth. -/
theorem Derived.contains {n m : Node} (h : n.Derived) (hm : n.Contains m) : m.Derived := by
  induction hm with
  | self n => exact h
  | child hc _ ih => exact ih (h.child hc)

theorem Derived.lawful {n : Node} (h : n.Derived) : n.Lawful := by
  cases n with
  | declaration d => exact Statement.Derived.declaration h
  | rule r => exact ⟨(Statement.Derived.rule h).1, (Statement.Derived.rule h).2.1⟩
  | _ => trivial

end Node

/-- **What was read was derived**, at every depth. -/
theorem derived_of_parse {source : String} {p : Program} (h : parse source = .ok p) :
    ∀ n, p.Has n → n.Derived := by
  rintro n ⟨i, hi, hn⟩
  obtain ⟨-, cs, -, hprogram, -, htree⟩ := derivation_of_parse h
  have hitems : p.items.map (Item.seen .blind) = (Clause.statements cs).filterMap Statement.item? :=
    congrArg Program.items htree
  have hitem := hitems ▸ List.mem_map_of_mem hi
  obtain ⟨st, hst, hst'⟩ := List.mem_filterMap.1 hitem
  obtain ⟨c, hlegal, hc⟩ := Clause.exists_of_mem_statements hprogram.legal hst
  refine Node.Derived.contains ?_ hn
  cases st <;> cases i <;> cases hst' <;> exact ⟨c, hlegal, hc⟩

/-! ### What the spelling asks for -/

/-- The token of an expression that has no node inside it. -/
def Expr.ownKind? : Expr → Option TokenKind
  | .literal l _ => some l.kind
  | .bare n => some (.name n.text)
  | _ => none

theorem Expr.ownKind?_withSpan (s : Span) (e : Expr) : (e.withSpan s).ownKind? = e.ownKind? := by
  cases e <;> rfl

/-- The token of a name or of an expression that has no node inside it. -/
def Node.ownKind? : Node → Option TokenKind
  | .name n => some (.name n.text)
  | .expr e => e.ownKind?
  | _ => none

/-- It is among the pieces that the node is written as, in whatever brackets it stands. -/
theorem Node.Production.mem_ownKind {n : Node} {ps : List Piece} {k : TokenKind}
    (h : n.Production ps) (hk : n.ownKind? = some k) : .token k ∈ ps := by
  induction h with
  | group s _ ih =>
    rw [Node.ownKind?, Expr.ownKind?_withSpan] at hk
    exact .tail _ (List.mem_append_left _ (ih hk))
  | name n | literal l s | bare n =>
    cases hk
    exact .head _
  | _ => cases hk

theorem Filled.exists_of_token {P : Node → List Token → Prop} {ps : List Piece} {ts : List Token}
    {k : TokenKind} (h : Filled P ps ts) (hk : .token k ∈ ps) : ∃ t ∈ ts, t.kind = k := by
  induction h with
  | nil => cases hk
  | @token _ t _ _ ht _ ih =>
    obtain _ | ⟨_, hk⟩ := hk
    · exact ⟨t, .head _, ht⟩
    · obtain ⟨u, hu, hkind⟩ := ih hk
      exact ⟨u, .tail _ hu, hkind⟩
  | node _ _ ih =>
    obtain _ | ⟨_, hk⟩ := hk
    obtain ⟨u, hu, hkind⟩ := ih hk
    exact ⟨u, List.mem_append_right _ hu, hkind⟩

/-- The token of a node that was read is **spelled** in the source. -/
theorem spelled_of_parse {source : String} {p : Program} (h : parse source = .ok p) {n : Node}
    {k : TokenKind} (hn : p.Has n) (hk : n.ownKind? = some k) : ∃ text, Spells text k := by
  obtain ⟨ts, span, hstream, -, -, hhas⟩ := tokens_of_parse h
  have hlex : lex source = .ok (ts ++ [⟨.eof, span⟩]) := by
    rw [lex_eq_stream, hstream]
    rfl
  obtain ⟨before, used, after, rfl, hread⟩ := hhas n hn
  obtain ⟨ps, hproduction, hpieces⟩ := hread.pieces
  obtain ⟨t, ht, rfl⟩ := hpieces.exists_of_token (hproduction.mem_ownKind hk)
  exact ⟨_, ((tiles_of_lex hlex).placed t (by simp [ht])).spelled⟩

/-- The name that a node is, if it is one: one that is called, read, declared or defined, or one
that stands by itself. -/
def Node.identifier? : Node → Option Name
  | .name n => some n
  | .expr (.bare n) => some n
  | _ => none

theorem Node.ownKind?_of_identifier {n : Node} {m : Name} (h : n.identifier? = some m) :
    n.ownKind? = some (.name m.text) := by
  unfold identifier? at h
  split at h <;> cases h <;> rfl

namespace Name

theorem hasDashes_eq_false {text : String} {first : Char} {rest : List Char}
    (h : text.toList = first :: rest) (hfirst : first ≠ '-') : hasDashes text = false := by
  unfold hasDashes
  rw [h]
  split
  · next heq =>
    cases heq
    exact absurd rfl hfirst
  · rfl

theorem withoutDashes_of_hasDashes {text : String} (h : hasDashes text = true) :
    text = "--" ++ withoutDashes text := by
  unfold hasDashes at h
  unfold withoutDashes
  split at h
  · next rest heq =>
    exact String.toList_inj.1 (by simp [heq])
  · cases h

theorem withoutDashes_of_not_hasDashes {text : String} (h : hasDashes text = false) :
    withoutDashes text = text := by
  unfold hasDashes at h
  unfold withoutDashes
  split at h
  · cases h
  · rfl

end Name

/-- What is left of a name without its dashes **has none** in front. -/
theorem IsName.hasDashes_withoutDashes {text : String} (h : IsName text.toList) :
    Name.hasDashes (Name.withoutDashes text) = false := by
  obtain ⟨dashes, first, rest, htext, hdashes, hfirst, -⟩ := h
  have hne : first ≠ '-' := by
    rintro rfl
    cases hfirst
  rcases hdashes with rfl | rfl
  · have hnone : Name.hasDashes text = false := Name.hasDashes_eq_false htext hne
    rwa [Name.withoutDashes_of_not_hasDashes hnone]
  · have hrest : Name.withoutDashes text = String.ofList (first :: rest) := by
      unfold Name.withoutDashes
      rw [htext]
      rfl
    rw [hrest]
    exact Name.hasDashes_eq_false String.toList_ofList hne

/-- What is asked of the **spelling of a name**. -/
structure Name.Spelled (n : Name) : Prop where
  form : IsName n.text.toList
  not_true : n.text ≠ "true"
  not_false : n.text ≠ "false"

theorem Name.Spelled.hasDashes_variableName {n : Name} (h : n.Spelled) :
    hasDashes n.variableName = false :=
  h.form.hasDashes_withoutDashes

/-- The names of a program that was read are **spelled as names**. -/
theorem names_of_parse {source : String} {p : Program} (h : parse source = .ok p) {n : Node}
    {m : Name} (hn : p.Has n) (hm : n.identifier? = some m) : m.Spelled := by
  obtain ⟨text, rfl, hform, htrue, hfalse⟩ := spelled_of_parse h hn (Node.ownKind?_of_identifier hm)
  exact ⟨hform, htrue, hfalse⟩

/-- The integers of a program that was read are **not negative**. -/
theorem integers_of_parse {source : String} {p : Program} (h : parse source = .ok p) {value : Int64}
    {s : Span} (hn : p.Has (.expr (.literal (.int value) s))) : 0 ≤ value := by
  obtain ⟨text, -, -, hvalue⟩ := spelled_of_parse h hn rfl
  rw [Int64.le_iff_toInt_le, hvalue]
  exact Int.natCast_nonneg _

end RuleScript
