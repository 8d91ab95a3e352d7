import RuleScript.Proofs.Grammar
import RuleScript.Proofs.Precedence

/-!
# What is read has a derivation

Whatever a parser takes from a stream has a derivation in the grammar of programs, and
what it gives is the tree of that derivation. The proofs follow the parser, function by
function; the only state that is carried along is the list of parameters already read,
whose names differ.

* `Parser.parameters_derived`: the names of all parameters of a rule differ.
* `Parser.programDerived`: statements, at-rules and rules.
* `Parser.items_derived`: whole programs.
-/

namespace RuleScript

namespace TokenStream

/-- Values were read from a stream: the tokens taken are those of as many phrases side by
side, of which these are the trees. -/
structure ValuesRead (x : TokenStream) (ps : List Phrase) (es : List Expr) (x' : TokenStream) :
    Prop where
  took : x.Took (Phrase.kindsAll ps) x'
  trees : es.map (Expr.seen .blind) = ps.map Phrase.tree

/-- A statement was read from a stream, the tokens given first having been taken
before. -/
structure ClauseRead (before : List TokenKind) (x : TokenStream) (c : Clause) (st : Statement)
    (x' : TokenStream) : Prop where
  took : ∃ ks, c.kinds = before ++ ks ∧ x.Took ks x'
  legal : c.Legal
  tree : c.statement? = some (st.seen .blind)

/-- A block was read from a stream, up to the brace that closes it. -/
structure BlockRead (x : TokenStream) (cs : List Clause) (sts : List Statement)
    (x' : TokenStream) : Prop where
  took : x.Took (Clause.kindsAll cs ++ [.symbol .closeBrace]) x'
  legal : Clause.AllLegal cs
  trees : Statement.seenAll .blind sts = Clause.statements cs

variable {x x₁ x' : TokenStream} {before : List TokenKind}

theorem valuesRead_nil (x : TokenStream) : x.ValuesRead [] [] x := ⟨x.took_nil, rfl⟩

/-- One more value is read **in front** of others. -/
theorem ValuesRead.cons {p : Phrase} {e : Expr} {ps : List Phrase} {es : List Expr}
    (htook : x.Took p.kinds x₁) (he : e.seen .blind = p.tree) (h : x₁.ValuesRead ps es x') :
    x.ValuesRead (p :: ps) (e :: es) x' :=
  ⟨htook.append h.took, by rw [List.map_cons, List.map_cons, he, h.trees]⟩

/-- What was taken before is part of what was taken. -/
theorem ClauseRead.from_start {c : Clause} {st : Statement} (htook : x.Took before x₁)
    (h : x₁.ClauseRead before c st x') : x.ClauseRead [] c st x' := by
  obtain ⟨⟨ks, hkinds, htook'⟩, hlegal, htree⟩ := h
  exact ⟨⟨before ++ ks, hkinds, htook.append htook'⟩, hlegal, htree⟩

/-- A clause was read from **the kinds it is written with**. -/
theorem ClauseRead.took_kinds {c : Clause} {st : Statement} (h : x.ClauseRead [] c st x') :
    x.Took c.kinds x' := by
  obtain ⟨ks, hkinds, htook⟩ := h.took
  rwa [hkinds]

end TokenStream

namespace Parser

/-! ### Values and parameters -/

/-- A value is read from **a phrase**. -/
theorem value_derived (d : Nat) (x : TokenStream) :
    Ends True (binary d 0) x fun e x' =>
      ∃ p : Phrase, x.Took p.kinds x' ∧ e.seen .blind = p.tree := by
  refine ((expressionGrouped d).binary 0 x (Nat.zero_le 8)).mono ?_
  rintro e x' ⟨p, htook, hread, -⟩
  exact ⟨p, htook, hread.tree⟩

/-- Values are read from **phrases**. -/
theorem values_derived (d : Nat) (x : TokenStream) :
    Ends True (values d) x fun es x' => ∃ ps, x.ValuesRead ps es x' := by
  induction d generalizing x with
  | zero => exact .exhaust
  | succ d ih =>
    rw [values]
    refine .peek_bind fun t _ => ?_
    split
    · refine .bind (value_derived d x) ?_
      rintro e x₁ ⟨p, htook, he⟩
      refine .bind (ih x₁) ?_
      rintro es x' ⟨ps, hread⟩
      exact .pure ⟨p :: ps, hread.cons htook he⟩
    · exact .pure ⟨[], x.valuesRead_nil⟩

/-- A variable has **one** value. -/
theorem declarationValues_derived (d : Nat) (property : Name) (x : TokenStream) :
    Ends True (declarationValues d property) x fun es x' => ∃ ps, x.ValuesRead ps es x' ∧
      (Name.hasDashes property.text = true → ps.length = 1) := by
  rw [declarationValues]
  split
  · refine .bind (value_derived d x) ?_
    rintro e x' ⟨p, htook, he⟩
    exact .pure ⟨[p], x'.valuesRead_nil.cons htook he, fun _ => rfl⟩
  · next hname =>
    refine (values_derived d x).mono ?_
    rintro es x' ⟨ps, hread⟩
    exact ⟨ps, hread, fun h => absurd h hname⟩

/-- A declaration is read from **a clause**, of which the name and the colon were taken before. -/
theorem declaration_derived (d : Nat) (property : Name) (x : TokenStream) :
    Ends True (declaration d property) x fun q x' => ∃ c : Clause,
      x.ClauseRead [.name property.text, .symbol .colon] c (.declaration q) x' := by
  rw [declaration]
  refine .bind (declarationValues_derived d property x) ?_
  rintro es x₁ ⟨ps, hread, hone⟩
  refine .expect_bind fun close x' hclose => .pure ⟨.declaration property.text ps, ?_⟩
  refine ⟨⟨_, rfl, hread.took.append hclose⟩, hone, ?_⟩
  rw [Clause.statement?, ← hread.trees]
  rfl

/-- A default is read from **a phrase** behind its sign, or from nothing. -/
theorem parameterDefault_derived (d : Nat) (x : TokenStream) :
    Ends True (parameterDefault d) x fun e x' => ∃ p : Option Phrase,
      x.Took (Slot.defaultKinds p) x' ∧ e.map (Expr.seen .blind) = p.map Phrase.tree := by
  rw [parameterDefault]
  refine .accept_bind ?_ ?_
  · intro x₁ hassign
    refine .bind (value_derived d x₁) ?_
    rintro e x' ⟨p, htook, he⟩
    refine .pure ⟨some p, hassign.append htook, ?_⟩
    rw [Option.map_some, Option.map_some, he]
  · intro _ _ _
    exact .pure ⟨none, x.took_nil, rfl⟩

/-- The names of **all** parameters differ if those already read do. -/
theorem parameters_derived (d : Nat) (rule : Name) (seen : List Parameter) (x : TokenStream)
    (hseen : (seen.map (·.name.text)).Nodup) :
    Ends True (parameters d rule seen) x fun params x' => ∃ slots : List Slot,
      x.Took (slots.flatMap Slot.kinds) x' ∧
      params.map (Parameter.seen .blind) =
        seen.map (Parameter.seen .blind) ++ slots.map Slot.tree ∧
      (seen.map (·.name.text) ++ slots.map Slot.name).Nodup := by
  induction d generalizing seen x with
  | zero => exact .exhaust
  | succ d ih =>
    rw [parameters]
    refine .peek_bind fun t ht => ?_
    split
    · next hopen =>
      have hopen := TokenKind.isSymbol_iff.1 hopen
      have htook := TokenStream.took_drop ht hopen (by simp)
      refine .skip_bind (.expectName_bind fun name x₁ hname => ?_)
      split
      · exact .fail trivial
      · next hfresh =>
        refine .bind (parameterDefault_derived d x₁) ?_
        rintro e x₂ ⟨p, hdefault, he⟩
        refine .expect_bind fun close x₃ hclose => ?_
        have hnames : ((seen ++ [(⟨name, e, t.span.union close.span⟩ : Parameter)]).map
            (·.name.text)).Nodup := by
          rw [List.map_append, List.nodup_append]
          refine ⟨hseen, by simp, ?_⟩
          simpa using hfresh
        refine (ih _ x₃ hnames).mono ?_
        rintro params x' ⟨slots, hslots, hparams, hnodup⟩
        refine ⟨⟨name.text, p⟩ :: slots, ?_, ?_, ?_⟩
        · have := htook.append (hname.append (hdefault.append (hclose.append hslots)))
          simpa [Slot.kinds] using this
        · rw [hparams, List.map_append, List.append_assoc]
          simp only [List.map_cons, List.map_nil, Parameter.seen, he, Slot.tree]
          rfl
        · simpa using hnodup
    · exact .pure ⟨[], x.took_nil, by simp, by simpa using hseen⟩

/-- After the parameters of an at-rule comes its block or its end. -/
theorem atRuleParameters_derived (d : Nat) (name : Name) (x : TokenStream) :
    Ends True (atRuleParameters d name) x fun es x' => (∃ ps, x.ValuesRead ps es x') ∧
      ∃ t, x'.shown = .ok t ∧ (t.kind = .symbol .openBrace ∨ t.kind = .symbol .semicolon) := by
  induction d generalizing x with
  | zero => exact .exhaust
  | succ d ih =>
    rw [atRuleParameters]
    refine .peek_bind fun t ht => ?_
    split
    · next hk => exact .pure ⟨⟨[], x.valuesRead_nil⟩, t, ht, .inl hk⟩
    · next hk => exact .pure ⟨⟨[], x.valuesRead_nil⟩, t, ht, .inr hk⟩
    · exact .fail trivial
    · refine .bind (value_derived d x) ?_
      rintro e x₁ ⟨p, htook, he⟩
      refine .bind (ih x₁) ?_
      rintro es x' ⟨⟨ps, hread⟩, hnext⟩
      exact .pure ⟨⟨p :: ps, hread.cons htook he⟩, hnext⟩

/-! ### Statements and rules -/

/-- The program grammar at one depth reads what has a derivation. -/
structure ProgramDerived (d : Nat) : Prop where
  statements : ∀ (opening : Span) (x : TokenStream),
    Ends True (Parser.statements d opening) x fun block x' =>
      ∃ cs : List Clause, x.BlockRead cs block.1 x'
  statement : ∀ x : TokenStream, Ends True (Parser.statement d) x fun st x' =>
    ∃ c : Clause, x.ClauseRead [] c st x'
  atRule : ∀ (t : Token) (x : TokenStream), x.shown = .ok t → t.kind = .symbol .at →
    Ends True (Parser.atRule d) x fun a x' =>
      ∃ c : Clause, x.ClauseRead [] c (.atRule a) x' ∧ c.isItem = true
  rule : ∀ (name : Name) (x : TokenStream), Ends True (Parser.rule d name) x fun r x' =>
    ∃ c : Clause, x.ClauseRead [.name name.text] c (.rule r) x' ∧ c.isItem = true

namespace ProgramDerived

variable {d : Nat} (ih : ProgramDerived d) (x : TokenStream)

include ih

/-- A block is read from **clauses**. -/
theorem statements_succ (opening : Span) :
    Ends True (Parser.statements (d + 1) opening) x fun block x' =>
      ∃ cs : List Clause, x.BlockRead cs block.1 x' := by
  rw [Parser.statements]
  refine .peek_bind fun t ht => ?_
  split
  · next hk =>
    have htook := TokenStream.took_drop ht hk (by simp)
    exact .skip_bind (.pure ⟨[], htook, trivial, rfl⟩)
  · next hk =>
    have htook := TokenStream.took_drop ht hk (by simp)
    refine .skip_bind ((ih.statements opening x.drop).mono ?_)
    rintro block x' ⟨cs, hblock⟩
    exact ⟨.semicolon :: cs, htook.append hblock.took, ⟨trivial, hblock.legal⟩, hblock.trees⟩
  · exact .fail trivial
  · refine .bind (ih.statement x) ?_
    rintro st x₁ ⟨c, hc⟩
    refine .bind (ih.statements opening x₁) ?_
    rintro block x' ⟨cs, hblock⟩
    refine .pure ⟨c :: cs, ?_, ⟨hc.legal, hblock.legal⟩, ?_⟩
    · rw [Clause.kindsAll, List.append_assoc]
      exact hc.took_kinds.append hblock.took
    · rw [Statement.seenAll, hblock.trees, Clause.statements, hc.tree]
      rfl

/-- A statement is read from **a clause**. -/
theorem statement_succ :
    Ends True (Parser.statement (d + 1)) x fun st x' => ∃ c : Clause, x.ClauseRead [] c st x' := by
  rw [Parser.statement]
  refine .peek_bind fun t ht => ?_
  split
  · next hk =>
    refine .bind (ih.atRule t x ht hk) ?_
    rintro a x' ⟨c, hc, -⟩
    exact .pure ⟨c, hc⟩
  · next text hk =>
    have htook := TokenStream.took_drop ht hk (by simp)
    refine .skip_bind (.accept_bind ?_ ?_)
    · intro x₁ hcolon
      refine .bind (declaration_derived d ⟨text, t.span⟩ x₁) ?_
      rintro q x' ⟨c, hc⟩
      exact .pure ⟨c, hc.from_start (htook.append hcolon)⟩
    · intro _ _ _
      refine .bind (ih.rule ⟨text, t.span⟩ x.drop) ?_
      rintro r x' ⟨c, hc, -⟩
      exact .pure ⟨c, hc.from_start htook⟩
  · exact .fail trivial

/-- An at-rule is read from a clause that may stand **in a program**. -/
theorem atRule_succ (t : Token) (ht : x.shown = .ok t) (hk : t.kind = .symbol .at) :
    Ends True (Parser.atRule (d + 1)) x fun a x' =>
      ∃ c : Clause, x.ClauseRead [] c (.atRule a) x' ∧ c.isItem = true := by
  rw [Parser.atRule]
  refine .peek_bind fun sign hsign => ?_
  have htook := TokenStream.took_drop ht hk (by simp)
  refine .skip_bind (.expectName_bind fun name x₁ hname => ?_)
  refine .bind (atRuleParameters_derived d name x₁) ?_
  rintro es x₂ ⟨⟨ps, hread⟩, u, hu, hend⟩
  refine .peek_bind fun v hv => .skip_bind ?_
  obtain rfl : u = v := Except.ok.inj (hu.symm.trans hv)
  have hparams := htook.append (hname.append hread.took)
  obtain hopen | hclose := hend
  · have hbrace := TokenStream.took_drop hu hopen (by simp)
    rw [if_pos (TokenKind.isSymbol_iff.2 hopen)]
    refine .bind (ih.statements u.span x₂.drop) ?_
    rintro block x' ⟨cs, hblock⟩
    refine .pure ⟨.atBlock name.text ps cs, ⟨⟨_, rfl, ?_⟩, hblock.legal, ?_⟩, rfl⟩
    · exact hparams.append (hbrace.append hblock.took)
    · rw [Clause.statement?, ← hread.trees, ← hblock.trees]
      rfl
  · have hsemicolon := TokenStream.took_drop hu hclose (by simp)
    rw [if_neg (by rw [hclose]; decide)]
    refine .pure ⟨.atRule name.text ps, ⟨⟨_, rfl, hparams.append hsemicolon⟩, trivial, ?_⟩, rfl⟩
    rw [Clause.statement?, ← hread.trees]
    rfl

/-- A rule is read from a clause that may stand in a program, of which **the name** was taken
before. -/
theorem rule_succ (name : Name) :
    Ends True (Parser.rule (d + 1) name) x fun r x' =>
      ∃ c : Clause, x.ClauseRead [.name name.text] c (.rule r) x' ∧ c.isItem = true := by
  rw [Parser.rule]
  split
  · exact .fail trivial
  · next hname =>
    refine .bind (parameters_derived d name [] x List.nodup_nil) ?_
    rintro params x₁ ⟨slots, hslots, hparams, hnodup⟩
    refine .peek_bind fun t ht => ?_
    dsimp only
    split
    · next hopen =>
      have hopen := TokenKind.isSymbol_iff.1 hopen
      have hbrace := TokenStream.took_drop ht hopen (by simp)
      refine .skip_bind (.bind (ih.statements t.span x₁.drop) ?_)
      rintro block x' ⟨cs, hblock⟩
      refine .pure ⟨.rule name.text slots cs, ⟨⟨_, rfl, ?_⟩, ⟨?_, hnodup, hblock.legal⟩, ?_⟩, rfl⟩
      · exact hslots.append (hbrace.append hblock.took)
      · exact Bool.eq_false_iff.2 hname
      · rw [List.map_nil, List.nil_append] at hparams
        rw [Clause.statement?, ← hblock.trees, ← hparams]
        rfl
    · exact .fail trivial

end ProgramDerived

/-- **Statements and rules** that are read have a derivation. -/
theorem programDerived (d : Nat) : ProgramDerived d := by
  induction d with
  | zero =>
    refine ⟨fun _ _ => ?_, fun _ => ?_, fun _ _ _ _ => ?_, fun _ _ => ?_⟩ <;> exact .exhaust
  | succ d ih =>
    exact ⟨fun opening x => ih.statements_succ x opening, ih.statement_succ,
      fun t x => ih.atRule_succ x t, fun name x => ih.rule_succ x name⟩

/-! ### Whole programs -/

/-- **Programs** that are read have a derivation, and the end comes after them. -/
theorem items_derived (d : Nat) (x : TokenStream) :
    Ends True (items d) x fun is x' => ∃ cs : List Clause, x.Took (Clause.kindsAll cs) x' ∧
      Clause.IsProgram cs ∧ Program.seen .blind ⟨is⟩ = Clause.program cs ∧
      ∃ t, x'.shown = .ok t ∧ t.kind = .eof := by
  induction d generalizing x with
  | zero => exact .exhaust
  | succ d ih =>
    rw [items]
    refine .peek_bind fun t ht => ?_
    split
    · next hk => exact .pure ⟨[], x.took_nil, ⟨trivial, by simp⟩, rfl, t, ht, hk⟩
    · next hk =>
      have htook := TokenStream.took_drop ht hk (by simp)
      refine .skip_bind ((ih x.drop).mono ?_)
      rintro is x' ⟨cs, htook', hprogram, htree, hend⟩
      exact ⟨.semicolon :: cs, htook.append htook', hprogram.cons trivial rfl, htree, hend⟩
    · next hk =>
      refine .bind ((programDerived d).atRule t x ht hk) ?_
      rintro a x₁ ⟨c, hc, hitem⟩
      refine .bind (ih x₁) ?_
      rintro is x' ⟨cs, htook, hprogram, htree, hend⟩
      refine .pure ⟨c :: cs, hc.took_kinds.append htook, hprogram.cons hc.legal hitem, ?_, hend⟩
      rw [Clause.program_cons_item hc.tree rfl, ← htree]
      rfl
    · next text hk =>
      have htook := TokenStream.took_drop ht hk (by simp)
      refine .skip_bind (.bind ((programDerived d).rule ⟨text, t.span⟩ x.drop) ?_)
      rintro r x₁ ⟨c, hc, hitem⟩
      have hc := hc.from_start htook
      refine .bind (ih x₁) ?_
      rintro is x' ⟨cs, htook', hprogram, htree, hend⟩
      refine .pure ⟨c :: cs, hc.took_kinds.append htook', hprogram.cons hc.legal hitem, ?_, hend⟩
      rw [Clause.program_cons_item hc.tree rfl, ← htree]
      rfl
    · exact .fail trivial

end Parser

end RuleScript
