import RuleScript.Proofs.Derivation
import RuleScript.Proofs.Greed
import RuleScript.Proofs.Layout

/-!
# The parser accepts its grammar

A source is read as a program exactly if its tokens have a derivation in the grammar of
programs, and then the program is the tree of one.

That what is read has a derivation is `Parser.items_derived`. The other direction is
here: where the tokens ahead have a derivation, no function of the program grammar is
refused. One token decides which clause comes, so the only choice is where an expression
ends, and there greed loses nothing.

* `Parser.programGreedy`: statements, at-rules and rules.
* `accepts_grammar`: sources.
-/

namespace RuleScript

namespace Parser

open TokenStream (first Shows)

/-! ### Parameters and declarations -/

/-- A **default** is taken whole. -/
theorem parameterDefault_greedy (d : Nat) {p : Option Phrase} {rest : List TokenKind}
    {x : TokenStream} (h : x.Shows (Slot.defaultKinds p ++ .symbol .closeBracket :: rest)) :
    Ends False (parameterDefault d) x fun _ x' => x'.Shows (.symbol .closeBracket :: rest) := by
  rw [parameterDefault]
  cases p with
  | none => exact .passed_bind h (by rintro ⟨⟩) (.pure h)
  | some p =>
    refine .accepted_bind h fun x₁ h₁ => ?_
    refine .bind ((expressionGreedy d).whole (closes_symbol ?_ _) h₁) fun e x₂ h₂ => .pure h₂
    exact .inr (.inr (.inl rfl))

/-- Parameters are read if their names differ, also from those already read. -/
theorem parameters_greedy (d : Nat) (rule : Name) (seen : List Parameter) {slots : List Slot}
    {rest : List TokenKind} {x : TokenStream}
    (hnames : (seen.map (·.name.text) ++ slots.map Slot.name).Nodup)
    (h : x.Shows (slots.flatMap Slot.kinds ++ .symbol .openBrace :: rest)) :
    Ends False (parameters d rule seen) x fun _ x' => x'.Shows (.symbol .openBrace :: rest) := by
  induction d generalizing seen slots x with
  | zero => exact .exhaust
  | succ d ih =>
    rw [parameters]
    refine .look_bind h fun t ht => ?_
    rw [ht]
    cases slots with
    | nil => exact .pure h
    | cons slot slots =>
      simp only [List.flatMap_cons, Slot.kinds, List.cons_append, List.append_assoc,
        List.nil_append] at h
      rw [if_pos (by rfl)]
      refine .drop_bind h fun x₁ h₁ => .expectedName_bind h₁ fun name x₂ hname h₂ => ?_
      -- the name is fresh, since it comes after those already read
      have hfresh : ¬(seen.any fun p => p.name.text == name.text) = true := by
        rw [hname]
        simp only [List.map_cons, List.nodup_append, List.mem_map] at hnames
        simp only [List.any_eq_true, beq_iff_eq, not_exists, not_and]
        intro p hp hsame
        exact hnames.2.2 p.name.text ⟨p, hp, rfl⟩ slot.name List.mem_cons_self hsame
      rw [if_neg hfresh]
      refine .bind (parameterDefault_greedy d h₂) fun e x₃ h₃ => ?_
      refine .expected_bind h₃ fun close x₄ h₄ => ih _ ?_ h₄
      simpa [hname] using hnames

/-- A **declaration** is taken up to its semicolon. -/
theorem declaration_greedy (d : Nat) (property : Name) {values : List Phrase}
    {rest : List TokenKind} {x : TokenStream}
    (hlegal : (Clause.declaration property.text values).Legal)
    (h : x.Shows (Phrase.kindsAll values ++ .symbol .semicolon :: rest)) :
    Ends False (declaration d property) x fun _ x' => x'.Shows rest := by
  have hcloses : Closes (.symbol .semicolon :: rest) :=
    closes_symbol (.inr (.inr (.inr (.inl rfl)))) rest
  have hvalues : Ends False (declarationValues d property) x
      fun _ x' => x'.Shows (.symbol .semicolon :: rest) := by
    rw [declarationValues]
    split
    · next hname =>
      obtain ⟨p, rfl⟩ := List.length_eq_one_iff.1 (hlegal hname)
      rw [Phrase.kindsAll_cons, Phrase.kindsAll_nil, List.append_nil] at h
      exact .bind ((expressionGreedy d).whole hcloses h) fun e x₁ h₁ => .pure h₁
    · exact values_greedy d hcloses h
  rw [declaration]
  exact .bind hvalues fun es x₁ h₁ => .expected_bind h₁ fun close x₂ h₂ => .pure h₂

/-! ### Statements and rules -/

/-- The program grammar at one depth is not refused where there is a derivation. -/
structure ProgramGreedy (d : Nat) : Prop where
  statements : ∀ {opening cs rest} {x : TokenStream}, Clause.AllLegal cs →
    x.Shows (Clause.kindsAll cs ++ .symbol .closeBrace :: rest) →
    Ends False (Parser.statements d opening) x fun _ x' => x'.Shows rest
  statement : ∀ {c : Clause} {rest} {x : TokenStream}, c.Legal → c ≠ .semicolon →
    x.Shows (c.kinds ++ rest) → Ends False (Parser.statement d) x fun _ x' => x'.Shows rest
  atRule : ∀ {c : Clause} {ks rest} {x : TokenStream}, c.Legal → c.kinds = .symbol .at :: ks →
    x.Shows (c.kinds ++ rest) → Ends False (Parser.atRule d) x fun _ x' => x'.Shows rest
  rule : ∀ (name : Name) {slots body ks rest} {x : TokenStream},
    (Clause.rule name.text slots body).Legal →
    (Clause.rule name.text slots body).kinds = .name name.text :: ks → x.Shows (ks ++ rest) →
    Ends False (Parser.rule d name) x fun _ x' => x'.Shows rest

namespace ProgramGreedy

variable {d : Nat} (ih : ProgramGreedy d) {x : TokenStream} {rest : List TokenKind}

include ih

/-- A **block** is taken up to its brace. -/
theorem statements_succ {opening : Span} {cs : List Clause} (hlegal : Clause.AllLegal cs)
    (h : x.Shows (Clause.kindsAll cs ++ .symbol .closeBrace :: rest)) :
    Ends False (Parser.statements (d + 1) opening) x fun _ x' => x'.Shows rest := by
  rw [Parser.statements]
  refine .look_bind h fun t ht => ?_
  rw [ht]
  cases cs with
  | nil => exact .drop_bind h fun x₁ h₁ => .pure h₁
  | cons c cs =>
    rw [Clause.kindsAll, List.append_assoc] at h
    have hmore : c ≠ .semicolon → Ends False (do
        let first ← Parser.statement d
        let block ← Parser.statements d opening
        return (first :: block.1, block.2) : Parser TokenStream (List Statement × Span)) x
        fun _ x' => x'.Shows rest := by
      intro hc
      refine .bind (ih.statement hlegal.1 hc h) fun first x₁ h₁ => ?_
      exact .bind (ih.statements hlegal.2 h₁) fun block x₂ h₂ => .pure h₂
    cases c with
    | semicolon => exact .drop_bind h fun x₁ h₁ => ih.statements hlegal.2 h₁
    | declaration | atRule | atBlock | rule => exact hmore (by simp)

/-- A **statement** is taken whole. -/
theorem statement_succ {c : Clause} (hlegal : c.Legal) (hc : c ≠ .semicolon)
    (h : x.Shows (c.kinds ++ rest)) :
    Ends False (Parser.statement (d + 1)) x fun _ x' => x'.Shows rest := by
  rw [Parser.statement]
  refine .look_bind h fun t ht => ?_
  rw [ht]
  cases c with
  | semicolon => exact absurd rfl hc
  | declaration property values =>
    simp only [Clause.kinds, List.cons_append, List.append_assoc, List.nil_append] at h
    refine .drop_bind h fun x₁ h₁ => .accepted_bind h₁ fun x₂ h₂ => ?_
    exact .bind (declaration_greedy d ⟨property, t.span⟩ hlegal h₂) fun q x₃ h₃ => .pure h₃
  | atRule | atBlock =>
    exact .bind (ih.atRule hlegal rfl h) fun a x₁ h₁ => .pure h₁
  | rule name slots body =>
    refine .drop_bind h fun x₁ h₁ => .passed_bind h₁ ?_ ?_
    · cases slots <;> rintro ⟨⟩
    · exact .bind (ih.rule ⟨name, t.span⟩ hlegal rfl h₁) fun r x₂ h₂ => .pure h₂

/-- An **at-rule** is taken whole. -/
theorem atRule_succ {c : Clause} {ks : List TokenKind} (hlegal : c.Legal)
    (hc : c.kinds = .symbol .at :: ks) (h : x.Shows (c.kinds ++ rest)) :
    Ends False (Parser.atRule (d + 1)) x fun _ x' => x'.Shows rest := by
  rw [Parser.atRule]
  refine .look_bind h fun sign _ => ?_
  cases c with
  | semicolon | declaration | rule => cases hc
  | atRule name parameters =>
    simp only [Clause.kinds, List.cons_append, List.append_assoc] at h
    refine .drop_bind h fun x₁ h₁ => .expectedName_bind h₁ fun n x₂ _ h₂ => ?_
    refine .bind (atRuleParameters_greedy d n (.inl rfl) h₂) fun es x₃ h₃ => ?_
    refine .look_bind h₃ fun t ht => .drop_bind h₃ fun x₄ h₄ => ?_
    rw [ht]
    exact .pure h₄
  | atBlock name parameters body =>
    simp only [Clause.kinds, List.cons_append, List.append_assoc] at h
    refine .drop_bind h fun x₁ h₁ => .expectedName_bind h₁ fun n x₂ _ h₂ => ?_
    refine .bind (atRuleParameters_greedy d n (.inr rfl) h₂) fun es x₃ h₃ => ?_
    refine .look_bind h₃ fun t ht => .drop_bind h₃ fun x₄ h₄ => ?_
    rw [ht]
    exact .bind (ih.statements hlegal h₄) fun block x₅ h₅ => .pure h₅

/-- A **rule** is taken whole. -/
theorem rule_succ (name : Name) {slots : List Slot} {body : List Clause} {ks : List TokenKind}
    (hlegal : (Clause.rule name.text slots body).Legal)
    (hks : (Clause.rule name.text slots body).kinds = .name name.text :: ks)
    (h : x.Shows (ks ++ rest)) :
    Ends False (Parser.rule (d + 1) name) x fun _ x' => x'.Shows rest := by
  obtain ⟨hname, hnames, hbody⟩ := hlegal
  obtain rfl := (List.cons.inj hks).2
  simp only [List.cons_append, List.append_assoc] at h
  rw [Parser.rule, if_neg (show ¬name.isVariable = true from Bool.eq_false_iff.1 hname)]
  refine .bind (parameters_greedy d name [] hnames h) fun params x₁ h₁ => ?_
  refine .look_bind h₁ fun t ht => ?_
  rw [ht]
  refine .drop_bind h₁ fun x₂ h₂ => ?_
  exact .bind (ih.statements hbody h₂) fun block x₃ h₃ => .pure h₃

end ProgramGreedy

/-- **Statements and rules** are read from whatever has a derivation. -/
theorem programGreedy (d : Nat) : ProgramGreedy d := by
  induction d with
  | zero => constructor <;> intros <;> exact .exhaust
  | succ d ih =>
    exact ⟨ih.statements_succ, ih.statement_succ, ih.atRule_succ, fun name => ih.rule_succ name⟩

/-- **Programs** are read from whatever has a derivation. -/
theorem items_greedy (d : Nat) {cs : List Clause} {x : TokenStream} (hcs : Clause.IsProgram cs)
    (h : x.Shows (Clause.kindsAll cs)) : Ends False (items d) x fun _ _ => True := by
  induction d generalizing cs x with
  | zero => exact .exhaust
  | succ d ih =>
    rw [items]
    refine .look_bind h fun t ht => ?_
    rw [ht]
    cases cs with
    | nil => exact .pure trivial
    | cons c cs =>
      obtain ⟨⟨hlegal, hlegals⟩, hitems⟩ := hcs
      obtain ⟨hitem, hitems⟩ := List.forall_mem_cons.1 hitems
      have ih := fun x => ih (x := x) ⟨hlegals, hitems⟩
      rw [Clause.kindsAll] at h
      cases c with
      | semicolon => exact .drop_bind h fun x₁ h₁ => ih x₁ h₁
      | declaration => cases hitem
      | atRule | atBlock =>
        refine .bind ((programGreedy d).atRule hlegal rfl h) fun a x₁ h₁ => ?_
        exact .bind (ih x₁ h₁) fun is x₂ _ => .pure trivial
      | rule name slots body =>
        refine .drop_bind h fun x₁ h₁ => ?_
        refine .bind ((programGreedy d).rule ⟨name, t.span⟩ hlegal rfl h₁)
          fun r x₂ h₂ => ?_
        exact .bind (ih x₂ h₂) fun is x₃ _ => .pure trivial

end Parser

/-! ### Sources -/

/-- Reading a source comes to what reading its tokens beforehand does. -/
theorem parse_stream (source : String) :
    let d := Parser.ampleDepth (Lookahead.ofString source)
    let x := (Cursor.ofString source).stream
    (∃ p is x', parse source = .ok p ∧ (Parser.items d).run x = (.done is, x') ∧
      p.seen .blind = Program.seen .blind ⟨is⟩) ∨
    ∃ e e' x', parse source = .error e ∧ (Parser.items d).run x = (.failed e', x') := by
  have hsame := Pairing.items_same (p := Lookahead.onDemand)
    (.refl _ (Parser.ampleDepth (Lookahead.ofString source)))
    ⟨Lookahead.steady_ofString source, rfl⟩
  have hends := Parser.items_progress (Parser.ampleDepth (Lookahead.ofString source))
    (Lookahead.ofString source) (by unfold Parser.ampleDepth; omega)
  rcases hs : (Parser.items (Parser.ampleDepth (Lookahead.ofString source))).run
    (Lookahead.ofString source) with ⟨out, s⟩
  rcases hx : (Parser.items (Parser.ampleDepth (Lookahead.ofString source))).run
    (Cursor.ofString source).stream with ⟨out', x'⟩
  rw [hs, show (Lookahead.ofString source).stream = (Cursor.ofString source).stream from rfl,
    hx] at hsame
  cases hsame with
  | done result state =>
    exact .inl ⟨_, _, x', parse_of_done hs, hx, congrArg Program.mk result⟩
  | failed error => exact .inr ⟨_, _, x', parse_of_failed hs, hx⟩
  | exhausted state => exact absurd hs (hends.not_exhausted s)
  | behind hahead => exact hahead.elim

/-- A program that was read has a derivation. -/
theorem derivation_of_parse {source : String} {p : Program} (h : parse source = .ok p) :
    ∃ tokens cs, lex source = .ok tokens ∧ Clause.IsProgram cs ∧
      tokens.map Token.kind = Clause.kindsAll cs ++ [.eof] ∧ p.seen .blind = Clause.program cs := by
  have hlex := lex_eq_stream source
  obtain ⟨q, is, x', hq, hrun, hseen⟩ | ⟨e, _, _, he, -⟩ := parse_stream source
  · obtain rfl := Except.ok.inj (h.symm.trans hq)
    obtain ⟨cs, ⟨used, hkinds, htokens, hending⟩, hprogram, htree, t, ht, hkind⟩ :=
      (Parser.items_derived _ _).of_done hrun
    -- the end is shown, so that all tokens before it were taken
    obtain ⟨hnil, span, hok⟩ := TokenStream.eq_nil_of_shown_eof ht hkind
      fun u hu => Cursor.kind_ne_eof_of_mem_stream (htokens ▸ List.mem_append_right _ hu)
    rw [hnil, List.append_nil] at htokens
    rw [← hending, hok, htokens] at hlex
    refine ⟨_, cs, hlex, hprogram, ?_, hseen.trans htree⟩
    rw [List.map_append, hkinds]
    rfl
  · cases h.symm.trans he

/-- Tokens that have a derivation are read as a program. -/
theorem parse_of_derivation {source : String} {tokens : List Token} {cs : List Clause}
    (h : lex source = .ok tokens) (hprogram : Clause.IsProgram cs)
    (hkinds : tokens.map Token.kind = Clause.kindsAll cs ++ [.eof]) :
    ∃ p, parse source = .ok p := by
  have hlex := lex_eq_stream source
  obtain ⟨p, -, -, hp, -⟩ | ⟨_, _, _, -, hrun⟩ := parse_stream source
  · exact ⟨p, hp⟩
  · -- the stream shows the derivation, so that reading it is not refused
    refine ((Parser.items_greedy _ hprogram ?_).of_failed hrun).elim
    rw [h] at hlex
    cases hending : (Cursor.ofString source).stream.ending with
    | error e =>
      rw [hending] at hlex
      cases hlex
    | ok span =>
      rw [hending] at hlex
      cases hlex
      rw [List.map_append] at hkinds
      exact ⟨(List.append_inj' hkinds rfl).1, span, hending⟩

/-- **The parser accepts exactly its grammar.** A source is read as a program if and only
if it is made up of tokens and they have a derivation. The program that is read is, up
to spans, the tree of a derivation of the tokens; and it remembers them all, in order,
but for brackets around expressions, commas and semicolons. -/
theorem accepts_grammar (source : String) :
    ((∃ p, parse source = .ok p) ↔
      ∃ tokens, lex source = .ok tokens ∧ Derivable (tokens.map Token.kind)) ∧
    ∀ p, parse source = .ok p → ∃ tokens cs, lex source = .ok tokens ∧ Clause.IsProgram cs ∧
      tokens.map Token.kind = Clause.kindsAll cs ++ [.eof] ∧ p.seen .blind = Clause.program cs ∧
      p.yield = (tokens.map Token.kind).filter TokenKind.remembered := by
  refine ⟨⟨?_, ?_⟩, ?_⟩
  · rintro ⟨p, hp⟩
    obtain ⟨tokens, cs, htokens, hprogram, hkinds, -⟩ := derivation_of_parse hp
    exact ⟨tokens, htokens, cs, hprogram, hkinds⟩
  · rintro ⟨tokens, htokens, cs, hprogram, hkinds⟩
    exact parse_of_derivation htokens hprogram hkinds
  · intro p hp
    obtain ⟨tokens, cs, htokens, hprogram, hkinds, htree⟩ := derivation_of_parse hp
    refine ⟨tokens, cs, htokens, hprogram, hkinds, htree, ?_⟩
    calc p.yield = (p.seen .blind).yield := (Program.yield_seen .blind p).symm
      _ = (Clause.kindsAll cs).filter TokenKind.remembered := by
        rw [htree, Clause.yield_program hprogram]
      _ = (tokens.map Token.kind).filter TokenKind.remembered := by
        rw [hkinds, List.filter_append]
        exact (List.append_nil _).symm

/-- A rule with a semicolon in its block: the tree forgets the semicolon. -/
theorem accepts_grammar_rule :
    ∃ p tokens cs, parse "a \x7b;\x7d" = .ok p ∧ lex "a \x7b;\x7d" = .ok tokens ∧
      Clause.IsProgram cs ∧ tokens.map Token.kind = Clause.kindsAll cs ++ [.eof] ∧
      p.seen .blind = Clause.program cs ∧
      p.yield = [.name "a", .symbol .openBrace, .symbol .closeBrace] := by
  have hparse : parse "a \x7b;\x7d" = .ok ⟨[.rule ⟨⟨⟨"a", ⟨0, 1, 1⟩, ⟨1, 1, 2⟩⟩, [], ⟨0, 1, 1⟩,
      ⟨1, 1, 2⟩⟩, [], ⟨0, 1, 1⟩, ⟨5, 1, 6⟩⟩]⟩ :=
    parse_of_done (s := ⟨⟨[], ⟨5, 1, 6⟩⟩, some ⟨.eof, ⟨5, 1, 6⟩, ⟨5, 1, 6⟩⟩⟩)
      (by with_unfolding_all rfl)
  obtain ⟨tokens, cs, htokens, hprogram, hkinds, htree, -⟩ := (accepts_grammar _).2 _ hparse
  exact ⟨_, tokens, cs, hparse, htokens, hprogram, hkinds, htree, rfl⟩

end RuleScript
