import RuleScript.Proofs.Concatenation
import RuleScript.Proofs.Foresight
import RuleScript.Proofs.Ledger
import RuleScript.Proofs.Viability

/-!
# Why a source is refused

The ways in which programs are refused, function by function. Each function asks for something of
its own, and a part that is refused refuses the whole, as what can be completed inside can be
completed (`Refusal.within`). Two things are carried along: the names of the parameters already
read, since the next one must differ from them, and in a block the clauses read since its brace.

* `Parser.programRefuses`: statements, at-rules and rules.
* `Parser.items_refuses`: whole programs.
* `exists_refusal`: sources.
-/

namespace RuleScript

/-! ### Values and parameters -/

/-- The tokens of values side by side. -/
def IsValues (ks : List TokenKind) : Prop := ∃ ps, Phrase.kindsAll ps = ks

/-- The tokens of what may follow the colon of a declaration. -/
def IsDeclared (property : String) (ks : List TokenKind) : Prop :=
  ∃ ps, (Name.hasDashes property = true → ps.length = 1) ∧ Phrase.kindsAll ps = ks

/-- The tokens of a default, or none. -/
def IsDefault (ks : List TokenKind) : Prop := ∃ p, Slot.defaultKinds p = ks

/-- The tokens of parameters whose names differ, also from those that are taken. -/
def IsParameters (taken : List String) (ks : List TokenKind) : Prop :=
  ∃ slots : List Slot, (taken ++ slots.map Slot.name).Nodup ∧ slots.flatMap Slot.kinds = ks

/-- The tokens of a statement. -/
def IsStatement (ks : List TokenKind) : Prop := ∃ c : Clause, c.Legal ∧ c.kinds = ks

/-- The tokens of a statement that may stand at the top level. -/
def IsItem (ks : List TokenKind) : Prop :=
  ∃ c : Clause, c.Legal ∧ c.isItem = true ∧ c.kinds = ks

/-- The tokens of a block with its braces. -/
def IsBlock (ks : List TokenKind) : Prop :=
  ∃ cs, Clause.AllLegal cs ∧
    .symbol .openBrace :: (Clause.kindsAll cs ++ [.symbol .closeBrace]) = ks

/-- The tokens of a program before the end. -/
def IsItems (ks : List TokenKind) : Prop := ∃ cs, Clause.IsProgram cs ∧ Clause.kindsAll cs = ks

namespace IsParameters

variable {taken : List String} {text : String} {ks : List TokenKind} (p : Option Phrase)

/-- A parameter comes before those whose names **differ from its own** too. -/
theorem cons (h : IsParameters (taken ++ [text]) ks) :
    IsParameters taken ((Slot.mk text p).kinds ++ ks) := by
  obtain ⟨slots, hnames, rfl⟩ := h
  exact ⟨⟨text, p⟩ :: slots, by simpa using hnames, rfl⟩

/-- One parameter with a name that is free **is written so**. -/
theorem one (htaken : taken.Nodup) (hfresh : text ∉ taken) :
    IsParameters taken (Slot.mk text p).kinds := by
  have hnone : IsParameters (taken ++ [text]) [] :=
    ⟨[], by simpa using htaken.concat hfresh, rfl⟩
  simpa using hnone.cons p

end IsParameters

/-- A phrase in front of values **begins values**. -/
theorem Viable.values (p : Phrase) {ks : List TokenKind} (h : IsValues ks) :
    Viable IsValues (p.kinds ++ ks) := by
  obtain ⟨ps, rfl⟩ := h
  exact .whole ⟨p :: ps, rfl⟩

theorem Viable.value {ks : List TokenKind} (h : IsValue ks) : Viable IsValues ([] ++ ks) := by
  obtain ⟨p, rfl⟩ := h
  exact .whole ⟨[p], List.append_nil _⟩

namespace Parser

theorem value_refuses (d : Nat) (x : TokenStream) : Refuses IsValue x (binary d 0) x :=
  (expressionRefuses d).binary 0 x

/-- **Values** are refused behind what begins values. -/
theorem values_refuses (d : Nat) (x : TokenStream) : Refuses IsValues x (values d) x := by
  induction d generalizing x with
  | zero => exact .exhaust
  | succ d ih =>
    rw [values]
    refine .peek_bind fun t _ => ?_
    split
    · refine .bind (value_derived d x)
        ((value_refuses d x).within x.took_nil fun _ => .value) ?_
      rintro e x₁ ⟨p, htook, -⟩
      exact .map ((ih x₁).within htook fun _ => .values p) _
    · exact .pure

/-- What follows the name of a declaration is refused behind **what may follow it**. -/
theorem declarationValues_refuses (d : Nat) (property : Name) (x : TokenStream) :
    Refuses (IsDeclared property.text) x (declarationValues d property) x := by
  rw [declarationValues]
  split
  · refine .map ((value_refuses d x).within x.took_nil ?_) _
    rintro _ ⟨p, rfl⟩
    exact .whole ⟨[p], fun _ => rfl, List.append_nil _⟩
  · next hname =>
    refine (values_refuses d x).within x.took_nil ?_
    rintro _ ⟨ps, rfl⟩
    exact .whole ⟨ps, fun h => absurd h hname, rfl⟩

/-- A declaration after its property and colon needs values and a **semicolon**. -/
theorem declaration_refuses (d : Nat) (property : Name) {x₀ x : TokenStream}
    (htook : x₀.Took [.name property.text, .symbol .colon] x) :
    Refuses IsStatement x₀ (declaration d property) x := by
  have hviable : ∀ ks, IsDeclared property.text ks →
      Viable IsStatement ([.name property.text, .symbol .colon] ++ ks) := by
    rintro _ ⟨ps, hone, rfl⟩
    exact .symbols [.semicolon] ⟨.declaration property.text ps, hone, by simp [Clause.kinds]⟩
  rw [declaration]
  refine .bind (declarationValues_derived d property x)
    ((declarationValues_refuses d property x).within htook hviable) ?_
  rintro es x₁ ⟨ps, hread, hone⟩
  exact .expect_bind (htook.append hread.took) (hviable _ ⟨ps, hone, rfl⟩) fun close x' _ => .pure

theorem parameterDefault_refuses (d : Nat) (x : TokenStream) :
    Refuses IsDefault x (parameterDefault d) x := by
  rw [parameterDefault]
  refine .accept_bind (fun x₁ hassign => ?_) .pure
  refine .map ((value_refuses d x₁).within hassign ?_) _
  rintro _ ⟨p, rfl⟩
  exact .whole ⟨some p, rfl⟩

/-- A parameter needs a name that is **not taken** yet. -/
theorem parameters_refuses (d : Nat) (rule : Name) (seen : List Parameter) (x : TokenStream)
    (hseen : (seen.map (·.name.text)).Nodup) :
    Refuses (IsParameters (seen.map (·.name.text))) x (parameters d rule seen) x := by
  induction d generalizing seen x with
  | zero => exact .exhaust
  | succ d ih =>
    rw [parameters]
    refine .peek_bind fun t ht => ?_
    split
    · next hopen =>
      have hopen := TokenStream.took_drop ht (TokenKind.isSymbol_iff.1 hopen) (by simp)
      refine .skip_bind (.expectName_bind hopen ?_ fun name x₁ hname => ?_)
      · exact .name _ [.closeBracket] fun text hfresh => .one none hseen hfresh
      · split
        · rintro _ _ ⟨⟩
          exact .duplicate rfl
        · next hfresh =>
          have hfresh : name.text ∉ seen.map (·.name.text) := by simpa using hfresh
          have hbefore := hopen.append hname
          have hviable : ∀ ks, IsDefault ks → Viable (IsParameters (seen.map (·.name.text)))
              ([.symbol .openBracket] ++ [.name name.text] ++ ks) := by
            rintro _ ⟨p, rfl⟩
            refine .symbols [.closeBracket] ?_
            simpa [Slot.kinds] using IsParameters.one p hseen hfresh
          refine .bind (parameterDefault_derived d x₁)
            ((parameterDefault_refuses d x₁).within hbefore hviable) ?_
          rintro e x₂ ⟨p, hdefault, -⟩
          have hbefore := hbefore.append hdefault
          refine .expect_bind hbefore (hviable _ ⟨p, rfl⟩) fun close x₃ hclose => ?_
          refine (ih _ x₃ ?_).within (hbefore.append hclose) fun ks hks => .whole ?_
          · rw [List.map_append]
            simpa using hseen.concat hfresh
          · rw [List.map_append] at hks
            simpa [Slot.kinds] using hks.cons p
    · exact .pure

/-- The **expressions** of an at-rule are refused behind what begins values. -/
theorem atRuleParameters_refuses (d : Nat) (name : Name) (x : TokenStream) :
    Refuses IsValues x (atRuleParameters d name) x := by
  induction d generalizing x with
  | zero => exact .exhaust
  | succ d ih =>
    rw [atRuleParameters]
    refine .peek_bind fun t ht => ?_
    split
    · exact .pure
    · exact .pure
    · exact .unexpected x.took_nil ht (.whole ⟨[], rfl⟩)
    · refine .bind (value_derived d x)
        ((value_refuses d x).within x.took_nil fun _ => .value) ?_
      rintro e x₁ ⟨p, htook, -⟩
      exact .map ((ih x₁).within htook fun _ => .values p) _

end Parser

/-! ### Statements and rules -/

theorem Viable.item {ks : List TokenKind} (h : IsItem ks) : Viable IsStatement ([] ++ ks) := by
  obtain ⟨c, hlegal, -, rfl⟩ := h
  exact .whole ⟨c, hlegal, rfl⟩

namespace Clause

theorem kindsAll_append (cs cs' : List Clause) :
    kindsAll (cs ++ cs') = kindsAll cs ++ kindsAll cs' := by
  induction cs with
  | nil => rfl
  | cons c cs ih => rw [List.cons_append, kindsAll, kindsAll, ih, List.append_assoc]

/-- A clause at the end is written **behind the others**. -/
@[simp]
theorem kindsAll_concat (cs : List Clause) (c : Clause) :
    kindsAll (cs ++ [c]) = kindsAll cs ++ c.kinds := by
  rw [kindsAll_append, kindsAll, kindsAll, List.append_nil]

theorem AllLegal.concat {cs : List Clause} {c : Clause} (h : AllLegal cs) (hc : c.Legal) :
    AllLegal (cs ++ [c]) := by
  induction cs with
  | nil => exact ⟨hc, trivial⟩
  | cons _ cs ih => exact ⟨h.1, ih h.2⟩

end Clause

namespace Parser

/-- The program grammar at one depth is refused only for cause. A block is read from the token
that opened it on. -/
structure ProgramRefuses (d : Nat) : Prop where
  statements : ∀ (brace : Token) (cs : List Clause) (x₀ x : TokenStream), x₀.shown = .ok brace →
    brace.kind = .symbol .openBrace → Clause.AllLegal cs → x₀.drop.Took (Clause.kindsAll cs) x →
    Refuses IsBlock x₀ (Parser.statements d brace.span) x
  statement : ∀ x, Refuses IsStatement x (Parser.statement d) x
  atRule : ∀ t (x : TokenStream), x.shown = .ok t → t.kind = .symbol .at →
    Refuses IsItem x (Parser.atRule d) x
  rule : ∀ (name : Name) (x₀ x : TokenStream), x₀.Took [.name name.text] x →
    Refuses IsItem x₀ (Parser.rule d name) x

namespace ProgramRefuses

variable {d : Nat} (ih : ProgramRefuses d) (x : TokenStream)

include ih

/-- A block is read further from its **brace** on: what it holds has a derivation, and so its
brackets are nested. -/
theorem statements_succ (brace : Token) (cs : List Clause) (x₀ : TokenStream)
    (hbrace : x₀.shown = .ok brace) (hkind : brace.kind = .symbol .openBrace)
    (hlegal : Clause.AllLegal cs) (htook : x₀.drop.Took (Clause.kindsAll cs) x) :
    Refuses IsBlock x₀ (Parser.statements (d + 1) brace.span) x := by
  have hbefore := (TokenStream.took_drop hbrace hkind (by simp)).append htook
  rw [Parser.statements]
  refine .peek_bind fun t ht => ?_
  split
  · exact .skip_bind .pure
  · next hk =>
    have hsemicolon := TokenStream.took_drop ht hk (by simp)
    refine .skip_bind (ih.statements brace (cs ++ [.semicolon]) x₀ x.drop hbrace hkind
      (hlegal.concat (c := .semicolon) trivial) ?_)
    simpa [Clause.kinds] using htook.append hsemicolon
  · next hk =>
    rintro _ _ ⟨⟩
    exact .unclosed x₀.took_nil hbrace hkind htook (Clause.nested_kindsAll cs) ht hk rfl
  · refine .bind ((programDerived d).statement x) ((ih.statement x).within hbefore ?_) ?_
    · rintro _ ⟨c, hc, rfl⟩
      exact .symbols [.closeBrace] ⟨cs ++ [c], hlegal.concat hc, by simp⟩
    · rintro st x₁ ⟨c, hc⟩
      refine .map (ih.statements brace (cs ++ [c]) x₀ x₁ hbrace hkind (hlegal.concat hc.legal) ?_) _
      simpa using htook.append hc.took_kinds

/-- A block of which **only the brace** was taken. -/
theorem block (brace : Token) (hbrace : x.shown = .ok brace)
    (hkind : brace.kind = .symbol .openBrace) :
    Refuses IsBlock x (Parser.statements d brace.span) x.drop :=
  ih.statements brace [] x x.drop hbrace hkind trivial x.drop.took_nil

/-- **Statements** are refused behind what begins one. -/
theorem statement_succ : Refuses IsStatement x (Parser.statement (d + 1)) x := by
  rw [Parser.statement]
  refine .peek_bind fun t ht => ?_
  split
  · next hk => exact .map ((ih.atRule t x ht hk).within x.took_nil fun _ => .item) _
  · next text hk =>
    have hname := TokenStream.took_drop ht hk (by simp)
    refine .skip_bind (.accept_bind (fun x₁ hcolon => ?_) ?_)
    · exact .map (declaration_refuses d ⟨text, t.span⟩ (hname.append hcolon)) _
    · refine .map (Refuses.within ?_ x.took_nil fun _ => .item) _
      exact ih.rule ⟨text, t.span⟩ x x.drop hname
  · exact .unexpected x.took_nil ht (.symbols [.semicolon] ⟨.semicolon, trivial, rfl⟩)

/-- **At-rules** are refused behind what begins one. -/
theorem atRule_succ (t : Token) (ht : x.shown = .ok t) (hk : t.kind = .symbol .at) :
    Refuses IsItem x (Parser.atRule (d + 1)) x := by
  rw [Parser.atRule]
  refine .peek_bind fun sign _ => ?_
  have hsign := TokenStream.took_drop ht hk (by simp)
  refine .skip_bind (.expectName_bind hsign ?_ fun name x₁ hname => ?_)
  · exact .name [] [.semicolon] fun text _ => ⟨.atRule text [], trivial, rfl, rfl⟩
  · have hbefore := hsign.append hname
    refine .bind (atRuleParameters_derived d name x₁)
      ((atRuleParameters_refuses d name x₁).within hbefore ?_) ?_
    · rintro _ ⟨ps, rfl⟩
      exact .symbols [.semicolon] ⟨.atRule name.text ps, trivial, rfl, by simp [Clause.kinds]⟩
    · rintro es x₂ ⟨⟨ps, hread⟩, -⟩
      refine .peek_bind fun u hu => .skip_bind ?_
      split
      · next hopen =>
        have hopen := TokenKind.isSymbol_iff.1 hopen
        refine .map ((ih.block x₂ u hu hopen).within (hbefore.append hread.took) ?_) _
        rintro _ ⟨cs, hlegal, rfl⟩
        exact .whole ⟨.atBlock name.text ps cs, hlegal, rfl, by simp [Clause.kinds]⟩
      · exact .pure

/-- **Rules** are refused behind what begins one, the name included. -/
theorem rule_succ (name : Name) (x₀ : TokenStream) (htook : x₀.Took [.name name.text] x) :
    Refuses IsItem x₀ (Parser.rule (d + 1) name) x := by
  rw [Parser.rule]
  split
  · rintro _ _ ⟨⟩
    exact .misnamed rfl
  · next hname =>
    have hname := Bool.eq_false_iff.2 hname
    have hviable : ∀ ks, IsParameters [] ks → Viable IsItem ([.name name.text] ++ ks) := by
      rintro _ ⟨slots, hnames, rfl⟩
      refine .symbols [.openBrace, .closeBrace]
        ⟨.rule name.text slots [], ⟨hname, hnames, trivial⟩, rfl, ?_⟩
      simp [Clause.kinds, Clause.kindsAll]
    refine .bind (parameters_derived d name [] x List.nodup_nil)
      ((parameters_refuses d name [] x List.nodup_nil).within htook hviable) ?_
    rintro params x₁ ⟨slots, hslots, -, hnames⟩
    have hbefore := htook.append hslots
    refine .peek_bind fun t ht => ?_
    dsimp only
    split
    · next hopen =>
      have hopen := TokenKind.isSymbol_iff.1 hopen
      refine .skip_bind (.map ((ih.block x₁ t ht hopen).within hbefore ?_) _)
      rintro _ ⟨cs, hlegal, rfl⟩
      refine .whole ⟨.rule name.text slots cs, ⟨hname, hnames, hlegal⟩, rfl, ?_⟩
      simp [Clause.kinds]
    · exact .unexpected hbefore ht (hviable _ ⟨slots, hnames, rfl⟩)

end ProgramRefuses

/-- **Statements and rules** are refused only for cause. -/
theorem programRefuses (d : Nat) : ProgramRefuses d := by
  induction d with
  | zero =>
    refine ⟨fun _ _ _ _ _ _ _ _ => ?_, fun _ => ?_, fun _ _ _ _ => ?_, fun _ _ _ _ => ?_⟩ <;>
      exact .exhaust
  | succ d ih =>
    exact ⟨fun brace cs x₀ x => ih.statements_succ x brace cs x₀, ih.statement_succ,
      fun t x => ih.atRule_succ x t, fun name x₀ x => ih.rule_succ x name x₀⟩

/-! ### Whole programs -/

/-- **Programs** are refused only for cause. -/
theorem items_refuses (d : Nat) (x : TokenStream) : Refuses IsItems x (items d) x := by
  have hone : ∀ ks, IsItem ks → Viable IsItems ([] ++ ks) := by
    rintro _ ⟨c, hlegal, hitem, rfl⟩
    refine .whole ⟨[c], ⟨⟨hlegal, trivial⟩, by simpa using hitem⟩, ?_⟩
    rw [Clause.kindsAll, Clause.kindsAll, List.append_nil, List.nil_append]
  have hmore : ∀ c : Clause, c.Legal → c.isItem = true → ∀ ks, IsItems ks →
      Viable IsItems (c.kinds ++ ks) := by
    rintro c hlegal hitem _ ⟨cs, hprogram, rfl⟩
    exact .whole ⟨c :: cs, hprogram.cons hlegal hitem, rfl⟩
  induction d generalizing x with
  | zero => exact .exhaust
  | succ d ih =>
    rw [items]
    refine .peek_bind fun t ht => ?_
    split
    · exact .pure
    · next hk =>
      have hsemicolon := TokenStream.took_drop ht hk (by simp)
      exact .skip_bind ((ih x.drop).within hsemicolon (hmore .semicolon trivial rfl))
    · next hk =>
      refine .bind ((programDerived d).atRule t x ht hk)
        (((programRefuses d).atRule t x ht hk).within x.took_nil hone) ?_
      rintro a x₁ ⟨c, hc, hitem⟩
      exact .map ((ih x₁).within hc.took_kinds (hmore c hc.legal hitem)) _
    · next text hk =>
      have hname := TokenStream.took_drop ht hk (by simp)
      refine .skip_bind (.bind ((programDerived d).rule ⟨text, t.span⟩ x.drop) ?_ ?_)
      · exact ((programRefuses d).rule ⟨text, t.span⟩ x x.drop hname).within x.took_nil hone
      · rintro r x₁ ⟨c, hc, hitem⟩
        have hc := hc.from_start hname
        exact .map ((ih x₁).within hc.took_kinds (hmore c hc.legal hitem)) _
    · exact .unexpected x.took_nil ht (.whole ⟨[], ⟨trivial, by simp⟩, rfl⟩)

end Parser

/-! ### Sources -/

/-- A source that is refused is refused **after some of its tokens**. -/
theorem exists_refusal {source : String} {e : SyntaxError} (h : parse source = .error e) :
    ∃ d used x', (Cursor.ofString source).stream = x'.prepend used ∧
      (Parser.items d).run (Cursor.ofString source).stream = (.failed e, x') ∧
      Refusal IsItems (Cursor.ofString source).stream e x' := by
  obtain ⟨d, hd⟩ := items_stream source
  rcases hrun : (Parser.items d).run (Cursor.ofString source).stream with ⟨out, x'⟩
  rw [h, hrun] at hd
  obtain rfl : out = .failed e := hd
  obtain ⟨used, hused, -⟩ := Parser.refused_again
    (fun _ => Cursor.kind_ne_eof_of_mem_stream) hrun
  exact ⟨d, used, x', hused, hrun, Parser.items_refuses d _ e x' hrun⟩

/-- The error that ends a stream has a **lexical** cause. -/
theorem Cursor.lexical_of_ending {c : Cursor} {e : SyntaxError} (h : c.stream.ending = .error e) :
    ∃ cause, e.cause = .lexical cause := by
  induction c using tokens_induction with
  | error c e' c' hn =>
    rw [stream_of_error hn] at h
    cases h
    exact lexical_of_next hn
  | ending c t c' hn hk =>
    rw [stream_of_end hn hk] at h
    cases h
  | token c t c' hn hk ih =>
    rw [stream_of_token hn hk] at h
    exact ih h

/-- An error in place of a token has a **lexical** cause. -/
theorem lexical_of_shown {source : String} {used : List Token} {x : TokenStream} {e : SyntaxError}
    (hused : (Cursor.ofString source).stream = x.prepend used) (h : x.shown = .error e) :
    ∃ cause, e.cause = .lexical cause := by
  refine Cursor.lexical_of_ending (c := Cursor.ofString source) ?_
  rw [hused]
  obtain ⟨_ | ⟨t, ts⟩, ending⟩ := x
  · cases ending <;> cases h
    rfl
  · cases h

end RuleScript
