import Mathlib.Data.Fintype.EquivFin
import Mathlib.Data.Set.Finite.Basic
import RuleScript.Proofs.Brackets
import RuleScript.Proofs.Rendering
import RuleScript.Proofs.Taking

/-!
# Tokens that can be completed

A parser that is refused stops at a token that nothing it may go on with begins with: what it took
**can be completed**, so that the fault is not with the tokens before. That is said of every
function of the grammar by `Parser.Refuses`, which follows the functions with the derivation of
what was read so far in hand.

A block that is not closed is blamed on its brace instead, which is the one behind which all
brackets are nested. Two faults have nothing to do with the order of tokens: a parameter that is
there twice, and a rule with the name of a variable.

* `Viable`: tokens that can be completed.
* `Refusal`: the ways in which a parser is refused.
* `Parser.expressionRefuses`: expressions.
-/

namespace RuleScript

variable {α β : Type}

/-! ### Tokens that can be completed -/

/-- A token that can be **written down**. -/
def TokenKind.Writable (k : TokenKind) : Prop := ∃ text, Renders text k

@[simp]
theorem TokenKind.writable_symbol (s : Symbol) : (symbol s).Writable :=
  ⟨s.text.toList, String.ofList_toList⟩

/-- There is always a name that is **not taken**. -/
theorem exists_fresh_name (taken : List String) :
    ∃ text, (TokenKind.name text).Writable ∧ text ∉ taken := by
  let name (n : Nat) : String := String.ofList ('x' :: List.replicate n 'x')
  have hinjective : Function.Injective name := by
    intro n m h
    have hlength := congrArg List.length (String.ofList_injective h)
    simpa using hlength
  obtain ⟨_, ⟨n, rfl⟩, hfresh⟩ :=
    (Set.infinite_range_of_injective hinjective).exists_notMem_finite taken.finite_toSet
  refine ⟨name n, ⟨'x' :: List.replicate n 'x', rfl, ?_, ?_, ?_⟩, hfresh⟩
  · refine ⟨[], 'x', List.replicate n 'x', String.toList_ofList, .inl rfl, rfl, fun c hc => ?_⟩
    rw [List.eq_of_mem_replicate hc]
    rfl
  all_goals
    intro h
    have hlist := congrArg String.toList h
    rw [String.toList_ofList] at hlist
    cases hlist

/-- Tokens are **viable** if they can be completed, with tokens that can be written down, to what
is asked for. -/
def Viable (N : List TokenKind → Prop) (ks : List TokenKind) : Prop :=
  ∃ more, (∀ k ∈ more, k.Writable) ∧ N (ks ++ more)

namespace Viable

variable {N N₁ : List TokenKind → Prop} {ks ks' : List TokenKind}

/-- What is asked for needs no more. -/
theorem whole (h : N ks) : Viable N ks := ⟨[], nofun, by rwa [List.append_nil]⟩

/-- Symbols alone complete the tokens. -/
theorem symbols (ss : List Symbol) (h : N (ks ++ ss.map .symbol)) : Viable N ks :=
  ⟨ss.map .symbol, by simp, h⟩

/-- A name that is not taken comes next, and then symbols. -/
theorem name (taken : List String) (ss : List Symbol)
    (h : ∀ text, text ∉ taken → N (ks ++ .name text :: ss.map .symbol)) : Viable N ks := by
  obtain ⟨text, hwritable, hfresh⟩ := exists_fresh_name taken
  refine ⟨.name text :: ss.map .symbol, ?_, h text hfresh⟩
  simpa using hwritable

/-- What can be completed **inside** can be completed. -/
theorem within (h : Viable N₁ ks') (hN : ∀ ks', N₁ ks' → Viable N (ks ++ ks')) :
    Viable N (ks ++ ks') := by
  obtain ⟨more, hmore, hks'⟩ := h
  obtain ⟨more', hmore', hks⟩ := hN _ hks'
  refine ⟨more ++ more', ?_, ?_⟩
  · intro k hk
    exact (List.mem_append.1 hk).elim (hmore k) (hmore' k)
  · rwa [← List.append_assoc, List.append_assoc ks, List.append_assoc] at hks ⊢

end Viable

/-! ### Refusals -/

/-- The ways in which a parser, having begun with one stream, is **refused** with another left. -/
inductive Refusal (N : List TokenKind → Prop) (x : TokenStream) (e : SyntaxError)
    (x' : TokenStream) : Prop
  /-- a token is shown where the tokens that were taken could be completed otherwise -/
  | unexpected {ks : List TokenKind} {expected : Expected} {t : Token} (htook : x.Took ks x')
    (ht : x'.shown = .ok t) (hviable : Viable N ks) (he : e = .unexpected expected t)
  /-- the end is shown inside a block, and brackets are nested from its brace on -/
  | unclosed {before inside : List TokenKind} {y : TokenStream} {brace t : Token}
    (htook : x.Took before y) (hbrace : y.shown = .ok brace)
    (hkind : brace.kind = .symbol .openBrace) (hinside : y.drop.Took inside x')
    (hnested : Nested inside) (ht : x'.shown = .ok t) (heof : t.kind = .eof)
    (he : e = ⟨.grammar .unclosedBlock, brace.span⟩)
  /-- a parameter is there twice -/
  | duplicate {parameter rule : String}
    (he : e.cause = .grammar (.duplicateParameter parameter rule))
  /-- a rule has the name of a variable -/
  | misnamed {name : String} (he : e.cause = .grammar (.variableAsRule name))
  /-- an error is shown in place of a token -/
  | ending (he : x'.shown = .error e)

variable {N N₁ : List TokenKind → Prop} {x₀ x x₁ : TokenStream} {ks : List TokenKind}

/-- A part that is refused **refuses the whole**. -/
theorem Refusal.within {e : SyntaxError} {x' : TokenStream} (h : Refusal N₁ x e x')
    (htook : x₀.Took ks x) (hN : ∀ ks', N₁ ks' → Viable N (ks ++ ks')) : Refusal N x₀ e x' := by
  cases h with
  | unexpected htook' ht hviable he =>
    exact .unexpected (htook.append htook') ht (hviable.within hN) he
  | unclosed htook' hbrace hkind hinside hnested ht heof he =>
    exact .unclosed (htook.append htook') hbrace hkind hinside hnested ht heof he
  | duplicate he => exact .duplicate he
  | misnamed he => exact .misnamed he
  | ending he => exact .ending he

namespace Parser

/-- Wherever a parser that goes on with a stream is refused, it is refused **for cause**: seen from
the stream that it began with, there is a `Refusal`. -/
def Refuses (N : List TokenKind → Prop) (x₀ : TokenStream) (p : Parser TokenStream α)
    (x : TokenStream) : Prop :=
  ∀ e x', p.run x = (.failed e, x') → Refusal N x₀ e x'

namespace Refuses

variable {p : Parser TokenStream α} {symbol : Symbol} {expected : Expected} {t : Token}

theorem pure {a : α} : Refuses N x₀ (Pure.pure a : Parser TokenStream α) x := by
  rintro _ _ ⟨⟩

theorem exhaust : Refuses N x₀ (Process.exhaust : Parser TokenStream α) x := by
  rintro _ _ ⟨⟩

/-- An **unexpected** token is refused behind tokens that can be completed. -/
theorem unexpected (htook : x₀.Took ks x) (ht : x.shown = .ok t) (hviable : Viable N ks) :
    Refuses N x₀ (Process.fail (.unexpected expected t) : Parser TokenStream α) x := by
  rintro _ _ ⟨⟩
  exact .unexpected htook ht hviable rfl

/-- What a part refuses **the whole** refuses, if it can be completed wherever the part can. -/
theorem within (h : Refuses N₁ x₁ p x) (htook : x₀.Took ks x₁)
    (hN : ∀ ks', N₁ ks' → Viable N (ks ++ ks')) : Refuses N x₀ p x :=
  fun e x' hrun => (h e x' hrun).within htook hN

/-- Parsers **one after the other** refuse what each of them refuses. -/
theorem bind {f : α → Parser TokenStream β} {R : α → TokenStream → Prop} (hends : Ends True p x R)
    (hp : Refuses N x₀ p x) (hf : ∀ a x₁, R a x₁ → Refuses N x₀ (f a) x₁) :
    Refuses N x₀ (p >>= f) x := by
  intro e x' h
  rw [Process.run_bind] at h
  rcases hrun : p.run x with ⟨a | e' | _, x₁⟩ <;> rw [hrun] at h
  · exact hf a x₁ (hends.of_done hrun) e x' h
  · cases h
    exact hp _ _ hrun
  · cases h

/-- What is done with the result cannot be refused. -/
theorem map (hp : Refuses N x₀ p x) (f : α → β) :
    Refuses N x₀ (p >>= fun a => Pure.pure (f a)) x := by
  intro e x' h
  rw [Process.run_bind] at h
  rcases hrun : p.run x with ⟨a | e' | _, x₁⟩ <;> rw [hrun] at h <;> cases h
  exact hp _ _ hrun

/-- Looking **refuses nothing**. -/
theorem peek_bind {f : Token → Parser TokenStream β}
    (hf : ∀ t, x.shown = .ok t → Refuses N x₀ (f t) x) : Refuses N x₀ (Parser.peek >>= f) x := by
  intro e x' h
  cases hshown : x.shown with
  | ok t =>
    rw [run_peek_bind hshown] at h
    exact hf t hshown e x' h
  | error e' =>
    rw [run_peek_bind_error hshown] at h
    cases h
    exact .ending hshown

theorem skip_bind {f : Unit → Parser TokenStream β} (hf : Refuses N x₀ (f ()) x.drop) :
    Refuses N x₀ (Parser.skip >>= f) x := hf

/-- Accepting a symbol **refuses nothing**. -/
theorem accept_bind {f : Bool → Parser TokenStream β}
    (htaken : ∀ x', x.Took [.symbol symbol] x' → Refuses N x₀ (f true) x')
    (hleft : Refuses N x₀ (f false) x) : Refuses N x₀ (Parser.accept symbol >>= f) x := by
  rw [Parser.accept, bind_assoc]
  refine peek_bind fun t ht => ?_
  split
  · next hk => exact htaken _ (TokenStream.took_drop ht (TokenKind.isSymbol_iff.1 hk) (by simp))
  · exact hleft

/-- Where a symbol is expected the tokens before **can be completed**, by that symbol at least. -/
theorem expect_bind {f : Token → Parser TokenStream β} (htook : x₀.Took ks x)
    (hviable : Viable N ks) (hf : ∀ t x', x.Took [.symbol symbol] x' → Refuses N x₀ (f t) x') :
    Refuses N x₀ (Parser.expect symbol expected >>= f) x := by
  rw [Parser.expect, bind_assoc]
  refine peek_bind fun t ht => ?_
  split
  · next hk => exact hf t _ (TokenStream.took_drop ht (TokenKind.isSymbol_iff.1 hk) (by simp))
  · exact unexpected htook ht hviable

/-- Where a name is expected the tokens before **can be completed**. -/
theorem expectName_bind {f : Name → Parser TokenStream β} (htook : x₀.Took ks x)
    (hviable : Viable N ks) (hf : ∀ n x', x.Took [.name n.text] x' → Refuses N x₀ (f n) x') :
    Refuses N x₀ (Parser.expectName expected >>= f) x := by
  rw [Parser.expectName, bind_assoc]
  refine peek_bind fun t ht => ?_
  split
  · next text hk => exact hf ⟨text, t.span⟩ _ (TokenStream.took_drop ht hk (by simp))
  · exact unexpected htook ht hviable

end Refuses

end Parser

/-! ### Expressions -/

/-- The tokens of one value. -/
def IsValue (ks : List TokenKind) : Prop := ∃ p : Phrase, p.kinds = ks

/-- The tokens of arguments, without their brackets. -/
def IsArguments (ks : List TokenKind) : Prop := ∃ args : Arguments, args.kinds = ks

namespace Parser

/-- The functions of the expression grammar at one depth are refused only for cause. -/
structure ExpressionRefuses (d : Nat) : Prop where
  binary : ∀ n x, Refuses IsValue x (Parser.binary d n) x
  climb : ∀ n left (p : Phrase) x₀ x, x₀.Took p.kinds x →
    Refuses IsValue x₀ (Parser.climb d n left) x
  unary : ∀ x, Refuses IsValue x (Parser.unary d) x
  primary : ∀ x, Refuses IsValue x (Parser.primary d) x
  arguments : ∀ x, Refuses IsArguments x (Parser.arguments d) x

namespace ExpressionRefuses

variable {d : Nat} (ih : ExpressionRefuses d) (x : TokenStream)

include ih

/-- **Operands and operators** are refused behind what begins a value. -/
theorem binary_succ (n : Nat) : Refuses IsValue x (Parser.binary (d + 1) n) x := by
  rw [Parser.binary]
  refine .bind ((expressionGrouped d).unary x) (ih.unary x) ?_
  rintro left x₁ ⟨p, htook, -⟩
  exact ih.climb n left p x x₁ htook

/-- An operator goes on with the phrase that was read, and needs **another operand**. -/
theorem climb_succ (n : Nat) (left : Expr) (p : Phrase) (x₀ : TokenStream)
    (htook : x₀.Took p.kinds x) : Refuses IsValue x₀ (Parser.climb (d + 1) n left) x := by
  rw [Parser.climb]
  refine .peek_bind fun t ht => ?_
  split
  · exact .pure
  · next op hop =>
    split
    · exact .pure
    · have hsign := TokenStream.took_drop ht (BinaryOp.kind_of_ofKind hop) (by simp)
      have hbefore := htook.append hsign
      refine .skip_bind (.bind ((expressionGrouped d).binary _ x.drop op.rightLevel_le) ?_ ?_)
      · refine (ih.binary _ x.drop).within hbefore ?_
        rintro _ ⟨q, rfl⟩
        exact .whole ⟨.binary op p q, by simp [Phrase.kinds]⟩
      · rintro right x₁ ⟨q, hright, -⟩
        refine ih.climb n _ (.binary op p q) x₀ x₁ ?_
        simpa [Phrase.kinds] using hbefore.append hright

theorem unary_succ : Refuses IsValue x (Parser.unary (d + 1)) x := by
  rw [Parser.unary]
  refine .peek_bind fun t ht => ?_
  split
  · exact ih.primary x
  · next op hop =>
    have hsign := TokenStream.took_drop ht (UnaryOp.kind_of_ofKind hop) (by simp)
    refine .skip_bind (.map ((ih.unary x.drop).within hsign ?_) _)
    rintro _ ⟨p, rfl⟩
    exact .whole ⟨.unary op p, rfl⟩

/-- **Literals, names, calls and groups** are refused behind what begins a value. -/
theorem primary_succ : Refuses IsValue x (Parser.primary (d + 1)) x := by
  rw [Parser.primary]
  refine .peek_bind fun t ht => ?_
  split
  case h_1 | h_2 | h_3 | h_4 => exact .skip_bind .pure
  case h_5 text hk =>
    have hname := TokenStream.took_drop ht hk (by simp)
    refine .skip_bind (.accept_bind (fun x₁ hopen => ?_) .pure)
    have hbefore := hname.append hopen
    have hviable : ∀ ks, IsArguments ks →
        Viable IsValue ([.name text] ++ [.symbol .openParen] ++ ks) := by
      rintro _ ⟨args, rfl⟩
      exact .symbols [.closeParen] ⟨.call text args, by simp [Phrase.kinds]⟩
    refine .bind ((expressionGrouped d).arguments x₁) ((ih.arguments x₁).within hbefore hviable) ?_
    rintro es x₂ ⟨args, hargs, -⟩
    exact .expect_bind (hbefore.append hargs) (hviable _ ⟨args, rfl⟩) fun close x₃ _ => .pure
  case h_6 hk =>
    have hdollar := TokenStream.took_drop ht hk (by simp)
    refine .skip_bind (.expectName_bind hdollar ?_ fun name x₁ _ => .pure)
    exact .name [] [] fun text _ => ⟨.deref text, rfl⟩
  case h_7 hk =>
    have hopen := TokenStream.took_drop ht hk (by simp)
    have hviable : ∀ ks, IsValue ks → Viable IsValue ([.symbol .openParen] ++ ks) := by
      rintro _ ⟨p, rfl⟩
      exact .symbols [.closeParen] ⟨.group p, by simp [Phrase.kinds]⟩
    refine .skip_bind (.bind (value_derived d x.drop)
      ((ih.binary 0 x.drop).within hopen hviable) ?_)
    rintro inner x₁ ⟨p, hinner, -⟩
    exact .expect_bind (hopen.append hinner) (hviable _ ⟨p, rfl⟩) fun close x₂ _ => .pure
  case h_8 =>
    exact .unexpected x.took_nil ht (.name [] [] fun text _ => ⟨.bare text, rfl⟩)

/-- **Arguments** are refused behind what begins arguments. -/
theorem arguments_succ : Refuses IsArguments x (Parser.arguments (d + 1)) x := by
  rw [Parser.arguments, Parser.check, bind_assoc]
  refine .peek_bind fun t _ => ?_
  rw [pure_bind]
  split
  · exact .pure
  · refine .bind (value_derived d x) ((ih.binary 0 x).within x.took_nil ?_) ?_
    · rintro _ ⟨p, rfl⟩
      exact .whole ⟨.last p, rfl⟩
    · rintro arg x₁ ⟨p, htook, -⟩
      refine .accept_bind (fun x₂ hcomma => ?_) .pure
      refine .map ((ih.arguments x₂).within (htook.append hcomma) ?_) _
      rintro _ ⟨args, rfl⟩
      exact .whole ⟨.more p args, by simp [Arguments.kinds]⟩

end ExpressionRefuses

/-- **Expressions** are refused only where another token could go on with them. -/
theorem expressionRefuses (d : Nat) : ExpressionRefuses d := by
  induction d with
  | zero =>
    exact ⟨fun _ _ => .exhaust, fun _ _ _ _ _ _ => .exhaust, fun _ => .exhaust, fun _ => .exhaust,
      fun _ => .exhaust⟩
  | succ d ih =>
    exact ⟨fun n x => ih.binary_succ x n, fun n left p x₀ x => ih.climb_succ x n left p x₀,
      ih.unary_succ, ih.primary_succ, ih.arguments_succ⟩

end Parser

end RuleScript
