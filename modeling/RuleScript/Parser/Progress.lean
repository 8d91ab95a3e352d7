import RuleScript.Parser.Program

/-!
# Parsers make progress

How deep a parser recurses is bounded by the number of tokens left to read:
between two calls of the same function at least one token is dropped. So a
depth of a few steps for each token is never exhausted.

`EndsBelow n x s` is the statement that carries the argument: from `s` the
parser `x` is not exhausted, and if it is done then fewer than `n` tokens are
left. The results for the expression grammar (`expressionProgress`) and for the
program grammar (`programProgress`) are proved by induction on the depth, all
functions of a grammar at once; `items_progress` is what they come to for a
whole program.
-/

namespace RuleScript.Parser

open TokenSource (size)

variable {σ α β : Type} [TokenSource σ]

/-- The parser is not exhausted, and leaves fewer than `n` tokens if done. -/
def EndsBelow (n : Nat) (x : Parser σ α) (s : σ) : Prop :=
  match x.run s with
  | (.done _, s') => size s' < n
  | (.failed _, _) => True
  | (.exhausted, _) => False

/-- The token was looked at in this state. -/
def Seen (t : Token) (s : σ) : Prop := TokenSource.peek s = (.ok t, s)

/-- A token that looking gave is the one that was looked at. -/
theorem seen_of_peek [LawfulTokenSource σ] {s s' : σ} {t : Token}
    (h : (peek : Parser σ Token).run s = (.done t, s')) : Seen t s' := by
  rw [peek] at h
  dsimp only at h
  split at h <;> cases h
  next hpeek => exact LawfulTokenSource.peek_peek hpeek

namespace EndsBelow

variable {n m : Nat} {s : σ}

/-- A parser that ends is **not exhausted**. -/
theorem not_exhausted {x : Parser σ α} (h : EndsBelow n x s) (s' : σ) :
    x.run s ≠ (.exhausted, s') := by
  intro hx
  simp [EndsBelow, hx] at h

/-- A parser that leaves fewer tokens leaves fewer than any greater number. -/
theorem mono {x : Parser σ α} (h : EndsBelow m x s) (hmn : m ≤ n) : EndsBelow n x s := by
  unfold EndsBelow at h ⊢
  split at h
  · exact Nat.lt_of_lt_of_le h hmn
  · trivial
  · exact h

theorem pure {a : α} (h : size s < n) : EndsBelow n (Pure.pure a : Parser σ α) s := h

theorem fail {e : SyntaxError} : EndsBelow n (Process.fail e : Parser σ α) s := trivial

/-- Parsers **one after the other** end if the second ends wherever the first one does. -/
theorem bind_run {x : Parser σ α} {f : α → Parser σ β} (hx : EndsBelow m x s)
    (hf : ∀ a s', x.run s = (.done a, s') → size s' < m → EndsBelow n (f a) s') :
    EndsBelow n (x >>= f) s := by
  unfold EndsBelow at hx ⊢
  rw [Process.run_bind]
  cases h : x.run s with
  | mk outcome s' =>
    rw [h] at hx
    cases outcome with
    | done a => exact hf a s' h hx
    | failed e => trivial
    | exhausted => exact hx

/-- Parsers one after the other end if the second ends **with fewer tokens** than the first one has.
-/
theorem bind {x : Parser σ α} {f : α → Parser σ β} (hx : EndsBelow m x s)
    (hf : ∀ a s', size s' < m → EndsBelow n (f a) s') : EndsBelow n (x >>= f) s :=
  hx.bind_run fun a s' _ h => hf a s' h

/-- To look **once more** changes nothing. -/
theorem peek_of_seen {t : Token} (h : Seen t s) {f : Token → Parser σ β}
    (hf : EndsBelow n (f t) s) : EndsBelow n (Parser.peek >>= f) s := by
  unfold EndsBelow at hf ⊢
  rw [Process.run_bind_done (run_peek h)]
  exact hf

variable [LawfulTokenSource σ]

/-- A parser that looks goes on with the token and with **no more tokens** than before. -/
theorem peek {f : Token → Parser σ β}
    (hf : ∀ t s', Seen t s' → size s' ≤ size s → EndsBelow n (f t) s') :
    EndsBelow n (Parser.peek >>= f) s := by
  have hsize := LawfulTokenSource.size_peek s
  cases h : TokenSource.peek s with
  | mk r s' =>
    rw [h] at hsize
    cases r with
    | ok t =>
      have := hf t s' (LawfulTokenSource.peek_peek h) hsize
      unfold EndsBelow at this ⊢
      rw [Process.run_bind_done (run_peek h)]
      exact this
    | error e =>
      unfold EndsBelow
      rw [Process.run_bind_failed (run_peek_error h)]
      trivial

/-- A token that was looked at is dropped, so that **fewer tokens** are left, unless it is the end.
-/
theorem skip {t : Token} {f : Unit → Parser σ β} (ht : Seen t s) (hk : t.kind ≠ .eof)
    (hf : ∀ s', size s' < size s → EndsBelow n (f ()) s') :
    EndsBelow n (Parser.skip >>= f) s :=
  hf _ (LawfulTokenSource.size_drop ht hk)

/-- To compare the next token with a symbol takes nothing. -/
theorem check {symbol : Symbol} {f : Bool → Parser σ β}
    (hf : ∀ b s', size s' ≤ size s → EndsBelow n (f b) s') :
    EndsBelow n (Parser.check symbol >>= f) s := by
  rw [Parser.check, bind_assoc]
  refine peek fun t s' _ hs => ?_
  rw [pure_bind]
  exact hf _ _ hs

/-- A symbol is not the end. -/
theorem ne_eof_of_isSymbol {k : TokenKind} {symbol : Symbol} (h : k.isSymbol symbol = true) :
    k ≠ .eof := by
  rw [TokenKind.isSymbol_iff.1 h]
  simp

/-- A symbol is dropped if it comes next, and **no more tokens** are left in any case. -/
theorem accept {symbol : Symbol} {f : Bool → Parser σ β}
    (hf : ∀ b s', size s' ≤ size s → EndsBelow n (f b) s') :
    EndsBelow n (Parser.accept symbol >>= f) s := by
  rw [Parser.accept, bind_assoc]
  refine peek fun t s' ht hs => ?_
  split
  · next h =>
    rw [bind_assoc]
    refine skip ht (ne_eof_of_isSymbol h) fun s'' hs' => ?_
    rw [pure_bind]
    exact hf _ _ (by omega)
  · rw [pure_bind]
    exact hf _ _ hs

/-- A symbol that is expected is dropped, so that **fewer tokens** are left. -/
theorem expect {symbol : Symbol} {e : Expected} {f : Token → Parser σ β}
    (hf : ∀ t s', size s' < size s → EndsBelow n (f t) s') :
    EndsBelow n (Parser.expect symbol e >>= f) s := by
  rw [Parser.expect, bind_assoc]
  refine peek fun t s' ht hs => ?_
  split
  · next h =>
    rw [bind_assoc]
    refine skip ht (ne_eof_of_isSymbol h) fun s'' hs' => ?_
    rw [pure_bind]
    exact hf _ _ (by omega)
  · exact fail

/-- A name that is expected is dropped, so that **fewer tokens** are left. -/
theorem expectName {e : Expected} {f : Name → Parser σ β}
    (hf : ∀ x s', size s' < size s → EndsBelow n (f x) s') :
    EndsBelow n (Parser.expectName e >>= f) s := by
  rw [Parser.expectName, bind_assoc]
  refine peek fun t s' ht hs => ?_
  split
  · next text h =>
    rw [bind_assoc]
    refine skip ht (by simp [h]) fun s'' hs' => ?_
    rw [pure_bind]
    exact hf _ _ (by omega)
  · exact fail

end EndsBelow

variable [LawfulTokenSource σ]

/-! ### Expressions -/

/-- The expression grammar at one depth: every function that has steps enough
for the tokens left is not exhausted, and all but the loops drop a token. -/
structure ExpressionProgress (σ : Type) [TokenSource σ] (depth : Nat) : Prop where
  binary : ∀ (s : σ) level, 4 * size s + 3 ≤ depth →
    EndsBelow (size s) (Parser.binary depth level) s
  climb : ∀ (s : σ) level left, 4 * size s + 1 ≤ depth →
    EndsBelow (size s + 1) (Parser.climb depth level left) s
  unary : ∀ s : σ, 4 * size s + 2 ≤ depth → EndsBelow (size s) (Parser.unary depth) s
  primary : ∀ s : σ, 4 * size s + 1 ≤ depth → EndsBelow (size s) (Parser.primary depth) s
  arguments : ∀ s : σ, 4 * size s + 4 ≤ depth →
    EndsBelow (size s + 1) (Parser.arguments depth) s

/-- An operator between operands is not the end. -/
theorem binaryOp_ne_eof {k : TokenKind} {op : BinaryOp} (h : BinaryOp.ofKind? k = some op) :
    k ≠ .eof := by
  intro hk
  simp [hk, BinaryOp.ofKind?] at h

/-- An operator in front of an operand is not the end. -/
theorem unaryOp_ne_eof {k : TokenKind} {op : UnaryOp} (h : UnaryOp.ofKind? k = some op) :
    k ≠ .eof := by
  intro hk
  simp [hk, UnaryOp.ofKind?] at h

/-- **Literals, names, calls and groups** drop a token. -/
theorem primary_progress {depth : Nat} (ih : ExpressionProgress σ depth) (s : σ)
    (hd : 4 * size s ≤ depth) : EndsBelow (size s) (Parser.primary (depth + 1)) s := by
  rw [Parser.primary]
  refine .peek fun t s₁ ht h₁ => ?_
  split
  case h_5 text hk =>
    refine .skip ht (by simp [hk]) fun s₂ h₂ => .accept fun b s₃ h₃ => ?_
    split
    · refine .bind (ih.arguments s₃ (by omega)) fun args s₄ h₄ => .expect fun close s₅ h₅ => ?_
      exact .pure (by omega)
    · exact .pure (by omega)
  case h_6 hk =>
    refine .skip ht (by simp [hk]) fun s₂ h₂ => .expectName fun name s₃ h₃ => ?_
    exact .pure (by omega)
  case h_7 hk =>
    refine .skip ht (by simp [hk]) fun s₂ h₂ => ?_
    refine .bind (ih.binary s₂ 0 (by omega)) fun inner s₃ h₃ => .expect fun close s₄ h₄ => ?_
    exact .pure (by omega)
  case h_8 => exact .fail
  all_goals
    rename_i hk
    exact .skip ht (by simp [hk]) fun s₂ h₂ => .pure (by omega)

/-- All **expressions** are parsed within four steps for each token left. -/
theorem expressionProgress (depth : Nat) : ExpressionProgress σ depth := by
  induction depth with
  | zero =>
    constructor <;> intros <;> omega
  | succ depth ih =>
    refine ⟨?_, ?_, ?_, fun s hd => primary_progress ih s (by omega), ?_⟩
    · intro s level hd
      rw [Parser.binary]
      exact .bind (ih.unary s (by omega)) fun left s₁ h₁ =>
        (ih.climb s₁ level left (by omega)).mono (by omega)
    · intro s level left hd
      rw [Parser.climb]
      refine .peek fun t s₁ ht h₁ => ?_
      split
      · exact .pure (by omega)
      · next op hop =>
        split
        · exact .pure (by omega)
        · refine .skip ht (binaryOp_ne_eof hop) fun s₂ h₂ => ?_
          refine .bind (ih.binary s₂ _ (by omega)) fun right s₃ h₃ => ?_
          exact (ih.climb s₃ level _ (by omega)).mono (by omega)
    · intro s hd
      rw [Parser.unary]
      refine .peek fun t s₁ ht h₁ => ?_
      split
      · exact (ih.primary s₁ (by omega)).mono h₁
      · next op hop =>
        refine .skip ht (unaryOp_ne_eof hop) fun s₂ h₂ => ?_
        refine .bind (ih.unary s₂ (by omega)) fun operand s₃ h₃ => ?_
        exact .pure (by omega)
    · intro s hd
      rw [Parser.arguments]
      refine .check fun b s₁ h₁ => ?_
      split
      · exact .pure (by omega)
      · refine .bind (ih.binary s₁ 0 (by omega)) fun arg s₂ h₂ => .accept fun c s₃ h₃ => ?_
        split
        · refine .bind (ih.arguments s₃ (by omega)) fun more s₄ h₄ => ?_
          exact .pure (by omega)
        · exact .pure (by omega)

/-! ### Programs -/

/-- **Values** of a declaration: a turn of the loop drops a token. -/
theorem values_progress (depth : Nat) (s : σ) (hd : 4 * size s + 4 ≤ depth) :
    EndsBelow (size s + 1) (Parser.values depth) s := by
  induction depth generalizing s with
  | zero => omega
  | succ depth ih =>
    rw [Parser.values]
    refine .peek fun t s₁ ht h₁ => ?_
    split
    · refine .bind ((expressionProgress depth).binary s₁ 0 (by omega)) fun value s₂ h₂ => ?_
      refine .bind (ih s₂ (by omega)) fun more s₃ h₃ => ?_
      exact .pure (by omega)
    · exact .pure (by omega)

/-- What follows the name of a declaration is parsed within the depth of its values. -/
theorem declarationValues_progress (depth : Nat) (property : Name) (s : σ)
    (hd : 4 * size s + 4 ≤ depth) :
    EndsBelow (size s + 1) (Parser.declarationValues depth property) s := by
  rw [Parser.declarationValues]
  split
  · refine .bind ((expressionProgress depth).binary s 0 (by omega)) fun value s₁ h₁ => ?_
    exact .pure (by omega)
  · exact values_progress depth s hd

/-- **Declarations** drop a token. -/
theorem declaration_progress (depth : Nat) (property : Name) (s : σ)
    (hd : 4 * size s + 4 ≤ depth) :
    EndsBelow (size s) (Parser.declaration depth property) s := by
  rw [Parser.declaration]
  refine .bind (declarationValues_progress depth property s hd) fun exprs s₁ h₁ => ?_
  refine .expect fun close s₂ h₂ => ?_
  exact .pure (by omega)

/-- **Defaults** of parameters are parsed within the depth of an expression. -/
theorem parameterDefault_progress (depth : Nat) (s : σ) (hd : 4 * size s + 3 ≤ depth) :
    EndsBelow (size s + 1) (Parser.parameterDefault depth) s := by
  rw [Parser.parameterDefault]
  refine .accept fun b s₁ h₁ => ?_
  split
  · refine .bind ((expressionProgress depth).binary s₁ 0 (by omega)) fun value s₂ h₂ => ?_
    exact .pure (by omega)
  · exact .pure (by omega)

/-- **Parameters**: a turn of the loop drops a token. -/
theorem parameters_progress (depth : Nat) (name : Name) (seen : List Parameter) (s : σ)
    (hd : 4 * size s + 4 ≤ depth) :
    EndsBelow (size s + 1) (Parser.parameters depth name seen) s := by
  induction depth generalizing s seen with
  | zero => omega
  | succ depth ih =>
    rw [Parser.parameters]
    refine .peek fun t s₁ ht h₁ => ?_
    split
    · next hk =>
      refine .skip ht (EndsBelow.ne_eof_of_isSymbol hk) fun s₂ h₂ => ?_
      refine .expectName fun name s₃ h₃ => ?_
      split
      · exact .fail
      · refine .bind (parameterDefault_progress depth s₃ (by omega)) fun default s₄ h₄ => ?_
        refine .expect fun close s₅ h₅ => ?_
        exact (ih _ s₅ (by omega)).mono (by omega)
    · exact .pure (by omega)

/-- **Expressions of an at-rule**: a turn of the loop drops a token. -/
theorem atRuleParameters_progress (depth : Nat) (name : Name) (s : σ)
    (hd : 4 * size s + 4 ≤ depth) :
    EndsBelow (size s + 1) (Parser.atRuleParameters depth name) s := by
  induction depth generalizing s with
  | zero => omega
  | succ depth ih =>
    rw [Parser.atRuleParameters]
    refine .peek fun t s₁ ht h₁ => ?_
    split
    · exact .pure (by omega)
    · exact .pure (by omega)
    · exact .fail
    · refine .bind ((expressionProgress depth).binary s₁ 0 (by omega)) fun param s₂ h₂ => ?_
      refine .bind (ih s₂ (by omega)) fun more s₃ h₃ => ?_
      exact .pure (by omega)

/-- The expressions before the block or end of an at-rule stop there. -/
theorem atRuleParameters_stop (depth : Nat) (name : Name) (s s' : σ) (params : List Expr)
    (h : (Parser.atRuleParameters depth name).run s = (.done params, s')) :
    ∃ t, Seen t s' ∧ t.kind ≠ .eof := by
  induction depth generalizing s params with
  | zero => cases h
  | succ depth ih =>
    rw [Parser.atRuleParameters] at h
    cases hp : TokenSource.peek s with
    | mk r s₁ =>
      cases r with
      | error e =>
        rw [Process.run_bind_failed (run_peek_error hp)] at h
        cases h
      | ok t =>
        have hseen := LawfulTokenSource.peek_peek hp
        rw [Process.run_bind_done (run_peek hp)] at h
        split at h
        · next hk =>
          cases h
          exact ⟨t, hseen, by simp [hk]⟩
        · next hk =>
          cases h
          exact ⟨t, hseen, by simp [hk]⟩
        · cases h
        · rw [Process.run_bind] at h
          split at h
          · rw [Process.run_bind] at h
            split at h
            · next hmore =>
              cases h
              exact ih _ _ hmore
            · cases h
            · cases h
          · cases h
          · cases h

/-- The program grammar at one depth. -/
structure ProgramProgress (σ : Type) [TokenSource σ] (depth : Nat) : Prop where
  statements : ∀ (s : σ) opening, 4 * size s + 7 ≤ depth →
    EndsBelow (size s) (Parser.statements depth opening) s
  statement : ∀ s : σ, 4 * size s + 6 ≤ depth → EndsBelow (size s) (Parser.statement depth) s
  atRule : ∀ (s : σ) t, Seen t s → t.kind ≠ .eof → 4 * size s + 5 ≤ depth →
    EndsBelow (size s) (Parser.atRule depth) s
  rule : ∀ (s : σ) name, 4 * size s + 5 ≤ depth → EndsBelow (size s) (Parser.rule depth name) s

/-- All parts of **programs** are parsed within four steps for each token left. -/
theorem programProgress (depth : Nat) : ProgramProgress σ depth := by
  induction depth with
  | zero => constructor <;> intros <;> omega
  | succ depth ih =>
    refine ⟨?_, ?_, ?_, ?_⟩
    · intro s opening hd
      rw [Parser.statements]
      refine .peek fun t s₁ ht h₁ => ?_
      split
      · next hk => exact .skip ht (by simp [hk]) fun s₂ h₂ => .pure (by omega)
      · next hk =>
        exact .skip ht (by simp [hk]) fun s₂ h₂ => (ih.statements s₂ _ (by omega)).mono (by omega)
      · exact .fail
      · refine .bind (ih.statement s₁ (by omega)) fun first s₂ h₂ => ?_
        refine .bind (ih.statements s₂ opening (by omega)) fun p s₃ h₃ => ?_
        exact .pure (by omega)
    · intro s hd
      rw [Parser.statement]
      refine .peek fun t s₁ ht h₁ => ?_
      split
      · next hk =>
        refine .bind (ih.atRule s₁ t ht (by simp [hk]) (by omega)) fun a s₂ h₂ => ?_
        exact .pure (by omega)
      · next text hk =>
        refine .skip ht (by simp [hk]) fun s₂ h₂ => .accept fun b s₃ h₃ => ?_
        split
        · refine .bind (declaration_progress depth _ s₃ (by omega)) fun d s₄ h₄ => ?_
          exact .pure (by omega)
        · refine .bind (ih.rule s₃ _ (by omega)) fun r s₄ h₄ => ?_
          exact .pure (by omega)
      · exact .fail
    · intro s t ht hk hd
      rw [Parser.atRule]
      refine .peek_of_seen ht (.skip ht hk fun s₁ h₁ => .expectName fun name s₂ h₂ => ?_)
      refine .bind_run (atRuleParameters_progress depth name s₂ (by omega))
        fun params s₃ hrun h₃ => ?_
      obtain ⟨u, hu, hne⟩ := atRuleParameters_stop depth name s₂ s₃ params hrun
      refine .peek_of_seen hu (.skip hu hne fun s₄ h₄ => ?_)
      split
      · refine .bind (ih.statements s₄ _ (by omega)) fun p s₅ h₅ => ?_
        exact .pure (by omega)
      · exact .pure (by omega)
    · intro s name hd
      rw [Parser.rule]
      split
      · exact .fail
      · refine .bind (parameters_progress depth name [] s (by omega)) fun params s₁ h₁ => ?_
        refine .peek fun t s₂ ht h₂ => ?_
        split
        · next hk =>
          refine .skip ht (EndsBelow.ne_eof_of_isSymbol hk) fun s₃ h₃ => ?_
          refine .bind (ih.statements s₃ _ (by omega)) fun p s₄ h₄ => ?_
          exact .pure (by omega)
        · exact .fail

/-- **Whole programs** are parsed within four steps for each token left. -/
theorem items_progress (depth : Nat) (s : σ) (hd : 4 * size s + 7 ≤ depth) :
    EndsBelow (size s + 1) (Parser.items depth) s := by
  induction depth generalizing s with
  | zero => omega
  | succ depth ih =>
    rw [Parser.items]
    refine .peek fun t s₁ ht h₁ => ?_
    split
    · exact .pure (by omega)
    · next hk =>
      exact .skip ht (by simp [hk]) fun s₂ h₂ => (ih s₂ (by omega)).mono (by omega)
    · next hk =>
      refine .bind ((programProgress depth).atRule s₁ t ht (by simp [hk]) (by omega))
        fun a s₂ h₂ => ?_
      refine .bind (ih s₂ (by omega)) fun more s₃ h₃ => ?_
      exact .pure (by omega)
    · next text hk =>
      refine .skip ht (by simp [hk]) fun s₂ h₂ => ?_
      refine .bind ((programProgress depth).rule s₂ _ (by omega)) fun r s₃ h₃ => ?_
      refine .bind (ih s₃ (by omega)) fun more s₄ h₄ => ?_
      exact .pure (by omega)
    · exact .fail

end RuleScript.Parser
