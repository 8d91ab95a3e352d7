import RuleScript.Proofs.Acceptance

/-!
# Brackets are nested

Three kinds of brackets stand in a program, and every derivation of the grammar nests them
properly: each bracket that is opened is closed by its own kind, behind the brackets that were
opened after it.

* `Nested`: tokens in which all brackets are nested. `Clause.nested` says that the tokens of clauses
  are.
* `openBraces`: the braces that are still open behind some tokens, found by matching braces and
  nothing else. Nested tokens leave it as it is (`Nested.openBraces_eq`).
-/

namespace RuleScript

/-! ### Nested tokens -/

/-- The bracket that closes what a bracket opens. -/
def Symbol.closing? : Symbol → Option Symbol
  | .openParen => some .closeParen
  | .openBracket => some .closeBracket
  | .openBrace => some .closeBrace
  | _ => none

/-- Whether a token is a bracket of any kind. -/
def TokenKind.isBracket : TokenKind → Bool
  | .symbol s => s ∈ [.openParen, .closeParen, .openBracket, .closeBracket, .openBrace, .closeBrace]
  | _ => false

/-- All brackets are **nested**: between one that opens and the one that closes it, and behind them,
the brackets are nested again. -/
inductive Nested : List TokenKind → Prop
  | nil : Nested []
  /-- a token that is no bracket -/
  | token {k : TokenKind} {ks : List TokenKind} (hk : k.isBracket = false) (h : Nested ks) :
    Nested (k :: ks)
  /-- two brackets that belong together -/
  | pair {opening closing : Symbol} {inner ks : List TokenKind}
    (hpair : opening.closing? = some closing) (hinner : Nested inner) (h : Nested ks) :
    Nested (.symbol opening :: (inner ++ .symbol closing :: ks))

namespace Nested

variable {ks ks' : List TokenKind}

/-- Nested tokens are nested **one after the other**. -/
theorem append (h : Nested ks) (h' : Nested ks') : Nested (ks ++ ks') := by
  induction h with
  | nil => exact h'
  | token hk _ ih => exact .token hk ih
  | pair hpair hinner _ _ ih =>
    rw [List.cons_append, List.append_assoc, List.cons_append]
    exact .pair hpair hinner ih

theorem singleton {k : TokenKind} (hk : k.isBracket = false) : Nested [k] := .token hk .nil

/-- Nested tokens between brackets that belong together. -/
theorem between {opening closing : Symbol} (hpair : opening.closing? = some closing)
    (h : Nested ks) : Nested (.symbol opening :: (ks ++ [.symbol closing])) :=
  .pair hpair h .nil

/-- **Any number** of nested sequences are nested one after the other. -/
theorem flatMap {α : Type} {f : α → List TokenKind} (xs : List α) (h : ∀ x, Nested (f x)) :
    Nested (xs.flatMap f) := by
  induction xs with
  | nil => exact .nil
  | cons x xs ih => exact (h x).append ih

end Nested

/-! ### Derivations -/

mutual

/-- The brackets of a **phrase** are nested. -/
theorem Phrase.nested (p : Phrase) : Nested p.kinds := by
  match p with
  | .literal value => exact .singleton (by cases value <;> rfl)
  | .bare name => exact .singleton rfl
  | .deref name => exact .token rfl (.singleton rfl)
  | .call callee args => exact .token rfl (.between rfl args.nested)
  | .group inner => exact .between rfl inner.nested
  | .unary op operand => exact .token (by cases op <;> rfl) operand.nested
  | .binary op left right => exact left.nested.append (.token (by cases op <;> rfl) right.nested)

/-- **Arguments** are nested, with commas between them. -/
theorem Arguments.nested (args : Arguments) : Nested args.kinds := by
  match args with
  | .empty => exact .nil
  | .last arg => exact arg.nested
  | .more arg others => exact arg.nested.append (.token rfl others.nested)

end

theorem Phrase.nested_kindsAll (ps : List Phrase) : Nested (kindsAll ps) := .flatMap ps nested

/-- **Parameters** are nested, with their brackets around them. -/
theorem Slot.nested (s : Slot) : Nested s.kinds := by
  refine .between rfl (.token rfl ?_)
  cases s.default with
  | none => exact .nil
  | some p => exact .token rfl p.nested

namespace Clause

mutual

/-- The brackets of a **clause** are nested. -/
theorem nested (c : Clause) : Nested c.kinds := by
  match c with
  | .semicolon => exact .singleton rfl
  | .declaration property values =>
    exact .token rfl (.token rfl ((Phrase.nested_kindsAll values).append (.singleton rfl)))
  | .atRule name parameters =>
    exact .token rfl (.token rfl ((Phrase.nested_kindsAll parameters).append (.singleton rfl)))
  | .atBlock name parameters body =>
    refine .token rfl (.token rfl ((Phrase.nested_kindsAll parameters).append ?_))
    exact .between rfl (nested_kindsAll body)
  | .rule name slots body =>
    refine .token rfl ((Nested.flatMap slots Slot.nested).append ?_)
    exact .between rfl (nested_kindsAll body)

theorem nested_kindsAll (cs : List Clause) : Nested (kindsAll cs) := by
  match cs with
  | [] => exact .nil
  | c :: cs => exact c.nested.append (nested_kindsAll cs)

end

end Clause

/-- The brackets of a **program** are nested. -/
theorem nested_of_parse {source : String} {p : Program} (h : parse source = .ok p) :
    ∃ tokens, lex source = .ok tokens ∧ Nested (tokens.map Token.kind) := by
  obtain ⟨tokens, cs, htokens, -, hkinds, -⟩ := derivation_of_parse h
  refine ⟨tokens, htokens, ?_⟩
  rw [hkinds]
  exact (Clause.nested_kindsAll cs).append (.singleton rfl)

/-! ### Braces that are open -/

/-- The braces that are **open** behind some tokens, the last one first, where some were open
before. A closing brace closes the last one, and other tokens do not count. -/
def openBraces (opened : List Token) : List Token → List Token
  | [] => opened
  | t :: ts =>
    if t.kind.isSymbol .openBrace then openBraces (t :: opened) ts
    else if t.kind.isSymbol .closeBrace then openBraces opened.tail ts
    else openBraces opened ts

/-- Braces that are open are found **token by token**. -/
theorem openBraces_append (opened ts us : List Token) :
    openBraces opened (ts ++ us) = openBraces (openBraces opened ts) us := by
  induction ts generalizing opened with
  | nil => rfl
  | cons t ts ih =>
    rw [List.cons_append, openBraces, openBraces]
    split
    · exact ih _
    · split <;> exact ih _

/-- **Nested tokens** leave open what was open. -/
theorem Nested.openBraces_eq {ks : List TokenKind} (h : Nested ks) {ts : List Token}
    (hts : ts.map Token.kind = ks) (opened : List Token) : openBraces opened ts = opened := by
  induction h generalizing ts opened with
  | nil =>
    obtain rfl := List.map_eq_nil_iff.1 hts
    rfl
  | @token k ks hk _ ih =>
    obtain ⟨t, us, rfl, rfl, hus⟩ := List.map_eq_cons_iff.1 hts
    have hopen : ¬t.kind.isSymbol .openBrace = true := fun hopen => by
      rw [TokenKind.isSymbol_iff.1 hopen] at hk
      cases hk
    have hclose : ¬t.kind.isSymbol .closeBrace = true := fun hclose => by
      rw [TokenKind.isSymbol_iff.1 hclose] at hk
      cases hk
    rw [openBraces, if_neg hopen, if_neg hclose]
    exact ih hus opened
  | @pair opening closing inner ks hpair _ _ ihinner ih =>
    obtain ⟨t, us, rfl, ht, hus⟩ := List.map_eq_cons_iff.1 hts
    obtain ⟨vs, ws, rfl, hvs, hws⟩ := List.map_eq_append_iff.1 hus
    obtain ⟨u, ws, rfl, hu, hks⟩ := List.map_eq_cons_iff.1 hws
    rw [openBraces, ht]
    -- only braces count: what they open is closed again
    cases opening <;> cases hpair
    case pair.openBrace.refl =>
      rw [if_pos (by rfl), openBraces_append, ihinner hvs, openBraces, hu, if_neg (by decide),
        if_pos (by rfl)]
      exact ih hks opened
    all_goals
      rw [if_neg (by decide), if_neg (by decide), openBraces_append, ihinner hvs, openBraces, hu,
        if_neg (by decide), if_neg (by decide)]
      exact ih hks opened

end RuleScript
