import RuleScript.Proofs.Spending

/-!
# Loops of the grammar

Where the grammar repeats something, it takes one turn after the other: each looks at what comes
next and either stops or goes on with what it has read so far. Every turn that goes on takes a
token, so every loop comes to an end.

* `Turn` and `Parser.loop`: turns that are repeated until one of them stops.
* `Parser.itemTurn`, `Parser.parameterTurn`, …: the turns of the grammar. `Parser.loop_itemTurn`
  and its kin say that repeating them is what the grammar does.
* `Parser.Iterates`: a parser repeats a turn that takes a token whenever it goes on. It has no more
  turns than there are tokens (`Parser.Turns.length_le`).
* `parsing_comes_to_an_end`: every reading ends, and takes tokens on the way.
-/

namespace RuleScript

/-! ### Turns -/

/-- What a **turn** of a loop comes to. -/
inductive Turn (α β : Type) where
  /-- another turn follows -/
  | again (next : α)
  /-- the loop is left -/
  | stop (result : β)

/-- Another turn follows. -/
def Turn.GoesOn {α β : Type} : Turn α β → Prop
  | .again _ => True
  | .stop _ => False

namespace Parser

variable {σ α β : Type} [TokenSource σ]

/-- A turn that is **repeated** until it stops. -/
def loop (turn : Nat → α → Parser σ (Turn α β)) : Nat → α → Parser σ β
  | 0, _ => Process.exhaust
  | depth + 1, a => do
    let outcome ← turn depth a
    match outcome with
    | .again next => loop turn depth next
    | .stop result => return result

/-- One operator after an operand, and its right operand. -/
def climbTurn (level depth : Nat) (left : Expr) : Parser σ (Turn Expr Expr) := do
  let token ← peek
  match BinaryOp.ofKind? token.kind with
  | none => return .stop left
  | some op =>
    if op.level < level then return .stop left
    else
      skip
      let right ← binary depth op.rightLevel
      return .again (.binary op left right (left.span.union right.span))

/-- One argument of a call, and the comma after it. -/
def argumentTurn (depth : Nat) (args : List Expr) : Parser σ (Turn (List Expr) (List Expr)) := do
  if ← check .closeParen then
    return .stop args
  else
    let arg ← binary depth 0
    if ← accept .comma then
      return .again (args ++ [arg])
    else
      return .stop (args ++ [arg])

/-- One value of a call statement. -/
def valueTurn (depth : Nat) (values : List Expr) : Parser σ (Turn (List Expr) (List Expr)) := do
  let token ← peek
  if startsValue token.kind then
    let value ← binary depth 0
    return .again (values ++ [value])
  else
    return .stop values

/-- One parameter of a rule. -/
def parameterTurn (rule : Name) (depth : Nat) (seen : List Parameter) :
    Parser σ (Turn (List Parameter) (List Parameter)) := do
  let token ← peek
  if token.kind.isSymbol .openBracket then
    skip
    let name ← expectName .parameterName
    if seen.any fun p => p.name.text == name.text then
      Process.fail ⟨.grammar (.duplicateParameter name.text rule.text), name.span⟩
    else
      let default ← parameterDefault depth
      let close ← expect .closeBracket .parameterEnd
      return .again (seen ++ [⟨name, default, token.span.union close.span⟩])
  else
    return .stop seen

/-- One expression between the name of an at-rule and its block or end. -/
def atRuleParameterTurn (name : Name) (depth : Nat) (params : List Expr) :
    Parser σ (Turn (List Expr) (List Expr)) := do
  let token ← peek
  match token.kind with
  | .symbol .openBrace => return .stop params
  | .symbol .semicolon => return .stop params
  | .eof => Process.fail (.unexpected (.atRuleEnd name.text) token)
  | _ =>
    let param ← binary depth 0
    return .again (params ++ [param])

/-- One statement of a block, or a semicolon. -/
def statementTurn (opening : Span) (depth : Nat) (body : List Statement) :
    Parser σ (Turn (List Statement) (List Statement × Span)) := do
  let token ← peek
  match token.kind with
  | .symbol .closeBrace =>
    skip
    return .stop (body, token.span)
  | .symbol .semicolon =>
    skip
    return .again body
  | .eof => Process.fail ⟨.grammar .unclosedBlock, opening⟩
  | _ =>
    let st ← statement depth
    return .again (body ++ [st])

/-- One item of a program, or a semicolon. -/
def itemTurn (depth : Nat) (is : List Item) : Parser σ (Turn (List Item) (List Item)) := do
  let token ← peek
  match token.kind with
  | .eof => return .stop is
  | .symbol .semicolon =>
    skip
    return .again is
  | .symbol .at =>
    let a ← atRule depth
    return .again (is ++ [.atRule a])
  | .name text =>
    skip
    let r ← rule depth ⟨text, token.span⟩
    return .again (is ++ [.rule r])
  | _ => Process.fail (.unexpected .item token)

/-! ### The grammar repeats turns -/

variable (d : Nat)

/-- Taking **further operators** is a loop. -/
theorem loop_climbTurn (level : Nat) (left : Expr) :
    loop (σ := σ) (climbTurn level) d left = climb d level left := by
  induction d generalizing left with
  | zero => rfl
  | succ d ih =>
    rw [loop, climbTurn, climb, bind_assoc]
    congr 1
    funext t
    cases BinaryOp.ofKind? t.kind with
    | none => simp
    | some op => by_cases hlevel : op.level < level <;> simp [hlevel, ih]

/-- Taking **arguments** is a loop. -/
theorem loop_argumentTurn (args : List Expr) :
    loop (σ := σ) argumentTurn d args = (args ++ ·) <$> arguments d := by
  induction d generalizing args with
  | zero => rfl
  | succ d ih =>
    rw [loop, argumentTurn, arguments, bind_assoc, map_bind]
    congr 1
    funext closed
    cases closed with
    | true => simp
    | false =>
      simp only [Bool.false_eq_true, ↓reduceIte, bind_assoc, map_bind]
      congr 1
      funext arg
      congr 1
      funext comma
      cases comma <;> simp [ih]

/-- Taking **values** is a loop. -/
theorem loop_valueTurn (es : List Expr) :
    loop (σ := σ) valueTurn d es = (es ++ ·) <$> values d := by
  induction d generalizing es with
  | zero => rfl
  | succ d ih =>
    rw [loop, valueTurn, values, bind_assoc, map_bind]
    congr 1
    funext t
    split <;> simp [ih]

/-- Taking **parameters** is a loop. -/
theorem loop_parameterTurn (rule : Name) (seen : List Parameter) :
    loop (σ := σ) (parameterTurn rule) d seen = parameters d rule seen := by
  induction d generalizing seen with
  | zero => rfl
  | succ d ih =>
    rw [loop, parameterTurn, parameters, bind_assoc]
    congr 1
    funext t
    split
    · simp only [bind_assoc]
      congr 1
      funext _
      congr 1
      funext name
      split
      · rfl
      · simp [ih]
    · rfl

theorem loop_atRuleParameterTurn (name : Name) (es : List Expr) :
    loop (σ := σ) (atRuleParameterTurn name) d es = (es ++ ·) <$> atRuleParameters d name := by
  induction d generalizing es with
  | zero => rfl
  | succ d ih =>
    rw [loop, atRuleParameterTurn, atRuleParameters, bind_assoc, map_bind]
    congr 1
    funext t
    split <;> simp_all [Process.fail_bind, Process.map_fail]

/-- Taking **statements** is a loop. -/
theorem loop_statementTurn (opening : Span) (body : List Statement) :
    loop (σ := σ) (statementTurn opening) d body =
      (fun block => (body ++ block.1, block.2)) <$> statements d opening := by
  induction d generalizing body with
  | zero => rfl
  | succ d ih =>
    rw [loop, statementTurn, statements, bind_assoc, map_bind]
    congr 1
    funext t
    split <;> simp_all [Process.fail_bind, Process.map_fail]

/-- Taking **items** is a loop. -/
theorem loop_itemTurn (is : List Item) :
    loop (σ := σ) itemTurn d is = (is ++ ·) <$> items d := by
  induction d generalizing is with
  | zero => rfl
  | succ d ih =>
    rw [loop, itemTurn, items, bind_assoc, map_bind]
    congr 1
    funext t
    split <;> simp_all [Process.fail_bind, Process.map_fail]

end Parser

/-! ### Turns take tokens -/

namespace Ledger

variable (r : Ledger) (d : Nat)

theorem takes_climbTurn (level : Nat) (left : Expr) :
    r.Takes (Parser.climbTurn level d left) Turn.GoesOn := by
  rw [Parser.climbTurn]
  refine .peek_bind fun t r' ht => ?_
  split
  · exact .pure id
  · next op hop =>
    split
    · exact .pure id
    · have hright := ((passage (TokenSource.drop r')).expressionKept d).binary op.rightLevel
      exact .skip_bind ht (Parser.binaryOp_ne_eof hop) (.bind hright fun right _ => .pure trivial)

theorem takes_argumentTurn (args : List Expr) :
    r.Takes (Parser.argumentTurn d args) Turn.GoesOn := by
  rw [Parser.argumentTurn]
  refine .check_bind fun closed r' => ?_
  split
  · exact .pure id
  · refine .bind (takes_binary r' d 0) fun arg r₁ => .bind (.accept _) fun comma _ => ?_
    split <;> exact .pure trivial

theorem takes_valueTurn (es : List Expr) : r.Takes (Parser.valueTurn d es) Turn.GoesOn := by
  rw [Parser.valueTurn]
  refine .peek_bind fun t r' _ => ?_
  split
  · exact .bind (takes_binary r' d 0) fun value r₁ => .pure trivial
  · exact .pure id

theorem takes_parameterTurn (rule : Name) (seen : List Parameter) :
    r.Takes (Parser.parameterTurn rule d seen) Turn.GoesOn := by
  rw [Parser.parameterTurn]
  refine .peek_bind fun t r' ht => ?_
  split
  · next hk =>
    refine .skip_bind ht (Parser.EndsBelow.ne_eof_of_isSymbol hk) ?_
    refine .bind (.expectName _) fun name _ => ?_
    split
    · exact .fail trivial
    · refine .bind (Watch.parameterDefault_keeps d) fun default _ => ?_
      exact .bind (.expect _ _) fun close _ => .pure trivial
  · exact .pure id

theorem takes_atRuleParameterTurn (name : Name) (es : List Expr) :
    r.Takes (Parser.atRuleParameterTurn name d es) Turn.GoesOn := by
  rw [Parser.atRuleParameterTurn]
  refine .peek_bind fun t r' _ => ?_
  split
  · exact .pure id
  · exact .pure id
  · exact .fail
  · exact .bind (takes_binary r' d 0) fun param r₁ => .pure trivial

theorem takes_statementTurn (opening : Span) (body : List Statement) :
    r.Takes (Parser.statementTurn opening d body) Turn.GoesOn := by
  rw [Parser.statementTurn]
  refine .peek_bind fun t r' ht => ?_
  split
  · next hk => exact .skip_bind ht (by simp [hk]) (.pure trivial)
  · next hk => exact .skip_bind ht (by simp [hk]) (.pure trivial)
  · exact .fail
  · exact .bind (takes_statement r' d) fun st r₁ => .pure trivial

theorem takes_itemTurn (is : List Item) : r.Takes (Parser.itemTurn d is) Turn.GoesOn := by
  rw [Parser.itemTurn]
  refine .peek_bind fun t r' ht => ?_
  split
  · exact .pure id
  · next hk => exact .skip_bind ht (by simp [hk]) (.pure trivial)
  · next hk => exact .bind (takes_atRule d ht (by simp [hk])) fun a r₁ => .pure trivial
  · next text hk =>
    have hrule := ((passage (TokenSource.drop r')).programKept d).rule ⟨text, t.span⟩ trivial
    exact .skip_bind ht (by simp [hk]) (.bind hrule fun r₁ _ => .pure trivial)
  · exact .fail

end Ledger

/-- A parser **repeats a turn** from a start: whenever a turn goes on, it has taken a token, so that
fewer are unread; and no turn takes the end. -/
structure Parser.Iterates {α β : Type} (parser : Nat → Parser Ledger β)
    (turn : Nat → α → Parser Ledger (Turn α β)) (start : α) : Prop where
  eq_loop : ∀ d, parser d = loop turn d start
  takes : ∀ (r : Ledger) d a, r.Takes (turn d a) Turn.GoesOn
  unread_lt : ∀ (r r' : Ledger) d a next,
    (turn d a).run r = (.done (.again next), r') → r'.unread < r.unread

namespace Parser.Iterates

variable {α β : Type} {parser : Nat → Parser Ledger β}
  {turn : Nat → α → Parser Ledger (Turn α β)} {start : α}

/-- Turns that take tokens leave fewer. -/
theorem of_takes (heq : ∀ d, loop turn d start = parser d)
    (htakes : ∀ (r : Ledger) d a, r.Takes (turn d a) Turn.GoesOn) : Iterates parser turn start where
  eq_loop d := (heq d).symm
  takes := htakes
  unread_lt := by
    intro r r' d a next hrun
    have htook := htakes r d a
    rw [Ledger.Takes, hrun] at htook
    obtain ⟨ts, hts, hne⟩ := htook
    exact hts.unread_lt (hne trivial)

end Parser.Iterates

/-- So many turns that **go on**, one after the other. Each has less depth than the one before. -/
inductive Parser.Turns {α β : Type} (turn : Nat → α → Parser Ledger (Turn α β)) :
    Nat → Nat → α → Ledger → α → Ledger → Prop where
  | none {d a r} : Turns turn 0 d a r a r
  | more {n d a r next r₁ last r'} (h : (turn d a).run r = (.done (.again next), r₁))
    (hmore : Turns turn n d next r₁ last r') : Turns turn (n + 1) (d + 1) a r last r'

namespace Parser.Turns

variable {α β : Type} {turn : Nat → α → Parser Ledger (Turn α β)} {n d : Nat} {a last : α}
  {r r' : Ledger}

/-- A loop goes on where its turns **have led**. -/
theorem run_loop (h : Turns turn n d a r last r') :
    (loop turn d a).run r = (loop turn (d - n) last).run r' := by
  induction h with
  | none => rfl
  | more hturn _ ih => rwa [loop, Process.run_bind_done hturn, Nat.add_sub_add_right]

/-- A loop has **no more turns than tokens** that are unread. -/
theorem length_le {parser : Nat → Parser Ledger β} {start : α}
    (hiterates : Iterates parser turn start) (h : Turns turn n d a r last r') :
    n + r'.unread ≤ r.unread := by
  induction h with
  | none => exact Nat.le_of_eq (Nat.zero_add _)
  | more hturn _ ih =>
    have hlt := hiterates.unread_lt _ _ _ _ _ hturn
    omega

end Parser.Turns

/-! ### Every reading ends -/

/-- A reading that is not exhausted is **the same with more depth**, and leaves the same state. -/
theorem Pairing.Same.eq_of_ended {σ α : Type} [TokenSource σ] {seen : View → α → α}
    {x y : Outcome SyntaxError α × σ} (h : (Pairing.self σ).SameSeen seen x y)
    (hseen : ∀ a, seen .exact a = a) (hx : x.1 ≠ .exhausted) : y = x := by
  cases h with
  | @done a b s t result state =>
    obtain rfl : a = b := by
      change seen .exact a = seen .exact b at result
      rwa [hseen, hseen] at result
    obtain rfl : s = t := state
    rfl
  | @failed e e' s t error =>
    obtain ⟨rfl, rfl⟩ : e = e' ∧ s = t := error
    rfl
  | exhausted state => exact absurd rfl hx
  | behind h => exact absurd rfl hx

namespace Parser

variable {σ : Type} [TokenSource σ] [LawfulTokenSource σ] {s : σ} {d : Nat}

/-- An expression is read in the same way at every depth that is **enough**. -/
theorem binary_run_of_le (hd : ampleDepth s ≤ d) :
    (binary d 0).run s = (.ofExcept (readExpression s).1, (readExpression s).2) := by
  have hends := (expressionProgress (ampleDepth s)).binary s 0 (by unfold ampleDepth; omega)
  have hample : (binary (ampleDepth s) 0).run s =
      (.ofExcept (readExpression s).1, (readExpression s).2) :=
    (binary (ampleDepth s) 0).run_eq_of_settle s hends.not_exhausted
  have hsame := (Pairing.expressionSame (p := Pairing.self σ) (.of_le trivial hd)).binary 0
    (rfl : s = s)
  rw [← hample]
  exact hsame.eq_of_ended Expr.seen_exact fun h => hends.not_exhausted _ (Prod.ext h rfl)

/-- So is a program. -/
theorem items_run_of_le (hd : ampleDepth s ≤ d) :
    (items d).run s =
      (.ofExcept ((readProgram s).1.map Program.items), (readProgram s).2) := by
  have hends := items_progress (ampleDepth s) s (by unfold ampleDepth; omega)
  have hample := (items (ampleDepth s)).run_eq_of_settle s hends.not_exhausted
  have hread : (readProgram s).1.map Program.items =
      ((items (ampleDepth s)).settle s hends.not_exhausted).1 := by
    rw [readProgram]
    dsimp only
    cases ((items (ampleDepth s)).settle s hends.not_exhausted).1 <;> rfl
  have hsame := Pairing.items_same (p := Pairing.self σ) (.of_le trivial hd) (rfl : s = s)
  rw [hread]
  refine Eq.trans ?_ hample
  exact hsame.eq_of_ended (List.map_id'' Item.seen_exact)
    fun h => hends.not_exhausted _ (Prod.ext h rfl)

end Parser

/-- **Parsing comes to an end**, and takes tokens on the way.

* In every state, an expression and a program are read at every depth that is enough, and then in
  the same way and up to the same state.
* An expression, a statement, a rule behind its name, an at-rule where its at sign is next, and a
  block behind its opening brace take at least one token if they are read. They take the tokens
  next ahead, and in no case the end; nor does a program.
* The loops over items, parameters, statements, values, expressions of an at-rule, arguments and
  operators repeat turns, each of which leaves fewer tokens unread if it goes on. -/
theorem parsing_comes_to_an_end :
    (∀ (s : Lookahead) (d : Nat), Parser.ampleDepth s ≤ d →
      (Parser.binary d 0).run s =
        (.ofExcept (Parser.readExpression s).1, (Parser.readExpression s).2) ∧
      (Parser.items d).run s =
        (.ofExcept ((Parser.readProgram s).1.map Program.items), (Parser.readProgram s).2)) ∧
    (∀ (r : Ledger) (d : Nat),
      (∀ level, r.Takes (Parser.binary d level) fun _ => True) ∧
      (r.Takes (Parser.statement d) fun _ => True) ∧
      (∀ name, r.Takes (Parser.rule d name) fun _ => True) ∧
      (∀ t r', TokenSource.peek r = (.ok t, r') → t.kind = .symbol .at →
        r.Takes (Parser.atRule d) fun _ => True) ∧
      (∀ opening, r.Takes (Parser.statements d opening) fun _ => True) ∧
      r.Takes (Parser.items d) fun _ => False) ∧
    Parser.Iterates Parser.items Parser.itemTurn [] ∧
    (∀ name seen,
      Parser.Iterates (Parser.parameters · name seen) (Parser.parameterTurn name) seen) ∧
    (∀ opening, Parser.Iterates (Parser.statements · opening) (Parser.statementTurn opening) []) ∧
    Parser.Iterates Parser.values Parser.valueTurn [] ∧
    (∀ name,
      Parser.Iterates (Parser.atRuleParameters · name) (Parser.atRuleParameterTurn name) []) ∧
    Parser.Iterates Parser.arguments Parser.argumentTurn [] ∧
    ∀ level left, Parser.Iterates (Parser.climb · level left) (Parser.climbTurn level) left := by
  refine ⟨fun s d hd => ⟨Parser.binary_run_of_le hd, Parser.items_run_of_le hd⟩, ?_, ?_, ?_, ?_,
    ?_, ?_, ?_, ?_⟩
  · intro r d
    exact ⟨r.takes_binary d, r.takes_statement d, r.takes_rule d,
      fun t r' hpeek hk => Ledger.takes_atRule d hpeek (by simp [hk]), r.takes_statements d,
      .of_keeps (r.passage.items_keeps d)⟩
  · exact .of_takes (fun d => (Parser.loop_itemTurn d []).trans (id_map _)) Ledger.takes_itemTurn
  · intro name seen
    exact .of_takes (fun d => Parser.loop_parameterTurn d name seen)
      (Ledger.takes_parameterTurn · · name)
  · intro opening
    exact .of_takes (fun d => (Parser.loop_statementTurn d opening []).trans (id_map _))
      (Ledger.takes_statementTurn · · opening)
  · exact .of_takes (fun d => (Parser.loop_valueTurn d []).trans (id_map _)) Ledger.takes_valueTurn
  · intro name
    exact .of_takes (fun d => (Parser.loop_atRuleParameterTurn d name []).trans (id_map _))
      (Ledger.takes_atRuleParameterTurn · · name)
  · exact .of_takes (fun d => (Parser.loop_argumentTurn d []).trans (id_map _))
      Ledger.takes_argumentTurn
  · intro level left
    exact .of_takes (fun d => Parser.loop_climbTurn d level left) (Ledger.takes_climbTurn · · level)

/-- An expression that is read at a depth that is enough, and an at-rule that takes its tokens from
its at sign on. -/
theorem parsing_comes_to_an_end_here :
    let s := Lookahead.ofString "1"
    let r := Ledger.ofString "@return 1;"
    let sign : Token := ⟨.symbol .at, ⟨⟨0, 1, 1⟩, ⟨1, 1, 2⟩⟩⟩
    let r' : Ledger := ⟨⟨⟨"return 1;".toList, ⟨1, 1, 2⟩⟩, some sign⟩, []⟩
    (Parser.ampleDepth s ≤ 20 ∧ Outcome.ofExcept (Parser.readExpression s).1 =
      .done (.literal (.int 1) ⟨⟨0, 1, 1⟩, ⟨1, 1, 2⟩⟩)) ∧
    (TokenSource.peek r = (.ok sign, r') ∧ (r.Takes (Parser.atRule 50) fun _ => True) ∧
      ((Parser.atRule 50).run r).2.taken.map Token.kind =
        [.symbol .at, .name "return", .int 1, .symbol .semicolon]) := by
  intro s r sign r'
  have hample : Parser.ampleDepth s ≤ 20 := by decide
  have hpeek : TokenSource.peek r = (.ok sign, r') := by with_unfolding_all rfl
  obtain ⟨hends, htakes, -⟩ := parsing_comes_to_an_end
  obtain ⟨-, -, -, hatRule, -⟩ := htakes r 50
  have hread := congrArg Prod.fst (hends s 20 hample).1
  refine ⟨⟨hample, hread.symm.trans ?_⟩, hpeek, hatRule sign r' hpeek rfl, ?_⟩
  · with_unfolding_all rfl
  · change ((Parser.atRule 50).run (Ledger.ofString "@return 1;")).2.taken.map Token.kind = _
    with_unfolding_all rfl

end RuleScript
