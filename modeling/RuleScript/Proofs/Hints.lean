import RuleScript.Proofs.Binding
import RuleScript.Proofs.Blame
import RuleScript.Proofs.Resolution

/-!
# What a misused name is said to be

A name that is called and a name that stands bare where a value should are told apart by what they
could be used as instead. A bare name is classified by `Eval.usage`, and the fault of a call that
does not resolve says with a flag whether the name **is a variable**, in which case its help is to
read it with a dollar sign.

The two look the variable up in different ways. The classification asks for the variable that the
name stands for, and so does reading it; the flag asks for a variable that is **spelled as the name
is**. They agree on names without dashes. In front of a name with dashes the flag is never set, for
no variable is ever bound under its dashes: so the help is never wrong, and sometimes missing.

* `Eval.usage_callable_iff`, `Eval.usage_readable_iff`: what the classification says.
* `Program.Nest.declares`: the variables of a block are names of the program, so that
  `Visit.Scoped.unread_dashes` holds of every visit of a program that was read.
* `hint_iff_readable`: when the help is given. `hint_missing` is a run in which it is missing.
-/

namespace RuleScript

namespace Eval

variable {s : Store} {scope : ScopeId} {name : Name}

/-! ### What the classification says -/

/-- A name resolves if it is that of a rule or of a builtin. -/
theorem callee_ok_iff : (∃ target, callee s scope name = .ok target) ↔
    (s.rule? scope name.text).isSome ∨ (Builtin.ofName? name.text).isSome := by
  rw [callee, Store.findRule]
  rcases hrule : s.rule? scope name.text with _ | found
  · rcases hbuiltin : Builtin.ofName? name.text with _ | b <;> simp
  · simp

/-- A name is called **callable** exactly if it resolves. -/
theorem usage_callable_iff :
    usage s scope name = .callable ↔ ∃ target, callee s scope name = .ok target := by
  rw [callee_ok_iff, usage]
  split
  · next h => simpa using h
  · next h =>
    split <;> simpa using h

/-- A variable can be read if it is bound. -/
theorem variableValue_ok_iff {span : Span} :
    (∃ value, variableValue s scope name span = .ok value) ↔
      (s.valueOf? scope name.variableName).isSome := by
  rw [variableValue, Store.readVariable]
  rcases s.valueOf? scope name.variableName with _ | value <;> simp

/-- A name that does not resolve is called **readable** exactly if its variable can be read. -/
theorem usage_readable_iff {fault : Fault} (span : Span)
    (h : callee s scope name = .error fault) :
    usage s scope name = .readable ↔ ∃ value, variableValue s scope name span = .ok value := by
  have hnone : ¬∃ target, callee s scope name = .ok target := by simp [h]
  rw [callee_ok_iff, ← Bool.or_eq_true] at hnone
  rw [variableValue_ok_iff, usage, if_neg hnone]
  split
  · next hbound => simpa using hbound
  · next hunbound => simpa using hunbound

/-- Where a name stands for the variable it is spelled as, the **flag agrees** with the
classification. -/
theorem valueOf?_text (h : name.isVariable = false) :
    s.valueOf? scope name.text = s.valueOf? scope name.variableName := by
  rw [Name.variableName, Name.withoutDashes_of_not_hasDashes h]

end Eval

/-! ### Variables are bound without dashes -/

namespace Program.Nest

variable {p : Program} {path : List Block}

/-- The parameters of a block are names of the program. -/
theorem has_parameter (h : p.Nest path) :
    ∀ b ∈ path, ∀ q ∈ b.parameters, p.Has (.name q.name) := by
  induction h with
  | top => exact List.forall_mem_singleton.2 nofun
  | inner houter hc ih =>
    refine List.forall_mem_cons.2 ⟨?_, ih⟩
    cases hc with
    | rule hr => exact fun q hq => (houter.has _ List.mem_cons_self _ hr).parameter hq
    | condition => exact nofun

/-- What a scope that mirrors a block of the program holds is the variable of **a name of the
program**. -/
theorem declares (h : p.Nest path) {b : Block} (hb : b ∈ path) {f : Frame} (hm : f.Mirrors b)
    {text : String} {value : Value} (hvalue : f.values[text]? = some value) :
    ∃ n : Name, p.Has (.name n) ∧ n.variableName = text := by
  obtain ⟨d, hd, -, rfl⟩ | ⟨q, hq, rfl⟩ := hm.values text value hvalue
  · have hdeclaration : p.Has (.declaration d) := h.has b hb _ hd
    exact ⟨d.property, hdeclaration.child (.head _), rfl⟩
  · exact ⟨q.name, h.has_parameter b hb q hq, rfl⟩

end Program.Nest

/-- In a run of a program that was read, **nothing is found under a spelling with dashes**. -/
theorem Visit.Scoped.unread_dashes {source : String} {p : Program} {v : Visit} (h : v.Scoped p)
    (hparse : parse source = .ok p) {text : String} (hdashes : Name.hasDashes text = true) :
    v.world.store.valueOf? v.scope text = none := by
  cases hfound : v.world.store.valueOf? v.scope text with
  | none => rfl
  | some value =>
    obtain ⟨i, hi, hown⟩ := List.exists_of_findSome?_eq_some hfound
    obtain ⟨f, hf, hvalue⟩ := Option.bind_eq_some_iff.1 hown
    obtain ⟨k, hk⟩ := List.mem_iff_getElem?.1 hi
    obtain ⟨b, g, hb, hg, hm⟩ := h.mirrors.get hk
    obtain rfl : f = g := Option.some.inj (hf.symm.trans hg)
    obtain ⟨n, hn, rfl⟩ := h.nest.declares (List.mem_of_getElem? hb) hm hvalue
    have hspelled := names_of_parse hparse hn rfl
    rw [hspelled.hasDashes_variableName] at hdashes
    cases hdashes

/-! ### When the help is given -/

namespace Eval

/-- **What a misused name is said to be.** In every store and scope, a bare name is classified as
callable exactly if it resolves. If it does not, it is classified as readable exactly if its
variable can be read, and the fault of calling it has help exactly if it says that the name is a
variable. It says so if a variable is bound that is **spelled as the name is**. For a name without
dashes this is so exactly if the name is readable, whatever the store.

In the runs of a program that was read, it is so exactly if the name is readable **and has no
dashes**: whoever follows the help can read the variable, and a variable that is called with its
dashes gets none. -/
theorem hint_iff_readable (name : Name) :
    (∀ (s : Store) (scope : ScopeId),
      (usage s scope name = .callable ↔ ∃ target, callee s scope name = .ok target) ∧
      ∀ fault, callee s scope name = .error fault →
        (∀ span, usage s scope name = .readable ↔
          ∃ value, variableValue s scope name span = .ok value) ∧
        ∃ isVariable, fault = .unboundFunction name.text isVariable name.span ∧
          (fault.help.isSome ↔ isVariable = true) ∧
          (isVariable = true ↔ ∃ value, s.readVariable scope name.text = .ok value) ∧
          (name.isVariable = false → (isVariable = true ↔ usage s scope name = .readable))) ∧
    ∀ source p, parse source = .ok p → ∀ limit sink n v, p.Visits limit sink n v →
      ∀ isVariable, callee v.world.store v.scope name =
          .error (.unboundFunction name.text isVariable name.span) →
        (isVariable = true ↔
          usage v.world.store v.scope name = .readable ∧ name.isVariable = false) := by
  refine ⟨fun s scope => ⟨usage_callable_iff, fun fault hmissing => ⟨?_, ?_⟩⟩, ?_⟩
  · exact fun span => usage_readable_iff span hmissing
  · refine ⟨_, callee_eq_error hmissing, ?_, ?_, fun hname => ?_⟩
    · rw [callee_eq_error hmissing]
      cases (s.valueOf? scope name.text).isSome <;> simp [Fault.help]
    · rw [Store.readVariable]
      rcases s.valueOf? scope name.text with _ | value <;> simp
    · rw [usage_readable_iff default hmissing, variableValue_ok_iff, valueOf?_text hname]
  · intro source p hparse limit sink n v hv isVariable hmissing
    have hflag := callee_eq_error hmissing
    simp only [Fault.unboundFunction.injEq, true_and, and_true] at hflag
    subst hflag
    rw [usage_readable_iff default hmissing, variableValue_ok_iff]
    cases hname : name.isVariable with
    | false => simp [valueOf?_text hname]
    | true => simp [hv.scoped.unread_dashes hparse hname]

end Eval

/-- A main rule that declares `--x` and then returns an expression. -/
def Rule.declaringX (e : Expr) (stop : Nat) : Rule :=
  let span (start stop : Nat) : Span := ⟨⟨start, 1, start + 1⟩, ⟨stop, 1, stop + 1⟩⟩
  ⟨⟨⟨"main", span 0 4⟩, [], span 0 4⟩,
    [.declaration ⟨⟨"--x", span 6 9⟩, [.literal (.int 1) (span 11 12)], span 6 13⟩,
      .atRule ⟨⟨"return", span 15 21⟩, [e], none, span 14 (stop - 1)⟩], span 0 stop⟩

open Eval in
/-- Calling the variable as `x()` gets the help to read it. -/
theorem hint_iff_readable_plain :
    let source := "main \x7b--x: 1; @return x();\x7d"
    let name : Name := ⟨"x", ⟨⟨22, 1, 23⟩, ⟨23, 1, 24⟩⟩⟩
    ∃ p v, parse source = .ok p ∧ p.Visits 3 (.empty none) 2 v ∧
      callee v.world.store v.scope name = .error (.unboundFunction "x" true name.span) ∧
      (Fault.unboundFunction "x" true name.span).help =
        some "`x` is a variable, not a rule; read it with `$x`" ∧
      usage v.world.store v.scope name = .readable ∧ name.isVariable = false ∧
      ∃ value, variableValue v.world.store v.scope name name.span = .ok value := by
  intro source name
  let e : Expr := .call name [] ⟨⟨22, 1, 23⟩, ⟨25, 1, 26⟩⟩
  let main : Rule := .declaringX e 27
  let p : Program := ⟨[.rule main]⟩
  have hparse : parse "main \x7b--x: 1; @return x();\x7d" = .ok p :=
    parse_of_tokens [.inLine (.name "main") 0 4, .inLine (.symbol .openBrace) 5 6,
      .inLine (.name "--x") 6 9, .inLine (.symbol .colon) 9 10, .inLine (.int 1) 11 12,
      .inLine (.symbol .semicolon) 12 13, .inLine (.symbol .at) 14 15,
      .inLine (.name "return") 15 21, .inLine (.name "x") 22 23, .inLine (.symbol .openParen) 23 24,
      .inLine (.symbol .closeParen) 24 25, .inLine (.symbol .semicolon) 25 26,
      .inLine (.symbol .closeBrace) 26 27] (.inLine 27 27) (by with_unfolding_all rfl)
      (by with_unfolding_all rfl)
  -- the worlds in which the main rule is called and in which its last statement is run
  have hworlds (sink : Sink) : ∃ w w' value,
      (register 0 p.items).run ⟨.add .empty none, sink, #[]⟩ = (.done (), w) ∧
      w.store.rule? 0 mainName = some (main, 0) ∧
      (Eval.sequence (statement 2 w.store.frames.size) .nil (main.body.take 1)).run
        (((w.noting (.invokingMain 1)).noting (.invokingRule "main" 0)).entering 0) =
          (.done (.next value), w') ∧
      callee w'.store w.store.frames.size name = .error (.unboundFunction "x" true name.span) :=
    ⟨_, _, _, rfl, by cbv, rfl, by cbv⟩
  obtain ⟨w, w', value, hregister, hmain, hbefore, hmissing⟩ := hworlds (.empty none)
  have hbody : Visit.Starts 2 ⟨[p.block], .invoke main 0 [] main.selector.span,
      w.noting (.invokingMain 1)⟩ _ :=
    .body (Nat.zero_le _) rfl (show main.body = main.body.take 1 ++ _ :: [] from rfl) hbefore
  have hvisits : p.Visits 3 (.empty none) 2 _ := ⟨_, .main hregister hmain, .step hbody .refl⟩
  obtain ⟨hevery, hread⟩ := hint_iff_readable name
  obtain ⟨hreadable, hname⟩ := (hread source p hparse _ _ _ _ hvisits true hmissing).1 rfl
  obtain ⟨hvalue, -⟩ := (hevery w'.store _).2 _ hmissing
  exact ⟨p, _, hparse, hvisits, hmissing, by decide, hreadable, hname, (hvalue _).1 hreadable⟩

/-- The variable is **not noticed** where it is called with its dashes. Calling it as `--x()` fails
without help, though `$--x` reads it, and though a bare `--x` in the same place is said to be the
variable. -/
theorem hint_missing :
    let span : Span := ⟨⟨22, 1, 23⟩, ⟨25, 1, 26⟩⟩
    (∃ p, parse "main \x7b--x: 1; @return --x();\x7d" = .ok p ∧
      (p.report 10 (.empty none)).1.outcome = .failed (.unboundFunction "--x" false span) ∧
      (Fault.unboundFunction "--x" false span).help = none) ∧
    (∃ p, parse "main \x7b--x: 1; @return $--x;\x7d" = .ok p ∧
      (p.report 10 (.empty none)).1.outcome = .done (.int 1)) ∧
    ∃ p, parse "main \x7b--x: 1; @return --x;\x7d" = .ok p ∧
      (p.report 10 (.empty none)).1.outcome = .failed (.nameAsValue "--x" .readable span) := by
  intro span
  let x : Name := ⟨"--x", span⟩
  let after (e : Expr) (stop : Nat) : Program := ⟨[.rule (.declaringX e stop)]⟩
  let call : Expr := .call x [] ⟨⟨22, 1, 23⟩, ⟨27, 1, 28⟩⟩
  let deref : Expr :=
    .deref ⟨"--x", ⟨⟨23, 1, 24⟩, ⟨26, 1, 27⟩⟩⟩ ⟨⟨22, 1, 23⟩, ⟨26, 1, 27⟩⟩
  have hcall : parse "main \x7b--x: 1; @return --x();\x7d" = .ok (after call 29) :=
    parse_of_tokens [.inLine (.name "main") 0 4, .inLine (.symbol .openBrace) 5 6,
      .inLine (.name "--x") 6 9, .inLine (.symbol .colon) 9 10, .inLine (.int 1) 11 12,
      .inLine (.symbol .semicolon) 12 13, .inLine (.symbol .at) 14 15,
      .inLine (.name "return") 15 21, .inLine (.name "--x") 22 25,
      .inLine (.symbol .openParen) 25 26, .inLine (.symbol .closeParen) 26 27,
      .inLine (.symbol .semicolon) 27 28, .inLine (.symbol .closeBrace) 28 29] (.inLine 29 29)
      (by with_unfolding_all rfl) (by with_unfolding_all rfl)
  have hderef : parse "main \x7b--x: 1; @return $--x;\x7d" = .ok (after deref 28) :=
    parse_of_tokens [.inLine (.name "main") 0 4, .inLine (.symbol .openBrace) 5 6,
      .inLine (.name "--x") 6 9, .inLine (.symbol .colon) 9 10, .inLine (.int 1) 11 12,
      .inLine (.symbol .semicolon) 12 13, .inLine (.symbol .at) 14 15,
      .inLine (.name "return") 15 21, .inLine (.symbol .dollar) 22 23, .inLine (.name "--x") 23 26,
      .inLine (.symbol .semicolon) 26 27, .inLine (.symbol .closeBrace) 27 28] (.inLine 28 28)
      (by with_unfolding_all rfl) (by with_unfolding_all rfl)
  have hbare : parse "main \x7b--x: 1; @return --x;\x7d" = .ok (after (.bare x) 27) :=
    parse_of_tokens [.inLine (.name "main") 0 4, .inLine (.symbol .openBrace) 5 6,
      .inLine (.name "--x") 6 9, .inLine (.symbol .colon) 9 10, .inLine (.int 1) 11 12,
      .inLine (.symbol .semicolon) 12 13, .inLine (.symbol .at) 14 15,
      .inLine (.name "return") 15 21, .inLine (.name "--x") 22 25,
      .inLine (.symbol .semicolon) 25 26, .inLine (.symbol .closeBrace) 26 27] (.inLine 27 27)
      (by with_unfolding_all rfl) (by with_unfolding_all rfl)
  have hcalled (sink : Sink) : ((Eval.program 10 (after call 29)).run (.start sink)).1 =
      .failed (.unboundFunction "--x" false span) := by cbv
  have hread (sink : Sink) : ((Eval.program 10 (after deref 28)).run (.start sink)).1 =
      .done (.int 1) := by cbv
  have hmisused (sink : Sink) : ((Eval.program 10 (after (.bare x) 27)).run (.start sink)).1 =
      .failed (.nameAsValue "--x" .readable span) := by cbv
  exact ⟨⟨_, hcall, hcalled _, rfl⟩, ⟨_, hderef, hread _⟩, ⟨_, hbare, hmisused _⟩⟩

end RuleScript
