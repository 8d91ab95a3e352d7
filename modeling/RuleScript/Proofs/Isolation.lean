import Mathlib.Data.List.Forall2
import RuleScript.Proofs.Simulation

/-!
# Lexical isolation

What is evaluated in a scope depends on nothing but what the **scopes of its
chain** declare. The rest of the store, the scopes of callers among it, has no
influence: not on the value or the fault, not on what is printed and not on what
is recorded.

* `Store.SameChain`: chains of two stores that declare the same, step by step.
* `lexical_isolation`: evaluation in the two stores does the same. So does
  evaluating an expression a second time.
-/

namespace RuleScript

/-! ### Chains that declare the same -/

/-- The scopes of two chains declare **the same** variables and rules, step by
step. -/
def Store.SameChain (s : Store) (i : ScopeId) (t : Store) (j : ScopeId) : Prop :=
  List.Forall₂ (fun a b => ∃ f g, s.frames[a]? = some f ∧ t.frames[b]? = some g ∧
    f.values = g.values ∧ f.rules = g.rules) (s.chain i) (t.chain j)

namespace Store

variable {v : View} {s t : Store} {i j : ScopeId}

theorem Alike.of_sameChain (h : s.SameChain i t j) : s.Alike v t i j := by
  induction i using Nat.strongRecOn generalizing j with
  | ind i ih =>
    rw [SameChain, chain_eq s, chain_eq t] at h
    obtain ⟨⟨f, g, left, right, hvalues, hrules⟩, haround⟩ := List.forall₂_cons.1 h
    have hframes : f.Alike v g := ⟨hvalues, fun name => by rw [hrules]⟩
    rw [parent?_of_frame left, parent?_of_frame right] at haround
    rcases hp : f.parent with _ | p <;> rcases hq : g.parent with _ | q <;> rw [hp, hq] at haround
    · exact .root left right hframes hp hq
    · exact absurd (List.forall₂_nil_left_iff.1 haround) (chain_ne_nil t q)
    · exact absurd (List.forall₂_nil_right_iff.1 haround) (chain_ne_nil s p)
    · exact .inner left right hframes hp hq (ih p (s.outward i f left p hp) haround)

/-- A chain declares the same as itself. -/
theorem SameChain.refl (hi : i < s.frames.size) : s.SameChain i s i := by
  rw [SameChain, List.forall₂_same]
  intro a ha
  have hlt : a < s.frames.size := Nat.lt_of_le_of_lt (le_of_mem_chain ha) hi
  exact ⟨_, _, Array.getElem?_eq_getElem hlt, Array.getElem?_eq_getElem hlt, rfl, rfl⟩

theorem SameChain.lt_size (h : s.SameChain i t j) : i < s.frames.size :=
  (Alike.of_sameChain (v := .exact) h).lt_size.1

end Store

/-! ### Runs that do the same -/

/-- Two runs do **the same**: they end with the same outcome, and what they print
and record after the worlds in which they began is the same. -/
def SameRun {α : Type} (w w' : World) (x y : Outcome Fault α × World) : Prop :=
  x.1 = y.1 ∧
  (∃ out, x.2.sink = w.sink.after out ∧ y.2.sink = w'.sink.after out) ∧
  ∃ es, x.2.events = w.events ++ es ∧ y.2.events = w'.events ++ es

namespace Comparison

variable {w w' u u' : World}

/-- Two worlds, compared exactly and at one depth. -/
def exactly (w w' : World) : Comparison := ⟨.exact, w, w', False⟩

theorem InStep.exactly {ahead : Prop} (h : (Comparison.mk .exact w w' ahead).InStep u u') :
    (∃ out, u.sink = w.sink.after out ∧ u'.sink = w'.sink.after out) ∧
    ∃ es, u.events = w.events ++ es ∧ u'.events = w'.events ++ es := by
  obtain ⟨-, hprinted, es, es', hes, hes', heq⟩ := h
  have hsame : es = es' := by
    have hid : Event.seen .exact = id := funext Event.seen_exact
    simpa [hid] using heq
  subst hsame
  exact ⟨hprinted, es, hes, hes'⟩

/-- Compared exactly, the second run does the same even if it is given more depth, unless the
first one is exhausted. -/
theorem Same.sameRun_of_ended {α : Type} {ahead : Prop} {x y : Outcome Fault α × World}
    (h : (Comparison.mk .exact w w' ahead).Same x y) (hend : ahead → x.1 ≠ .exhausted) :
    SameRun w w' x y := by
  cases h with
  | done result state =>
    subst result
    exact ⟨rfl, state.exactly⟩
  | failed error =>
    obtain ⟨he, state⟩ := error
    rw [Fault.seen_exact, Fault.seen_exact] at he
    subst he
    exact ⟨rfl, state.exactly⟩
  | exhausted state => exact ⟨rfl, state.exactly⟩
  | behind h => exact absurd rfl (hend h)

theorem Same.sameRun {α : Type} {x y : Outcome Fault α × World}
    (h : (exactly w w').Same x y) : SameRun w w' x y :=
  Same.sameRun_of_ended h False.elim

end Comparison

namespace Eval

variable {w w' : World} {i j : ScopeId}

/-- The evaluator does the same in worlds with equal room, from scopes whose chains
declare the same. -/
theorem evaluatorSame_exactly (depth : Nat) (w w' : World) :
    (Comparison.exactly w w').EvaluatorSame depth depth :=
  Comparison.evaluatorSame (.refl _ depth)

theorem expr_sameRun (depth : Nat) (e : Expr) (hroom : w.sink.room = w'.sink.room)
    (hchain : w.store.SameChain i w'.store j) :
    SameRun w w' ((expr depth i e).run w) ((expr depth j e).run w') :=
  ((evaluatorSame_exactly depth w w').expr (.start hroom) (.of_sameChain hchain) rfl).sameRun

theorem invoke_sameRun (depth : Nat) (rule : Rule) (args : List Value) (span : Span)
    (hroom : w.sink.room = w'.sink.room) (hchain : w.store.SameChain i w'.store j) :
    SameRun w w' ((invoke depth rule i args span).run w) ((invoke depth rule j args span).run w') :=
  ((evaluatorSame_exactly depth w w').invoke args (.start hroom) (.of_sameChain hchain) rfl
    rfl).sameRun

/-- An expression that is evaluated a second time does the same again: what it did
the first time declared nothing. -/
theorem expr_again (depth : Nat) (e : Expr) (hlimit : w.sink.limit = none)
    (hi : i < w.store.frames.size) :
    SameRun w ((expr depth i e).run w).2 ((expr depth i e).run w)
      ((expr depth i e).run ((expr depth i e).run w).2) := by
  have hgrows := (evaluatorConfined depth).expr i e w
  obtain ⟨-, ⟨out, hout, -⟩, -⟩ := expr_sameRun depth e rfl (.refl hi)
  refine expr_sameRun depth e ?_ ?_
  · rw [hout, Sink.room_after, Sink.room, hlimit]
    rfl
  · -- every scope of the chain is as it was
    rw [Store.SameChain, hgrows.chain_eq hi, List.forall₂_same]
    intro a ha
    have hlt := Nat.lt_of_le_of_lt (Store.le_of_mem_chain ha) hi
    have hf := Array.getElem?_eq_getElem hlt
    exact ⟨_, _, hf, hgrows.same (by simp) hf, rfl, rfl⟩

/-- **Lexical isolation.** Take two worlds with one sink, and scopes in them whose
chains declare the same, whatever else the stores hold. Then expressions,
statements and calls of a rule that these scopes hold do the same in both worlds:
they end with the same value or fault, print the same and record the same. And on
a sink that takes everything, an expression that is evaluated twice in a row does
the same twice. -/
theorem lexical_isolation (depth : Nat) (w w' : World) (i j : ScopeId)
    (hsink : w.sink = w'.sink) (hchain : w.store.SameChain i w'.store j) :
    (∀ e, SameRun w w' ((expr depth i e).run w) ((expr depth j e).run w')) ∧
    (∀ sts last, SameRun w w' ((sequence (statement depth i) last sts).run w)
      ((sequence (statement depth j) last sts).run w')) ∧
    (∀ rule args span, SameRun w w' ((invoke depth rule i args span).run w)
      ((invoke depth rule j args span).run w')) ∧
    (w.sink.limit = none → ∀ e, SameRun w ((expr depth i e).run w).2 ((expr depth i e).run w)
      ((expr depth i e).run ((expr depth i e).run w).2)) := by
  have hroom : w.sink.room = w'.sink.room := congrArg Sink.room hsink
  have hsame := evaluatorSame_exactly depth w w'
  have halike : w.store.Alike .exact w'.store i j := .of_sameChain hchain
  refine ⟨?_, ?_, ?_, ?_⟩
  · intro e
    exact expr_sameRun depth e hroom hchain
  · intro sts last
    exact (hsame.sequence (.start hroom) halike rfl last).sameRun
  · intro rule args span
    exact (hsame.invoke args (.start hroom) halike rfl rfl).sameRun
  · intro hlimit e
    exact expr_again depth e hlimit hchain.lt_size

/-- A root scope with `x` set to 1. -/
def rootWithX : Store := (Store.empty.add none).setVariable 0 "x" (.int 1)

/-- The scope of a caller inside the root, with an `x` of its own. -/
def rootWithCaller : Store := (rootWithX.add (some 0)).setVariable 1 "x" (.int 2)

/-- What `print($x)` does in the root is the same with and without the caller's
`x`. -/
theorem lexical_isolation_caller :
    rootWithX.SameChain 0 rootWithCaller 0 ∧
    SameRun ⟨rootWithX, .empty none, #[]⟩ ⟨rootWithCaller, .empty none, #[]⟩
      ((expr 2 0 (.call ⟨"print", default⟩ [.deref ⟨"x", default⟩ default] default)).run
        ⟨rootWithX, .empty none, #[]⟩)
      ((expr 2 0 (.call ⟨"print", default⟩ [.deref ⟨"x", default⟩ default] default)).run
        ⟨rootWithCaller, .empty none, #[]⟩) := by
  have hchain : rootWithX.SameChain 0 rootWithCaller 0 := by
    have hleft : rootWithX.chain 0 = [0] := by
      rw [Store.chain_eq]
      rfl
    have hright : rootWithCaller.chain 0 = [0] := by
      rw [Store.chain_eq]
      rfl
    have hroot : (Store.empty.add none).frames[0]? = some (.within none) := rfl
    have hx := Store.getElem?_setVariable "x" (.int 1) hroot
    have hgrows : rootWithX.Grows (some 1) rootWithCaller :=
      (Store.Grows.of_add (some 0)).trans .of_setVariable
    rw [Store.SameChain, hleft, hright]
    exact List.forall₂_cons.2 ⟨⟨_, _, hx, hgrows.same nofun hx, rfl, rfl⟩, .nil⟩
  exact ⟨hchain, (lexical_isolation 2 ⟨rootWithX, .empty none, #[]⟩
    ⟨rootWithCaller, .empty none, #[]⟩ 0 0 rfl hchain).1 _⟩

end Eval

end RuleScript
