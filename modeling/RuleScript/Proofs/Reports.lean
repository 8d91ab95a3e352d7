import Mathlib.Data.List.Forall2
import RuleScript.Proofs.Isolation
import RuleScript.Proofs.Nesting
import RuleScript.Session

/-!
# What a report depends on

The report of a program is decided by the **gist** of its items and by the room that is left on
the sink, and it is the same at every depth that is enough. What follows a return is no part of
the gist, so it can be deleted.

* `Program.report_of_gist`: programs of one gist have one report.
* `Program.report_of_room`: so does one program on two sinks with equal room.
* `Program.report_of_le`: so does one program at two depths, if the lower is enough.
* `Program.Trims`: a program is another one, without some of what follows returns in it.
  `dead_after_return` says that it does the same.
-/

namespace RuleScript

theorem Sink.textFrom_after (sink : Sink) (out : ByteArray) :
    (sink.after out).textFrom sink.written.size = (String.fromUTF8? out).getD "" := by
  rw [textFrom, after, ByteArray.extract_append_eq_right rfl ByteArray.size_append]

namespace Program

variable {p q : Program} {sink sink' : Sink} {d d' : Nat}

/-- The report of a program is read off its run. -/
theorem report_run (p : Program) (d : Nat) (sink : Sink) :
    p.report d sink =
      (⟨((Eval.program d p).run (.start sink)).1,
        ((Eval.program d p).run (.start sink)).2.sink.textFrom sink.written.size,
        ((Eval.program d p).run (.start sink)).2.events.toList⟩,
      ((Eval.program d p).run (.start sink)).2.sink) := rfl

/-- **Programs of one gist** do the same on sinks with equal room, and add to them the same bytes;
also if the second is given more depth, unless the first is exhausted. -/
theorem report_of_gist {ahead : Prop} (hdepths : Depths ahead d d')
    (hitems : p.items.map (Item.gist .exact) = q.items.map (Item.gist .exact))
    (hroom : sink.room = sink'.room)
    (hend : ahead → (p.report d sink).1.outcome ≠ .exhausted) :
    (p.report d sink).1 = (q.report d' sink').1 ∧
      ∃ out, (p.report d sink).2 = sink.after out ∧ (q.report d' sink').2 = sink'.after out := by
  let x := (Eval.program d p).run (.start sink)
  let y := (Eval.program d' q).run (.start sink')
  let c : Comparison := ⟨.exact, .start sink, .start sink', ahead⟩
  have hsame : c.Same x y := Comparison.program_same hdepths hitems (.start hroom)
  obtain ⟨houtcome, ⟨out, hout, hout'⟩, es, hes, hes'⟩ :=
    Comparison.Same.sameRun_of_ended hsame hend
  have houtput : x.2.sink.textFrom sink.written.size = y.2.sink.textFrom sink'.written.size := by
    rw [hout, hout']
    exact (sink.textFrom_after out).trans (sink'.textFrom_after out).symm
  refine ⟨?_, out, hout, hout'⟩
  change Report.mk x.1 (x.2.sink.textFrom sink.written.size) x.2.events.toList =
    Report.mk y.1 (y.2.sink.textFrom sink'.written.size) y.2.events.toList
  rw [houtcome, houtput, hes.trans hes'.symm]

/-- What a program does on a sink **depends on the room** that is left, and it adds to the sink
the bytes that it prints. -/
theorem report_of_room (h : sink.room = sink'.room) (p : Program) (depth : Nat) :
    (p.report depth sink).1 = (p.report depth sink').1 ∧
      ∃ out, (p.report depth sink).2 = sink.after out ∧
        (p.report depth sink').2 = sink'.after out :=
  report_of_gist (.refl False depth) rfl h False.elim

/-- On one sink, programs of one gist leave the same behind. -/
theorem report_eq_of_gist {ahead : Prop} (hdepths : Depths ahead d d')
    (hitems : p.items.map (Item.gist .exact) = q.items.map (Item.gist .exact))
    (hend : ahead → (p.report d sink).1.outcome ≠ .exhausted) :
    p.report d sink = q.report d' sink := by
  obtain ⟨hreport, out, hout, hout'⟩ := report_of_gist hdepths hitems rfl hend
  exact Prod.ext hreport (hout.trans hout'.symm)

/-- **More depth** than enough changes nothing. -/
theorem report_of_le (hle : d ≤ d') (hend : (p.report d sink).1.outcome ≠ .exhausted) :
    p.report d sink = p.report d' sink :=
  report_eq_of_gist (.of_le trivial hle) rfl fun _ => hend

end Program

/-! ### What follows a return -/

/-- Statements and the same statements **trimmed**: some of what follows a return in the same list
is deleted, there and in the blocks inside. The flag tells whether the list follows a return. -/
inductive Statement.Trims : Bool → List Statement → List Statement → Prop where
  /-- at the end nothing is left -/
  | nil {dead} : Trims dead [] []
  /-- what follows a return may be deleted -/
  | delete {st sts sts'} (h : Trims true sts sts') : Trims true (st :: sts) sts'
  /-- a statement is kept as it is -/
  | keep {dead st sts sts'} (h : Trims (dead || st.isReturn) sts sts') :
    Trims dead (st :: sts) (st :: sts')
  /-- a rule is kept, and its body is trimmed -/
  | rule {dead selector body body' span sts sts'} (hbody : Trims false body body')
    (h : Trims dead sts sts') :
    Trims dead (.rule ⟨selector, body, span⟩ :: sts) (.rule ⟨selector, body', span⟩ :: sts')
  /-- an at-rule is kept, and its block is trimmed -/
  | atRule {dead name parameters body body' span sts sts'} (hbody : Trims false body body')
    (h : Trims (dead || Statement.isReturn (.atRule ⟨name, parameters, some body, span⟩))
      sts sts') :
    Trims dead (.atRule ⟨name, parameters, some body, span⟩ :: sts)
      (.atRule ⟨name, parameters, some body', span⟩ :: sts')

/-- A program and the same program trimmed: all items are kept, and what is inside is trimmed. -/
def Program.Trims (p q : Program) : Prop :=
  List.Forall₂ (fun i j => Statement.Trims false [i.statement] [j.statement]) p.items q.items

/-- Only what does not follow a return counts for the gists of statements. -/
theorem Statement.gists_cons_congr {v : View} {st st' : Statement} {sts sts' : List Statement}
    (hst : st.gist v = st'.gist v)
    (hsts : st.isReturn = false → Statement.gists v sts = Statement.gists v sts') :
    Statement.gists v (st :: sts) = Statement.gists v (st' :: sts') := by
  have hreturn : st.isReturn = st'.isReturn := by
    rw [← Statement.isReturn_gist v st, hst, Statement.isReturn_gist]
  rw [gists, gists, hst, ← hreturn]
  cases hst' : st.isReturn with
  | true => rfl
  | false => rw [hsts hst']

/-- Where the beginning is not dead, trimmed statements have the same gists. -/
theorem Statement.Trims.gists_eq (v : View) {dead : Bool} {sts sts' : List Statement}
    (h : Trims dead sts sts') (hlive : dead = false) :
    Statement.gists v sts = Statement.gists v sts' := by
  induction h with
  | nil => rfl
  | delete => cases hlive
  | keep _ ih =>
    subst hlive
    exact gists_cons_congr rfl ih
  | rule _ _ ihbody ih =>
    refine gists_cons_congr ?_ fun _ => ih hlive
    rw [gist, gist, Rule.gist, Rule.gist, ihbody rfl]
  | atRule _ _ ihbody ih =>
    subst hlive
    refine gists_cons_congr ?_ ih
    rw [gist, gist, AtRule.gist, AtRule.gist, gistBody, gistBody, ihbody rfl]

theorem Item.gist_eq_of_statement {v : View} {i j : Item}
    (h : i.statement.gist v = j.statement.gist v) : i.gist v = j.gist v := by
  cases i <;> cases j <;> simp_all [Item.statement, Item.gist, Statement.gist]

/-- Trimmed programs have items of the same gist. -/
theorem Program.Trims.gist_eq (v : View) {p q : Program} (h : p.Trims q) :
    p.items.map (Item.gist v) = q.items.map (Item.gist v) := by
  rw [← List.forall₂_eq_eq_eq, List.forall₂_map_left_iff, List.forall₂_map_right_iff]
  refine h.imp fun i j hij => Item.gist_eq_of_statement ?_
  have hgists := hij.gists_eq v rfl
  rw [Statement.gists, Statement.gists] at hgists
  exact (List.cons.inj hgists).1

/-- **What follows a return is dead.** A program does the same without it, at every depth and on
every sink: it ends with the same value or fault or does not come to an end, prints the same and
records the same. -/
theorem dead_after_return (p q : Program) (h : p.Trims q) (depth : Nat) (sink : Sink) :
    p.report depth sink = q.report depth sink := by
  have hgists : p.items.map (Item.gist .exact) = q.items.map (Item.gist .exact) := h.gist_eq .exact
  exact Program.report_eq_of_gist (.refl False depth) hgists False.elim

/-- A program whose main rule returns what a rule inside returns. Something follows both returns. -/
def Program.returning (dead : List Statement) : Program :=
  let rule (name : String) (body : List Statement) : Rule :=
    ⟨⟨⟨name, default⟩, [], default⟩, body, default⟩
  let returnOf (e : Expr) : Statement := .atRule ⟨⟨"return", default⟩, [e], none, default⟩
  let inner : Rule := rule "inner" (returnOf (.literal (.int 1) default) :: dead)
  let call : Expr := .call ⟨"inner", default⟩ [] default
  ⟨[.rule (rule "main" (.rule inner :: returnOf call :: dead))]⟩

/-- A block that is not reached changes nothing, though it would fail. -/
theorem dead_after_return_failing :
    let failing : Statement := .atRule ⟨⟨"else", default⟩, [], some [], default⟩
    (Program.returning [failing]).Trims (.returning []) ∧
      ((Program.returning [failing]).report 6 (.empty none)).1.outcome = .done (.int 1) := by
  intro failing
  have htrims : (Program.returning [failing]).Trims (.returning []) :=
    .cons (.rule (.rule (.keep (.delete .nil)) (.keep (.delete .nil))) .nil) .nil
  rw [dead_after_return _ _ htrims]
  exact ⟨htrims, by with_unfolding_all rfl⟩

end RuleScript
