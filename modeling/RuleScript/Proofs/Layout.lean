import RuleScript.Session
import RuleScript.Proofs.Simulation
import RuleScript.Proofs.Supply

/-!
# Layout carries no meaning

Blanks, line breaks and comments between tokens change where tokens stand, and
nothing else. Two sources with the same **kinds of tokens** are both programs,
equal up to spans, or both refused for the same cause; and the two programs do the
same when they are run.

* `parse_alike`: reading sources whose streams of tokens look the same.
* `Program.report_alike`: running programs that are equal up to spans.
* `layout_irrelevant`: the two together.
-/

namespace RuleScript

/-! ### Reading -/

/-- Both sources are programs that look the same, or both are refused with errors
that look the same. -/
def ParseAlike (v : View) (source source' : String) : Prop :=
  (∃ p q, parse source = .ok p ∧ parse source' = .ok q ∧ p.seen v = q.seen v) ∨
  ∃ e e', parse source = .error e ∧ parse source' = .error e' ∧ e.seen v = e'.seen v

/-- Sources whose **streams of tokens look the same** are read alike. -/
theorem parse_alike {v : View} {source source' : String}
    (h : (Cursor.ofString source).stream.seen v = (Cursor.ofString source').stream.seen v) :
    ParseAlike v source source' := by
  obtain ⟨d, hread⟩ := items_stream source
  -- both sources are compared with the stream of the first
  rcases hp : parse source with e | p <;> rw [hp] at hread
  · obtain ⟨is, q, hdone, -⟩ | ⟨e₁, e', hfailed, hq, hseen⟩ :=
      parse_of_stream h (by rw [hread]; exact nofun)
    · cases hread.symm.trans hdone
    · cases hread.symm.trans hfailed
      exact .inr ⟨e, e', hp, hq, hseen.symm⟩
  · obtain ⟨is, q, hdone, hq, hseen⟩ | ⟨e₁, e', hfailed, -⟩ :=
      parse_of_stream h (by rw [hread]; exact nofun)
    · cases hread.symm.trans hdone
      exact .inl ⟨p, q, hp, hq, hseen.symm⟩
    · cases hread.symm.trans hfailed

/-! ### Running -/

namespace Fault

theorem help_seen (v : View) (e : Fault) : (e.seen v).help = e.help := by
  cases e with
  | unboundFunction name isVariable s => cases isVariable <;> rfl
  | _ => rfl

/-- Faults that are **equal up to spans**: of one kind with the same particulars,
and with the same help. Their messages are the same, but for the location that a
duplicate definition names at its end. -/
structure Alike (e e' : Fault) : Prop where
  particulars : e.seen .blind = e'.seen .blind
  help : e.help = e'.help
  message : e.message = e'.message ∨ ∃ name s s' previous previous' text,
    e = .duplicateDefinition name s previous ∧ e' = .duplicateDefinition name s' previous' ∧
    e.message = text ++ previous.start.display ∧ e'.message = text ++ previous'.start.display

/-- Faults that look the same are **alike**. -/
theorem Alike.of_seen {e e' : Fault} (h : e.seen .blind = e'.seen .blind) : e.Alike e' := by
  refine ⟨h, ?_, ?_⟩
  · rw [← help_seen .blind e, h, help_seen]
  · have hmessage := congrArg Fault.message h
    cases e <;> cases e' <;> simp only [Fault.seen, reduceCtorEq] at h
    case duplicateDefinition.duplicateDefinition name s previous name' s' previous' =>
      obtain ⟨rfl, -, -⟩ := Fault.duplicateDefinition.inj h
      exact .inr ⟨name, s, s', previous, previous', _, rfl, rfl, rfl, rfl⟩
    all_goals exact .inl hmessage

theorem Alike.symm {e e' : Fault} (h : e.Alike e') : e'.Alike e := of_seen h.particulars.symm

end Fault

/-- Reports that are **equal up to spans**: of runs that came to an end, with the
same value or faults that are equal up to spans, and with the same output. -/
def Report.Alike (r r' : Report) : Prop :=
  r.output = r'.output ∧
  ((∃ value, r.outcome = .done value ∧ r'.outcome = .done value) ∨
    ∃ e e', r.outcome = .failed e ∧ r'.outcome = .failed e' ∧ e.Alike e')

namespace Report.Alike

variable {r r' : Report}

/-- Reports are alike **either way**. -/
theorem symm (h : r.Alike r') : r'.Alike r := by
  obtain ⟨houtput, ⟨value, hr, hr'⟩ | ⟨e, e', hr, hr', he⟩⟩ := h
  · exact ⟨houtput.symm, .inl ⟨value, hr', hr⟩⟩
  · exact ⟨houtput.symm, .inr ⟨e', e, hr', hr, he.symm⟩⟩

theorem not_exhausted (h : r.Alike r') : r'.outcome ≠ .exhausted := by
  obtain ⟨-, ⟨value, -, hr'⟩ | ⟨e, e', -, hr', -⟩⟩ := h <;> rw [hr'] <;> exact nofun

end Report.Alike

/-- Two runs on one sink, compared without spans; the second may go deeper. -/
def Comparison.blindly (sink : Sink) : Comparison := ⟨.blind, .start sink, .start sink, True⟩

/-- What is reported of a run on a sink. -/
def Report.ofRun (sink : Sink) (x : Outcome Fault Value × World) : Report :=
  ⟨x.1, x.2.sink.textFrom sink.written.size, x.2.events.toList⟩

/-- Worlds in step have **the same sink**. -/
theorem Comparison.InStep.sink_eq {sink : Sink} {w w' : World}
    (h : (blindly sink).InStep w w') : w.sink = w'.sink := by
  obtain ⟨out, hw, hw'⟩ := h.printed
  exact hw.trans hw'.symm

/-- Runs that end the same have **reports that are alike**. -/
theorem Report.alike_of_same {sink : Sink} {x y : Outcome Fault Value × World}
    (h : (Comparison.blindly sink).Same x y) (hend : x.1 ≠ .exhausted) :
    (ofRun sink x).Alike (ofRun sink y) := by
  simp only [Report.Alike, ofRun]
  cases h with
  | done result state =>
    subst result
    rw [state.sink_eq]
    exact ⟨rfl, .inl ⟨_, rfl, rfl⟩⟩
  | failed error =>
    obtain ⟨hseen, state⟩ := error
    rw [state.sink_eq]
    exact ⟨rfl, .inr ⟨_, _, rfl, rfl, .of_seen hseen⟩⟩
  | exhausted state => exact absurd rfl hend
  | behind _ => exact absurd rfl hend

namespace Program

variable {p q : Program}

theorem report_eq (p : Program) (d : Nat) (sink : Sink) :
    (p.report d sink).1 = .ofRun sink ((Eval.program d p).run (.start sink)) := rfl

/-- A run that comes to an end is matched by the other program, at no less depth. -/
theorem report_alike_of_le (h : p.seen .blind = q.seen .blind) {d d' : Nat} (hle : d ≤ d')
    {sink : Sink} (hend : (p.report d sink).1.outcome ≠ .exhausted) :
    (p.report d sink).1.Alike (q.report d' sink).1 := by
  have hsame := Comparison.program_same (c := .blindly sink) (.of_le trivial hle)
    (Program.gist_eq_of_seen .blind h) (.start rfl)
  rw [report_eq] at hend ⊢
  rw [report_eq]
  exact Report.alike_of_same hsame hend

/-- **Runs that come to an end** do the same, whatever depth each is given. -/
theorem report_alike (h : p.seen .blind = q.seen .blind) {d d' : Nat} {sink : Sink}
    (hp : (p.report d sink).1.outcome ≠ .exhausted)
    (hq : (q.report d' sink).1.outcome ≠ .exhausted) :
    (p.report d sink).1.Alike (q.report d' sink).1 := by
  rcases Nat.le_total d d' with hle | hle
  · exact report_alike_of_le h hle hp
  · exact (report_alike_of_le h.symm hle hq).symm

/-- Both programs come to an end, or neither does. -/
theorem terminates_iff (h : p.seen .blind = q.seen .blind) (sink : Sink) :
    (∃ d, (p.report d sink).1.outcome ≠ .exhausted) ↔
      ∃ d, (q.report d sink).1.outcome ≠ .exhausted := by
  constructor
  · rintro ⟨d, hend⟩
    exact ⟨d, (report_alike_of_le h (Nat.le_refl d) hend).not_exhausted⟩
  · rintro ⟨d, hend⟩
    exact ⟨d, (report_alike_of_le h.symm (Nat.le_refl d) hend).not_exhausted⟩

end Program

/-! ### Sources -/

/-- Sources with the same kinds of tokens have streams that look the same to who
sees no spans. -/
theorem stream_seen_of_kinds {source source' : String} {tokens tokens' : List Token}
    (h : lex source = .ok tokens) (h' : lex source' = .ok tokens')
    (hkinds : tokens.map Token.kind = tokens'.map Token.kind) :
    (Cursor.ofString source).stream.seen .blind = (Cursor.ofString source').stream.seen .blind := by
  have hseen : ∀ ts : List Token,
      ts.map (Token.seen .blind) = (ts.map Token.kind).map fun k => ⟨k, Inhabited.default⟩ := by
    intro ts
    rw [List.map_map]
    rfl
  obtain ⟨span, hstream⟩ := stream_of_lex h
  obtain ⟨span', hstream'⟩ := stream_of_lex h'
  rw [hstream, hstream']
  refine (TokenStream.mk.injEq ..).mpr ⟨?_, rfl⟩
  rw [List.map_dropLast, List.map_dropLast, hseen, hseen, hkinds]

/-- **Layout carries no meaning.** Take two sources that are sequences of tokens of
the same kinds. Either both are programs, equal up to spans; then both come to an
end when they are run on a sink or neither does, and if they do, then with the same
value, or with faults that are equal up to spans, and with the same output. Or both
are refused, for the same cause and so with the same message and help. -/
theorem layout_irrelevant (source source' : String) (tokens tokens' : List Token)
    (h : lex source = .ok tokens) (h' : lex source' = .ok tokens')
    (hkinds : tokens.map Token.kind = tokens'.map Token.kind) :
    (∃ p q, parse source = .ok p ∧ parse source' = .ok q ∧ p.seen .blind = q.seen .blind ∧
      ∀ sink,
        ((∃ d, (p.report d sink).1.outcome ≠ .exhausted) ↔
          ∃ d, (q.report d sink).1.outcome ≠ .exhausted) ∧
        ∀ d d', (p.report d sink).1.outcome ≠ .exhausted →
          (q.report d' sink).1.outcome ≠ .exhausted →
          (p.report d sink).1.Alike (q.report d' sink).1) ∨
    ∃ e e', parse source = .error e ∧ parse source' = .error e' ∧
      e.cause = e'.cause ∧ e.message = e'.message ∧ e.help = e'.help := by
  obtain ⟨p, q, hp, hq, hpq⟩ | ⟨e, e', he, he', hee⟩ :=
    parse_alike (stream_seen_of_kinds h h' hkinds)
  · refine .inl ⟨p, q, hp, hq, hpq, fun sink => ⟨Program.terminates_iff hpq sink, ?_⟩⟩
    intro d d' hend hend'
    exact Program.report_alike hpq hend hend'
  · have hcause : e.cause = e'.cause := (SyntaxError.mk.inj hee).1
    refine .inr ⟨e, e', he, he', hcause, ?_, ?_⟩
    · rw [SyntaxError.message, SyntaxError.message, hcause]
    · rw [SyntaxError.help, SyntaxError.help, hcause]

/-- A main rule that prints 1, with the **spans** of its name and of the whole, and of the name, the
argument and the whole of the call. -/
def Program.printingOne (name whole called argument call : Span) : Program :=
  ⟨[.rule ⟨⟨⟨"main", name⟩, [], name⟩,
    [.declaration ⟨⟨"print", called⟩, [.literal (.int 1) argument], call⟩], whole⟩]⟩

/-- The rule as it is read from one line without blanks. -/
def Program.onOneLine : Program :=
  .printingOne (.inLine 0 4) (.inLine 0 14) (.inLine 5 10) (.inLine 11 12) (.inLine 5 13)

/-- The rule as it is read from three lines with a comment in the second. -/
def Program.onThreeLines : Program :=
  .printingOne (.inLine 0 4) ⟨⟨0, 1, 1⟩, ⟨30, 3, 2⟩⟩ ⟨⟨9, 2, 3⟩, ⟨14, 2, 8⟩⟩
    ⟨⟨26, 2, 20⟩, ⟨27, 2, 21⟩⟩ ⟨⟨9, 2, 3⟩, ⟨28, 2, 22⟩⟩

/-- A comment and line breaks in a rule change nothing. With them and without, the source is a
program, and it prints the same line. -/
theorem layout_irrelevant_comment :
    let source := "main\x7bprint:1;\x7d"
    let source' := "main \x7b\n  print: /* one */ 1;\n\x7d"
    ∃ tokens tokens' p q, lex source = .ok tokens ∧ lex source' = .ok tokens' ∧
      tokens.map Token.kind = tokens'.map Token.kind ∧
      parse source = .ok p ∧ parse source' = .ok q ∧ p ≠ q ∧ p.seen .blind = q.seen .blind ∧
      (p.report 3 (.empty none)).1.Alike (q.report 3 (.empty none)).1 ∧
      (p.report 3 (.empty none)).1.outcome = .done (.int 1) ∧
      (q.report 3 (.empty none)).1.outcome = .done (.int 1) ∧
      (p.report 3 (.empty none)).1.output = "1\n" ∧
      (q.report 3 (.empty none)).1.output = "1\n" := by
  have hlex : lex "main\x7bprint:1;\x7d" = .ok ([.inLine (.name "main") 0 4,
      .inLine (.symbol .openBrace) 4 5, .inLine (.name "print") 5 10,
      .inLine (.symbol .colon) 10 11, .inLine (.int 1) 11 12, .inLine (.symbol .semicolon) 12 13,
      .inLine (.symbol .closeBrace) 13 14] ++ [.inLine .eof 14 14]) := by
    with_unfolding_all rfl
  have hlex' : lex "main \x7b\n  print: /* one */ 1;\n\x7d" = .ok ([.inLine (.name "main") 0 4,
      .inLine (.symbol .openBrace) 5 6, ⟨.name "print", ⟨9, 2, 3⟩, ⟨14, 2, 8⟩⟩,
      ⟨.symbol .colon, ⟨14, 2, 8⟩, ⟨15, 2, 9⟩⟩, ⟨.int 1, ⟨26, 2, 20⟩, ⟨27, 2, 21⟩⟩,
      ⟨.symbol .semicolon, ⟨27, 2, 21⟩, ⟨28, 2, 22⟩⟩,
      ⟨.symbol .closeBrace, ⟨29, 3, 1⟩, ⟨30, 3, 2⟩⟩] ++ [⟨.eof, ⟨30, 3, 2⟩, ⟨30, 3, 2⟩⟩]) := by
    with_unfolding_all rfl
  have hparse : parse "main\x7bprint:1;\x7d" = .ok .onOneLine :=
    parse_of_tokens _ _ hlex (by with_unfolding_all rfl)
  have hparse' : parse "main \x7b\n  print: /* one */ 1;\n\x7d" = .ok .onThreeLines :=
    parse_of_tokens _ _ hlex' (by with_unfolding_all rfl)
  have hvalue : (Program.onOneLine.report 3 (.empty none)).1.outcome = .done (.int 1) := by
    with_unfolding_all rfl
  have hvalue' : (Program.onThreeLines.report 3 (.empty none)).1.outcome = .done (.int 1) := by
    with_unfolding_all rfl
  have houtput : (Program.onOneLine.report 3 (.empty none)).1.output = "1\n" := by
    with_unfolding_all rfl
  have hne : Program.onOneLine ≠ .onThreeLines := by
    simp [Program.onOneLine, Program.onThreeLines, Program.printingOne, Span.inLine]
  obtain ⟨p, q, hp, hq, hpq, hruns⟩ | ⟨e, -, he, -⟩ := layout_irrelevant _ _ _ _ hlex hlex' rfl
  · obtain rfl := Except.ok.inj (hparse.symm.trans hp)
    obtain rfl := Except.ok.inj (hparse'.symm.trans hq)
    have halike := (hruns (.empty none)).2 3 3 (by rw [hvalue]; exact nofun)
      (by rw [hvalue']; exact nofun)
    exact ⟨_, _, _, _, hlex, hlex', rfl, hp, hq, hne, hpq, halike, hvalue, hvalue', houtput,
      halike.1.symm.trans houtput⟩
  · cases hparse.symm.trans he

end RuleScript
