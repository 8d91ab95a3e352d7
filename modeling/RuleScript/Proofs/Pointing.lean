import RuleScript.Diagnostic
import RuleScript.Session
import RuleScript.Proofs.Beforehand
import RuleScript.Proofs.Blame
import RuleScript.Proofs.Coverage

/-!
# Diagnostics point into the source

Whatever goes wrong, the span that is blamed is a stretch of the source that begins and ends
between characters. A syntax error is blamed on tokens, on the text that is no token, or on
the end of the source; only there may the stretch be empty. A fault is blamed on a node of the
program, and so on the tokens of that node.

* `Span.PointsInto`: a span is a stretch of a source.
* `pointsInto_of_refused`: the span of a syntax error.
* `pointsInto_of_has`: the spans of the nodes of a program.
* `Program.Blamed.points`: the spans of a fault.
-/

namespace RuleScript

open String (utf8Len)

/-- A span **points into** a source: both its ends are in the source and between characters,
and they are in order. -/
structure Span.PointsInto (s : Span) (source : String) : Prop where
  ordered : s.start.pos ≤ s.stop.pos
  inside : s.stop.pos ≤ source.utf8ByteSize
  start : String.Pos.Raw.IsValid source ⟨s.start.pos⟩
  stop : String.Pos.Raw.IsValid source ⟨s.stop.pos⟩

/-- A span that is empty only **at the end** of a source. -/
def Span.EmptyAtEnd (s : Span) (source : String) : Prop :=
  s.start.pos = s.stop.pos → s.start.pos = source.utf8ByteSize

namespace Span

variable {s t : Span} {source : String}

theorem pointsInto_of_valid (hle : s.start.pos ≤ s.stop.pos)
    (hstart : String.Pos.Raw.IsValid source ⟨s.start.pos⟩)
    (hstop : String.Pos.Raw.IsValid source ⟨s.stop.pos⟩) : s.PointsInto source :=
  ⟨hle, hstop.le_rawEndPos, hstart, hstop⟩

theorem emptyAtEnd_of_lt (h : s.start.pos < s.stop.pos) : s.EmptyAtEnd source :=
  fun heq => absurd heq (Nat.ne_of_lt h)

/-- A span that covers some of the text of a source. -/
theorem pointsInto_of_split {before text after : List Char}
    (h : source.toList = before ++ (text ++ after)) (hstart : s.start.pos = utf8Len before)
    (hstop : s.stop.pos = s.start.pos + utf8Len text) : s.PointsInto source := by
  refine pointsInto_of_valid (hstop ▸ Nat.le_add_right _ _) ?_ ?_
  · rw [hstart]
    exact isValid_of_split h
  · rw [hstop, hstart, ← String.utf8Len_append]
    rw [← List.append_assoc] at h
    exact isValid_of_split h

theorem PointsInto.union (hs : s.PointsInto source) (ht : t.PointsInto source) :
    (s.union t).PointsInto source := by
  have hle := hs.ordered
  have hle' := ht.ordered
  rw [Span.union]
  apply pointsInto_of_valid
  · dsimp only
    split <;> split <;> omega
  · dsimp only
    split
    · exact ht.start
    · exact hs.start
  · dsimp only
    split
    · exact ht.stop
    · exact hs.stop

/-- The union of two spans is empty only if both are, at one place. -/
theorem EmptyAtEnd.union (hs : s.PointsInto source) (ht : t.PointsInto source)
    (hend : s.EmptyAtEnd source) : (s.union t).EmptyAtEnd source := by
  have hle := hs.ordered
  have hle' := ht.ordered
  intro heq
  rw [Span.union] at heq ⊢
  dsimp only at heq ⊢
  split at heq <;> split at heq
  · omega
  · omega
  · omega
  · rw [if_neg (by omega)]
    exact hend heq

/-- The label on a span that points into a source stays inside it. -/
theorem PointsInto.label_le (h : s.PointsInto source) (text : String) :
    (Label.on text s).offset + (Label.on text s).len ≤ source.utf8ByteSize := by
  have hle := h.ordered
  have hin := h.inside
  change s.start.pos + (s.stop.pos - s.start.pos) ≤ source.utf8ByteSize
  omega

end Span

/-! ### Syntax errors -/

theorem Token.Placed.pointsInto {source : String} {t : Token} (h : t.Placed source) :
    t.span.PointsInto source ∧ t.span.EmptyAtEnd source := by
  by_cases hk : t.kind = .eof
  · obtain ⟨hstart, hstop⟩ := h.ending hk
    exact ⟨Span.pointsInto_of_valid (by rw [hstart, hstop]) h.start h.stop, fun _ => hstart⟩
  · have hproper := h.proper hk
    exact ⟨Span.pointsInto_of_valid (Nat.le_of_lt hproper) h.start h.stop,
      Span.emptyAtEnd_of_lt hproper⟩

/-- The error in place of a token is blamed on **some of the text** ahead. -/
theorem Cursor.split_of_ending {c : Cursor} {e : SyntaxError} (h : c.stream.ending = .error e) :
    ∃ skipped text rest, c.rest = skipped ++ (text ++ rest) ∧ text ≠ [] ∧
      e.span.start.pos = c.loc.pos + utf8Len skipped ∧
      e.span.stop.pos = e.span.start.pos + utf8Len text := by
  induction c using tokens_induction with
  | error c e' c' hn =>
    rw [stream_of_error hn] at h
    cases h
    obtain ⟨skipped, text, rest, hrest, htext, hstart, hstop⟩ := split_of_error hn
    refine ⟨skipped, text, rest, hrest, htext, ?_, ?_⟩
    · rw [hstart, Location.pos_advance]
    · rw [hstop, Location.pos_advance]
  | ending c t c' hn hk =>
    rw [stream_of_end hn hk] at h
    cases h
  | token c t c' hn hk ih =>
    rw [stream_of_token hn hk] at h
    have hne : t.kind ≠ .eof := by simpa [TokenKind.isEof_iff] using Bool.eq_false_iff.1 hk
    obtain ⟨gap, text, hrest, -, -, -, hstart, hstop, hloc⟩ := reads_of_next hn hne
    obtain ⟨skipped, text', rest', hrest', htext', hstart', hstop'⟩ := ih h
    refine ⟨gap ++ (text ++ skipped), text', rest', ?_, htext', ?_, hstop'⟩
    · rw [hrest, hrest']
      simp only [List.append_assoc]
    · rw [hstart', hloc, hstop, hstart, Location.pos_advance, Location.pos_advance,
        String.utf8Len_append, String.utf8Len_append]
      omega

/-- **A syntax error** points into the source, and is empty only at its end. -/
theorem pointsInto_of_refused {source : String} {e : SyntaxError} (h : parse source = .error e) :
    e.span.PointsInto source ∧ e.span.EmptyAtEnd source := by
  have hplaced := (tiles_tokens source).placed
  rw [Cursor.tokens_eq_stream] at hplaced
  have hrefused := refused_of_parse
    (fun s => s.PointsInto source ∧ s.EmptyAtEnd source)
    (fun hs ht => ⟨hs.1.union ht.1, .union hs.1 ht.1 hs.2⟩)
    (fun t ht => ?_) (fun span hend => ?_) h
  · obtain hending | ⟨-, hspan⟩ := hrefused
    · obtain ⟨skipped, text, rest, hrest, htext, hstart, hstop⟩ := Cursor.split_of_ending hending
      have hpoints : e.span.PointsInto source :=
        Span.pointsInto_of_split hrest (hstart.trans (Nat.zero_add _)) hstop
      refine ⟨hpoints, Span.emptyAtEnd_of_lt ?_⟩
      obtain ⟨c, cs, rfl⟩ := List.exists_cons_of_ne_nil htext
      have := c.utf8Size_pos
      rw [hstop, String.utf8Len_cons]
      omega
    · exact hspan
  · refine (hplaced t ?_).pointsInto
    split
    · exact List.mem_append_left _ ht
    · exact ht
  · rw [hend] at hplaced
    exact (hplaced ⟨.eof, span⟩ (by simp)).pointsInto

/-! ### Nodes of a program -/

section Nodes

variable {source : String} {p : Program}

/-- **The nodes of a program** point into its source, and none is empty. -/
theorem pointsInto_of_has {n : Node} (h : parse source = .ok p) (hn : p.Has n) :
    n.span.PointsInto source ∧ n.span.start.pos < n.span.stop.pos := by
  obtain ⟨ts, span, hstream, hrow, -, hhas⟩ := tokens_of_parse h
  obtain ⟨before, used, after, rfl, hread⟩ := hhas n hn
  have hplaced := (tiles_tokens source).placed
  rw [Cursor.tokens_eq_stream, hstream] at hplaced
  have hplaced : ∀ t ∈ used, t.Placed source := fun t ht => hplaced t (by simp [ht])
  have hproper := hrow.right.left.cover_proper hread.ne_nil
  obtain ⟨first, last, hfirst, hlast, hcover⟩ := cover_eq hread.ne_nil
  rw [hread.span]
  refine ⟨Span.pointsInto_of_valid (Nat.le_of_lt hproper) ?_ ?_, hproper⟩
  · rw [hcover]
    exact (hplaced first (List.mem_of_mem_head? hfirst)).start
  · rw [hcover]
    exact (hplaced last (List.mem_of_mem_getLast? hlast)).stop

/-- Children lie within their parent, one after the other. -/
theorem children_of_has {n : Node} (h : parse source = .ok p) (hn : p.Has n) :
    (∀ c ∈ n.children, c.span.Within n.span) ∧
      n.children.Pairwise fun a b => a.span.Before b.span := by
  obtain ⟨ts, span, -, hrow, -, hhas⟩ := tokens_of_parse h
  obtain ⟨before, used, after, rfl, hread⟩ := hhas n hn
  exact ⟨hread.within hrow.right.left, hread.children.ordered hrow.right.left⟩

/-- **The statements of a block** stand one after the other. -/
theorem Program.Nest.ordered {path : List Block} (h : parse source = .ok p) (hnest : p.Nest path) :
    ∀ b ∈ path, (b.body.map Node.ofStatement).Pairwise fun a b => a.span.Before b.span := by
  induction hnest with
  | top =>
    obtain ⟨ts, span, -, hrow, hlisted, -⟩ := tokens_of_parse h
    have hitems : p.block.body.map Node.ofStatement = p.items.map Node.ofItem := by
      rw [Program.block, List.map_map]
      exact List.map_congr_left fun i _ => by cases i <;> rfl
    intro b hb
    obtain rfl := List.mem_singleton.1 hb
    rw [hitems]
    exact hlisted.spread.ordered hrow
  | @inner b c bs hb hc ih =>
    rw [List.forall_mem_cons]
    refine ⟨?_, ih⟩
    have hhas := hb.has b List.mem_cons_self
    cases hc with
    | rule hr => exact (List.pairwise_cons.1 (children_of_has h (hhas _ hr)).2).2
    | condition ha _ hbody =>
      have hchildren := (List.pairwise_cons.1 (children_of_has h (hhas _ ha)).2).2
      have hlast := (List.pairwise_append.1 hchildren).2.1
      rwa [hbody] at hlast

/-- The name of a rule stands **within** the rule. -/
theorem name_within {r : Rule} (h : parse source = .ok p) (hr : p.Has (.rule r)) :
    r.selector.name.span.Within r.span := by
  have hselector : p.Has (.selector r.selector) := hr.child (.head _)
  have houter := (children_of_has h hr).1 _ (.head _)
  have hinner := (children_of_has h hselector).1 _ (.head _)
  exact ⟨Nat.le_trans houter.1 hinner.1, Nat.le_trans hinner.2 houter.2⟩

/-! ### Faults -/

/-- The span **of a node** that may be blamed, a stretch of the source that is not empty. -/
def Span.OfNode (s : Span) (source : String) (p : Program) : Prop :=
  (∃ n, p.Has n ∧ n.Blamable ∧ n.span = s) ∧ s.PointsInto source ∧ s.start.pos < s.stop.pos

theorem Span.ofNode_of_has {n : Node} (h : parse source = .ok p) (hn : p.Has n)
    (hkind : n.Blamable) : n.span.OfNode source p :=
  ⟨⟨n, hn, hkind, rfl⟩, pointsInto_of_has h hn⟩

namespace Program.Blamed

variable {f : Fault}

/-- A fault blames a part of the source, and **nothing else**. -/
theorem points (h : parse source = .ok p) (hf : p.Blamed f) :
    (∃ s, f.span? = some s) ∧
      ∀ s, f.span? = some s ∨ f.previous? = some s → s.OfNode source p := by
  cases hf with
  | node hn hkind hspan hprevious =>
    refine ⟨⟨_, hspan⟩, ?_⟩
    rintro s (hs | hs)
    · rw [hspan] at hs
      cases hs
      exact Span.ofNode_of_has h hn hkind
    · rw [hprevious] at hs
      cases hs
  | @twice b bs before r after earlier hnest hbody hearlier =>
    have hhas := hnest.has b List.mem_cons_self
    have hname : ∀ r' : Rule, .rule r' ∈ b.body → r'.selector.name.span.OfNode source p := by
      intro r' hr'
      have hrule : p.Has (.rule r') := hhas _ hr'
      exact Span.ofNode_of_has h ((hrule.child (.head _)).child (.head _)) trivial
    refine ⟨⟨_, rfl⟩, ?_⟩
    rintro s (⟨⟨⟩⟩ | ⟨⟨⟩⟩)
    · exact hname r (by simp [hbody])
    · exact hname earlier (by simp [hbody, hearlier])

/-- Of two rules of one name, the one that is defined already stands **before** the other. -/
theorem previous_before (h : parse source = .ok p) {name : String} {s previous : Span}
    (hf : p.Blamed (.duplicateDefinition name s previous)) : previous.Before s := by
  cases hf with
  | node _ _ _ hprevious => cases hprevious
  | @twice b bs before r after earlier hnest hbody hearlier =>
    have hhas := hnest.has b List.mem_cons_self
    have hordered := hnest.ordered h b List.mem_cons_self
    rw [hbody, List.map_append] at hordered
    have hbefore : earlier.span.Before r.span :=
      (List.pairwise_append.1 hordered).2.2 _ (List.mem_map_of_mem hearlier) _ (.head _)
    have hleft := name_within h (hhas (.rule earlier) (by simp [hbody, hearlier]))
    have hright := name_within h (hhas (.rule r) (by simp [hbody]))
    exact Nat.le_trans hleft.2 (Nat.le_trans hbefore hright.1)

end Program.Blamed

end Nodes

/-- The labels of a fault are on the spans that it blames. -/
theorem Fault.mem_labels {f : Fault} {l : Label} (h : l ∈ f.diagnostic.labels) :
    ∃ text s, (f.span? = some s ∨ f.previous? = some s) ∧ l = .on text s := by
  rcases List.mem_append.1 h with h | h
  · obtain ⟨s, hs, rfl⟩ := Option.map_eq_some_iff.1 (Option.mem_toList.1 h)
    exact ⟨_, s, .inl hs, rfl⟩
  · obtain ⟨s, hs, rfl⟩ := Option.map_eq_some_iff.1 (Option.mem_toList.1 h)
    exact ⟨_, s, .inr hs, rfl⟩

/-- **Diagnostics point into the source.** If a source is refused, the error has a stretch of
the source for its span, and it is empty only at the end. If a source is a program, and a run
of it fails on whatever sink, then it has no main rule, or the fault blames a span; each span
that a fault blames is that of a name, a selector, a declaration, an at-rule or an expression
of the program, a stretch of the source and not empty, and of a rule that is defined twice the
earlier name stands before the later one. So no label ever goes beyond the source. -/
theorem diagnostics_point_into_source (source : String) :
    (∀ e, parse source = .error e → e.span.PointsInto source ∧ e.span.EmptyAtEnd source ∧
      ∀ l ∈ e.diagnostic.labels, l.offset + l.len ≤ source.utf8ByteSize) ∧
    ∀ p depth sink f, parse source = .ok p → (p.report depth sink).1.outcome = .failed f →
      (f = .missingMain ∧ f.span? = none ∨ ∃ s, f.span? = some s) ∧
      (∀ s, f.span? = some s ∨ f.previous? = some s → s.OfNode source p) ∧
      (∀ name s previous, f = .duplicateDefinition name s previous → previous.Before s) ∧
      ∀ l ∈ f.diagnostic.labels, l.offset + l.len ≤ source.utf8ByteSize := by
  refine ⟨?_, ?_⟩
  · intro e he
    obtain ⟨hpoints, hend⟩ := pointsInto_of_refused he
    refine ⟨hpoints, hend, ?_⟩
    intro l hl
    obtain rfl := List.mem_singleton.1 hl
    exact hpoints.label_le _
  · intro p depth sink f hparse hfailed
    have hrun : (Eval.program depth p).run (.start sink) =
        (.failed f, ((Eval.program depth p).run (.start sink)).2) := Prod.ext hfailed rfl
    obtain rfl | hblamed := Program.blamed_of_failed hrun
    · exact ⟨.inl ⟨rfl, rfl⟩, by simp [Fault.span?, Fault.previous?], nofun,
        by simp [Fault.diagnostic, Fault.span?, Fault.previous?]⟩
    · obtain ⟨hspan, hall⟩ := hblamed.points hparse
      refine ⟨.inr hspan, hall, ?_, ?_⟩
      · rintro name s previous rfl
        exact hblamed.previous_before hparse
      · intro l hl
        obtain ⟨text, s, hs, rfl⟩ := Fault.mem_labels hl
        exact (hall s hs).2.1.label_le text

/-- A rule that is defined twice, and a text that is not closed. -/
theorem diagnostics_point_into_source_twice :
    let source := "a\x7b\x7d/*é*/a\x7b\x7d"
    let span (start col len : Nat) : Span := ⟨⟨start, 1, col⟩, ⟨start + len, 1, col + len⟩⟩
    (∃ p, parse source = .ok p ∧ (p.report 1 (.empty none)).1.outcome =
        .failed (.duplicateDefinition "a" (span 9 9 1) (span 0 1 1)) ∧
      (span 9 9 1).OfNode source p ∧ (span 0 1 1).OfNode source p ∧
      (span 0 1 1).Before (span 9 9 1)) ∧
    ∃ e, parse "'é" = .error e ∧ e.span = ⟨⟨0, 1, 1⟩, ⟨3, 1, 3⟩⟩ ∧ e.span.PointsInto "'é" := by
  intro source span
  let rule (start col : Nat) : Item :=
    .rule ⟨⟨⟨"a", span start col 1⟩, [], span start col 1⟩, [], span start col 3⟩
  let p : Program := ⟨[rule 0 1, rule 9 9]⟩
  have hparse : parse "a\x7b\x7d/*é*/a\x7b\x7d" = .ok p :=
    parse_of_tokens [.inLine (.name "a") 0 1, .inLine (.symbol .openBrace) 1 2,
      .inLine (.symbol .closeBrace) 2 3, ⟨.name "a", ⟨9, 1, 9⟩, ⟨10, 1, 10⟩⟩,
      ⟨.symbol .openBrace, ⟨10, 1, 10⟩, ⟨11, 1, 11⟩⟩,
      ⟨.symbol .closeBrace, ⟨11, 1, 11⟩, ⟨12, 1, 12⟩⟩] ⟨⟨12, 1, 12⟩, ⟨12, 1, 12⟩⟩
      (by with_unfolding_all rfl) (by with_unfolding_all rfl)
  have hfailed (sink : Sink) : ((Eval.program 1 p).run (.start sink)).1 =
      .failed (.duplicateDefinition "a" (span 9 9 1) (span 0 1 1)) := by cbv
  have hrefused : parse "'é" =
      .error ⟨.lexical (.unterminatedString '\x27'), ⟨0, 1, 1⟩, ⟨3, 1, 3⟩⟩ :=
    parse_of_failed (s := ⟨⟨[], ⟨3, 1, 3⟩⟩, none⟩) (by with_unfolding_all rfl)
  obtain ⟨-, hspans, hbefore, -⟩ := (diagnostics_point_into_source _).2 _ _ _ _ hparse
    (hfailed (.empty none))
  exact ⟨⟨p, hparse, hfailed _, hspans _ (.inl rfl), hspans _ (.inr rfl), hbefore _ _ _ rfl⟩,
    _, hrefused, rfl, ((diagnostics_point_into_source _).1 _ hrefused).1⟩

end RuleScript
