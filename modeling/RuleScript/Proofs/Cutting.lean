import RuleScript.Proofs.Extent
import RuleScript.Proofs.Lexing
import RuleScript.Proofs.Supply

/-!
# Cutting and joining texts

A lexer does not look back. What it reads is decided by the text ahead, and where it stands
decides only where the tokens are; a gap before that text changes nothing else either. So
texts can be joined, if the last token of the first does not go on in the second, and the
text of some tokens in a row can be cut out.

* `Cursor.stream_gap`: the stream ahead of a cursor, with its location and a gap left out.
* `Cursor.stream_append`: the stream of two texts joined.
* `Cursor.Passes`: a cursor reads tokens one by one; `Cursor.Passes.cut` is about the text
  of these tokens.
* `stream_slice`: the text that some tokens of a source cover has these tokens and no
  others.
-/

namespace RuleScript

open String (utf8Len)

namespace Cursor

variable {gap : List Char}

/-! ### Gaps and locations -/

/-- What is read behind a gap is what is read without it, and anywhere else: a token of the
same kind, or an error for the same cause, with the same text after it. -/
theorem next_gap (h : Gap gap) (cs : List Char) (loc loc' : Location) :
    (∃ t t' c c', (Cursor.mk (gap ++ cs) loc).next = (.ok t, c) ∧
      (Cursor.mk cs loc').next = (.ok t', c') ∧ t.kind = t'.kind ∧ c.rest = c'.rest) ∨
    ∃ e e' c c', (Cursor.mk (gap ++ cs) loc).next = (.error e, c) ∧
      (Cursor.mk cs loc').next = (.error e', c') ∧ e.cause = e'.cause := by
  rw [next, next]
  dsimp only
  rw [Trivia.skip_append h]
  rcases hskip : Trivia.skip cs with ⟨skipped, _ | ⟨ch, cs'⟩⟩ | ⟨skipped, comment⟩
  · exact .inl ⟨_, _, _, _, rfl, rfl, rfl, rfl⟩
  · dsimp only [Trivia.after]
    rcases hread : (Lexeme.read ch cs').reading with cause | kind
    · exact .inr ⟨_, _, _, _, rfl, rfl, rfl⟩
    · exact .inl ⟨_, _, _, _, rfl, rfl, rfl, rfl⟩
  · exact .inr ⟨_, _, _, _, rfl, rfl, rfl⟩

/-- The stream ahead of a cursor does **not depend** on its location, nor on a gap. -/
theorem stream_gap (h : Gap gap) (cs : List Char) (loc loc' : Location) :
    (Cursor.mk (gap ++ cs) loc).stream.seen .blind = (Cursor.mk cs loc').stream.seen .blind := by
  suffices hall : ∀ c : Cursor, ∀ gap loc, Gap gap →
      (Cursor.mk (gap ++ c.rest) loc).stream.seen .blind = c.stream.seen .blind from
    hall ⟨cs, loc'⟩ gap loc h
  intro c
  induction c using tokens_induction with
  | error c e c₁ hn =>
    intro gap loc hgap
    obtain ⟨t, t', c', c₁', hn', hn₁, -⟩ | ⟨e', e₁, c', c₁', hn', hn₁, hcause⟩ :=
      next_gap hgap c.rest loc c.loc <;> cases hn.symm.trans hn₁
    rw [stream_of_error hn, stream_of_error hn']
    simp only [TokenStream.seen, SyntaxError.seen, hcause]
    rfl
  | ending c t c₁ hn hk =>
    intro gap loc hgap
    obtain ⟨t', t₁, c', c₁', hn', hn₁, hkind, -⟩ | ⟨e', e₁, c', c₁', hn', hn₁, hcause⟩ :=
      next_gap hgap c.rest loc c.loc <;> cases hn.symm.trans hn₁
    rw [stream_of_end hn hk, stream_of_end hn' (by rwa [hkind])]
    rfl
  | token c t c₁ hn hk ih =>
    intro gap loc hgap
    obtain ⟨t', t₁, c', c₁', hn', hn₁, hkind, hrest⟩ | ⟨e', e₁, c', c₁', hn', hn₁, hcause⟩ :=
      next_gap hgap c.rest loc c.loc <;> cases hn.symm.trans hn₁
    have hmore := ih [] c'.loc .nil
    rw [List.nil_append, ← hrest] at hmore
    rw [stream_of_token hn hk, stream_of_token hn' (by rwa [hkind])]
    exact TokenStream.cons_seen hkind hmore

/-! ### Joining texts -/

theorem gap_of_end {c c' : Cursor} {t : Token} (h : c.next = (.ok t, c')) (ht : t.kind = .eof) :
    Gap c.rest := by
  cases Step.of_next h with
  | ending hgap => exact hgap
  | token _ _ _ _ hkind => exact absurd ht hkind

/-- With no token ahead but the end, there is **only a gap**. -/
theorem gap_of_stream {c : Cursor} {span : Span} (h : c.stream = ⟨[], .ok span⟩) : Gap c.rest := by
  rcases hn : c.next with ⟨e | u, c'⟩
  · rw [stream_of_error hn] at h
    cases h
  · cases hk : u.kind.isEof with
    | true => exact gap_of_end hn (TokenKind.isEof_iff.1 hk)
    | false =>
      rw [stream_of_token hn hk] at h
      cases h

theorem stream_tokens_of_nil {c : Cursor} (h : c.rest = []) : c.stream.tokens = [] := by
  obtain ⟨rest, loc⟩ := c
  subst h
  rw [stream_of_end (next_of_gap .nil loc) rfl]

/-- The stream of **two texts joined**, if the last token of the first one is over where the
second one begins: the tokens of the first, and then the stream of the second. -/
theorem stream_append {a b : List Char} {loc : Location} {ts : List Token} {span : Span}
    (h : (Cursor.mk a loc).stream = ⟨ts, .ok span⟩)
    (hlast : ∀ t ∈ ts.getLast?, t.kind.EndsBefore b) (loc' loc'' : Location) :
    (Cursor.mk (a ++ b) loc').stream.seen .blind =
      ((Cursor.mk b loc'').stream.prepend ts).seen .blind := by
  suffices hall : ∀ c : Cursor, ∀ ts loc', c.stream = ⟨ts, .ok span⟩ →
      (∀ t ∈ ts.getLast?, t.kind.EndsBefore b) →
      (Cursor.mk (c.rest ++ b) loc').stream.seen .blind =
        ((Cursor.mk b loc'').stream.prepend ts).seen .blind from
    hall ⟨a, loc⟩ ts loc' h hlast
  intro c
  induction c using tokens_induction with
  | error c e c₁ hn =>
    intro ts loc' h
    rw [stream_of_error hn] at h
    cases h
  | ending c t c₁ hn hk =>
    intro ts loc' h _
    rw [stream_of_end hn hk] at h
    cases h
    exact stream_gap (gap_of_end hn (TokenKind.isEof_iff.1 hk)) b loc' loc''
  | token c t c₁ hn hk ih =>
    intro ts loc' h hlast
    rw [stream_of_token hn hk] at h
    obtain ⟨rfl, hending⟩ := TokenStream.mk.inj h
    have hne : t.kind ≠ .eof := by
      intro hkind
      rw [hkind] at hk
      cases hk
    obtain ⟨gap, text, hrest, hgap, htext, hover, -⟩ := reads_of_next hn hne
    have hover' : t.kind.EndsBefore (c₁.rest ++ b) := by
      by_cases hnil : c₁.rest = []
      · rw [stream_tokens_of_nil hnil] at hlast
        rw [hnil]
        exact hlast t rfl
      · exact (TokenKind.endsBefore_append hnil b).2 hover
    have hlast' : ∀ u ∈ c₁.stream.tokens.getLast?, u.kind.EndsBefore b := by
      intro u hu
      refine hlast u ?_
      rw [List.getLast?_cons, hu]
      rfl
    have hn' := next_of_reads hgap htext hover' loc'
    have hmore := ih c₁.stream.tokens ((loc'.advance gap).advance text) (by rw [← hending]) hlast'
    rw [hrest, List.append_assoc, List.append_assoc, stream_of_token hn' hk]
    exact TokenStream.cons_seen rfl hmore

/-! ### Cutting out a text -/

/-- A cursor **passes** tokens, one by one. -/
inductive Passes : Cursor → List Token → Cursor → Prop
  | nil (c : Cursor) : Passes c [] c
  | cons {c c₁ c' : Cursor} {t : Token} {ts : List Token} (hn : c.next = (.ok t, c₁))
    (ht : t.kind ≠ .eof) (h : Passes c₁ ts c') : Passes c (t :: ts) c'

variable {c c' : Cursor} {ts us : List Token}

theorem passes_of_stream (h : c.stream.tokens = ts ++ us) :
    ∃ c', c.Passes ts c' ∧ c'.stream.tokens = us := by
  induction ts generalizing c with
  | nil => exact ⟨c, .nil c, h⟩
  | cons t ts ih =>
    have hne : t.kind ≠ .eof := kind_ne_eof_of_mem_stream (c := c) (by rw [h]; exact .head _)
    obtain ⟨c₁, hn, hmore⟩ := next_of_stream h
    obtain ⟨c', hpasses, hrest⟩ := ih (congrArg TokenStream.tokens hmore)
    exact ⟨c', .cons hn hne hpasses, hrest⟩

/-- A cursor that passes tokens leaves text behind, and its location counts the bytes of
it. -/
theorem Passes.behind (h : c.Passes ts c') :
    ∃ text, c.rest = text ++ c'.rest ∧ c'.loc.pos = c.loc.pos + utf8Len text := by
  induction h with
  | nil c => exact ⟨[], rfl, rfl⟩
  | @cons c c₁ c' t ts hn ht _ ih =>
    obtain ⟨text', hrest', hpos'⟩ := ih
    obtain ⟨gap, text, hrest, -, -, -, hstart, hstop, hloc⟩ := reads_of_next hn ht
    refine ⟨gap ++ (text ++ text'), ?_, ?_⟩
    · rw [hrest, hrest', List.append_assoc, List.append_assoc]
    · rw [hpos', hloc, hstop, hstart, Location.pos_advance, Location.pos_advance,
        String.utf8Len_append, String.utf8Len_append]
      omega

/-- A text that stands **around tokens** a cursor passes: the gap before them, and the text
that they cover, in which there are no other tokens. -/
theorem Passes.cut (h : c.Passes ts c') (hts : ts ≠ []) :
    ∃ gap text, c.rest = gap ++ (text ++ c'.rest) ∧ text ≠ [] ∧ Gap gap ∧
      (cover ts).start = c.loc.advance gap ∧
      (cover ts).stop.pos = (cover ts).start.pos + utf8Len text ∧
      ∀ loc, (Cursor.mk text loc).stream.seen .blind =
        (TokenStream.mk ts (.ok default)).seen .blind := by
  induction h with
  | nil c => exact absurd rfl hts
  | @cons c c₁ c' t ts hn ht hmore ih =>
    have hk : t.kind.isEof = false := by
      rwa [Bool.eq_false_iff, ne_eq, TokenKind.isEof_iff]
    obtain ⟨gap, text, hrest, hgap, htext, hover, hstart, hstop, hloc⟩ := reads_of_next hn ht
    by_cases hnil : ts = []
    · subst hnil
      cases hmore
      refine ⟨gap, text, hrest, htext.ne_nil, hgap, hstart, ?_, fun loc => ?_⟩
      · rw [cover_singleton, hstop, Location.pos_advance]
      · have hn' := next_of_reads .nil htext (TokenKind.endsBefore_nil t.kind) loc
        rw [List.nil_append, List.append_nil] at hn'
        rw [stream_of_token hn' hk, stream_of_end (next_of_gap .nil _) rfl]
        rfl
    · obtain ⟨gap', text', hrest', hne', hgap', hstart', hstop', hstream⟩ := ih hnil
      refine ⟨gap, text ++ (gap' ++ text'), ?_, by simp [hne'], hgap, hstart, ?_, fun loc => ?_⟩
      · rw [hrest, hrest']
        simp only [List.append_assoc]
      · have hfirst : (cover (t :: ts)).start = t.span.start := rfl
        have hlast : (cover (t :: ts)).stop = (cover ts).stop := by
          obtain ⟨u, us, rfl⟩ := List.exists_cons_of_ne_nil hnil
          rfl
        rw [hlast, hstop', hstart', hloc, hfirst, hstop, String.utf8Len_append,
          String.utf8Len_append, Location.pos_advance, Location.pos_advance]
        omega
      · -- what follows the first token begins as it did before the cut
        have hover' : t.kind.EndsBefore (gap' ++ text') := by
          rw [hrest', ← List.append_assoc] at hover
          exact (TokenKind.endsBefore_append (by simp [hne']) _).1 hover
        have hn' := next_of_reads .nil htext hover' loc
        rw [List.nil_append] at hn'
        rw [stream_of_token hn' hk]
        exact TokenStream.cons_seen rfl ((stream_gap hgap' text' _ loc).trans (hstream loc))

end Cursor

/-- Tokens of a source stand **in a row**. -/
theorem inRow_stream (source : String) : InRow (Cursor.ofString source).stream.tokens := by
  have htiles := tiles_tokens source
  have hsub : (Cursor.ofString source).stream.tokens.Sublist (Cursor.ofString source).tokens.1 := by
    rw [Cursor.tokens_eq_stream]
    split
    · exact List.sublist_append_left _ _
    · exact .refl _
  refine ⟨htiles.ordered.sublist hsub, fun t ht => ?_⟩
  exact (htiles.placed t (hsub.subset ht)).proper (Cursor.kind_ne_eof_of_mem_stream ht)

/-- The text that **some tokens in a row** cover has these tokens and no others. -/
theorem stream_slice {source : String} {before ts after : List Token}
    (h : (Cursor.ofString source).stream.tokens = before ++ (ts ++ after)) (hts : ts ≠ []) :
    (Cursor.ofString ((cover ts).slice source)).stream.seen .blind =
      (TokenStream.mk ts (.ok default)).seen .blind := by
  obtain ⟨c, hbefore, hc⟩ := Cursor.passes_of_stream h
  obtain ⟨c', hpasses, -⟩ := Cursor.passes_of_stream hc
  obtain ⟨skipped, hsource, hpos⟩ := hbefore.behind
  obtain ⟨gap, text, hrest, -, -, hstart, hstop, hstream⟩ := hpasses.cut hts
  have hsplit : source.toList = (skipped ++ gap) ++ (text ++ c'.rest) := by
    rw [List.append_assoc, ← hrest]
    exact hsource
  have hbegin : (cover ts).start.pos = utf8Len (skipped ++ gap) := by
    rw [hstart, Location.pos_advance, hpos, String.utf8Len_append]
    exact congrArg (· + utf8Len gap) (Nat.zero_add _)
  rw [Span.slice_of_split hsplit hbegin hstop, Cursor.ofString, String.toList_ofList]
  exact hstream _

end RuleScript
