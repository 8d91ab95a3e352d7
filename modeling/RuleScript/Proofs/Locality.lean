import RuleScript.Proofs.Draining

/-!
# Lexing is local

What a lexer gives depends on the text ahead of it only. A lexer that stands somewhere in a source
gives what one gives that stands at the start of the rest of the source, **moved** there: offsets
and lines are counted on from the place, and so are columns on its line. And a token does not need
the text around it: the text that it covers is read as that token.

* `Location.movedTo`: a location of a text, seen from the place where the text begins.
  `Location.advance_movedTo`: reading commutes with moving.
* `Cursor.next_movedTo` is the step, one token; `Lexer.answers_movedTo` is the run, any calls.
* `Lexer.Reached.eq_movedTo`: a lexer that is reached in a source is a moved one.
* `Cursor.readsAlone_of_next`: the text of a token is read as that token.
-/

namespace RuleScript

open String (utf8Len)

/-! ### Moved locations -/

namespace Location

/-- A location of a text that **begins at** the base. Only on the first line of that text are
columns counted on. -/
def movedTo (loc base : Location) : Location where
  pos := loc.pos + base.pos
  line := loc.line + (base.line - 1)
  col := if loc.line = 1 then loc.col + (base.col - 1) else loc.col

/-- Lines and columns are counted **from one**. -/
structure Counted (loc : Location) : Prop where
  line : 1 ≤ loc.line
  col : 1 ≤ loc.col

variable {base loc : Location}

theorem Marks.counted {before : List Char} (h : loc.Marks before) : loc.Counted :=
  ⟨h.line ▸ Nat.le_add_right 1 _, h.col ▸ Nat.le_add_right 1 _⟩

/-- The start of a text is moved to where the text begins. -/
theorem movedTo_origin (h : base.Counted) : origin.movedTo base = base := by
  have hpos : 0 + base.pos = base.pos := Nat.zero_add _
  have hline : 1 + (base.line - 1) = base.line := Nat.add_sub_cancel' h.line
  have hcol : 1 + (base.col - 1) = base.col := Nat.add_sub_cancel' h.col
  simp only [movedTo, origin, if_true, hpos, hline, hcol]

theorem newline_movedTo (h : 1 ≤ loc.line) (bytes : Nat) :
    (loc.movedTo base).newline bytes = (loc.newline bytes).movedTo base := by
  -- behind a line break the first line is over
  have hfirst : ¬(loc.newline bytes).line = 1 := by
    change ¬loc.line + 1 = 1
    omega
  rw [movedTo, movedTo, if_neg hfirst]
  simp only [newline, Nat.add_right_comm]

theorem step_movedTo (h : 1 ≤ loc.line) (c : Char) :
    (loc.movedTo base).step c = (loc.step c).movedTo base := by
  rw [step, step]
  split
  · exact newline_movedTo h _
  · by_cases hfirst : loc.line = 1 <;> simp [movedTo, hfirst, Nat.add_right_comm]

theorem line_le_step (loc : Location) (c : Char) : loc.line ≤ (loc.step c).line := by
  rw [step]
  split
  · exact Nat.le_succ _
  · exact Nat.le_refl _

theorem line_le_advance (loc : Location) (cs : List Char) : loc.line ≤ (loc.advance cs).line := by
  fun_induction advance loc cs with
  | case1 => exact Nat.le_refl _
  | case2 loc cs ih => exact (Nat.le_succ _).trans ih
  | case3 loc c cs _ ih => exact (loc.line_le_step c).trans ih

/-- **Reading** a text from a moved location reaches the moved location behind it. -/
theorem advance_movedTo (h : 1 ≤ loc.line) (cs : List Char) :
    (loc.movedTo base).advance cs = (loc.advance cs).movedTo base := by
  fun_induction advance loc cs with
  | case1 => rfl
  | case2 loc cs ih => rw [advance, newline_movedTo h, ih (Nat.le_add_left _ _)]
  | case3 loc c cs hc ih =>
    rw [advance, step_movedTo h, ih (h.trans (loc.line_le_step c))]
    exact hc

end Location

/-- A span of a text that begins at the base. -/
def Span.movedTo (s : Span) (base : Location) : Span :=
  ⟨s.start.movedTo base, s.stop.movedTo base⟩

/-! ### Moved lexers -/

/-- What a lexer gives, **moved**: a token of the same kind, or an error for the same cause. -/
def movedAnswer (base : Location) : Except SyntaxError Token → Except SyntaxError Token
  | .ok t => .ok ⟨t.kind, t.span.movedTo base⟩
  | .error e => .error ⟨e.cause, e.span.movedTo base⟩

namespace Cursor

/-- A cursor over a text that begins at the base. -/
def movedTo (c : Cursor) (base : Location) : Cursor := ⟨c.rest, c.loc.movedTo base⟩

/-- **Step**: a moved cursor gives what it would give otherwise, moved. -/
theorem next_movedTo {c : Cursor} (h : 1 ≤ c.loc.line) (base : Location) :
    (c.movedTo base).next = (movedAnswer base c.next.1, c.next.2.movedTo base) := by
  have hone : ∀ a, (c.loc.movedTo base).advance a = (c.loc.advance a).movedTo base :=
    Location.advance_movedTo h
  have htwo : ∀ a b, ((c.loc.advance a).movedTo base).advance b =
      ((c.loc.advance a).advance b).movedTo base :=
    fun a => Location.advance_movedTo (h.trans (c.loc.line_le_advance a))
  rw [next, next, movedTo]
  dsimp only
  split
  · rw [hone, htwo]
    rfl
  · rw [hone]
    rfl
  · rw [hone, htwo]
    dsimp only
    split <;> rfl

theorem line_le_next (c : Cursor) : c.loc.line ≤ c.next.2.loc.line := by
  obtain ⟨gap, text, -, hloc⟩ := c.next_step.takes
  rw [hloc]
  exact (c.loc.line_le_advance gap).trans (Location.line_le_advance _ text)

/-- A cursor that stands behind the first of two texts is one at the start of the second, moved. -/
theorem StandsIn.eq_movedTo {a b : String} {c : Cursor} (h : c.StandsIn (a ++ b))
    (hpos : c.loc.pos = a.utf8ByteSize) : c = (Cursor.ofString b).movedTo c.loc := by
  obtain ⟨before, hsource, -, hmarks⟩ := h
  have hbytes : utf8Len before = utf8Len a.toList := by
    rw [← hmarks.pos, hpos, ← String.utf8ByteSize_ofList, String.ofList_toList]
  have hdrop := Span.dropBytes_append before c.rest
  rw [← hsource, String.toList_append, hbytes, Span.dropBytes_append] at hdrop
  have hrest : c.rest = b.toList := (Option.some.inj hdrop).symm
  rw [movedTo, Cursor.ofString, Location.movedTo_origin hmarks.counted, ← hrest]

end Cursor

namespace Lexer

/-- A lexer over a text that begins at the base. -/
def movedTo (l : Lexer) (base : Location) : Lexer := ⟨l.cursor.movedTo base, l.finished⟩

variable {l : Lexer} {base : Location}

theorem finishes_movedAnswer (base : Location) (result : Except SyntaxError Token) :
    finishes (movedAnswer base result) = finishes result := by
  cases result <;> rfl

theorem nextToken_movedTo (h : 1 ≤ l.cursor.loc.line) :
    (l.movedTo base).nextToken =
      (movedAnswer base l.nextToken.1, l.nextToken.2.movedTo base) := by
  rw [nextToken, movedTo, Cursor.next_movedTo h]
  rfl

theorem ask_movedTo (h : 1 ≤ l.cursor.loc.line) (call : Call) :
    (l.movedTo base).ask call =
      ((l.ask call).1.map (movedAnswer base), (l.ask call).2.movedTo base) := by
  cases call with
  | token =>
    rw [ask, nextToken_movedTo h]
    rfl
  | next =>
    cases hf : l.finished with
    | true => rw [ask, ask, next?_of_finished hf, next?_of_finished (l := l.movedTo base) hf]; rfl
    | false =>
      rw [ask, ask, next?_of_open hf, next?_of_open (l := l.movedTo base) hf, movedTo,
        Cursor.next_movedTo h, finishes_movedAnswer]
      rfl

theorem line_le_ask (l : Lexer) (call : Call) :
    l.cursor.loc.line ≤ (l.ask call).2.cursor.loc.line := by
  cases call with
  | token => exact l.cursor.line_le_next
  | next =>
    cases hf : l.finished with
    | true => rw [ask, next?_of_finished hf]
    | false =>
      rw [ask, next?_of_open hf]
      exact l.cursor.line_le_next

/-- **Run**: to any calls a moved lexer gives what it would give otherwise, moved. -/
theorem answers_movedTo (h : 1 ≤ l.cursor.loc.line) (calls : List Call) :
    (l.movedTo base).answers calls = (l.answers calls).map (Option.map (movedAnswer base)) := by
  induction calls generalizing l with
  | nil => rfl
  | cons call calls ih =>
    rw [answers, answers, ask_movedTo h, ih (h.trans (l.line_le_ask call)), List.map_cons]

end Lexer

/-! ### The text of a token -/

/-- The text of a token, **alone**, is that token, and nothing comes after it. Moved to where the
token begins, its span is the span of the token. -/
def Token.ReadsAlone (source : String) (t : Token) : Prop :=
  ∃ s : Span, lex (t.span.slice source) = .ok [⟨t.kind, s⟩, ⟨.eof, .point s.stop⟩] ∧
    s.movedTo t.span.start = t.span

namespace Cursor

variable {source : String} {c : Cursor} {t : Token}

/-- Whatever token a cursor gives, its text is **read alone**. -/
theorem readsAlone_of_next (h : c.StandsIn source) (hn : c.next.1 = .ok t) (ht : t.kind ≠ .eof) :
    t.ReadsAlone source := by
  obtain ⟨_, _, -, -, hmarks⟩ := (h.next.2.1 t hn).1
  have hcounted := hmarks.counted
  obtain ⟨before, hsource, -, hmarks⟩ := h
  have hnext : c.next = (.ok t, c.next.2) := Prod.ext hn rfl
  obtain ⟨gap, text, hrest, -, htext, -, hstart, hstop, -⟩ := reads_of_next hnext ht
  have hsplit : source.toList = (before ++ gap) ++ (text ++ c.next.2.rest) := by
    rw [hsource, hrest, List.append_assoc]
  have hbegin : t.span.start.pos = utf8Len (before ++ gap) := by
    rw [hstart, Location.pos_advance, hmarks.pos, String.utf8Len_append]
  have hslice : t.span.slice source = String.ofList text :=
    Span.slice_of_split hsplit hbegin (hstop ▸ Location.pos_advance _ _)
  have hfirst := next_of_reads .nil htext (TokenKind.endsBefore_nil t.kind) .origin
  rw [List.nil_append, List.append_nil] at hfirst
  refine ⟨⟨.origin, Location.origin.advance text⟩, ?_, ?_⟩
  · rw [hslice]
    refine lex_of_one ?_ ?_ (next_of_gap .nil _) rfl
    · rw [ofString, String.toList_ofList, hfirst]
      rfl
    · simpa [Bool.eq_false_iff] using ht
  · have hmoved : (Location.origin.movedTo t.span.start).advance text =
        (Location.origin.advance text).movedTo t.span.start :=
      Location.advance_movedTo (Nat.le_refl 1) text
    rw [Span.movedTo, ← hmoved, Location.movedTo_origin hcounted, ← hstop]

/-- Each token ahead is given by a cursor somewhere in the source. -/
theorem StandsIn.exists_next (h : c.StandsIn source) (ht : t ∈ c.tokens.1) :
    ∃ c' : Cursor, c'.StandsIn source ∧ c'.next.1 = .ok t := by
  induction c using tokens_induction with
  | error c e c' hn =>
    rw [tokens_of_error hn] at ht
    cases ht
  | ending c u c' hn hk =>
    rw [tokens_of_end hn hk] at ht
    obtain rfl := List.mem_singleton.1 ht
    exact ⟨c, h, congrArg Prod.fst hn⟩
  | token c u c' hn hk ih =>
    rw [tokens_of_token hn hk] at ht
    have hnext := h.next.1
    rw [hn] at hnext
    cases ht with
    | head => exact ⟨c, h, congrArg Prod.fst hn⟩
    | tail _ ht => exact ih hnext ht

end Cursor

/-! ### Sources -/

namespace Lexer.Reached

variable {l : Lexer}

/-- A lexer that is reached behind the first of two texts is one at the start of the second, moved
to **where it stands**. -/
theorem eq_movedTo {a b : String} (h : l.Reached (a ++ b))
    (hpos : l.cursor.loc.pos = a.utf8ByteSize) :
    l = (Lexer.mk (.ofString b) l.finished).movedTo l.cursor.loc := by
  rw [movedTo, ← h.standsIn.eq_movedTo hpos]

end Lexer.Reached

/-- **Lexing is local.** Take a lexer in whatever state it can come to over two texts, which stands
where the second one begins. The next token is what a lexer over the second text alone gives: a
token of the same kind, or an error for the same cause, and so with the same message and help. All
locations are moved to where the lexer stands, and so is the place that is reached. What it gives to
any further calls is moved likewise.

And any token before the end that is listed for a source, or given by a lexer over it in any state,
is read again from its own text, with nothing but the end after it. -/
theorem lexing_is_local :
    (∀ (a b : String) (l : Lexer), l.Reached (a ++ b) → l.cursor.loc.pos = a.utf8ByteSize →
      l.nextToken.1 = movedAnswer l.cursor.loc (Lexer.ofString b).nextToken.1 ∧
      l.nextToken.2.cursor = (Lexer.ofString b).nextToken.2.cursor.movedTo l.cursor.loc ∧
      ∀ calls, l.answers calls = ((Lexer.mk (.ofString b) l.finished).answers calls).map
        (Option.map (movedAnswer l.cursor.loc))) ∧
    ∀ (source : String) (t : Token), t.kind ≠ .eof →
      (∃ tokens, lex source = .ok tokens ∧ t ∈ tokens) ∨
        (∃ l : Lexer, l.Reached source ∧ l.Gives (.ok t)) →
      t.ReadsAlone source := by
  refine ⟨fun a b l hl hpos => ?_, fun source t ht hgiven => ?_⟩
  · have hmoved := hl.eq_movedTo hpos
    have hline : 1 ≤ (Cursor.ofString b).loc.line := Nat.le_refl 1
    generalize l.cursor.loc = base at hmoved ⊢
    generalize l.finished = finished at hmoved ⊢
    subst hmoved
    refine ⟨?_, ?_, Lexer.answers_movedTo hline⟩
    · rw [Lexer.nextToken_movedTo hline]
      rfl
    · rw [Lexer.nextToken_movedTo hline]
      rfl
  · obtain ⟨tokens, hlex, hmem⟩ | ⟨l, hl, hgives⟩ := hgiven
    · have hmem' : t ∈ (Cursor.ofString source).tokens.1 := by rwa [tokens_of_lex hlex]
      obtain ⟨c, hc, hn⟩ := (Cursor.StandsIn.ofString source).exists_next hmem'
      exact Cursor.readsAlone_of_next hc hn ht
    · exact Cursor.readsAlone_of_next hl.standsIn hgives.cursor ht

/-- Behind an error on the second line, a string with a line break of two characters in it. -/
theorem lexing_is_local_line :
    let a := "#\r\n&"
    let b := " 'é\r\n' "
    let l := (Lexer.ofString (a ++ b)).nextToken.2.nextToken.2
    let t : Token := ⟨.string "é\r", ⟨⟨1, 1, 2⟩, ⟨7, 2, 2⟩⟩⟩
    l.Reached (a ++ b) ∧ l.cursor.loc = ⟨4, 2, 2⟩ ∧ l.cursor.loc.pos = a.utf8ByteSize ∧
      (Lexer.ofString b).nextToken.1 = .ok t ∧
      l.nextToken.1 = .ok ⟨t.kind, ⟨⟨5, 2, 3⟩, ⟨11, 3, 2⟩⟩⟩ ∧
      ∃ tokens, lex b = .ok tokens ∧ t ∈ tokens ∧ t.kind ≠ .eof ∧ t.span.slice b = "'é\r\n'" ∧
        ∃ s ending, lex "'é\r\n'" = .ok [⟨t.kind, s⟩, ⟨.eof, ending⟩] := by
  intro a b l t
  have hend : t.kind ≠ .eof := nofun
  have hl : l.Reached (a ++ b) := .nextToken (.nextToken .start)
  have hloc : l.cursor.loc = ⟨4, 2, 2⟩ := by
    change (Lexer.ofString ("#\r\n&" ++ " 'é\r\n' ")).nextToken.2.nextToken.2.cursor.loc = _
    with_unfolding_all rfl
  have hpos : l.cursor.loc.pos = a.utf8ByteSize := by rw [hloc]; rfl
  have hchars : Cursor.ofString b = ⟨[' ', '\x27', 'é', '\r', '\n', '\x27', ' '], .origin⟩ :=
    congrArg (Cursor.mk · .origin) String.toList_ofList
  have hfirst : (Cursor.ofString b).next = (.ok t, ⟨[' '], ⟨7, 2, 2⟩⟩) := by
    rw [hchars]
    with_unfolding_all rfl
  have hlast : (Cursor.mk [' '] ⟨7, 2, 2⟩).next =
      (.ok ⟨.eof, ⟨8, 2, 3⟩, ⟨8, 2, 3⟩⟩, ⟨[], ⟨8, 2, 3⟩⟩) := by with_unfolding_all rfl
  have hfresh : (Lexer.ofString b).nextToken.1 = .ok t := congrArg Prod.fst hfirst
  have hlex := lex_of_one hfirst rfl hlast rfl
  have hslice : t.span.slice " 'é\r\n' " = "'é\r\n'" := by with_unfolding_all rfl
  obtain ⟨hmoved, halone⟩ := lexing_is_local
  have hnext := (hmoved a b l hl hpos).1
  rw [hfresh, hloc] at hnext
  obtain ⟨s, hread, -⟩ := halone b t hend (.inl ⟨_, hlex, List.mem_cons_self⟩)
  rw [hslice] at hread
  exact ⟨hl, hloc, hpos, hfresh, hnext, _, hlex, List.mem_cons_self, hend, hslice, s, _, hread⟩

end RuleScript
