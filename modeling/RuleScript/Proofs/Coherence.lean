import Mathlib.Data.List.TakeWhile
import RuleScript.Proofs.LineColumn
import RuleScript.Proofs.Provenance

/-!
# Locations are coherent

Wherever a lexer stands, after any calls and any errors, it stands at a place of its
source and its location marks that place. So all locations that are ever given for one
source agree with each other: the offset determines line and column, and orders them.

The step is `Cursor.StandsIn.next`. What a lexer takes never ends between a carriage return
and its line feed: gaps end before a character that is no blank, and lexemes end with some
other character, or take all there is. Tokens, errors and nodes then follow, since every
location in them is one that a lexer reached (`RuleScript.Proofs.Provenance`).
-/

namespace RuleScript

/-! ### Where text is cut -/

theorem Seam.of_not_mem {a b : List Char} (h : '\r' ∉ a) : Seam a b :=
  .of_last fun hl => h (List.mem_of_getLast? hl)

theorem seam_nil (a : List Char) : Seam a [] := .of_head nofun

namespace Trivia

/-- A gap that goes on behind a text and **is closed** is closed there. -/
theorem closed_of_after {t : Trivia} {text skipped rest : List Char}
    (h : t.after text = .closed skipped rest) : ∃ s, t = .closed s rest := by
  cases t with
  | closed s r =>
    cases h
    exact ⟨s, rfl⟩
  | unclosed s c => cases h

/-- Skipping stops at what is **no blank**. -/
theorem isBlank_of_skip {cs skipped rest : List Char} {c : Char}
    (h : skip cs = .closed skipped (c :: rest)) : isBlank c = false := by
  fun_induction skip cs generalizing skipped with
  | case1 => cases h
  | case2 cs body rest' _ _ ih =>
    obtain ⟨s, hs⟩ := closed_of_after h
    exact ih hs
  | case3 d cs _ _ ih =>
    obtain ⟨s, hs⟩ := closed_of_after h
    exact ih hs
  | case4 d cs _ hd =>
    cases h
    exact Bool.eq_false_iff.2 hd
  | case5 => cases h

/-- A comment that is not closed **begins as one**. -/
theorem comment_of_skip {cs skipped comment : List Char}
    (h : skip cs = .unclosed skipped comment) : ∃ inner, comment = '/' :: '*' :: inner := by
  fun_induction skip cs generalizing skipped with
  | case1 cs _ =>
    cases h
    exact ⟨cs, rfl⟩
  | case2 cs body rest _ _ ih =>
    obtain ⟨s, hs⟩ := unclosed_of_after h
    exact ih hs
  | case3 d cs _ _ ih =>
    obtain ⟨s, hs⟩ := unclosed_of_after h
    exact ih hs
  | case4 => cases h
  | case5 => cases h

end Trivia

namespace Lexeme

/-- A **word** separates no line break: it has no carriage return in it. -/
theorem word_seam {front : List Char} (h : '\r' ∉ front) (cs : List Char) :
    Seam (word front cs).text (word front cs).rest := by
  refine .of_not_mem fun hmem => ?_
  rcases List.mem_append.1 hmem with hfront | hrest
  · exact h hfront
  · exact absurd (List.mem_takeWhile_imp hrest) (by decide)

theorem dashed_seam (cs : List Char) : Seam (dashed cs).text (dashed cs).rest := by
  cases cs with
  | nil => exact seam_nil _
  | cons c cs =>
    rw [dashed]
    split
    · next hc =>
      refine word_seam ?_ cs
      rintro (_ | ⟨_, _ | ⟨_, _ | ⟨_, ⟨⟩⟩⟩⟩)
      cases hc
    · exact .of_not_mem (by simp)

theorem not_mem_takeWhile_isDigit (cs : List Char) : '\r' ∉ cs.takeWhile Char.isDigit :=
  fun h => absurd (List.mem_takeWhile_imp h) (by decide)

/-- A **number** separates no line break. -/
theorem number_seam (cs : List Char) : Seam (number cs).text (number cs).rest := by
  have hwhole := not_mem_takeWhile_isDigit cs
  rw [number]
  split
  · next rest _ =>
    have hrest := not_mem_takeWhile_isDigit rest
    rw [fraction]
    split
    · exact .of_not_mem (by simp [hwhole, hrest])
    · exact .of_not_mem (by simp [hwhole, hrest])
  · exact .of_not_mem hwhole

/-- A **string** separates no line break: it ends with a quote, or with the text. -/
theorem quoted_seam {quote : Char} (h : quote = '\x22' ∨ quote = '\x27') (cs : List Char) :
    Seam (quoted quote cs).text (quoted quote cs).rest := by
  rw [quoted]
  split
  · next body rest _ =>
    refine .of_last ?_
    rw [List.getLast?_concat]
    obtain rfl | rfl := h <;> decide
  · exact seam_nil _

/-- A **symbol** separates no line break. -/
theorem punctuation_seam {c : Char} (h : c ≠ '\r') (cs : List Char) :
    Seam (punctuation c cs).text (punctuation c cs).rest := by
  cases cs with
  | nil => exact seam_nil _
  | cons d cs =>
    rw [punctuation]
    split
    · next s hs =>
      refine .of_last ?_
      rintro ⟨⟩
      unfold pairSymbol at hs
      split at hs <;> cases hs <;> contradiction
    · exact .of_last (by simpa using h)

/-- No lexeme ends **inside a line break** of two characters. -/
theorem read_seam {c : Char} (h : isBlank c = false) (cs : List Char) :
    Seam (read c cs).text (read c cs).rest := by
  have hc : c ≠ '\r' := by
    rintro rfl
    cases h
  rw [read]
  split
  · exact word_seam (by simpa using hc.symm) cs
  split
  · exact dashed_seam (cs.drop 1)
  split
  · exact number_seam (c :: cs)
  split
  · next hquote => exact quoted_seam hquote cs
  · exact punctuation_seam hc cs

end Lexeme

/-! ### Where a lexer stands -/

/-- A cursor **stands in** a source: the text ahead of it is the rest of the source after
some place, and its location marks that place. -/
def Cursor.StandsIn (source : String) (c : Cursor) : Prop :=
  ∃ before, source.toList = before ++ c.rest ∧ Seam before c.rest ∧ c.loc.Marks before

/-- Both ends of a span lie in a source. -/
def Span.LiesIn (source : String) (s : Span) : Prop :=
  s.start.LiesIn source ∧ s.stop.LiesIn source

namespace Cursor.StandsIn

variable {source : String} {c : Cursor}

/-- A lexer begins **at the beginning**. -/
theorem ofString (source : String) : (Cursor.ofString source).StandsIn source :=
  ⟨[], rfl, .of_last nofun, .origin⟩

/-- Where a lexer stands is **a place in the source**. -/
theorem liesIn (h : c.StandsIn source) : c.loc.LiesIn source := by
  obtain ⟨before, hsource, hseam, hmarks⟩ := h
  exact ⟨before, c.rest, hsource, hseam, hmarks⟩

/-- A cursor may go on over any text that ends at a place. -/
theorem move {loc : Location} {a b : List Char} (h : (Cursor.mk (a ++ b) loc).StandsIn source)
    (hab : Seam a b) : (Cursor.mk b (loc.advance a)).StandsIn source := by
  obtain ⟨before, hsource, hseam, hmarks⟩ := h
  cases a with
  | nil => exact ⟨before, hsource, hseam, hmarks⟩
  | cons d a =>
    have hd : Seam before (d :: a) := fun hl => by simpa using hseam hl
    refine ⟨before ++ (d :: a), ?_, hab.prepend (List.cons_ne_nil d a) before, hmarks.advance hd⟩
    rw [hsource, List.append_assoc]

/-- A gap and a text after it are read **from place to place**. -/
theorem passing {gap text rest : List Char} {loc : Location}
    (h : (Cursor.mk (gap ++ (text ++ rest)) loc).StandsIn source) (hgap : Seam gap (text ++ rest))
    (htext : Seam text rest) :
    (Cursor.mk rest ((loc.advance gap).advance text)).StandsIn source ∧
      (Span.mk (loc.advance gap) ((loc.advance gap).advance text)).LiesIn source := by
  have hstart := h.move hgap
  have hstop := hstart.move htext
  exact ⟨hstop, hstart.liesIn, hstop.liesIn⟩

/-- Behind a gap a lexeme is read from place to place. -/
theorem lexeme {gap cs : List Char} {ch : Char} (h : c.StandsIn source)
    (hskip : Trivia.skip c.rest = .closed gap (ch :: cs))
    (hrest : c.rest = gap ++ ((Lexeme.read ch cs).text ++ (Lexeme.read ch cs).rest)) :
    (Cursor.mk (Lexeme.read ch cs).rest
        ((c.loc.advance gap).advance (Lexeme.read ch cs).text)).StandsIn source ∧
      (Span.mk (c.loc.advance gap)
        ((c.loc.advance gap).advance (Lexeme.read ch cs).text)).LiesIn source := by
  have hblank := Trivia.isBlank_of_skip hskip
  have hhead : (ch :: cs).head? ≠ some '\n' := by
    rintro ⟨⟩
    cases hblank
  rw [← Lexeme.read_split ch cs] at hhead
  obtain ⟨rest, loc⟩ := c
  subst hrest
  exact h.passing (.of_head hhead) (Lexeme.read_seam hblank cs)

/-- **One token** is read from place to place, and so is an error. -/
theorem next (h : c.StandsIn source) :
    c.next.2.StandsIn source ∧ (∀ t, c.next.1 = .ok t → t.span.LiesIn source) ∧
      ∀ e, c.next.1 = .error e → e.span.LiesIn source := by
  rcases hn : c.next with ⟨result, c'⟩
  cases Step.of_next hn with
  | ending =>
    have hstop : (Cursor.mk [] (c.loc.advance c.rest)).StandsIn source :=
      StandsIn.move (by rwa [List.append_nil]) (seam_nil _)
    refine ⟨hstop, ?_, by rintro _ ⟨⟩⟩
    rintro _ ⟨⟩
    exact ⟨hstop.liesIn, hstop.liesIn⟩
  | token _ hskip hrest =>
    obtain ⟨hstop, hspan⟩ := h.lexeme hskip hrest
    refine ⟨hstop, ?_, by rintro _ ⟨⟩⟩
    rintro _ ⟨⟩
    exact hspan
  | refused _ hskip hrest =>
    obtain ⟨hstop, hspan⟩ := h.lexeme hskip hrest
    refine ⟨hstop, by rintro _ ⟨⟩, ?_⟩
    rintro _ ⟨⟩
    exact hspan
  | @unclosed gap comment _ hskip hrest =>
    obtain ⟨inner, rfl⟩ := Trivia.comment_of_skip hskip
    have hwhole : (Cursor.mk (gap ++ (('/' :: '*' :: inner) ++ [])) c.loc).StandsIn source := by
      rwa [List.append_nil, ← hrest]
    obtain ⟨hstop, hspan⟩ := hwhole.passing (.of_head (by simp)) (seam_nil _)
    refine ⟨hstop, by rintro _ ⟨⟩, ?_⟩
    rintro _ ⟨⟩
    exact hspan

/-- All tokens ahead lie in the source, and so does the error in place of the end. -/
theorem tokens (h : c.StandsIn source) :
    (∀ t ∈ c.tokens.1, t.span.LiesIn source) ∧ ∀ e ∈ c.tokens.2, e.span.LiesIn source := by
  induction c using tokens_induction with
  | error c e c' hn =>
    have hnext := h.next
    rw [hn] at hnext
    rw [tokens_of_error hn]
    exact ⟨fun _ ht => (nomatch ht), fun _ he => Option.some.inj he ▸ hnext.2.2 e rfl⟩
  | ending c t c' hn hk =>
    have hnext := h.next
    rw [hn] at hnext
    rw [tokens_of_end hn hk]
    exact ⟨List.forall_mem_singleton.2 (hnext.2.1 t rfl), fun _ he => nomatch he⟩
  | token c t c' hn hk ih =>
    have hnext := h.next
    rw [hn] at hnext
    rw [tokens_of_token hn hk]
    exact ⟨List.forall_mem_cons.2 ⟨hnext.2.1 t rfl, (ih hnext.1).1⟩, (ih hnext.1).2⟩

end Cursor.StandsIn

/-- The states of a lexer over a source, after **any calls** whatever they gave. -/
inductive Lexer.Reached (source : String) : Lexer → Prop
  | start : Reached source (.ofString source)
  | nextToken {l : Lexer} (h : Reached source l) : Reached source l.nextToken.2
  | next {l : Lexer} (h : Reached source l) : Reached source l.next?.2

/-- What a lexer gives next, asked in either way. -/
def Lexer.Gives (l : Lexer) (result : Except SyntaxError Token) : Prop :=
  l.nextToken.1 = result ∨ l.next?.1 = some result

namespace Lexer

variable {source : String} {l : Lexer}

/-- Wherever a lexer gets to, it **stands in the source**. -/
theorem Reached.standsIn (h : l.Reached source) : l.cursor.StandsIn source := by
  induction h with
  | start => exact .ofString source
  | nextToken _ ih => exact ih.next.1
  | @next l _ ih =>
    rw [next?]
    split
    · exact ih
    · exact ih.next.1

theorem Gives.cursor {result : Except SyntaxError Token} (h : l.Gives result) :
    l.cursor.next.1 = result := by
  obtain h | h := h
  · exact h
  · rw [next?] at h
    split at h
    · cases h
    · exact Option.some.inj h

end Lexer

/-! ### Parsers -/

/-- The states of a parser over a source, after any expressions that were read from it, or
refused. -/
inductive Lookahead.Reached (source : String) : Lookahead → Prop
  | start : Reached source (.ofString source)
  | expression {s : Lookahead} (h : Reached source s) :
    Reached source (Parser.readExpression s).2

/-- Spans of a source are those between its places, and a parser over the source shows no
others. -/
def Lookahead.places (source : String) : Watch Lookahead where
  Good := Span.LiesIn source
  Inside s := s.cursor.StandsIn source ∧ ∀ t ∈ s.peeked, t.span.LiesIn source
  Refused e s := e.span.LiesIn source ∧ s.cursor.StandsIn source ∧
    ∀ t ∈ s.peeked, t.span.LiesIn source
  union := by
    intro s t hs ht
    rw [Span.LiesIn, Span.union]
    refine ⟨?_, ?_⟩
    · dsimp only
      split
      · exact ht.1
      · exact hs.1
    · dsimp only
      split
      · exact ht.2
      · exact hs.2
  token := by
    rintro ⟨cursor, peeked⟩ s' t ⟨hcursor, hpeeked⟩ h
    change Lookahead.peek _ = _ at h
    cases peeked with
    | some u =>
      cases h
      exact ⟨hpeeked t rfl, hcursor, hpeeked⟩
    | none =>
      have hnext := hcursor.next
      rcases hn : cursor.next with ⟨e | u, c⟩ <;> simp only [Lookahead.peek, hn] at h hnext <;>
        cases h
      exact ⟨hnext.2.1 t rfl, hnext.1, fun _ hu => Option.some.inj hu ▸ hnext.2.1 t rfl⟩
  error := by
    rintro ⟨cursor, peeked⟩ s' e ⟨hcursor, hpeeked⟩ h
    change Lookahead.peek _ = _ at h
    cases peeked with
    | some u => cases h
    | none =>
      have hnext := hcursor.next
      rcases hn : cursor.next with ⟨e | u, c⟩ <;> simp only [Lookahead.peek, hn] at h hnext <;>
        cases h
      exact ⟨hnext.2.2 _ rfl, hnext.1, fun _ ht => nomatch ht⟩
  grammar hs hspan := ⟨hspan, hs⟩
  drop h _ _ := ⟨h.1, fun _ ht => nomatch ht⟩

theorem Lookahead.Reached.inside {source : String} {s : Lookahead} (h : s.Reached source) :
    (Lookahead.places source).Inside s := by
  induction h with
  | start => exact ⟨.ofString source, fun _ ht => nomatch ht⟩
  | @expression s _ ih =>
    have hkept := (places source).readExpression_keeps ih
    rcases hread : Parser.readExpression s with ⟨e | e, s'⟩ <;> rw [hread] at hkept
    · exact (hkept.2 e s' rfl).2
    · exact (hkept.1 e s' rfl).2

/-! ### All that is given for a source -/

/-- A span that is **given** for a source: of a token, of a node of a tree, or of an error,
from a lexer or a parser in any state. -/
inductive Span.GivenFor (source : String) : Span → Prop
  | listed {tokens : List Token} {t : Token} (h : lex source = .ok tokens) (ht : t ∈ tokens) :
    GivenFor source t.span
  | unlisted {e : SyntaxError} (h : lex source = .error e) : GivenFor source e.span
  | token {l : Lexer} {t : Token} (hl : l.Reached source) (h : l.Gives (.ok t)) :
    GivenFor source t.span
  | noToken {l : Lexer} {e : SyntaxError} (hl : l.Reached source) (h : l.Gives (.error e)) :
    GivenFor source e.span
  | expression {s : Lookahead} {e : Expr} {n : Node} (hs : s.Reached source)
    (h : (Parser.readExpression s).1 = .ok e) (hn : (Node.expr e).Contains n) :
    GivenFor source n.span
  | noExpression {s : Lookahead} {e : SyntaxError} (hs : s.Reached source)
    (h : (Parser.readExpression s).1 = .error e) : GivenFor source e.span
  | program {s : Lookahead} {p : Program} {n : Node} (hs : s.Reached source)
    (h : (Parser.readProgram s).1 = .ok p) (hn : p.Has n) : GivenFor source n.span
  | noProgram {s : Lookahead} {e : SyntaxError} (hs : s.Reached source)
    (h : (Parser.readProgram s).1 = .error e) : GivenFor source e.span

/-- An end of a span that is given for a source. -/
def Location.GivenFor (source : String) (loc : Location) : Prop :=
  ∃ s : Span, s.GivenFor source ∧ (loc = s.start ∨ loc = s.stop)

/-- What is given for a source **lies in it**. -/
theorem Span.GivenFor.liesIn {source : String} {s : Span} (h : s.GivenFor source) :
    s.LiesIn source := by
  have htokens := (Cursor.StandsIn.ofString source).tokens
  cases h with
  | listed h ht =>
    rw [tokens_of_lex h] at htokens
    exact htokens.1 _ ht
  | unlisted h =>
    rw [lex] at h
    split at h
    · cases h
    · next heq =>
      cases h
      rw [heq] at htokens
      exact htokens.2 _ rfl
  | token hl h => exact hl.standsIn.next.2.1 _ h.cursor
  | noToken hl h => exact hl.standsIn.next.2.2 _ h.cursor
  | expression hs h hn =>
    exact (((Lookahead.places source).readExpression_keeps hs.inside).1 _ _ (Prod.ext h rfl)).1 _ hn
  | noExpression hs h =>
    exact (((Lookahead.places source).readExpression_keeps hs.inside).2 _ _ (Prod.ext h rfl)).1
  | program hs h hn =>
    exact (((Lookahead.places source).readProgram_keeps hs.inside).1 _ _ (Prod.ext h rfl)).1 _ hn
  | noProgram hs h =>
    exact (((Lookahead.places source).readProgram_keeps hs.inside).2 _ _ (Prod.ext h rfl)).1

theorem Location.GivenFor.liesIn {source : String} {loc : Location} (h : loc.GivenFor source) :
    loc.LiesIn source := by
  obtain ⟨s, hs, rfl | rfl⟩ := h
  · exact hs.liesIn.1
  · exact hs.liesIn.2

/-- **Locations are coherent.** In whatever state a lexer is, the text ahead of it is the
rest of the source after a boundary between characters that is not inside a line break of
two characters; its line counts the line breaks before, and its column the characters
after the last of them. So in all that is given for a source the offset of a location
determines its line and column, and a smaller offset means an earlier line, or an earlier
column of the same line. -/
theorem locations_coherent (source : String) :
    (∀ l : Lexer, l.Reached source →
      String.Pos.Raw.IsValid source ⟨l.cursor.loc.pos⟩ ∧ ∃ before,
        source.toList = before ++ l.cursor.rest ∧
        l.cursor.loc.pos = String.utf8Len before ∧
        ¬(before.getLast? = some '\r' ∧ l.cursor.rest.head? = some '\n') ∧
        l.cursor.loc.line = 1 + lineBreaks before ∧
        l.cursor.loc.col = 1 + (lastLine before).length) ∧
    ∀ l m : Location, l.GivenFor source → m.GivenFor source →
      (l.pos = m.pos → l.line = m.line ∧ l.col = m.col) ∧
      (l.pos < m.pos → l.line < m.line ∨ l.line = m.line ∧ l.col < m.col) := by
  refine ⟨?_, ?_⟩
  · intro l hl
    obtain ⟨before, hsource, hseam, hmarks⟩ := hl.standsIn
    refine ⟨?_, before, hsource, hmarks.pos, fun h => hseam h.1 h.2, hmarks.line, hmarks.col⟩
    rw [hmarks.pos]
    exact isValid_of_split hsource
  · intro l m hl hm
    refine ⟨fun h => ?_, hl.liesIn.before_of_pos hm.liesIn⟩
    rw [hl.liesIn.eq_of_pos hm.liesIn h]
    exact ⟨rfl, rfl⟩

/-- After an error, behind a line break of two characters. -/
theorem locations_coherent_after_error :
    let l := (Lexer.ofString "&\r\n;").nextToken.2
    l.Reached "&\r\n;" ∧ l.cursor.loc = ⟨1, 1, 2⟩ ∧
      String.Pos.Raw.IsValid "&\r\n;" ⟨1⟩ ∧
      ∃ t, l.nextToken.1 = .ok t ∧ l.cursor.loc.pos < t.span.start.pos ∧
        t.span.start = ⟨3, 2, 1⟩ ∧ t.span.stop = ⟨4, 2, 2⟩ ∧
        (t.span.start.line < t.span.stop.line ∨
          t.span.start.line = t.span.stop.line ∧ t.span.start.col < t.span.stop.col) := by
  intro l
  have hl : l.Reached "&\r\n;" := .nextToken .start
  have hloc : l.cursor.loc = ⟨1, 1, 2⟩ := by with_unfolding_all rfl
  have hnext : l.nextToken.1 = .ok ⟨.symbol .semicolon, ⟨3, 2, 1⟩, ⟨4, 2, 2⟩⟩ := by
    with_unfolding_all rfl
  have hspan := Span.GivenFor.token hl (.inl hnext)
  have hvalid := ((locations_coherent _).1 l hl).1
  rw [hloc] at hvalid ⊢
  refine ⟨hl, rfl, hvalid, _, hnext, by decide, rfl, rfl, ?_⟩
  exact ((locations_coherent _).2 _ _ ⟨_, hspan, .inl rfl⟩ ⟨_, hspan, .inr rfl⟩).2 (by decide)

end RuleScript
