import RuleScript.Proofs.Coverage
import RuleScript.Proofs.Greed

/-!
# The text of a node is read as that node

A node that is cut out of its source and read by itself comes out as it was. This takes
three things: its span covers its tokens and no others (`Node.ReadFrom`); the text of these
tokens is read as them, though what stood around it is gone (`stream_slice`); and from them
the parser makes the same node. For an expression the last is due to the grammar, since
tokens have one grouped derivation wherever they stand; for a rule or an at-rule to the
parser, which looks no further than its last token.

* `exists_tokens_of_has`: the tokens of a node anywhere in a program.
* `readExpression_of_shows` and `parse_of_read`: what is read from them.
* `slices_reparse`: all nodes of a program.
-/

namespace RuleScript

variable {source text : String} {ts : List Token}

/-- Any node of a program was read from some tokens of its source, and these are the tokens
of **its text**. -/
theorem exists_tokens_of_has {p : Program} {n : Node} (h : parse source = .ok p) (hn : p.Has n) :
    ∃ ts, Node.Read n ts ∧ (TokenStream.mk ts (.ok default)).seen .blind =
      (Cursor.ofString (n.span.slice source)).stream.seen .blind := by
  obtain ⟨all, span, hall, -, -, hhas⟩ := tokens_of_parse h
  obtain ⟨before, ts, after, hts, hread⟩ := hhas n hn
  have htokens : (Cursor.ofString source).stream.tokens = before ++ (ts ++ after) := by
    rw [hall, hts]
  refine ⟨ts, hread, ?_⟩
  rw [hread.span]
  exact (stream_slice htokens hread.ne_nil).symm

/-! ### Expressions -/

/-- The tokens of a grouped phrase, with nothing after them, are read as **its tree**. -/
theorem Parser.binary_of_shows (d : Nat) {q : Phrase} (hq : q.Grouped) {x : TokenStream}
    (hx : x.Shows q.kinds) :
    Ends False (binary d 0) x fun e x' => e.seen .blind = q.tree ∧ x'.Shows [] := by
  have hwhole : Ends False (binary d 0) x fun _ x' => x'.Shows [] :=
    (expressionGreedy d).whole ⟨rfl, rfl⟩ (by rwa [List.append_nil])
  rw [Ends]
  rcases hrun : (binary d 0).run x with ⟨e | e | _, x'⟩
  · obtain ⟨used, htokens, -, ⟨p, -, -, -, htree, hunique⟩, -⟩ := readsGrouped_of_binary hrun
    have hleft := hwhole.of_done hrun
    -- nothing is left, so that all tokens were taken
    obtain rfl : x.tokens = used := by
      rw [htokens, List.map_eq_nil_iff.1 hleft.kinds, List.append_nil]
    obtain rfl := hunique q hx.kinds.symm hq
    exact ⟨htree, hleft⟩
  · exact hwhole.of_failed hrun
  · trivial

/-- The same of a **source**: nothing but the end is left of it. -/
theorem Parser.readExpression_of_shows {q : Phrase} (hq : q.Grouped)
    (h : (Cursor.ofString text).stream.Shows q.kinds) :
    ∃ e s t s', readExpression (Lookahead.ofString text) = (.ok e, s) ∧
      e.seen .blind = q.tree ∧ s.peek = (.ok t, s') ∧ t.kind = .eof := by
  have hends := (expressionProgress (ampleDepth (Lookahead.ofString text))).binary
    (Lookahead.ofString text) 0 (by unfold ampleDepth; omega)
  have hsame := (Pairing.expressionSame (p := Lookahead.onDemand)
    (.refl _ (ampleDepth (Lookahead.ofString text)))).binary 0
    ⟨Lookahead.steady_ofString text, rfl⟩
  have hread := binary_of_shows (ampleDepth (Lookahead.ofString text)) hq h
  rcases hs : (binary (ampleDepth (Lookahead.ofString text)) 0).run (Lookahead.ofString text)
    with ⟨out, s⟩
  rcases hx : (binary (ampleDepth (Lookahead.ofString text)) 0).run (Cursor.ofString text).stream
    with ⟨out', x⟩
  rw [hs, show (Lookahead.ofString text).stream = (Cursor.ofString text).stream from rfl,
    hx] at hsame
  cases hsame with
  | done result state =>
    obtain ⟨htree, hleft⟩ := hread.of_done hx
    obtain ⟨hsteady, rfl⟩ := state
    obtain ⟨t, ht, hkind⟩ := hleft.shown
    obtain ⟨u, s', hpeek, hshown, -⟩ | ⟨e, s', -, hshown⟩ := Lookahead.peek_stream hsteady
    · obtain rfl := Except.ok.inj (ht.symm.trans hshown)
      exact ⟨_, s, t, s', Process.settle_of_done hs _, result.trans htree, hpeek, hkind⟩
    · cases ht.symm.trans hshown
  | failed error => exact (hread.of_failed hx).elim
  | exhausted state => exact absurd hs (hends.not_exhausted s)
  | behind hahead => exact hahead.elim

theorem TokenStream.shows_of_seen {x : TokenStream} {ks : List TokenKind}
    (hks : ks = ts.map Token.kind)
    (h : (TokenStream.mk ts (.ok default)).seen .blind = x.seen .blind) : x.Shows ks := by
  have hkinds : ∀ us : List Token, (us.map (Token.seen .blind)).map Token.kind =
      us.map Token.kind := by
    intro us
    rw [List.map_map]
    rfl
  obtain ⟨tokens, ending⟩ := x
  obtain ⟨htokens, hending⟩ := TokenStream.mk.inj h
  refine ⟨?_, ?_⟩
  · rw [hks, ← hkinds tokens, ← htokens, hkinds]
  · cases ending with
    | ok span => exact ⟨span, rfl⟩
    | error e => cases hending

/-! ### Items -/

/-- A text with the tokens that an item was read from is read as a program of **that item
only**. -/
theorem parse_of_read {i : Item} (hi : Node.Read (.ofItem i) ts)
    (h : (TokenStream.mk ts (.ok default)).seen .blind =
      (Cursor.ofString text).stream.seen .blind) :
    ∃ i', parse text = .ok ⟨[i']⟩ ∧ i'.seen .blind = i.seen .blind := by
  have hend : ((Parser.items 1).run (TokenStream.mk [] (.ok default))).1 = .done [] := rfl
  obtain ⟨D, hD⟩ := (Listed.item hi .nil).items_run (by rw [hend]; simp)
  have hrun : ((Parser.items D).run (TokenStream.mk ts (.ok default))).1 = .done [i] := by
    rwa [hend, TokenStream.prepend, List.append_nil, List.append_nil] at hD
  obtain ⟨is, p, hdone, hp, hseen⟩ | ⟨e, e', hfailed, -⟩ :=
    parse_of_stream (d := D) h (by rw [hrun]; simp)
  · cases hdone.symm.trans hrun
    obtain ⟨items⟩ := p
    obtain ⟨i', rest, rfl, hi', hrest⟩ := List.map_eq_cons_iff.1 (Program.mk.inj hseen)
    obtain rfl := List.map_eq_nil_iff.1 hrest
    exact ⟨i', hp, hi'⟩
  · cases hfailed.symm.trans hrun

/-! ### All nodes -/

/-- **Every node is read again from its own text**, up to spans. From the text of an
expression that expression is read, and nothing is left but the end; the text of a rule or an
at-rule, on the top level or inside others, is a program of just that item. -/
theorem slices_reparse (source : String) (p : Program) (h : parse source = .ok p) :
    (∀ e, p.Has (.expr e) → ∃ e' s t s',
      Parser.readExpression (Lookahead.ofString (e.span.slice source)) = (.ok e', s) ∧
      e'.seen .blind = e.seen .blind ∧ s.peek = (.ok t, s') ∧ t.kind = .eof) ∧
    (∀ r, p.Has (.rule r) → ∃ r', parse (r.span.slice source) = .ok ⟨[.rule r']⟩ ∧
      r'.seen .blind = r.seen .blind) ∧
    ∀ a, p.Has (.atRule a) → ∃ a', parse (a.span.slice source) = .ok ⟨[.atRule a']⟩ ∧
      a'.seen .blind = a.seen .blind := by
  refine ⟨fun e he => ?_, fun r hr => ?_, fun a ha => ?_⟩
  · obtain ⟨ts, hread, htext⟩ := exists_tokens_of_has h he
    obtain ⟨q, hkinds, hq⟩ := hread.fits
    rw [hq.tree]
    exact Parser.readExpression_of_shows hq.grouped (TokenStream.shows_of_seen hkinds htext)
  · obtain ⟨ts, hread, htext⟩ := exists_tokens_of_has h hr
    obtain ⟨i, hi, hseen⟩ := parse_of_read (i := .rule r) hread htext
    cases i with
    | rule r' => exact ⟨r', hi, Item.rule.inj hseen⟩
    | atRule a => cases hseen
  · obtain ⟨ts, hread, htext⟩ := exists_tokens_of_has h ha
    obtain ⟨i, hi, hseen⟩ := parse_of_read (i := .atRule a) hread htext
    cases i with
    | rule r => cases hseen
    | atRule a' => exact ⟨a', hi, Item.atRule.inj hseen⟩

/-- An operand in brackets, and a rule inside another one. -/
theorem slices_reparse_nested :
    let source := "a \x7bc\x7b\x7db:(1-2)*3;\x7d"
    ∃ p e r e' s r', parse source = .ok p ∧ p.Has (.expr e) ∧ p.Has (.rule r) ∧
      e.span.slice source = "(1-2)" ∧ r.span.slice source = "c\x7b\x7d" ∧
      Parser.readExpression (Lookahead.ofString "(1-2)") = (.ok e', s) ∧
      e'.seen .blind = e.seen .blind ∧ parse "c\x7b\x7d" = .ok ⟨[.rule r']⟩ ∧
      r'.seen .blind = r.seen .blind := by
  let span (start stop : Nat) : Span := ⟨⟨start, 1, start + 1⟩, ⟨stop, 1, stop + 1⟩⟩
  let e : Expr := .binary .sub (.literal (.int 1) (span 9 10)) (.literal (.int 2) (span 11 12))
    (span 8 13)
  let d : Declaration := ⟨⟨"b", span 6 7⟩,
    [.binary .mul e (.literal (.int 3) (span 14 15)) (span 8 15)], span 6 16⟩
  let r : Rule := ⟨⟨⟨"c", span 3 4⟩, [], span 3 4⟩, [], span 3 6⟩
  let p : Program :=
    ⟨[.rule ⟨⟨⟨"a", span 0 1⟩, [], span 0 1⟩, [.rule r, .declaration d], span 0 17⟩]⟩
  have hparse : parse "a \x7bc\x7b\x7db:(1-2)*3;\x7d" = .ok p :=
    parse_of_tokens [.inLine (.name "a") 0 1, .inLine (.symbol .openBrace) 2 3,
      .inLine (.name "c") 3 4, .inLine (.symbol .openBrace) 4 5, .inLine (.symbol .closeBrace) 5 6,
      .inLine (.name "b") 6 7, .inLine (.symbol .colon) 7 8, .inLine (.symbol .openParen) 8 9,
      .inLine (.int 1) 9 10, .inLine (.symbol .minus) 10 11, .inLine (.int 2) 11 12,
      .inLine (.symbol .closeParen) 12 13, .inLine (.symbol .star) 13 14, .inLine (.int 3) 14 15,
      .inLine (.symbol .semicolon) 15 16, .inLine (.symbol .closeBrace) 16 17] (.inLine 17 17)
      (by with_unfolding_all rfl) (by with_unfolding_all rfl)
  have hexpr : p.Has (.expr e) :=
    ⟨_, .head _, .child (.tail _ (.tail _ (.head _))) (.child (.tail _ (.head _))
      (.child (.head _) (.self _)))⟩
  have hrule : p.Has (.rule r) := ⟨_, .head _, .child (.tail _ (.head _)) (.self _)⟩
  obtain ⟨hexprs, hrules, -⟩ := slices_reparse _ _ hparse
  obtain ⟨e', s, -, -, he', hseen, -⟩ := hexprs e hexpr
  obtain ⟨r', hr', hseen'⟩ := hrules r hrule
  exact ⟨p, e, r, e', s, r', hparse, hexpr, hrule, rfl, rfl, he', hseen, hr', hseen'⟩

end RuleScript
