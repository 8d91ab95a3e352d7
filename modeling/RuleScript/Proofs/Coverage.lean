import RuleScript.Proofs.Concatenation

/-!
# Spans nest

The span of a node reaches from the first token that was read for it to the last, brackets
around it included. Since tokens stand in a row and the tokens of a node are made up of those
of its children and some of its own, spans nest: a child lies within its parent, and of two
children the first is over where the second begins.

* `InRow.within_cover` and `InRow.cover_before`: spans of tokens in a row.
* `Node.ReadFrom.within` and `Spread.ordered`: spans of nodes that were read from tokens in a
  row.
* `spans_nest`: all nodes of a program.
-/

namespace RuleScript

/-- One span lies **within** another. -/
def Span.Within (s t : Span) : Prop := t.start.pos ≤ s.start.pos ∧ s.stop.pos ≤ t.stop.pos

/-- One span is over **before** another begins. -/
def Span.Before (s t : Span) : Prop := s.stop.pos ≤ t.start.pos

/-! ### Tokens in a row -/

section Tokens

variable {ts us vs : List Token}

/-- The stretch of some tokens is that from the first of them to the last. -/
theorem cover_eq (h : ts ≠ []) : ∃ first last, ts.head? = some first ∧ ts.getLast? = some last ∧
    cover ts = ⟨first.span.start, last.span.stop⟩ := by
  obtain ⟨t, ts, rfl⟩ := List.exists_cons_of_ne_nil h
  refine ⟨t, (t :: ts).getLast h, rfl, List.getLast?_eq_some_getLast h, ?_⟩
  rw [cover, List.getLast?_eq_some_getLast h]
  rfl

theorem InRow.cover_before (h : InRow (us ++ vs)) (hus : us ≠ []) (hvs : vs ≠ []) :
    (cover us).Before (cover vs) := by
  obtain ⟨_, u, -, hu, hcover⟩ := cover_eq hus
  obtain ⟨v, _, hv, -, hcover'⟩ := cover_eq hvs
  rw [hcover, hcover']
  exact (List.pairwise_append.1 h.ordered).2.2 u (List.mem_of_mem_getLast? hu) v
    (List.mem_of_mem_head? hv)

theorem InRow.cover_proper (h : InRow ts) (hts : ts ≠ []) :
    (cover ts).start.pos < (cover ts).stop.pos := by
  obtain ⟨first, last, hfirst, hlast, hcover⟩ := cover_eq hts
  obtain ⟨_, ts, rfl⟩ := List.exists_cons_of_ne_nil hts
  cases hfirst
  rw [hcover]
  have hproper := h.proper first List.mem_cons_self
  -- the last token is the first one, or it stands behind it
  obtain rfl | hmem := List.mem_cons.1 (List.mem_of_mem_getLast? hlast)
  · exact hproper
  · have hbehind := (List.pairwise_cons.1 h.ordered).1 last hmem
    have hproper' := h.proper last (List.mem_cons_of_mem first hmem)
    dsimp only
    omega

/-- Some tokens of a row lie **within** the row. -/
theorem InRow.within_cover (h : InRow ts) {before after : List Token}
    (hts : ts = before ++ (us ++ after)) (hus : us ≠ []) : (cover us).Within (cover ts) := by
  subst hts
  refine ⟨?_, ?_⟩
  · by_cases hbefore : before = []
    · subst hbefore
      obtain ⟨u, us, rfl⟩ := List.exists_cons_of_ne_nil hus
      exact Nat.le_refl _
    · have hfront := h.cover_before hbefore (by simp [hus])
      have hproper := h.left.cover_proper hbefore
      obtain ⟨b, bs, rfl⟩ := List.exists_cons_of_ne_nil hbefore
      obtain ⟨u, us, rfl⟩ := List.exists_cons_of_ne_nil hus
      exact Nat.le_of_lt (Nat.lt_of_lt_of_le hproper hfront)
  · by_cases hafter : after = []
    · subst hafter
      rw [List.append_nil, ← List.dropLast_concat_getLast hus, ← List.append_assoc,
        cover_stop_of_concat, cover_stop_of_concat]
    · have hrest := h.right.cover_before hus hafter
      have hproper := h.right.right.cover_proper hafter
      have hstop : (cover (before ++ (us ++ after))).stop = (cover after).stop := by
        rw [← List.dropLast_concat_getLast hafter, ← List.append_assoc, ← List.append_assoc,
          cover_stop_of_concat, cover_stop_of_concat]
      rw [hstop]
      exact Nat.le_trans hrest (Nat.le_of_lt hproper)

end Tokens

/-! ### Nodes -/

section Nodes

variable {P : Node → List Token → Prop} {n : Node} {ns : List Node} {ts : List Token}

/-- Nodes with their tokens in a row are **in order**. -/
theorem Spread.ordered (h : Spread (Node.ReadFrom P) ns ts) (hrow : InRow ts) :
    ns.Pairwise fun a b => a.span.Before b.span := by
  induction h with
  | nil => exact .nil
  | @cons n ns ts rest others hn hns ih =>
    refine .cons (fun m hm => ?_) (ih hrow.right.right)
    obtain ⟨before, us, after, rfl, hm⟩ := hns.of_mem hm
    have hapart : InRow (ts ++ us) := by
      refine hrow.right.sublist (.append (.refl _) ?_)
      exact (List.sublist_append_left us after).trans (List.sublist_append_right before _)
    rw [hn.span, hm.span]
    exact hapart.cover_before hn.ne_nil hm.ne_nil

namespace Node.ReadFrom

/-- The children of a node lie **within** it. -/
theorem within (h : ReadFrom P n ts) (hrow : InRow ts) :
    ∀ c ∈ n.children, c.span.Within n.span := by
  intro c hc
  obtain ⟨before, us, after, hus, hread⟩ := h.children.of_mem hc
  rw [h.span, hread.span]
  exact hrow.within_cover hus hread.ne_nil

/-- A name has **one token**, and its span. -/
theorem name {m : Name} (h : ReadFrom P (.name m) ts) :
    ∃ t, ts = [t] ∧ t.kind = .name m.text ∧ m.span = t.span := by
  obtain ⟨ps, ⟨⟩, hpieces⟩ := h.pieces
  obtain _ | @⟨_, t, _, _, hk, _ | _ | _⟩ | _ := hpieces
  exact ⟨t, rfl, hk, h.span⟩

end Node.ReadFrom

end Nodes

/-! ### Programs -/

/-- The tokens of a source that is a program, and among them those of **each node**. -/
theorem tokens_of_parse {source : String} {p : Program} (h : parse source = .ok p) :
    ∃ ts span, (Cursor.ofString source).stream = ⟨ts, .ok span⟩ ∧ InRow ts ∧ Listed p.items ts ∧
      ∀ n, p.Has n → ∃ before used after, ts = before ++ (used ++ after) ∧ Node.Read n used := by
  obtain ⟨ts, span, hstream, hlisted, -⟩ := listed_of_parse h
  have hrow := inRow_stream source
  rw [hstream] at hrow
  refine ⟨ts, span, hstream, hrow, hlisted, ?_⟩
  rintro n ⟨i, hi, hcontains⟩
  obtain ⟨before, us, after, rfl, hitem⟩ := hlisted.spread.of_mem (List.mem_map_of_mem hi)
  obtain ⟨before', used, after', rfl, hread⟩ := hitem.contains hcontains
  exact ⟨before ++ before', used, after' ++ after, by simp only [List.append_assoc], hread⟩

/-- **Spans cover the tokens of a node, and nest.** The tokens of a program are those of its
items, and semicolons. Each node has its tokens among them, and these make up its pieces: its
own tokens, brackets around it included, and the tokens of its children. The span of the node
begins where the first of its tokens begins and ends where the last one ends; a name that is
called, read, declared or defined has one token and its span. So no span is empty, children
lie within their parent, and siblings follow one after the other. -/
theorem spans_nest (source : String) (p : Program) (h : parse source = .ok p) :
    ∃ ts span, lex source = .ok (ts ++ [⟨.eof, span⟩]) ∧ Listed p.items ts ∧
      (p.items.map Node.ofItem).Pairwise (fun a b => a.span.Before b.span) ∧
      ∀ n, p.Has n → (∃ before used after first last, ts = before ++ (used ++ after) ∧
          Node.Read n used ∧ used.head? = some first ∧ used.getLast? = some last ∧
          n.span = ⟨first.span.start, last.span.stop⟩) ∧
        (∀ m, n = .name m → ∃ t ∈ ts, t.kind = .name m.text ∧ m.span = t.span) ∧
        n.span.start.pos < n.span.stop.pos ∧ (∀ c ∈ n.children, c.span.Within n.span) ∧
        n.children.Pairwise fun a b => a.span.Before b.span := by
  obtain ⟨ts, span, hstream, hrow, hlisted, hhas⟩ := tokens_of_parse h
  have hlex : lex source = .ok (ts ++ [⟨.eof, span⟩]) := by
    rw [lex_eq_stream, hstream]
    rfl
  refine ⟨ts, span, hlex, hlisted, hlisted.spread.ordered hrow, fun n hn => ?_⟩
  obtain ⟨before, used, after, rfl, hread⟩ := hhas n hn
  have hused : InRow used := hrow.right.left
  obtain ⟨first, last, hfirst, hlast, hcover⟩ := cover_eq hread.ne_nil
  refine ⟨⟨before, used, after, first, last, rfl, hread, hfirst, hlast, ?_⟩, ?_, ?_,
    hread.within hused, hread.children.ordered hused⟩
  · rw [hread.span, hcover]
  · rintro m rfl
    obtain ⟨t, rfl, hk, hspan⟩ := hread.name
    exact ⟨t, by simp, hk, hspan⟩
  · rw [hread.span]
    exact hused.cover_proper hread.ne_nil

/-- A call in brackets: its span includes them, and the name in it keeps its own. -/
theorem spans_nest_grouped :
    let source := "r \x7bp:(f(1))*2;\x7d"
    let span (start stop : Nat) : Span := ⟨⟨start, 1, start + 1⟩, ⟨stop, 1, stop + 1⟩⟩
    ∃ p e, parse source = .ok p ∧ p.Has (.expr e) ∧ e.span = span 5 11 ∧
      (Node.expr e).children.map Node.span = [span 6 7, span 8 9] ∧
      (∃ before used after first last ending,
        lex source = .ok (before ++ (used ++ after) ++ [ending]) ∧ Node.Read (.expr e) used ∧
        used.head? = some first ∧ used.getLast? = some last ∧
        e.span = ⟨first.span.start, last.span.stop⟩) ∧
      (∀ c ∈ (Node.expr e).children, c.span.Within e.span) ∧
      (Node.expr e).children.Pairwise fun a b => a.span.Before b.span := by
  intro source span
  let e : Expr := .call ⟨"f", span 6 7⟩ [.literal (.int 1) (span 8 9)] (span 5 11)
  let d : Declaration := ⟨⟨"p", span 3 4⟩,
    [.binary .mul e (.literal (.int 2) (span 12 13)) (span 5 13)], span 3 14⟩
  let p : Program := ⟨[.rule ⟨⟨⟨"r", span 0 1⟩, [], span 0 1⟩, [.declaration d], span 0 15⟩]⟩
  have hparse : parse "r \x7bp:(f(1))*2;\x7d" = .ok p :=
    parse_of_tokens [.inLine (.name "r") 0 1, .inLine (.symbol .openBrace) 2 3,
      .inLine (.name "p") 3 4, .inLine (.symbol .colon) 4 5, .inLine (.symbol .openParen) 5 6,
      .inLine (.name "f") 6 7, .inLine (.symbol .openParen) 7 8, .inLine (.int 1) 8 9,
      .inLine (.symbol .closeParen) 9 10, .inLine (.symbol .closeParen) 10 11,
      .inLine (.symbol .star) 11 12, .inLine (.int 2) 12 13, .inLine (.symbol .semicolon) 13 14,
      .inLine (.symbol .closeBrace) 14 15] (.inLine 15 15) (by with_unfolding_all rfl)
      (by with_unfolding_all rfl)
  have hexpr : p.Has (.expr e) :=
    ⟨_, .head _, .child (.tail _ (.head _)) (.child (.tail _ (.head _))
      (.child (.head _) (.self _)))⟩
  obtain ⟨ts, eof, hlex, -, -, hall⟩ := spans_nest _ _ hparse
  obtain ⟨⟨before, used, after, first, last, rfl, hread, hfirst, hlast, hspan⟩, -, -, hwithin,
    hordered⟩ := hall _ hexpr
  exact ⟨p, e, hparse, hexpr, rfl, rfl, ⟨before, used, after, first, last, _, hlex, hread, hfirst,
    hlast, hspan⟩, hwithin, hordered⟩

end RuleScript
