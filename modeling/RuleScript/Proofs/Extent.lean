import RuleScript.Token
import RuleScript.Proofs.Production

/-!
# The tokens of a node

A node of a tree was read from some tokens in a row. What is said of these is that the span
of the node reaches from the first of them to the last, and that they are its pieces: tokens
of its own and the tokens of its children, with nothing between them.

* `cover`: the span of tokens in a row; `cover_join` says that a union of two spans is the
  span of all that lies between.
* `Spread`: the tokens of several nodes, in order, with others around them.
* `Filled`: the tokens of several pieces, and no others.
* `Node.ReadFrom`: the tokens of a node and, inside them, those of all nodes inside it. What
  else is known of a node and its tokens is left open.
-/

namespace RuleScript

/-! ### Tokens in a row -/

/-- The stretch from the first token up to the end of the last. -/
def cover (ts : List Token) : Span where
  start := (ts.head?.map (·.span.start)).getD default
  stop := (ts.getLast?.map (·.span.stop)).getD default

/-- Tokens **in a row**: none is empty, and each ends before the next one begins. -/
structure InRow (ts : List Token) : Prop where
  ordered : ts.Pairwise fun t u => t.span.stop.pos ≤ u.span.start.pos
  proper : ∀ t ∈ ts, t.span.start.pos < t.span.stop.pos

/-- Of tokens in a row, **some** stand in a row. -/
theorem InRow.sublist {ts us : List Token} (h : InRow ts) (hus : us.Sublist ts) : InRow us :=
  ⟨h.ordered.sublist hus, fun t ht => h.proper t (hus.subset ht)⟩

theorem InRow.left {ts us : List Token} (h : InRow (ts ++ us)) : InRow ts :=
  h.sublist (List.sublist_append_left ts us)

theorem InRow.right {ts us : List Token} (h : InRow (ts ++ us)) : InRow us :=
  h.sublist (List.sublist_append_right ts us)

theorem InRow.tail {t : Token} {ts : List Token} (h : InRow (t :: ts)) : InRow ts :=
  h.sublist (List.sublist_cons_self t ts)

@[simp]
theorem cover_singleton (t : Token) : cover [t] = t.span := rfl

/-- Tokens in a row reach up to the end of **the last one**. -/
theorem cover_stop_of_concat (ts : List Token) (t : Token) :
    (cover (ts ++ [t])).stop = t.span.stop := by
  rw [cover, List.getLast?_concat]
  rfl

/-- A **union** of the spans of two parts of a row is the span of the row from the first to
the second. -/
theorem cover_join {ts us : List Token} (mid : List Token) (h : InRow (ts ++ (mid ++ us)))
    (hts : ts ≠ []) (hus : us ≠ []) : (cover ts).union (cover us) = cover (ts ++ (mid ++ us)) := by
  obtain ⟨hordered, hproper⟩ := h
  have hbefore := (List.pairwise_append.1 hordered).2.2
  obtain ⟨t, ts', rfl⟩ := List.exists_cons_of_ne_nil hts
  obtain ⟨us', u, rfl⟩ : ∃ us' u, us = us' ++ [u] :=
    ⟨_, _, (List.dropLast_concat_getLast hus).symm⟩
  -- the first begins before the second, and ends before it
  have hstart : ∀ v ∈ (us' ++ [u]).head?, t.span.start.pos ≤ v.span.start.pos := by
    intro v hv
    have hv := List.mem_append_right mid (List.mem_of_mem_head? hv)
    have := hbefore t List.mem_cons_self v hv
    have := hproper t (by simp)
    omega
  have hstop : ∀ v ∈ (t :: ts').getLast?, v.span.stop.pos < u.span.stop.pos := by
    intro v hv
    have := hbefore v (List.mem_of_mem_getLast? hv) u (by simp)
    have := hproper u (by simp)
    omega
  obtain ⟨w, hw⟩ : ∃ w, (us' ++ [u]).head? = some w := by cases us' <;> exact ⟨_, rfl⟩
  obtain ⟨z, hz⟩ : ∃ z, (t :: ts').getLast? = some z := ⟨_, List.getLast?_cons⟩
  have hfirst : ¬(cover (us' ++ [u])).start.pos < (cover (t :: ts')).start.pos := by
    rw [cover, hw]
    exact Nat.not_lt.2 (hstart w hw)
  have hlast : (cover (t :: ts')).stop.pos < (cover (us' ++ [u])).stop.pos := by
    rw [cover_stop_of_concat, cover, hz]
    exact hstop z hz
  have hwhole : (cover (t :: ts' ++ (mid ++ (us' ++ [u])))).stop = u.span.stop := by
    rw [← List.append_assoc mid, ← List.append_assoc (t :: ts'), cover_stop_of_concat]
  rw [Span.union, if_neg hfirst, if_pos hlast, cover_stop_of_concat, ← hwhole]
  rfl

/-- The span of a **block** reaches from brace to brace, and is joined to what stands before
it. -/
theorem cover_block {ts body : List Token} {opening closing : Token} (mid : List Token)
    (h : InRow (ts ++ (mid ++ opening :: (body ++ [closing])))) (hts : ts ≠ []) :
    (cover ts).union (opening.span.union closing.span) =
      cover (ts ++ (mid ++ opening :: (body ++ [closing]))) := by
  have hblock : opening.span.union closing.span = cover (opening :: (body ++ [closing])) :=
    cover_join body h.right.right (List.cons_ne_nil opening []) (List.cons_ne_nil closing [])
  rw [hblock]
  exact cover_join mid h hts (List.cons_ne_nil _ _)

/-! ### Tokens of several nodes -/

variable {P : Node → List Token → Prop}

/-- Nodes have their tokens in a row of tokens: **in order**, with other tokens before,
between and after them. -/
inductive Spread (P : Node → List Token → Prop) : List Node → List Token → Prop
  | nil (ts : List Token) : Spread P [] ts
  | cons {n : Node} {ns : List Node} {ts rest : List Token} (others : List Token) (hn : P n ts)
    (hns : Spread P ns rest) : Spread P (n :: ns) (others ++ (ts ++ rest))

namespace Spread

variable {ns ms : List Node} {ts us : List Token}

/-- A node has **its own tokens**. -/
theorem one {n : Node} (h : P n ts) : Spread P [n] ts := by
  have := Spread.cons [] h (.nil [])
  rwa [List.append_nil, List.nil_append] at this

/-- Other tokens may stand **in front**. -/
theorem behind (h : Spread P ns ts) (us : List Token) : Spread P ns (us ++ ts) := by
  cases h with
  | nil => exact .nil _
  | cons others hn hns =>
    rw [← List.append_assoc]
    exact .cons _ hn hns

/-- The tokens of some nodes, and behind them those of others, are **those of all**. -/
theorem append (h : Spread P ns ts) (h' : Spread P ms us) : Spread P (ns ++ ms) (ts ++ us) := by
  induction h with
  | nil => exact h'.behind _
  | cons others hn _ ih =>
    rw [List.append_assoc, List.append_assoc]
    exact .cons others hn ih

/-- Each of the nodes has **tokens in a row** among them. -/
theorem of_mem (h : Spread P ns ts) {n : Node} (hn : n ∈ ns) :
    ∃ before us after, ts = before ++ (us ++ after) ∧ P n us := by
  induction h with
  | nil => cases hn
  | @cons m ns us rest others hm _ ih =>
    cases hn with
    | head => exact ⟨others, us, rest, rfl, hm⟩
    | tail _ hn =>
      obtain ⟨before, vs, after, rfl, hvs⟩ := ih hn
      refine ⟨others ++ (us ++ before), vs, after, ?_, hvs⟩
      simp only [List.append_assoc]

end Spread

/-- Pieces have tokens that **make up** a row, with no others. -/
inductive Filled (P : Node → List Token → Prop) : List Piece → List Token → Prop
  | nil : Filled P [] []
  | token {k : TokenKind} {t : Token} {ps : List Piece} {ts : List Token} (hk : t.kind = k)
    (h : Filled P ps ts) : Filled P (.token k :: ps) (t :: ts)
  | node {n : Node} {ps : List Piece} {ts rest : List Token} (hn : P n ts) (h : Filled P ps rest) :
    Filled P (.node n :: ps) (ts ++ rest)

namespace Filled

variable {ps qs : List Piece} {ts us : List Token}

theorem own {k : TokenKind} {t : Token} (hk : t.kind = k) : Filled P [.token k] [t] :=
  .token hk .nil

/-- A piece that is a node has **its tokens**. -/
theorem one {n : Node} (h : P n ts) : Filled P [.node n] ts := by
  have := Filled.node h .nil
  rwa [List.append_nil] at this

theorem append (h : Filled P ps ts) (h' : Filled P qs us) : Filled P (ps ++ qs) (ts ++ us) := by
  induction h with
  | nil => exact h'
  | token hk _ ih => exact .token hk ih
  | node hn _ ih =>
    rw [List.append_assoc]
    exact .node hn ih

/-- The nodes among pieces have their tokens in order. -/
theorem spread (h : Filled P ps ts) : Spread P (Piece.nodes ps) ts := by
  induction h with
  | nil => exact .nil []
  | @token k t ps ts _ _ ih => exact ih.behind [t]
  | node hn _ ih => exact .cons [] hn ih

/-- The last of several nodes side by side has the last tokens. -/
theorem last {ns : List Node} (h : Filled P (Piece.row ns) ts) {n : Node}
    (hn : ns.getLast? = some n) : ∃ before us, ts = before ++ us ∧ P n us := by
  induction ns generalizing ts with
  | nil => cases hn
  | cons m ns ih =>
    obtain _ | _ | ⟨hm, hns⟩ := h
    next us rest =>
    by_cases hlast : ns = []
    · subst hlast
      cases hn
      cases hns
      exact ⟨[], us, by simp, hm⟩
    · obtain ⟨k, ks, rfl⟩ := List.exists_cons_of_ne_nil hlast
      rw [List.getLast?_cons_cons] at hn
      obtain ⟨before, vs, rfl, hP⟩ := ih hns hn
      exact ⟨us ++ before, vs, by rw [List.append_assoc], hP⟩

end Filled

/-! ### Tokens of a node -/

/-- A node was **read from** tokens: there are some, the span of the node covers them, and
they make up its pieces, its children being read from their own. -/
inductive Node.ReadFrom (P : Node → List Token → Prop) : Node → List Token → Prop
  | mk {n : Node} {ps : List Piece} {ts : List Token} (ne_nil : ts ≠ []) (span : n.span = cover ts)
    (fits : P n ts) (production : n.Production ps) (pieces : Filled (ReadFrom P) ps ts) :
    ReadFrom P n ts

namespace Node.ReadFrom

variable {n m : Node} {ts : List Token}

/-- A node has **a token**, at least. -/
theorem ne_nil (h : ReadFrom P n ts) : ts ≠ [] := by
  obtain ⟨hne, -, -, -, -⟩ := h
  exact hne

/-- The span of a node reaches from **its first token to its last**. -/
theorem span (h : ReadFrom P n ts) : n.span = cover ts := by
  obtain ⟨-, hspan, -, -, -⟩ := h
  exact hspan

/-- What is known of a node and its tokens **holds of them**. -/
theorem fits (h : ReadFrom P n ts) : P n ts := by
  obtain ⟨-, -, hfits, -, -⟩ := h
  exact hfits

/-- The tokens of a node are those of **its pieces**, and no others. -/
theorem pieces (h : ReadFrom P n ts) : ∃ ps, n.Production ps ∧ Filled (ReadFrom P) ps ts := by
  obtain ⟨-, -, -, hproduction, hpieces⟩ := h
  exact ⟨_, hproduction, hpieces⟩

/-- The children of a node were read from some of its tokens, in order. -/
theorem children (h : ReadFrom P n ts) : Spread (ReadFrom P) n.children ts := by
  obtain ⟨ps, hproduction, hpieces⟩ := h.pieces
  rw [← hproduction.children]
  exact hpieces.spread

/-- **Every node** inside a node was read from some of its tokens. -/
theorem contains (h : ReadFrom P n ts) (hm : n.Contains m) :
    ∃ before us after, ts = before ++ (us ++ after) ∧ ReadFrom P m us := by
  induction hm generalizing ts with
  | self => exact ⟨[], ts, [], by simp, h⟩
  | child hc _ ih =>
    obtain ⟨before, us, after, rfl, hc⟩ := h.children.of_mem hc
    obtain ⟨before', vs, after', rfl, hm⟩ := ih hc
    exact ⟨before ++ before', vs, after' ++ after, by simp only [List.append_assoc], hm⟩

end Node.ReadFrom

end RuleScript
