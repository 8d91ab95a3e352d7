import RuleScript.Proofs.Phrase

/-!
# Tokens are grouped in one way

Among all derivations of a sequence of tokens at most one is grouped. More than that:
two grouped phrases that bind as tightly as some level, and are followed by tokens that
do not go on at that level, are the same phrase as soon as the tokens agree.

A phrase is taken apart along its **left edge**: the operand it begins with, and the
links, each an operator with its right operand, that are attached to it one after the
other. Phrases are compared operand by operand and link by link; what is inside
brackets, and the right operands, are shorter phrases.

* `Phrase.attach_links`: a phrase is its first operand with its links attached.
* `Phrase.unique`: grouped phrases with the same tokens are the same.
-/

namespace RuleScript

namespace Phrase

/-! ### The left edge -/

/-- An operator with its right operand. -/
abbrev Link : Type := BinaryOp × Phrase

/-- The operand that a phrase begins with. -/
def first : Phrase → Phrase
  | .binary _ left _ => left.first
  | p => p

/-- The links that are attached to the first operand. -/
def links : Phrase → List Link
  | .binary op left right => left.links ++ [(op, right)]
  | _ => []

/-- Attaches links to an operand, one after the other. -/
def attach (p : Phrase) (ls : List Link) : Phrase :=
  ls.foldl (fun left l => .binary l.1 left l.2) p

/-- The tokens of links. -/
def linkKinds (ls : List Link) : List TokenKind :=
  ls.flatMap fun l => .symbol l.1.symbol :: l.2.kinds

@[simp]
theorem linkKinds_nil : linkKinds [] = [] := rfl

@[simp]
theorem linkKinds_cons (l : Link) (ls : List Link) :
    linkKinds (l :: ls) = .symbol l.1.symbol :: (l.2.kinds ++ linkKinds ls) := by
  simp [linkKinds]

/-- A phrase is its first operand with its links **attached**. -/
theorem attach_links (p : Phrase) : p.first.attach p.links = p := by
  match p with
  | .binary op left right =>
    have := left.attach_links
    rw [attach] at this
    rw [first, links, attach, List.foldl_append, this]
    rfl
  | .literal _ | .bare _ | .deref _ | .call .. | .group _ | .unary .. => rfl

/-- A phrase is written as **its first operand** and the links behind it. -/
theorem kinds_links (p : Phrase) : p.kinds = p.first.kinds ++ linkKinds p.links := by
  match p with
  | .binary op left right =>
    rw [kinds, left.kinds_links, first, links, linkKinds, linkKinds, List.flatMap_append,
      List.append_assoc]
    simp
  | .literal _ | .bare _ | .deref _ | .call .. | .group _ | .unary .. => simp [first, links]

/-- The first operand has **no operator outside** of it. -/
theorem outer_first (p : Phrase) : p.first.outer? = none := by
  match p with
  | .binary op left right => exact left.outer_first
  | .literal _ | .bare _ | .deref _ | .call .. | .group _ | .unary .. => rfl

/-! ### Grouped phrases along the left edge -/

/-- Links that may be attached, one after the other, to what binds so tightly. -/
def Linked : Nat → List Link → Prop
  | _, [] => True
  | rank, (op, right) :: ls =>
    op.leftLevel ≤ rank ∧ op.rightLevel ≤ right.rank ∧ right.Grouped ∧ Linked op.level ls

/-- How tightly binds what has links attached to it. -/
def rankAfter (rank : Nat) : List Link → Nat
  | [] => rank
  | (op, _) :: ls => rankAfter op.level ls

/-- The **last link** is grouped with all that stands before it. -/
theorem linked_append (rank : Nat) (ls : List Link) (l : Link) :
    Linked rank (ls ++ [l]) ↔
      Linked rank ls ∧ l.1.leftLevel ≤ rankAfter rank ls ∧ l.1.rightLevel ≤ l.2.rank ∧
        l.2.Grouped := by
  induction ls generalizing rank with
  | nil => simp [Linked, rankAfter]
  | cons m ls ih => simp [Linked, rankAfter, ih, and_assoc]

theorem rankAfter_append (rank : Nat) (ls : List Link) (l : Link) :
    rankAfter rank (ls ++ [l]) = l.1.level := by
  induction ls generalizing rank with
  | nil => rfl
  | cons m ls ih => exact ih m.1.level

/-- Behind all its links a phrase has **the rank of its own**. -/
theorem rankAfter_links (p : Phrase) : rankAfter 8 p.links = p.rank := by
  cases p with
  | binary op left right => exact rankAfter_append 8 left.links (op, right)
  | _ => rfl

/-- A grouped phrase is **grouped along its left edge**. -/
theorem Grouped.edge {p : Phrase} (h : p.Grouped) : p.first.Grouped ∧ Linked 8 p.links := by
  match p with
  | .binary op left right =>
    obtain ⟨hl, hr, hleft, hright⟩ := grouped_binary_iff.1 h
    obtain ⟨hfirst, hlinks⟩ := hleft.edge
    refine ⟨hfirst, (linked_append 8 left.links (op, right)).2 ⟨hlinks, ?_, hr, hright⟩⟩
    rwa [rankAfter_links]
  | .literal _ | .bare _ | .deref _ | .call .. | .group _ | .unary .. => exact ⟨h, trivial⟩

/-- No link is looser than the phrase as a whole. -/
theorem Grouped.rank_le {p : Phrase} (h : p.Grouped) : ∀ l ∈ p.links, p.rank ≤ l.1.level := by
  match p with
  | .binary op left right =>
    obtain ⟨hl, -, hleft, -⟩ := grouped_binary_iff.1 h
    intro l hmem
    rcases List.mem_append.1 hmem with hmem | hmem
    · calc op.level ≤ op.leftLevel := op.level_le_leftLevel
        _ ≤ left.rank := hl
        _ ≤ l.1.level := hleft.rank_le l hmem
    · rw [List.mem_singleton.1 hmem]
      exact Nat.le_refl _
  | .literal _ | .bare _ | .deref _ | .call .. | .group _ | .unary .. => exact nofun

/-! ### Where a phrase ends -/

/-- Tokens that do not **go on** at a level: neither with an operator of that level or a
higher one, nor with an opening bracket, which would make a call of a name before it. -/
def Stops (n : Nat) (ks : List TokenKind) : Prop :=
  ∀ k ∈ ks.head?, k ≠ .symbol .openParen ∧ ∀ op, BinaryOp.ofKind? k = some op → op.level < n

/-- What stops a phrase stops it where operators must bind **more tightly**. -/
theorem Stops.mono {m n : Nat} {ks : List TokenKind} (h : Stops m ks) (hmn : m ≤ n) :
    Stops n ks := by
  intro k hk
  exact ⟨(h k hk).1, fun op hop => Nat.lt_of_lt_of_le ((h k hk).2 op hop) hmn⟩

theorem stops_nil (n : Nat) : Stops n [] := nofun

/-- An operator that binds **less tightly** stops a phrase. -/
theorem stops_operator {n : Nat} {op : BinaryOp} (h : op.level < n) (ks : List TokenKind) :
    Stops n (.symbol op.symbol :: ks) := by
  intro k hk
  obtain rfl := Option.some.inj hk
  refine ⟨?_, ?_⟩
  · cases op <;> exact nofun
  · intro o ho
    rw [BinaryOp.ofKind?_symbol] at ho
    rwa [← Option.some.inj ho]

/-- A comma or a closing bracket ends what stands before it. -/
theorem stops_delimiter (n : Nat) {symbol : Symbol}
    (h : symbol = .comma ∨ symbol = .closeParen) (ks : List TokenKind) :
    Stops n (.symbol symbol :: ks) := by
  intro k hk
  obtain rfl := Option.some.inj hk
  obtain rfl | rfl := h <;> exact ⟨nofun, nofun⟩

theorem kinds_append_ne_closeParen (p : Phrase) (ks ks' : List TokenKind) :
    p.kinds ++ ks ≠ .symbol .closeParen :: ks' := by
  obtain ⟨k, tail, hp, hk⟩ := p.exists_kinds_eq_cons
  rw [hp]
  intro h
  rw [(List.cons.inj h).1] at hk
  cases hk

/-- An operator that binds **tightly enough** does not stop a phrase. -/
theorem not_stops_operator {n : Nat} {op : BinaryOp} (h : n ≤ op.level) (ks : List TokenKind) :
    ¬ Stops n (.symbol op.symbol :: ks) := by
  intro hstops
  have hlt := (hstops _ rfl).2 op (BinaryOp.ofKind?_symbol op)
  omega

/-- What follows a first operand does not go on at the last level, where there are no
operators between two operands. -/
theorem Stops.after_first {n : Nat} {ks : List TokenKind} (h : Stops n ks) (ls : List Link) :
    Stops 8 (linkKinds ls ++ ks) := by
  cases ls with
  | nil => exact fun k hk => ⟨(h k hk).1, fun op _ => Nat.lt_succ_of_le op.level_le⟩
  | cons l ls =>
    rw [linkKinds_cons]
    exact stops_operator (Nat.lt_succ_of_le l.1.level_le) _

/-- What follows a right operand does not go on at its level. -/
theorem Linked.stops {n rank : Nat} {op : BinaryOp} {ls : List Link} {ks : List TokenKind}
    (hlinks : Linked rank ls) (hrank : rank = op.level) (hn : n ≤ op.level) (h : Stops n ks) :
    Stops op.rightLevel (linkKinds ls ++ ks) := by
  cases ls with
  | nil => exact h.mono (Nat.le_trans hn op.level_le_rightLevel)
  | cons l ls =>
    rw [linkKinds_cons]
    refine stops_operator ?_ _
    rw [← BinaryOp.leftLevel_le_iff, ← hrank]
    exact hlinks.1

/-! ### Comparing phrases -/

/-- Grouped phrases of fewer than `size` tokens are **determined** by their tokens, if
what follows does not go on at a level at which they bind. -/
def UniqueBelow (size : Nat) : Prop :=
  ∀ (n : Nat) (p q : Phrase) (r r' : List TokenKind), p.kinds.length < size → p.Grouped →
    q.Grouped → n ≤ p.rank → n ≤ q.rank → Stops n r → Stops n r' →
    p.kinds ++ r = q.kinds ++ r' → p = q ∧ r = r'

section

variable {size : Nat} (ih : UniqueBelow size)

include ih

/-- Links are **read off the tokens**, if smaller phrases are. -/
theorem links_unique (n rank rank' : Nat) (ls ls' : List Link) (r r' : List TokenKind)
    (hsize : (linkKinds ls).length ≤ size) (hls : Linked rank ls) (hls' : Linked rank' ls')
    (hn : ∀ l ∈ ls, n ≤ l.1.level) (hn' : ∀ l ∈ ls', n ≤ l.1.level) (hr : Stops n r)
    (hr' : Stops n r') (h : linkKinds ls ++ r = linkKinds ls' ++ r') : ls = ls' ∧ r = r' := by
  induction ls generalizing rank rank' ls' with
  | nil =>
    cases ls' with
    | nil => exact ⟨rfl, h⟩
    | cons l ls' =>
      -- the other phrase goes on where this one must stop
      rw [linkKinds_nil, List.nil_append, linkKinds_cons] at h
      rw [h] at hr
      exact absurd hr (not_stops_operator (hn' l List.mem_cons_self) _)
  | cons l ls ihls =>
    cases ls' with
    | nil =>
      rw [linkKinds_nil, List.nil_append, linkKinds_cons] at h
      rw [← h] at hr'
      exact absurd hr' (not_stops_operator (hn l List.mem_cons_self) _)
    | cons l' ls' =>
      obtain ⟨op, right⟩ := l
      obtain ⟨op', right'⟩ := l'
      obtain ⟨-, hrank, hright, hls⟩ := hls
      obtain ⟨-, hrank', hright', hls'⟩ := hls'
      rw [linkKinds_cons, List.length_cons, List.length_append] at hsize
      dsimp only at hsize
      simp only [linkKinds_cons, List.cons_append, List.cons.injEq, TokenKind.symbol.injEq,
        List.append_assoc] at h
      obtain ⟨hop, h⟩ := h
      obtain rfl := BinaryOp.symbol_inj hop
      have hlevel : n ≤ op.level := hn _ List.mem_cons_self
      obtain ⟨rfl, hrest⟩ := ih op.rightLevel right right' _ _ (by omega) hright hright' hrank
        hrank' (hls.stops rfl hlevel hr) (hls'.stops rfl hlevel hr') h
      obtain ⟨rfl, hr⟩ := ihls _ _ ls' (by omega) hls hls'
        (fun l hl => hn l (List.mem_cons_of_mem _ hl))
        (fun l hl => hn' l (List.mem_cons_of_mem _ hl)) hrest
      exact ⟨rfl, hr⟩

/-- An argument is over at the comma or the bracket after it. -/
theorem argument_unique {p q : Phrase} {k k' : Symbol} {s s' : List TokenKind}
    (hsize : p.kinds.length < size) (hp : p.Grouped) (hq : q.Grouped)
    (hk : k = .comma ∨ k = .closeParen) (hk' : k' = .comma ∨ k' = .closeParen)
    (h : p.kinds ++ .symbol k :: s = q.kinds ++ .symbol k' :: s') : p = q ∧ k = k' ∧ s = s' := by
  obtain ⟨rfl, hrest⟩ := ih 1 p q _ _ hsize hp hq p.one_le_rank q.one_le_rank
    (stops_delimiter 1 hk s) (stops_delimiter 1 hk' s') h
  simpa using hrest

/-- Arguments are **read off the tokens** up to their bracket, if smaller phrases are. -/
theorem arguments_unique (args args' : Arguments) (s s' : List TokenKind)
    (hsize : args.kinds.length < size) (hargs : args.Grouped) (hargs' : args'.Grouped)
    (h : args.kinds ++ .symbol .closeParen :: s = args'.kinds ++ .symbol .closeParen :: s') :
    args = args' ∧ s = s' := by
  match args, args' with
  | .empty, .empty => exact ⟨rfl, (List.cons.inj h).2⟩
  | .empty, .last arg' => exact absurd h.symm (kinds_append_ne_closeParen arg' _ s)
  | .empty, .more arg' others' =>
    rw [Arguments.kinds, Arguments.kinds, List.append_assoc] at h
    exact absurd h.symm (kinds_append_ne_closeParen arg' _ s)
  | .last arg, .empty => exact absurd h (kinds_append_ne_closeParen arg _ s')
  | .more arg others, .empty =>
    rw [Arguments.kinds, Arguments.kinds, List.append_assoc] at h
    exact absurd h (kinds_append_ne_closeParen arg _ s')
  | .last arg, .last arg' =>
    obtain ⟨rfl, -, hrest⟩ := argument_unique ih hsize hargs hargs' (.inr rfl) (.inr rfl) h
    exact ⟨rfl, hrest⟩
  | .last arg, .more arg' others' =>
    simp only [Arguments.kinds, List.append_assoc, List.cons_append] at h
    obtain ⟨-, hk, -⟩ := argument_unique ih hsize hargs hargs'.1 (.inr rfl) (.inl rfl) h
    cases hk
  | .more arg others, .last arg' =>
    simp only [Arguments.kinds, List.append_assoc, List.cons_append] at h
    simp only [Arguments.kinds, List.length_append] at hsize
    obtain ⟨-, hk, -⟩ := argument_unique ih (by omega) hargs.1 hargs' (.inl rfl) (.inr rfl) h
    cases hk
  | .more arg others, .more arg' others' =>
    simp only [Arguments.kinds, List.append_assoc, List.cons_append] at h
    simp only [Arguments.kinds, List.length_append, List.length_cons] at hsize
    obtain ⟨rfl, -, h⟩ := argument_unique ih (by omega) hargs.1 hargs'.1 (.inl rfl) (.inl rfl) h
    obtain ⟨rfl, hrest⟩ := arguments_unique others others' s s' (by omega) hargs.2 hargs'.2 h
    exact ⟨rfl, hrest⟩

/-- What needs no operator, or begins with one, is determined by its tokens. -/
theorem operand_unique (o o' : Phrase) (s s' : List TokenKind) (hsize : o.kinds.length ≤ size)
    (houter : o.outer? = none) (houter' : o'.outer? = none) (ho : o.Grouped) (ho' : o'.Grouped)
    (hs : Stops 8 s) (hs' : Stops 8 s') (h : o.kinds ++ s = o'.kinds ++ s') : o = o' ∧ s = s' := by
  have hname := fun (l : Literal) text => (l.kind_ne_name text).symm
  have hsymbol := fun (l : Literal) symbol => (l.kind_ne_symbol symbol).symm
  have hdollar : ∀ op : UnaryOp, op.symbol ≠ .dollar := by intro op; cases op <;> exact nofun
  have hopen : ∀ op : UnaryOp, op.symbol ≠ .openParen := by intro op; cases op <;> exact nofun
  -- phrases of different forms begin with different tokens, a name and a call apart
  cases o <;> cases o' <;>
    simp only [kinds, outer?, List.append_assoc, List.cons_append, List.nil_append,
      List.cons.injEq, TokenKind.name.injEq, TokenKind.symbol.injEq, reduceCtorEq, false_and,
      true_and, Literal.kind_ne_name, Literal.kind_ne_symbol, hname, hsymbol, hdollar, hopen,
      fun op => (hdollar op).symm, fun op => (hopen op).symm] at h houter houter'
  case literal.literal value value' =>
    obtain ⟨hkind, rfl⟩ := h
    rw [Literal.kind_inj hkind]
    exact ⟨rfl, rfl⟩
  case bare.bare => simpa using h
  case deref.deref => simpa using h
  case bare.call =>
    -- a name with a bracket after it would be a call
    rw [h.2] at hs
    exact absurd rfl (hs _ rfl).1
  case call.bare =>
    rw [← h.2] at hs'
    exact absurd rfl (hs' _ rfl).1
  case call.call callee args callee' args' =>
    obtain ⟨rfl, h⟩ := h
    simp only [kinds, List.length_cons, List.length_append, List.length_nil] at hsize
    obtain ⟨rfl, hrest⟩ := arguments_unique ih args args' s s' (by omega) ho ho' h
    exact ⟨rfl, hrest⟩
  case group.group inner inner' =>
    simp only [kinds, List.length_cons, List.length_append, List.length_nil] at hsize
    obtain ⟨rfl, hrest⟩ := ih 1 inner inner' _ _ (by omega) ho ho' inner.one_le_rank
      inner'.one_le_rank (stops_delimiter 1 (.inr rfl) s) (stops_delimiter 1 (.inr rfl) s') h
    exact ⟨rfl, by simpa using hrest⟩
  case unary.unary op operand op' operand' =>
    obtain ⟨hop, h⟩ := h
    obtain rfl := UnaryOp.symbol_inj hop
    obtain ⟨houter, ho⟩ := ho
    obtain ⟨houter', ho'⟩ := ho'
    simp only [kinds, List.length_cons] at hsize
    obtain ⟨rfl, hrest⟩ := ih 8 operand operand' s s' (by omega) ho ho'
      (Nat.le_of_eq (rank_of_outer houter).symm) (Nat.le_of_eq (rank_of_outer houter').symm)
      hs hs' h
    exact ⟨rfl, hrest⟩

end

/-- Phrases are read off the tokens, by induction on **the number of tokens**. -/
theorem uniqueBelow (size : Nat) : UniqueBelow size := by
  induction size with
  | zero => exact fun n p q r r' hsize => absurd hsize (Nat.not_lt_zero _)
  | succ size ih =>
    intro n p q r r' hsize hp hq hnp hnq hr hr' h
    obtain ⟨hfirst, hlinks⟩ := hp.edge
    obtain ⟨hfirst', hlinks'⟩ := hq.edge
    have hlevel : ∀ l ∈ p.links, n ≤ l.1.level := fun l hl => Nat.le_trans hnp (hp.rank_le l hl)
    have hlevel' : ∀ l ∈ q.links, n ≤ l.1.level := fun l hl => Nat.le_trans hnq (hq.rank_le l hl)
    rw [p.kinds_links, List.length_append] at hsize
    rw [p.kinds_links, q.kinds_links, List.append_assoc, List.append_assoc] at h
    obtain ⟨hsame, h⟩ := operand_unique ih p.first q.first _ _ (by omega) p.outer_first
      q.outer_first hfirst hfirst' (hr.after_first p.links) (hr'.after_first q.links) h
    obtain ⟨hsames, hrest⟩ := links_unique ih n 8 8 p.links q.links r r' (by omega) hlinks
      hlinks' hlevel hlevel' hr hr' h
    refine ⟨?_, hrest⟩
    rw [← p.attach_links, ← q.attach_links, hsame, hsames]

/-- Grouped phrases with the **same tokens** are the same. -/
theorem unique {p q : Phrase} (hp : p.Grouped) (hq : q.Grouped) (h : p.kinds = q.kinds) : p = q :=
  (uniqueBelow (p.kinds.length + 1) 1 p q [] [] (Nat.lt_succ_self _) hp hq p.one_le_rank
    q.one_le_rank (stops_nil 1) (stops_nil 1) (by rw [h])).1

end Phrase

end RuleScript
