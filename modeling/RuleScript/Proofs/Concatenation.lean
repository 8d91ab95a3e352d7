import RuleScript.Proofs.Cutting
import RuleScript.Proofs.Footprint

/-!
# Programs side by side

Programs can be written one after the other. The last token of a program is a semicolon or a
closing brace, and nothing that follows changes what these are; the parser looks no further
than the last token of an item; and what it does afterwards does not depend on what came
before.

* `Node.Fits.items_run`: an item in front of a stream is read, and the parser goes on.
* `Listed.items_run`: so are all items of a program.
* `listed_of_parse`: the tokens of a source that is a program.
* `parse_append`: the items of two sources joined, or the error of the second one.
-/

namespace RuleScript

/-! ### Reading on -/

/-- The tokens of an item **in front** are read as that item, and reading goes on behind
them. -/
theorem Node.Fits.items_run {i : Item} {ts : List Token} (h : Node.Fits (.ofItem i) ts) :
    ∃ D, ∀ d, D ≤ d → ∀ x : TokenStream, (Parser.items (d + 1)).run (x.prepend ts) =
      (Parser.items d >>= fun more => pure (i :: more)).run x := by
  cases i with
  | rule r =>
    obtain ⟨t, used, text, rfl, hk, D, hrun⟩ := h
    refine ⟨D, fun d hd x => ?_⟩
    rw [Parser.items, Parser.run_peek_bind (x.shown_prepend_cons t used), hk]
    exact Process.run_bind_done (Parser.rule_deeper (hrun x) hd) _
  | atRule a =>
    obtain ⟨t, used, rfl, hk, D, hrun⟩ := h
    refine ⟨D, fun d hd x => ?_⟩
    rw [Parser.items, Parser.run_peek_bind (x.shown_prepend_cons t used), hk]
    exact Process.run_bind_done (Parser.atRule_deeper (hrun x) hd) _

/-- The tokens of a program **in front** are read as its items, and then comes what would have
come without them. -/
theorem Listed.items_run {is : List Item} {ts : List Token} (h : Listed is ts) {y : TokenStream}
    {d : Nat} (hy : ((Parser.items d).run y).1 ≠ .exhausted) :
    ∃ D, ((Parser.items D).run (y.prepend ts)).1 = ((Parser.items d).run y).1.map (is ++ ·) := by
  induction h with
  | nil =>
    refine ⟨d, ?_⟩
    rw [y.prepend_nil]
    cases ((Parser.items d).run y).1 <;> rfl
  | @semicolon is t ts ht _ ih =>
    obtain ⟨D, hD⟩ := ih
    refine ⟨D + 1, ?_⟩
    rw [Parser.items, Parser.run_peek_bind (y.shown_prepend_cons t ts), ht]
    exact hD
  | @item i is ts us hi _ ih =>
    obtain ⟨D, hD⟩ := ih
    obtain ⟨D', hitem⟩ := hi.fits.items_run
    have hends : ((Parser.items D).run (y.prepend us)).1 ≠ .exhausted := by
      rw [hD]
      cases hout : ((Parser.items d).run y).1 with
      | done => rintro ⟨⟩
      | failed => rintro ⟨⟩
      | exhausted => exact absurd hout hy
    refine ⟨max D D' + 1, ?_⟩
    rw [y.prepend_append, hitem _ (Nat.le_max_right D D'), Process.run_bind_pure,
      Parser.items_deeper hends (Nat.le_max_left D D'), hD]
    cases ((Parser.items d).run y).1 <;> rfl

/-! ### The tokens of a source -/

/-- A clause ends with a **semicolon or a closing brace**. -/
theorem Clause.kinds_concat (c : Clause) :
    ∃ ks s, c.kinds = ks ++ [.symbol s] ∧ (s = .semicolon ∨ s = .closeBrace) := by
  cases c with
  | semicolon => exact ⟨[], .semicolon, rfl, .inl rfl⟩
  | declaration property values =>
    exact ⟨.name property :: .symbol .colon :: Phrase.kindsAll values, .semicolon, rfl, .inl rfl⟩
  | atRule name parameters =>
    exact ⟨.symbol .at :: .name name :: Phrase.kindsAll parameters, .semicolon, rfl, .inl rfl⟩
  | atBlock name parameters body =>
    refine ⟨.symbol .at :: .name name :: (Phrase.kindsAll parameters ++
      .symbol .openBrace :: kindsAll body), .closeBrace, ?_, .inr rfl⟩
    simp [kinds]
  | rule name slots body =>
    refine ⟨.name name :: (slots.flatMap Slot.kinds ++ .symbol .openBrace :: kindsAll body),
      .closeBrace, ?_, .inr rfl⟩
    simp [kinds]

/-- Nothing that follows is taken with the **last token** of a program. -/
theorem Clause.endsBefore_getLast? {cs : List Clause} {k : TokenKind}
    (hk : (kindsAll cs).getLast? = some k) (rest : List Char) : k.EndsBefore rest := by
  induction cs with
  | nil => cases hk
  | cons c cs ih =>
    rw [kindsAll, List.getLast?_append] at hk
    cases hlast : (kindsAll cs).getLast? with
    | some k' =>
      rw [hlast] at hk
      exact ih (hlast.trans hk)
    | none =>
      obtain ⟨ks, s, hkinds, hs⟩ := c.kinds_concat
      rw [hlast, hkinds, List.getLast?_concat] at hk
      cases hk
      obtain rfl | rfl := hs <;> exact fun _ _ => rfl

/-- The tokens of a source that is read as a program: its items were read from them, and
nothing that follows is taken with the last of them. -/
theorem listed_of_parse {source : String} {p : Program} (h : parse source = .ok p) :
    ∃ ts span, (Cursor.ofString source).stream = ⟨ts, .ok span⟩ ∧ Listed p.items ts ∧
      ∀ t ∈ ts.getLast?, ∀ rest, t.kind.EndsBefore rest := by
  have hrow := inRow_stream source
  obtain ⟨d, hdone⟩ := items_stream source
  rcases hrun : (Parser.items d).run (Cursor.ofString source).stream with ⟨out, x⟩
  rw [h, hrun] at hdone
  obtain rfl : out = .done p.items := hdone
  obtain ⟨used, hstream, hlisted, -⟩ := (Parser.items_read d _).of_done hrun
  obtain ⟨cs, htook, -, -, t, ht, hkind⟩ := (Parser.items_derived d _).of_done hrun
  -- the end is shown, so that all tokens were taken
  obtain ⟨hnil, span, hending⟩ := TokenStream.eq_nil_of_shown_eof ht hkind fun u hu =>
    Cursor.kind_ne_eof_of_mem_stream (c := Cursor.ofString source)
      (by rw [hstream]; exact List.mem_append_right used hu)
  have hkinds := htook.kinds_eq hstream
  have hall : (Cursor.ofString source).stream = ⟨used, .ok span⟩ := by
    rw [hstream, TokenStream.prepend, hnil, hending, List.append_nil]
  rw [hall] at hrow
  refine ⟨used, span, hall, hlisted hrow, fun u hu rest => ?_⟩
  have hlast : (Clause.kindsAll cs).getLast? = some u.kind := by
    rw [← hkinds, List.getLast?_map, hu]
    rfl
  exact Clause.endsBefore_getLast? hlast rest

/-! ### Sources -/

theorem SyntaxError.cause_eq_of_seen {e e' : SyntaxError} (h : e.seen .blind = e'.seen .blind) :
    e.cause = e'.cause := (SyntaxError.mk.inj h).1

/-- Two sources joined, the first of which is a program, look like the tokens of the first
in front of the second. -/
theorem stream_of_append {a b : String} {ts : List Token} {span : Span}
    (h : (Cursor.ofString a).stream = ⟨ts, .ok span⟩)
    (hlast : ∀ t ∈ ts.getLast?, ∀ rest, t.kind.EndsBefore rest) :
    ((Cursor.ofString b).stream.prepend ts).seen .blind =
      (Cursor.ofString (a ++ b)).stream.seen .blind := by
  have hjoin := Cursor.stream_append h (fun t ht => hlast t ht b.toList) .origin .origin
  rw [← String.toList_append] at hjoin
  exact hjoin.symm

/-- Two sources joined, the first of which is a program, **end as the second** does. -/
theorem parse_of_append {a : String} {A : Program} (h : parse a = .ok A) (b : String) :
    (∃ B p, parse b = .ok B ∧ parse (a ++ b) = .ok p ∧
      p.seen .blind = Program.seen .blind ⟨A.items ++ B.items⟩) ∨
    ∃ e e', parse b = .error e ∧ parse (a ++ b) = .error e' ∧ e'.cause = e.cause := by
  obtain ⟨ts, span, hts, hlisted, hlast⟩ := listed_of_parse h
  obtain ⟨d, hd⟩ := items_stream b
  have hends : ((Parser.items d).run (Cursor.ofString b).stream).1 ≠ .exhausted := by
    rw [hd]
    cases parse b <;> exact nofun
  obtain ⟨D, hD⟩ := hlisted.items_run hends
  rw [hd] at hD
  have hjoined := parse_of_stream (d := D) (stream_of_append (b := b) hts hlast)
  rw [hD] at hjoined
  cases hb : parse b with
  | ok B =>
    rw [hb] at hjoined
    obtain ⟨is, p, hdone, hp, hseen⟩ | ⟨e, e', hfailed, -⟩ := hjoined nofun
    · cases hdone
      exact .inl ⟨B, p, rfl, hp, hseen⟩
    · cases hfailed
  | error e =>
    rw [hb] at hjoined
    obtain ⟨is, p, hdone, -⟩ | ⟨_, e', hfailed, he', hseen⟩ := hjoined nofun
    · cases hdone
    · cases hfailed
      exact .inr ⟨e, e', rfl, he', SyntaxError.cause_eq_of_seen hseen⟩

/-- **Programs are read one after the other.** If the first of two sources is read as a
program, the two joined are read as one exactly if the second is. Its items are those of the
first and then those of the second, up to spans; and if the second is refused, the two joined
are refused for the same cause. -/
theorem parse_append (a b : String) (A : Program) (h : parse a = .ok A) :
    ((∃ p, parse (a ++ b) = .ok p) ↔ ∃ B, parse b = .ok B) ∧
    (∀ B, parse b = .ok B → ∃ p, parse (a ++ b) = .ok p ∧
      p.seen .blind = Program.seen .blind ⟨A.items ++ B.items⟩) ∧
    ∀ e, parse b = .error e → ∃ e', parse (a ++ b) = .error e' ∧ e'.cause = e.cause ∧
      e'.cause.family = e.cause.family ∧ e'.message = e.message ∧ e'.help = e.help := by
  obtain ⟨B, p, hB, hp, hseen⟩ | ⟨e, e', he, he', hcause⟩ := parse_of_append h b
  · rw [hB, hp]
    refine ⟨iff_of_true ⟨p, rfl⟩ ⟨B, rfl⟩, ?_, nofun⟩
    rintro _ ⟨⟩
    exact ⟨p, rfl, hseen⟩
  · rw [he, he']
    refine ⟨iff_of_false nofun nofun, nofun, ?_⟩
    rintro _ ⟨⟩
    exact ⟨e', rfl, hcause, congrArg SyntaxCause.family hcause,
      congrArg SyntaxCause.message hcause, congrArg SyntaxCause.help hcause⟩

/-- A line break that is written half in one source and half in the other. -/
theorem parse_append_lineBreak :
    ∃ A B p, parse "a \x7b\x7d\r" = .ok A ∧ parse "\n@b;" = .ok B ∧
      parse ("a \x7b\x7d\r" ++ "\n@b;") = .ok p ∧ A.items.length = 1 ∧ B.items.length = 1 ∧
      p.seen .blind = Program.seen .blind ⟨A.items ++ B.items⟩ := by
  have hfirst : parse "a \x7b\x7d\r" = .ok ⟨[.rule ⟨⟨⟨"a", ⟨0, 1, 1⟩, ⟨1, 1, 2⟩⟩, [], ⟨0, 1, 1⟩,
      ⟨1, 1, 2⟩⟩, [], ⟨0, 1, 1⟩, ⟨4, 1, 5⟩⟩]⟩ :=
    parse_of_done (s := ⟨⟨[], ⟨5, 2, 1⟩⟩, some ⟨.eof, ⟨5, 2, 1⟩, ⟨5, 2, 1⟩⟩⟩)
      (by with_unfolding_all rfl)
  have hsecond : parse "\n@b;" = .ok ⟨[.atRule ⟨⟨"b", ⟨2, 2, 2⟩, ⟨3, 2, 3⟩⟩, [], none, ⟨1, 2, 1⟩,
      ⟨4, 2, 4⟩⟩]⟩ :=
    parse_of_done (s := ⟨⟨[], ⟨4, 2, 4⟩⟩, some ⟨.eof, ⟨4, 2, 4⟩, ⟨4, 2, 4⟩⟩⟩)
      (by with_unfolding_all rfl)
  obtain ⟨p, hp, hseen⟩ := (parse_append _ _ _ hfirst).2.1 _ hsecond
  exact ⟨_, _, p, hfirst, hsecond, hp, rfl, rfl, hseen⟩

end RuleScript
