import RuleScript.Proofs.Refusal

/-!
# Errors at the first impossible token

A source that is refused because one thing was expected and another found is refused at the right
place: the tokens before could have been completed, and with the one that was found they cannot be.

The first is what `Parser.Refuses` says, since tokens that can be written down can be read back. The
second needs no word about the grammar: the parser looks ahead by one token, so that it would be
refused in the same way whatever followed (`Parser.refused_again`), and it is never refused where
there is a derivation.

* `Accepted`: the sequences of tokens that are read as a program.
* `refused_at_first_impossible`: sources.
-/

namespace RuleScript

/-! ### Tokens that are accepted -/

/-- Tokens are **accepted** if a source that is made up of such tokens is read as a program. -/
def Accepted (ks : List TokenKind) : Prop :=
  ∃ source p tokens, parse source = .ok p ∧ lex source = .ok tokens ∧ tokens.map Token.kind = ks

/-- What is accepted has a derivation, and the **end** comes after it and nowhere else. -/
theorem Accepted.derivation {ks : List TokenKind} (h : Accepted ks) :
    ∃ cs, Clause.IsProgram cs ∧ .eof ∉ Clause.kindsAll cs ∧ ks = Clause.kindsAll cs ++ [.eof] := by
  obtain ⟨source, p, tokens, hp, htokens, rfl⟩ := h
  obtain ⟨_, cs, htokens', hprogram, hkinds, -⟩ := derivation_of_parse hp
  obtain rfl := Except.ok.inj (htokens.symm.trans htokens')
  refine ⟨cs, hprogram, ?_, hkinds⟩
  rw [lex_eq_stream] at htokens
  cases hending : (Cursor.ofString source).stream.ending with
  | error e =>
    rw [hending] at htokens
    cases htokens
  | ok span =>
    rw [hending] at htokens
    cases htokens
    rw [List.map_append] at hkinds
    rw [← (List.append_inj' hkinds rfl).1]
    rintro heof
    obtain ⟨t, ht, hk⟩ := List.mem_map.1 heof
    exact Cursor.kind_ne_eof_of_mem_stream ht hk

/-- A spelling can be **written down**. -/
theorem TokenKind.writable_of_spells {text : String} {k : TokenKind} (h : Spells text k)
    (hk : k ≠ .eof) : k.Writable := by
  cases k with
  | string value => exact ⟨_, '\x22', .inl rfl, rfl⟩
  | eof => exact absurd rfl hk
  | name | int | float | bool | symbol =>
    refine ⟨text.toList, ?_⟩
    rwa [Renders, String.ofList_toList]
    all_goals exact nofun

/-- Tokens that can be written down are **read back**. -/
theorem exists_lex_of_writable {ks : List TokenKind} (h : ∀ k ∈ ks, k.Writable) :
    ∃ source tokens, lex source = .ok tokens ∧ tokens.map Token.kind = ks ++ [.eof] := by
  obtain ⟨ps, rfl, hgaps⟩ : ∃ ps : List Rendered, ps.map Rendered.kind = ks ∧
      ∀ p ∈ ps, p.gap = [' '] := by
    induction ks with
    | nil => exact ⟨[], rfl, nofun⟩
    | cons k ks ih =>
      obtain ⟨⟨text, htext⟩, hks⟩ := List.forall_mem_cons.1 h
      obtain ⟨ps, rfl, hgaps⟩ := ih hks
      exact ⟨⟨k, text, [' '], htext, .blank rfl .nil⟩ :: ps, rfl,
        List.forall_mem_cons.2 ⟨rfl, hgaps⟩⟩
  have hne : ∀ p ∈ ps.dropLast, p.gap ≠ [] := by
    intro p hp
    rw [hgaps p (List.dropLast_subset ps hp)]
    exact List.cons_ne_nil _ _
  obtain ⟨tokens, htokens, hkinds⟩ := Cursor.tokens_join .nil hne .origin
  refine ⟨String.ofList ([] ++ Rendered.join ps), tokens, ?_, hkinds⟩
  rw [lex, Cursor.ofString, String.toList_ofList, htokens]

/-- Tokens that can be completed to a program can be completed to one **in a source**. -/
theorem Viable.accepted {ks : List TokenKind} (h : Viable IsItems ks)
    (hks : ∀ k ∈ ks, k.Writable) : ∃ more, Accepted (ks ++ more) := by
  obtain ⟨more, hmore, cs, hprogram, hkinds⟩ := h
  have hall : ∀ k ∈ Clause.kindsAll cs, k.Writable := by
    rw [hkinds]
    exact fun k hk => (List.mem_append.1 hk).elim (hks k) (hmore k)
  obtain ⟨source, tokens, htokens, hlexed⟩ := exists_lex_of_writable hall
  obtain ⟨p, hp⟩ := parse_of_derivation htokens hprogram hlexed
  refine ⟨more ++ [.eof], source, p, tokens, hp, htokens, ?_⟩
  rw [hlexed, hkinds, List.append_assoc]

/-! ### Tokens that are not accepted -/

open TokenStream in
/-- With the token that it was refused at, and anything behind it, tokens are **not accepted**. -/
theorem Parser.not_accepted_of_refused {d : Nat} {used : List Token} {x' : TokenStream} {t : Token}
    {e : SyntaxError} (hx : (x'.prepend used).Proper)
    (h : (items d).run (x'.prepend used) = (.failed e, x')) (ht : x'.shown = .ok t)
    (more : List TokenKind) : ¬Accepted (used.map Token.kind ++ t.kind :: more) := by
  intro haccepted
  obtain ⟨cs, hprogram, hend, hkinds⟩ := haccepted.derivation
  obtain ⟨used', hused, hagain⟩ := refused_again hx h
  obtain rfl : used = used' := List.append_cancel_right (congrArg TokenStream.tokens hused)
  -- any stream that shows the derivation would be refused as well
  suffices hstream : ∃ y : TokenStream, y.Proper ∧ y.shown = .ok t ∧
      (y.prepend used).Shows (Clause.kindsAll cs) by
    obtain ⟨y, hy, hshown, hshows⟩ := hstream
    exact (items_greedy d hprogram hshows).of_failed (hagain y hy (hshown.trans ht.symm))
  obtain rfl | ⟨more, last, rfl⟩ := more.eq_nil_or_concat
  · obtain ⟨hused, heof⟩ := List.append_inj' hkinds rfl
    obtain ⟨kind, span⟩ := t
    obtain rfl : kind = .eof := List.singleton_inj.1 heof
    exact ⟨⟨[], .ok span⟩, nofun, rfl, by simpa [prepend] using hused, span, rfl⟩
  · rw [List.concat_eq_append, ← List.cons_append, ← List.append_assoc] at hkinds
    obtain ⟨hused, -⟩ := List.append_inj' hkinds rfl
    refine ⟨⟨t :: more.map (⟨·, default⟩), .ok default⟩, ?_, rfl, ?_, default, rfl⟩
    · intro u hu heof
      refine hend ?_
      rw [← hused, ← heof]
      refine List.mem_append_right _ ?_
      have hmem := List.mem_map_of_mem (f := Token.kind) hu
      simpa [Function.comp_def] using hmem
    · simpa [prepend, Function.comp_def] using hused

/-! ### The token that is found -/

/-- The token that is shown is the first of those listed, and it is the last only if it is the
end. -/
theorem TokenStream.listed_of_shown {x : TokenStream} {t : Token} (h : x.shown = .ok t) :
    ∃ after, x.listed.1 = t :: after ∧ (after ≠ [] → t ∈ x.tokens) := by
  obtain ⟨_ | ⟨u, us⟩, ending⟩ := x
  · cases ending with
    | error e => cases h
    | ok span =>
      cases h
      exact ⟨[], rfl, fun h => absurd rfl h⟩
  · cases h
    cases ending with
    | error e => exact ⟨us, rfl, fun _ => .head _⟩
    | ok span => exact ⟨us ++ [⟨.eof, span⟩], rfl, fun _ => .head _⟩

/-- No two tokens of a source have **one span**. -/
theorem Tiles.span_ne {source : String} {loc : Location} {before after : List Token} {t : Token}
    (h : Tiles source loc (before ++ t :: after)) (hbefore : ∀ u ∈ before, u.kind ≠ .eof)
    (ht : after ≠ [] → t.kind ≠ .eof) : ∀ u ∈ before ++ after, u.span ≠ t.span := by
  obtain ⟨-, hordered, hacross⟩ := List.pairwise_append.1 h.ordered
  intro u hu hspan
  obtain hu | hu := List.mem_append.1 hu
  · have hproper := (h.placed u (List.mem_append_left _ hu)).proper (hbefore u hu)
    have hle := hacross u hu t (.head _)
    rw [hspan] at hproper hle
    omega
  · have hproper := (h.placed t (List.mem_append_right _ (.head _))).proper
      (ht (List.ne_nil_of_mem hu))
    have hle := (List.pairwise_cons.1 hordered).1 u hu
    rw [hspan] at hle
    omega

/-! ### Sources -/

/-- **Syntax errors are reported at the first impossible token.** Where a source is refused since
one thing was expected and another found, there is exactly one of its tokens that has the span of
the error, and it is what was found. The tokens before it can be completed to tokens that are
accepted; and none that are accepted begin with the tokens before it and one like it. If it is the
end, then the tokens before it and the end are not accepted. -/
theorem refused_at_first_impossible (source : String) (e : SyntaxError) (expected : Expected)
    (found : TokenKind) (h : parse source = .error e)
    (hcause : e.cause = .grammar (.unexpected expected found)) :
    ∃ before t after, (Cursor.ofString source).tokens.1 = before ++ t :: after ∧
      t.kind = found ∧ t.span = e.span ∧ (∀ u ∈ before ++ after, u.span ≠ e.span) ∧
      (∃ more, Accepted (before.map Token.kind ++ more)) ∧
      ∀ more, ¬Accepted (before.map Token.kind ++ t.kind :: more) := by
  obtain ⟨d, used, x', hused, hrun, hrefusal⟩ := exists_refusal h
  cases hrefusal with
  | @unexpected ks expected' t htook ht hviable he =>
    subst he
    cases hcause
    have hproper : (Cursor.ofString source).stream.Proper :=
      fun _ => Cursor.kind_ne_eof_of_mem_stream
    obtain ⟨after, hafter, hmore⟩ := TokenStream.listed_of_shown ht
    have hlisted : (Cursor.ofString source).tokens.1 = used ++ t :: after := by
      rw [show (Cursor.ofString source).tokens = (Cursor.ofString source).stream.listed from
        Cursor.tokens_eq_stream _, hused, TokenStream.listed_prepend, hafter]
    have htiles := tiles_tokens source
    have hkinds := htook.kinds_eq hused
    rw [hused] at hproper hrun
    rw [hlisted] at htiles ⊢
    obtain ⟨hbefore, hx'⟩ := TokenStream.proper_prepend_iff.1 hproper
    refine ⟨used, t, after, rfl, rfl, rfl, ?_, ?_, ?_⟩
    · exact htiles.span_ne hbefore fun hne => hx' t (hmore hne)
    · refine Viable.accepted (hkinds ▸ hviable) fun k hk => ?_
      obtain ⟨u, hu, rfl⟩ := List.mem_map.1 hk
      have hplaced := htiles.placed u (List.mem_append_left _ hu)
      exact TokenKind.writable_of_spells hplaced.spelled (hbefore u hu)
    · exact Parser.not_accepted_of_refused hproper hrun ht
  | unclosed _ _ _ _ _ _ _ he =>
    subst he
    cases hcause
  | duplicate he => cases he.symm.trans hcause
  | misnamed he => cases he.symm.trans hcause
  | ending he =>
    obtain ⟨cause, hlexical⟩ := lexical_of_shown hused he
    cases hlexical.symm.trans hcause

/-- A group that is not closed is completed by its bracket, and not by a semicolon. -/
theorem refused_at_first_impossible_group :
    ∃ before t after, (Cursor.ofString "a\x7bb:(1;").tokens.1 = before ++ t :: after ∧
      t.kind = .symbol .semicolon ∧ t.span = ⟨⟨6, 1, 7⟩, ⟨7, 1, 8⟩⟩ ∧
      (∃ more, Accepted (before.map Token.kind ++ more)) ∧
      ∀ more, ¬Accepted (before.map Token.kind ++ .symbol .semicolon :: more) := by
  have hparse : parse "a\x7bb:(1;" =
      .error ⟨.grammar (.unexpected .groupEnd (.symbol .semicolon)), ⟨6, 1, 7⟩, ⟨7, 1, 8⟩⟩ :=
    refused_of_tokens [.inLine (.name "a") 0 1, .inLine (.symbol .openBrace) 1 2,
      .inLine (.name "b") 2 3, .inLine (.symbol .colon) 3 4, .inLine (.symbol .openParen) 4 5,
      .inLine (.int 1) 5 6, .inLine (.symbol .semicolon) 6 7] (.inLine 7 7)
      (by with_unfolding_all rfl) (by with_unfolding_all rfl)
  obtain ⟨before, t, after, htokens, hkind, hspan, -, hviable, hnever⟩ :=
    refused_at_first_impossible _ _ _ _ hparse rfl
  rw [hkind] at hnever
  exact ⟨before, t, after, htokens, hkind, hspan, hviable, hnever⟩

end RuleScript
