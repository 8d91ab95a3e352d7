import RuleScript.Proofs.Refusal

/-!
# Blocks that are not closed

A source that ends inside a block is refused with the span of a brace. It is the brace of the
innermost block that is open at the end: the functions of the parser are each in a block of their
own, and the one that sees the end is in the last block that was opened and not closed.

Nothing of this is said about the parser in the end. Braces are matched over all tokens of the
source (`openBraces`), and the brace is the last one that is still open; the brackets behind it are
nested.
-/

namespace RuleScript

/-- A token in front of which and behind which tokens were taken **stands between** them, and if the
end is shown then that is all of the source. -/
theorem lex_of_took {source : String} {before inside : List TokenKind} {x x' : TokenStream}
    {brace t : Token} (htook : (Cursor.ofString source).stream.Took before x)
    (hbrace : x.shown = .ok brace) (hkind : brace.kind ≠ .eof) (hinside : x.drop.Took inside x')
    (ht : x'.shown = .ok t) (heof : t.kind = .eof) :
    ∃ ts us span, lex source = .ok (ts ++ brace :: (us ++ [⟨.eof, span⟩])) ∧
      us.map Token.kind = inside := by
  obtain ⟨ts, -, htokens, hending⟩ := htook
  obtain ⟨us, rfl, htokens', hending'⟩ := hinside
  rw [TokenStream.eq_prepend_of_shown hbrace hkind, TokenStream.prepend, htokens'] at htokens
  obtain ⟨hnil, span, hspan⟩ := TokenStream.eq_nil_of_shown_eof ht heof fun u hu =>
    Cursor.kind_ne_eof_of_mem_stream (c := Cursor.ofString source) (by simp [htokens, hu])
  refine ⟨ts, us, span, ?_, rfl⟩
  have hsource : (Cursor.ofString source).stream.ending = .ok span :=
    (hending'.trans hending).symm.trans hspan
  rw [lex_eq_stream, hsource, htokens, hnil, List.append_nil]
  simp [Except.map]

/-- **Unclosed blocks are blamed on their brace, and programs are balanced.** A source that is
refused for an unclosed block is made up of tokens, and the error has the span of an opening brace:
the last one that is still open when braces are matched over all tokens. Behind it all brackets are
nested. And the brackets of a source that is read as a program are nested. -/
theorem unclosed_blames_brace (source : String) :
    (∀ e, parse source = .error e → e.cause = .grammar .unclosedBlock →
      ∃ before brace after, lex source = .ok (before ++ brace :: after) ∧
        brace.kind = .symbol .openBrace ∧ e.span = brace.span ∧
        (openBraces [] (before ++ brace :: after)).head? = some brace ∧
        Nested (after.map Token.kind)) ∧
    ∀ p, parse source = .ok p →
      ∃ tokens, lex source = .ok tokens ∧ Nested (tokens.map Token.kind) := by
  refine ⟨fun e h hcause => ?_, fun p h => nested_of_parse h⟩
  obtain ⟨d, used, x', hused, -, hrefusal⟩ := exists_refusal h
  cases hrefusal with
  | @unclosed before inside x brace t htook hbrace hkind hinside hnested ht heof he =>
    subst he
    obtain ⟨ts, us, span, hlex, rfl⟩ :=
      lex_of_took htook hbrace (by rw [hkind]; simp) hinside ht heof
    have hafter : Nested (List.map Token.kind (us ++ [⟨.eof, span⟩])) := by
      rw [List.map_append]
      exact hnested.append (.singleton rfl)
    refine ⟨ts, brace, us ++ [⟨.eof, span⟩], hlex, hkind, rfl, ?_, hafter⟩
    rw [openBraces_append, openBraces, if_pos (TokenKind.isSymbol_iff.2 hkind),
      hafter.openBraces_eq rfl]
    rfl
  | unexpected _ _ _ he =>
    subst he
    cases hcause
  | duplicate he => cases he.symm.trans hcause
  | misnamed he => cases he.symm.trans hcause
  | ending he =>
    obtain ⟨cause, hlexical⟩ := lexical_of_shown hused he
    cases hlexical.symm.trans hcause

/-- Of three braces the second one is blamed, since the third is closed. -/
theorem unclosed_blames_brace_second :
    (∃ before brace after, lex "a\x7bb\x7bc\x7b\x7d" = .ok (before ++ brace :: after) ∧
      brace.kind = .symbol .openBrace ∧ brace.span = ⟨⟨3, 1, 4⟩, ⟨4, 1, 5⟩⟩ ∧
      (openBraces [] (before ++ brace :: after)).head? = some brace ∧
      Nested (after.map Token.kind)) ∧
    ∃ tokens, lex "a\x7b\x7d" = .ok tokens ∧ Nested (tokens.map Token.kind) := by
  have hparse : parse "a\x7bb\x7bc\x7b\x7d" =
      .error ⟨.grammar .unclosedBlock, ⟨3, 1, 4⟩, ⟨4, 1, 5⟩⟩ :=
    refused_of_tokens [.inLine (.name "a") 0 1, .inLine (.symbol .openBrace) 1 2,
      .inLine (.name "b") 2 3, .inLine (.symbol .openBrace) 3 4, .inLine (.name "c") 4 5,
      .inLine (.symbol .openBrace) 5 6, .inLine (.symbol .closeBrace) 6 7] (.inLine 7 7)
      (by with_unfolding_all rfl) (by with_unfolding_all rfl)
  have hparse' : parse "a\x7b\x7d" = .ok ⟨[.rule ⟨⟨⟨"a", ⟨0, 1, 1⟩, ⟨1, 1, 2⟩⟩, [], ⟨0, 1, 1⟩,
      ⟨1, 1, 2⟩⟩, [], ⟨0, 1, 1⟩, ⟨3, 1, 4⟩⟩]⟩ :=
    parse_of_tokens [.inLine (.name "a") 0 1, .inLine (.symbol .openBrace) 1 2,
      .inLine (.symbol .closeBrace) 2 3] (.inLine 3 3) (by with_unfolding_all rfl)
      (by with_unfolding_all rfl)
  obtain ⟨before, brace, after, hlex, hkind, hspan, hopen, hnested⟩ :=
    (unclosed_blames_brace _).1 _ hparse rfl
  exact ⟨⟨before, brace, after, hlex, hkind, hspan.symm, hopen, hnested⟩,
    (unclosed_blames_brace _).2 _ hparse'⟩

end RuleScript
