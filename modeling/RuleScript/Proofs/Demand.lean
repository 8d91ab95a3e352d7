import RuleScript.Parse
import RuleScript.Proofs.Ending
import RuleScript.Proofs.Reading

/-!
# Tokens on demand and tokens beforehand

A parser that reads its tokens from a source as it goes sees the stream of tokens ahead
of it, and so does what it would do with that stream. What is proved of parsers over
streams of tokens is proved of all parsers in this way.
-/

namespace RuleScript

namespace Lookahead

/-- A source that is read on demand **corresponds** to the stream of tokens ahead. -/
def onDemand : Pairing Lookahead TokenStream where
  view := .blind
  ahead := False
  Related s x := s.Steady ∧ s.stream = x
  Parted _ _ := True
  peek := by
    rintro s x ⟨hs, rfl⟩
    obtain ⟨t, s', hpeek, hshown, hstream, hsteady⟩ | ⟨e, s', hpeek, hshown⟩ := peek_stream hs
    · refine .inl ⟨t.kind, t.span, t.span, s', s.stream, hpeek, ?_, rfl, hsteady, hstream⟩
      rw [TokenStream.peek_eq]
      exact Prod.ext hshown rfl
    · refine .inr ⟨e, e, s', s.stream, hpeek, ?_, rfl, trivial⟩
      rw [TokenStream.peek_eq]
      exact Prod.ext hshown rfl
  part _ := trivial
  drop := by
    rintro s x t u ⟨hs, rfl⟩ ht _
    exact ⟨s.steady_drop, stream_drop hs (peeked_of_seen ht)⟩

end Lookahead

end RuleScript
