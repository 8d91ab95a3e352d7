import RuleScript.Parser.Progress
import RuleScript.Proofs.Spelling
import RuleScript.Proofs.View

/-!
# The tokens ahead

Whether tokens are read on demand or beforehand makes no difference to what is
seen. `Lookahead.stream` are the tokens that a source still shows, with what ends
them; looking shows their first one, and dropping takes it off.

* `Cursor.stream_of_token`, `Cursor.stream_of_end`, `Cursor.stream_of_error`: the
  stream ahead of a cursor, one token at a time.
* `Lookahead.peek_stream` and `Lookahead.stream_drop`: a source that is read on
  demand shows its stream. It has to be `Lookahead.Steady`: having shown the end it
  stays there.
-/

namespace RuleScript

/-! ### The stream ahead of a cursor -/

namespace Cursor

variable {c c' : Cursor} {t : Token} {e : SyntaxError}

/-- Where reading fails there are **no tokens**, and the error. -/
theorem tokens_of_error (h : c.next = (.error e, c')) : c.tokens = ([], some e) := by
  rw [tokens]
  split
  · next heq =>
    rw [h] at heq
    cases heq
    rfl
  · next heq =>
    rw [h] at heq
    cases heq

/-- At the end there is **nothing but the end**. -/
theorem tokens_of_end (h : c.next = (.ok t, c')) (hk : t.kind.isEof = true) :
    c.tokens = ([t], none) := by
  rw [tokens]
  split
  · next heq =>
    rw [h] at heq
    cases heq
  · next heq =>
    rw [h] at heq
    cases heq
    exact dif_pos hk

/-- A token is **the first** of those ahead. -/
theorem tokens_of_token (h : c.next = (.ok t, c')) (hk : t.kind.isEof = false) :
    c.tokens = (t :: c'.tokens.1, c'.tokens.2) := by
  rw [tokens]
  split
  · next heq =>
    rw [h] at heq
    cases heq
  · next heq =>
    rw [h] at heq
    cases heq
    exact dif_neg (Bool.eq_false_iff.1 hk)

/-- What is read up to the end holds the end at least. -/
theorem tokens_ne_nil (c : Cursor) (h : c.tokens.2 = none) : c.tokens.1 ≠ [] := by
  rcases hn : c.next with ⟨e | t, c'⟩
  · rw [tokens_of_error hn] at h
    cases h
  · cases hk : t.kind.isEof with
    | true =>
      rw [tokens_of_end hn hk]
      exact List.cons_ne_nil _ _
    | false =>
      rw [tokens_of_token hn hk]
      exact List.cons_ne_nil _ _

/-- All tokens ahead, and what ends them. -/
def stream (c : Cursor) : TokenStream :=
  match c.tokens with
  | (tokens, none) =>
    ⟨tokens.dropLast, .ok ((tokens.getLast?.map Token.span).getD (.point .origin))⟩
  | (tokens, some e) => ⟨tokens, .error e⟩

theorem stream_of_error (h : c.next = (.error e, c')) : c.stream = ⟨[], .error e⟩ := by
  rw [stream, tokens_of_error h]

theorem stream_of_end (h : c.next = (.ok t, c')) (hk : t.kind.isEof = true) :
    c.stream = ⟨[], .ok t.span⟩ := by
  rw [stream, tokens_of_end h hk]
  rfl

/-- A token is the first of **the stream ahead**. -/
theorem stream_of_token (h : c.next = (.ok t, c')) (hk : t.kind.isEof = false) :
    c.stream = ⟨t :: c'.stream.tokens, c'.stream.ending⟩ := by
  have hne := c'.tokens_ne_nil
  rw [stream, stream, tokens_of_token h hk]
  rcases htokens : c'.tokens with ⟨ts, _ | failure⟩
  · -- the last token, which is the end, is not the one just read
    rw [htokens] at hne
    obtain ⟨u, us, rfl⟩ := List.exists_cons_of_ne_nil (hne rfl)
    rfl
  · rfl

/-- The first token of a stream is the one that is read, and the others are ahead then. -/
theorem next_of_stream {ts : List Token} (h : c.stream.tokens = t :: ts) :
    ∃ c', c.next = (.ok t, c') ∧ c'.stream = ⟨ts, c.stream.ending⟩ := by
  rcases hn : c.next with ⟨e | u, c'⟩
  · rw [stream_of_error hn] at h
    cases h
  · cases hk : u.kind.isEof with
    | true =>
      rw [stream_of_end hn hk] at h
      cases h
    | false =>
      rw [stream_of_token hn hk] at h ⊢
      cases h
      exact ⟨c', rfl, rfl⟩

/-- Induction **along the tokens** ahead of a cursor. -/
theorem tokens_induction {motive : Cursor → Prop}
    (error : ∀ c e c', c.next = (.error e, c') → motive c)
    (ending : ∀ c t c', c.next = (.ok t, c') → t.kind.isEof = true → motive c)
    (token : ∀ c t c', c.next = (.ok t, c') → t.kind.isEof = false → motive c' → motive c)
    (c : Cursor) : motive c := by
  rcases hn : c.next with ⟨e | t, c'⟩
  · exact error c e c' hn
  · cases hk : t.kind.isEof with
    | true => exact ending c t c' hn hk
    | false =>
      have : c'.rest.length < c.rest.length := by
        have := c.length_rest_next (by rw [hn]; exact hk)
        rwa [hn] at this
      exact token c t c' hn hk (tokens_induction error ending token c')
termination_by c.rest.length

/-- What is read up to the end is the stream and the end after it. -/
theorem tokens_eq_stream (c : Cursor) :
    c.tokens = match c.stream.ending with
      | .ok span => (c.stream.tokens ++ [⟨.eof, span⟩], none)
      | .error e => (c.stream.tokens, some e) := by
  induction c using tokens_induction with
  | error c e c' hn => rw [tokens_of_error hn, stream_of_error hn]
  | ending c t c' hn hk =>
    obtain ⟨kind, span⟩ := t
    obtain rfl : kind = .eof := TokenKind.isEof_iff.1 hk
    rw [tokens_of_end hn hk, stream_of_end hn hk]
    rfl
  | token c t c' hn hk ih =>
    rw [tokens_of_token hn hk, ih, stream_of_token hn hk]
    dsimp only
    split <;> rfl

/-- The end is not among the tokens before it. -/
theorem kind_ne_eof_of_mem_stream {c : Cursor} {t : Token} (h : t ∈ c.stream.tokens) :
    t.kind ≠ .eof := by
  induction c using tokens_induction with
  | error c e c' hn =>
    rw [stream_of_error hn] at h
    cases h
  | ending c t c' hn hk =>
    rw [stream_of_end hn hk] at h
    cases h
  | token c u c' hn hk ih =>
    rw [stream_of_token hn hk] at h
    cases h with
    | head =>
      intro heof
      rw [heof] at hk
      cases hk
    | tail _ h => exact ih h

/-- Having read the end, a cursor reads the end again. -/
theorem next_of_end (h : c.next = (.ok t, c')) (hk : t.kind.isEof = true) :
    c'.next = (.ok t, c') := by
  cases Step.of_next h with
  | ending =>
    rw [next, Trivia.skip]
    rfl
  | token _ _ _ _ hkind => exact absurd (TokenKind.isEof_iff.1 hk) hkind

end Cursor

/-- The tokens of a source, read beforehand, and the end after them. -/
theorem lex_eq_stream (source : String) :
    lex source = (Cursor.ofString source).stream.ending.map fun span =>
      (Cursor.ofString source).stream.tokens ++ [⟨.eof, span⟩] := by
  rw [lex, Cursor.tokens_eq_stream]
  cases (Cursor.ofString source).stream.ending <;> rfl

/-- The tokens that are listed for a source are those **ahead at its start**. -/
theorem tokens_of_lex {source : String} {tokens : List Token} (h : lex source = .ok tokens) :
    (Cursor.ofString source).tokens = (tokens, none) := by
  rw [lex] at h
  split at h
  · next htokens =>
    cases h
    exact htokens
  · cases h

/-- A source with one token before its end. -/
theorem lex_of_one {source : String} {t u : Token} {c c' : Cursor}
    (h : (Cursor.ofString source).next = (.ok t, c)) (ht : t.kind.isEof = false)
    (hend : c.next = (.ok u, c')) (hu : u.kind.isEof = true) : lex source = .ok [t, u] := by
  rw [lex, Cursor.tokens_of_token h ht, Cursor.tokens_of_end hend hu]

/-! ### The stream ahead of a parser -/

namespace Lookahead

variable {s s' : Lookahead} {t : Token}

/-- All tokens that are still shown, and what ends them. -/
def stream (s : Lookahead) : TokenStream :=
  match s.peeked with
  | none => s.cursor.stream
  | some t =>
    if t.kind.isEof then ⟨[], .ok t.span⟩ else ⟨t :: s.cursor.stream.tokens, s.cursor.stream.ending⟩

/-- A source that has shown its end **stays** there. -/
def Steady (s : Lookahead) : Prop :=
  ∀ t, s.peeked = some t → t.kind.isEof = true → s.cursor.next = (.ok t, s.cursor)

theorem steady_ofString (source : String) : (ofString source).Steady := nofun

theorem stream_of_peeked (ht : s.peeked = some t) :
    s.stream = if t.kind.isEof then ⟨[], .ok t.span⟩
      else ⟨t :: s.cursor.stream.tokens, s.cursor.stream.ending⟩ := by
  rw [stream, ht]

/-- **Looking** shows what the stream shows, and leaves the stream as it is. -/
theorem peek_stream (hs : s.Steady) :
    (∃ t s', s.peek = (.ok t, s') ∧ s.stream.peek.1 = .ok t ∧ s'.stream = s.stream ∧ s'.Steady) ∨
    ∃ e s', s.peek = (.error e, s') ∧ s.stream.peek.1 = .error e := by
  have hshown : ∀ t (x : TokenStream), (if t.kind.isEof then ⟨[], .ok t.span⟩
      else ⟨t :: x.tokens, x.ending⟩ : TokenStream).peek.1 = .ok t := by
    intro t x
    obtain ⟨kind, span⟩ := t
    split
    · next hk =>
      obtain rfl : kind = .eof := TokenKind.isEof_iff.1 hk
      rfl
    · rfl
  rcases hp : s.peeked with _ | t
  · have hstream : s.stream = s.cursor.stream := by rw [stream, hp]
    rcases hn : s.cursor.next with ⟨e | t, c⟩
    · refine .inr ⟨e, ⟨c, none⟩, by rw [peek, hp, hn], ?_⟩
      rw [hstream, Cursor.stream_of_error hn]
      rfl
    · have hsame : stream ⟨c, some t⟩ = s.stream := by
        rw [hstream, stream_of_peeked rfl]
        split
        · next hk => rw [Cursor.stream_of_end hn hk]
        · next hk => rw [Cursor.stream_of_token hn (Bool.eq_false_iff.2 hk)]
      refine .inl ⟨t, ⟨c, some t⟩, by rw [peek, hp, hn], ?_, hsame, ?_⟩
      · rw [← hsame, stream_of_peeked rfl]
        exact hshown t c.stream
      · intro u hu hk
        cases hu
        exact Cursor.next_of_end hn hk
  · refine .inl ⟨t, s, by rw [peek, hp], ?_, rfl, hs⟩
    rw [stream_of_peeked hp]
    exact hshown t s.cursor.stream

theorem peeked_of_seen (h : Parser.Seen t s) : s.peeked = some t := peeked_of_peek h

/-- **Dropping** a token takes it off the stream. -/
theorem stream_drop (hs : s.Steady) (ht : s.peeked = some t) :
    s.drop.stream = s.stream.drop := by
  have hdrop : s.drop.stream = s.cursor.stream := rfl
  rw [hdrop, stream_of_peeked ht]
  split
  · next hk =>
    -- the end cannot be dropped: a steady source shows it again
    rw [Cursor.stream_of_end (hs t ht hk) hk, TokenStream.drop, List.tail_nil]
  · rfl

theorem steady_drop (s : Lookahead) : s.drop.Steady := nofun

end Lookahead

end RuleScript
