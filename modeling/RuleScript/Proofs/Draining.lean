import RuleScript.Proofs.Beforehand

/-!
# A lexer is drained

A lexer can be asked in two ways, for the next token whatever there was before (`Lexer.nextToken`),
or for one more until it has given the end or an error (`Lexer.next?`). However the two are mixed,
each answer **takes text** unless it is the end, and the end is given as soon as only a gap is left.
So a lexer always comes to the end, also behind errors, and what it gives up to there is what `lex`
gives.

* `Cursor.next_takes`: one answer takes a text, and moves the location over it.
* `Lexer.Settled` is kept by all calls (`Lexer.Settled.after`): the end is given again and again.
* `Lexer.exists_end`: the end is come to after as many answers as there are bytes ahead.
* `Lexer.finished_after_iff`: when nothing more is given.
* `lexer_drains` says all of this of every lexer over a source.
-/

namespace RuleScript

open String (utf8Len)

/-! ### One answer -/

namespace Cursor

variable {c c' : Cursor} {t : Token}

/-- **One answer** takes a text, and moves the location over it. -/
theorem next_takes (c : Cursor) :
    ∃ taken, c.rest = taken ++ c.next.2.rest ∧ c.next.2.loc.pos = c.loc.pos + utf8Len taken := by
  obtain ⟨gap, text, hrest, hloc⟩ := c.next_step.takes
  refine ⟨gap ++ text, by rw [hrest, List.append_assoc], ?_⟩
  rw [hloc, Location.pos_advance, Location.pos_advance, String.utf8Len_append, Nat.add_assoc]

/-- Whatever is given before the end takes **a byte at least**. -/
theorem utf8Len_rest_next (h : atEnd c.next.1 = false) :
    utf8Len c.next.2.rest < utf8Len c.rest := by
  obtain ⟨taken, hrest, -⟩ := c.next_takes
  have hlength := c.length_rest_next h
  have hne : taken ≠ [] := by
    rintro rfl
    rw [hrest] at hlength
    exact absurd hlength (Nat.lt_irrefl _)
  have hbytes : utf8Len taken ≠ 0 := fun hzero => hne (String.utf8Len_eq_zero.1 hzero)
  rw [hrest, String.utf8Len_append]
  omega

/-- The bytes that are taken are those the location moves over. -/
theorem pos_next (c : Cursor) :
    c.next.2.loc.pos + utf8Len c.next.2.rest = c.loc.pos + utf8Len c.rest := by
  obtain ⟨taken, hrest, hpos⟩ := c.next_takes
  rw [hrest, hpos, String.utf8Len_append, Nat.add_assoc]

/-- The end is given exactly if **only a gap** is ahead. -/
theorem atEnd_next_iff : atEnd c.next.1 = true ↔ Gap c.rest := by
  constructor
  · intro h
    rcases hn : c.next with ⟨e | t, c'⟩ <;> rw [hn] at h
    · cases h
    · exact gap_of_end hn (TokenKind.isEof_iff.1 h)
  · intro h
    rw [show c = ⟨c.rest, c.loc⟩ from rfl, next_of_gap h]
    rfl

/-- There are no more tokens ahead than bytes. -/
theorem length_stream_le (c : Cursor) : c.stream.tokens.length ≤ utf8Len c.rest := by
  induction c using tokens_induction with
  | error c e c' hn =>
    rw [stream_of_error hn]
    exact Nat.zero_le _
  | ending c t c' hn hk =>
    rw [stream_of_end hn hk]
    exact Nat.zero_le _
  | token c t c' hn hk ih =>
    have hless := utf8Len_rest_next (c := c) (by rw [hn]; exact hk)
    rw [hn] at hless
    rw [stream_of_token hn hk, List.length_cons]
    exact Nat.lt_of_le_of_lt ih hless

end Cursor

/-- The bytes behind a cursor and those ahead of it are **all bytes** of the source. -/
theorem Cursor.StandsIn.pos_add {source : String} {c : Cursor} (h : c.StandsIn source) :
    c.loc.pos + utf8Len c.rest = source.utf8ByteSize := by
  obtain ⟨before, hsource, -, hmarks⟩ := h
  rw [hmarks.pos, ← String.utf8Len_append, ← hsource, ← String.utf8ByteSize_ofList,
    String.ofList_toList]

namespace Lexer

/-! ### Answers in turn -/

/-- The two ways in which a lexer is asked. -/
inductive Call where
  /-- for the next token -/
  | token
  /-- for one more, unless finished -/
  | next

/-- Asks a lexer once. -/
def ask (l : Lexer) : Call → Option (Except SyntaxError Token) × Lexer
  | .token => (some l.nextToken.1, l.nextToken.2)
  | .next => l.next?

/-- The lexer after some calls. -/
def after (l : Lexer) : List Call → Lexer
  | [] => l
  | call :: calls => (l.ask call).2.after calls

/-- What a lexer gives to some calls, one by one. -/
def answers (l : Lexer) : List Call → List (Option (Except SyntaxError Token))
  | [] => []
  | call :: calls => (l.ask call).1 :: (l.ask call).2.answers calls

/-- Whether an answer is one that **finishes** a lexer: the end, or an error. -/
def finishes : Except SyntaxError Token → Bool
  | .ok token => token.kind.isEof
  | .error _ => true

variable {source : String} {l : Lexer} {result : Except SyntaxError Token} {call : Call}

theorem next?_of_finished (h : l.finished = true) : l.next? = (none, l) := by
  rw [next?, if_pos h]

theorem next?_of_open (h : l.finished = false) :
    l.next? = (some l.cursor.next.1, ⟨l.cursor.next.2, finishes l.cursor.next.1⟩) := by
  rw [next?, if_neg (by simp [h])]
  rfl

/-- An answer that is given is **the cursor's**, asked in either way. -/
theorem ask_eq_some (h : (l.ask call).1 = some result) :
    l.cursor.next.1 = result ∧ (l.ask call).2.cursor = l.cursor.next.2 := by
  cases call with
  | token => exact ⟨Option.some.inj h, rfl⟩
  | next =>
    cases hf : l.finished with
    | true =>
      rw [ask, next?_of_finished hf] at h
      cases h
    | false =>
      rw [ask, next?_of_open hf] at h ⊢
      exact ⟨Option.some.inj h, rfl⟩

theorem Reached.ask (h : l.Reached source) (call : Call) : (l.ask call).2.Reached source := by
  cases call with
  | token => exact h.nextToken
  | next => exact h.next

theorem Reached.after (h : l.Reached source) (calls : List Call) :
    (l.after calls).Reached source := by
  induction calls generalizing l with
  | nil => exact h
  | cons call calls ih => exact ih (h.ask call)

/-! ### The end is given again -/

/-- A lexer is **settled** on a token if it gives that token and stays where it is. -/
def Settled (l : Lexer) (t : Token) : Prop := l.cursor.next = (.ok t, l.cursor)

variable {t : Token}

/-- Behind the end a lexer is settled on it, in whichever way it was asked. -/
theorem settled_of_end (h : (l.ask call).1 = some (.ok t)) (ht : t.kind.isEof = true) :
    (l.ask call).2.Settled t := by
  obtain ⟨hnext, hcursor⟩ := ask_eq_some h
  rw [Settled, hcursor]
  exact Cursor.next_of_end (Prod.ext hnext rfl) ht

/-- **Step**: neither call moves a settled lexer. -/
theorem Settled.ask (h : l.Settled t) (call : Call) : (l.ask call).2.Settled t := by
  have hcursor : (l.ask call).2.cursor = l.cursor := by
    cases call with
    | token => exact congrArg Prod.snd h
    | next =>
      cases hf : l.finished with
      | true => rw [Lexer.ask, next?_of_finished hf]
      | false =>
        rw [Lexer.ask, next?_of_open hf]
        exact congrArg Prod.snd h
  rw [Settled, hcursor]
  exact h

/-- **Run**: a settled lexer stays settled, whatever is asked. -/
theorem Settled.after (h : l.Settled t) (calls : List Call) : (l.after calls).Settled t := by
  induction calls generalizing l with
  | nil => exact h
  | cons call calls ih => exact ih (h.ask call)

/-- Asked for the next token, a settled lexer gives its own and does not change. -/
theorem Settled.nextToken_eq (h : l.Settled t) : l.nextToken = (.ok t, l) := by
  rw [nextToken, h]

/-! ### The end is come to -/

/-- Of as many answers as there are bytes ahead, and one more, **one is the end**. -/
theorem exists_end (l : Lexer) : ∃ n ≤ utf8Len l.cursor.rest,
    Cursor.atEnd (l.after (List.replicate n .token)).nextToken.1 = true := by
  induction hbytes : utf8Len l.cursor.rest using Nat.strongRecOn generalizing l with
  | ind bytes ih =>
    subst hbytes
    cases hend : Cursor.atEnd l.nextToken.1 with
    | true => exact ⟨0, Nat.zero_le _, hend⟩
    | false =>
      have hless := Cursor.utf8Len_rest_next hend
      obtain ⟨n, hn, hlast⟩ := ih _ hless l.nextToken.2 rfl
      exact ⟨n + 1, Nat.lt_of_le_of_lt hn hless, hlast⟩

/-- Asked for tokens, a lexer gives **the elements of the stream** ahead. -/
theorem answers_token (c : Cursor) (finished : Bool) :
    (Lexer.mk c finished).answers (List.replicate (c.stream.tokens.length + 1) .token) =
      c.stream.elements.map some := by
  induction c using Cursor.tokens_induction with
  | error c e c' hn =>
    rw [Cursor.stream_of_error hn]
    simp [answers, ask, nextToken, hn, TokenStream.elements, Except.map]
  | ending c t c' hn hk =>
    obtain ⟨kind, span⟩ := t
    obtain rfl : kind = .eof := TokenKind.isEof_iff.1 hk
    rw [Cursor.stream_of_end hn hk]
    simp [answers, ask, nextToken, hn, TokenStream.elements, Except.map]
  | token c t c' hn hk ih =>
    rw [Cursor.stream_of_token hn hk, List.length_cons, List.replicate_succ, answers]
    have hmore : ((Lexer.mk c finished).ask .token).2 = ⟨c', finished⟩ := by
      simp [ask, nextToken, hn]
    rw [hmore, ih]
    simp [ask, nextToken, hn, TokenStream.elements]

/-! ### When nothing more is given -/

/-- A lexer **was finished** by some calls if one of them, for one more, was answered by what
finishes. -/
def FinishedBy (l : Lexer) (calls : List Call) : Prop :=
  ∃ before more result, calls = before ++ .next :: more ∧
    (l.after before).next?.1 = some result ∧ finishes result = true

theorem finishedBy_cons {calls : List Call} :
    l.FinishedBy (call :: calls) ↔
      (call = .next ∧ ∃ result, l.next?.1 = some result ∧ finishes result = true) ∨
        (l.ask call).2.FinishedBy calls := by
  constructor
  · rintro ⟨_ | ⟨first, before⟩, more, result, heq, hgiven, hfinishes⟩
    · cases heq
      exact .inl ⟨rfl, result, hgiven, hfinishes⟩
    · cases heq
      exact .inr ⟨before, more, result, rfl, hgiven, hfinishes⟩
  · rintro (⟨rfl, result, hgiven, hfinishes⟩ | ⟨before, more, result, rfl, hgiven, hfinishes⟩)
    · exact ⟨[], calls, result, rfl, hgiven, hfinishes⟩
    · exact ⟨call :: before, more, result, rfl, hgiven, hfinishes⟩

/-- A lexer is finished if it was before, or if **it was finished by the calls**. -/
theorem finished_after_iff {calls : List Call} :
    (l.after calls).finished = true ↔ l.finished = true ∨ l.FinishedBy calls := by
  induction calls generalizing l with
  | nil =>
    have hnone : ¬l.FinishedBy [] := by
      rintro ⟨before, more, result, heq, -⟩
      exact absurd heq.symm (List.append_ne_nil_of_right_ne_nil _ (List.cons_ne_nil _ _))
    simp [after, hnone]
  | cons call calls ih =>
    rw [after, ih, finishedBy_cons]
    cases call with
    | token => simp [ask, nextToken]
    | next =>
      cases hf : l.finished with
      | true => simp [ask, next?_of_finished hf, hf]
      | false => simp [ask, next?_of_open hf]

/-- Nothing is given exactly if the lexer **is finished**. -/
theorem next?_eq_none_iff : l.next?.1 = none ↔ l.finished = true := by
  cases hf : l.finished with
  | true => simp [next?_of_finished hf]
  | false => simp [next?_of_open hf]

end Lexer

/-! ### Sources -/

open Lexer in
/-- **A lexer is drained.** In whatever state a lexer over a source is, after any calls of both
kinds and whatever they gave:

* an answer that is not the end takes text, so that the offset is greater afterwards, and it never
  goes beyond the source;
* the answer is the end exactly if only blanks and whole comments are ahead, and from then on,
  whatever is asked, the next token is that same end and the lexer stays as it is;
* the end is come to in as many answers as there are bytes ahead, and one more;
* asked for one more, the lexer gives nothing exactly if an earlier call of that kind was answered
  by the end or by an error.

From the start, the tokens up to the end are what `lex` gives, and where `lex` gives an error they
are the tokens before it: both ways of asking give them, one by one, and then the end or the
error. -/
theorem lexer_drains (source : String) :
    (∀ calls, let l := (Lexer.ofString source).after calls
      l.cursor.loc.pos + utf8Len l.cursor.rest = source.utf8ByteSize ∧
      (∀ call result, (l.ask call).1 = some result →
        (Cursor.atEnd result = false →
          l.cursor.loc.pos < (l.ask call).2.cursor.loc.pos) ∧
        (Cursor.atEnd result = true ↔ Gap l.cursor.rest)) ∧
      (∀ call t, (l.ask call).1 = some (.ok t) → t.kind = .eof → ∀ more,
        ((l.ask call).2.after more).nextToken = (.ok t, (l.ask call).2.after more)) ∧
      (∃ n ≤ utf8Len l.cursor.rest,
        Cursor.atEnd (l.after (List.replicate n .token)).nextToken.1 = true) ∧
      (l.next?.1 = none ↔ (Lexer.ofString source).FinishedBy calls)) ∧
    ∃ (tokens : List Token) (last : Except SyntaxError Token),
      tokens.length ≤ source.utf8ByteSize ∧ (∀ t ∈ tokens, t.kind ≠ .eof) ∧
      (∀ t, last = .ok t → t.kind = .eof) ∧
      lex source = last.map (fun ending => tokens ++ [ending]) ∧
      (Lexer.ofString source).answers (List.replicate (tokens.length + 1) .token) =
        (tokens.map Except.ok ++ [last]).map some ∧
      ∀ n, (Lexer.ofString source).results n = (tokens.map Except.ok ++ [last]).take n := by
  refine ⟨fun calls => ?_, ?_⟩
  · intro l
    have hl : l.Reached source := Reached.start.after calls
    refine ⟨hl.standsIn.pos_add, ?_, ?_, l.exists_end, ?_⟩
    · intro call result hgiven
      obtain ⟨rfl, hcursor⟩ := ask_eq_some hgiven
      refine ⟨fun hmore => ?_, Cursor.atEnd_next_iff⟩
      have hpos := l.cursor.pos_next
      have hless := Cursor.utf8Len_rest_next hmore
      rw [hcursor]
      omega
    · intro call t hgiven heof more
      exact ((settled_of_end hgiven (TokenKind.isEof_iff.2 heof)).after more).nextToken_eq
    · rw [next?_eq_none_iff, finished_after_iff]
      simp [Lexer.ofString]
  · have hlength := (Cursor.ofString source).length_stream_le
    have hbytes := (Cursor.StandsIn.ofString source).pos_add
    refine ⟨(Cursor.ofString source).stream.tokens, _, ?_, ?_, ?_, ?_,
      answers_token (Cursor.ofString source) false, results_eq_elements source⟩
    · omega
    · exact fun t => Cursor.kind_ne_eof_of_mem_stream
    · intro t ht
      cases hending : (Cursor.ofString source).stream.ending <;> rw [hending] at ht <;> cases ht
      rfl
    · rw [lex_eq_stream]
      cases (Cursor.ofString source).stream.ending <;> rfl

open Lexer in
/-- A string that is not closed takes all there is. What comes behind that error is the end, and
then nothing more. -/
theorem lexer_drains_unclosed :
    let l := (Lexer.ofString "1 \x22é").after [.next]
    let m := l.nextToken.2
    let ending : Token := ⟨.eof, ⟨⟨5, 1, 5⟩, ⟨5, 1, 5⟩⟩⟩
    l.nextToken.1 = .error ⟨.lexical (.unterminatedString '\x22'), ⟨⟨2, 1, 3⟩, ⟨5, 1, 5⟩⟩⟩ ∧
      l.cursor.loc.pos = 1 ∧ m.cursor.loc.pos = 5 ∧ l.cursor.loc.pos < m.cursor.loc.pos ∧
      ¬Gap l.cursor.rest ∧ Gap m.cursor.rest ∧ m.nextToken.1 = .ok ending ∧
      (∀ more, (m.nextToken.2.after more).nextToken = (.ok ending, m.nextToken.2.after more)) ∧
      m.next?.2.next?.1 = none := by
  intro l m ending
  have hl := (lexer_drains "1 \x22é").1 [.next]
  have hm := (lexer_drains "1 \x22é").1 [.next, .token]
  have herror : l.nextToken.1 =
      .error ⟨.lexical (.unterminatedString '\x22'), ⟨⟨2, 1, 3⟩, ⟨5, 1, 5⟩⟩⟩ := by
    with_unfolding_all rfl
  have hending : m.nextToken.1 = .ok ending := by with_unfolding_all rfl
  obtain ⟨hless, hgap⟩ := hl.2.1 .token _ (congrArg some herror)
  have hnone := ((lexer_drains "1 \x22é").1 [.next, .token, .next]).2.2.2.2
  refine ⟨herror, by with_unfolding_all rfl, by with_unfolding_all rfl, hless rfl, ?_, ?_, hending,
    hm.2.2.1 .token ending (congrArg some hending) rfl,
    hnone.2 ⟨[.next, .token], [], .ok ending, rfl, ?_, rfl⟩⟩
  · intro hrest
    cases hgap.2 hrest
  · exact (hm.2.1 .token _ (congrArg some hending)).2.1 rfl
  · with_unfolding_all rfl

end RuleScript
