import RuleScript.Token.Trivia
import RuleScript.Token.Lexeme

/-!
# Reading tokens from a source

A `Cursor` stands somewhere in a source text: it holds the text still ahead
and the location reached. `Cursor.next` reads one token, or the error that
stands in its place, and moves on in both cases; at the end of the source it
stays where it is.

* `Cursor.length_rest_next`: unless the end was read, text was taken.
* `Cursor.tokens` reads up to the end or the first error, and `lex` is the
  same for a whole source.
* A `Lexer` is a cursor that can be asked for one more token until it has given
  the end or an error.
-/

namespace RuleScript

/-- A place in a source text. -/
structure Cursor where
  /-- the text ahead -/
  rest : List Char
  /-- the location reached -/
  loc : Location

namespace Cursor

/-- The cursor at the start of a source. -/
def ofString (source : String) : Cursor := ⟨source.toList, .origin⟩

/-- Reads one token. Trivia before it is skipped; an error takes the text it
is blamed on. -/
def next (c : Cursor) : Except SyntaxError Token × Cursor :=
  match Trivia.skip c.rest with
  | .unclosed skipped comment =>
    let start := c.loc.advance skipped
    let stop := start.advance comment
    (.error ⟨.lexical .unterminatedComment, ⟨start, stop⟩⟩, ⟨[], stop⟩)
  | .closed skipped [] =>
    let stop := c.loc.advance skipped
    (.ok ⟨.eof, .point stop⟩, ⟨[], stop⟩)
  | .closed skipped (ch :: cs) =>
    let lexeme := Lexeme.read ch cs
    let start := c.loc.advance skipped
    let stop := start.advance lexeme.text
    let result := match lexeme.reading with
      | .ok kind => .ok ⟨kind, ⟨start, stop⟩⟩
      | .error cause => .error ⟨.lexical cause, ⟨start, stop⟩⟩
    (result, ⟨lexeme.rest, stop⟩)

/-- Whether reading came to its end. -/
def atEnd : Except SyntaxError Token → Bool
  | .ok token => token.kind.isEof
  | .error _ => false

/-- Reading never puts text back. -/
theorem length_rest_next_le (c : Cursor) : c.next.2.rest.length ≤ c.rest.length := by
  have h := congrArg List.length (Trivia.skip_split c.rest)
  rw [next]
  split <;> rename_i hs <;> rw [hs] at h
  · simp
  · simp
  · rename_i skipped ch cs
    have := Lexeme.length_rest_read ch cs
    simp only [Trivia.whole, List.length_append] at h
    simp only
    omega

/-- Whatever is read before the end takes text. -/
theorem length_rest_next (c : Cursor) (h : atEnd c.next.1 = false) :
    c.next.2.rest.length < c.rest.length := by
  have hlen := congrArg List.length (Trivia.skip_split c.rest)
  revert h
  rw [next]
  split <;> rename_i hs <;> rw [hs] at hlen
  · rename_i skipped comment
    intro _
    have : comment ≠ [] := Trivia.comment_ne_nil hs
    have := List.length_pos_iff.2 this
    simp only [Trivia.whole, List.length_append] at hlen
    simp only [List.length_nil]
    omega
  · simp [atEnd, TokenKind.isEof]
  · rename_i skipped ch cs
    intro _
    have := Lexeme.length_rest_read ch cs
    simp only [Trivia.whole, List.length_append] at hlen
    simp only
    omega

/-- The tokens up to the end, the end included, or up to the first error. -/
def tokens (c : Cursor) : List Token × Option SyntaxError :=
  match h : c.next with
  | (.error e, _) => ([], some e)
  | (.ok token, c') =>
    if hk : token.kind.isEof then ([token], none)
    else
      have : c'.rest.length < c.rest.length := by
        have := c.length_rest_next (by rw [h]; exact Bool.eq_false_iff.2 hk)
        rwa [h] at this
      let (more, failure) := c'.tokens
      (token :: more, failure)
termination_by c.rest.length

end Cursor

/-- All tokens of a source, the end included. -/
def lex (source : String) : Except SyntaxError (List Token) :=
  match (Cursor.ofString source).tokens with
  | (tokens, none) => .ok tokens
  | (_, some e) => .error e

/-- A cursor that knows whether it has given the end or an error. -/
structure Lexer where
  /-- the place reached -/
  cursor : Cursor
  /-- whether there is nothing more to ask for -/
  finished : Bool

namespace Lexer

/-- The lexer at the start of a source. -/
def ofString (source : String) : Lexer := ⟨.ofString source, false⟩

/-- Reads one token, finished or not. -/
def nextToken (l : Lexer) : Except SyntaxError Token × Lexer :=
  let (result, cursor) := l.cursor.next
  (result, ⟨cursor, l.finished⟩)

/-- Reads one token unless finished, which the end and any error bring about. -/
def next? (l : Lexer) : Option (Except SyntaxError Token) × Lexer :=
  if l.finished then (none, l)
  else
    let (result, cursor) := l.cursor.next
    let finished := match result with
      | .ok token => token.kind.isEof
      | .error _ => true
    (some result, ⟨cursor, finished⟩)

end Lexer

end RuleScript
