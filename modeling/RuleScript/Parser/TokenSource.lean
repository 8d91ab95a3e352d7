import RuleScript.Process
import RuleScript.Token.Cursor

/-!
# Where a parser takes its tokens from

The grammar needs one token of lookahead and nothing else: it looks at the
next token, and it drops the token it has looked at. Anything that can do these
two things is a `TokenSource`.

* A `Lookahead` reads tokens from a source text **on demand**. What comes after
  the point where parsing stops is never read.
* A `TokenStream` holds tokens that were read **beforehand**. If reading them
  met an error, that error is what comes after them.

The laws (`LawfulTokenSource`) say that looking does not change what is seen,
and that a source has only so many tokens before its end.
-/

namespace RuleScript

/-- A supply of tokens with one token of lookahead. -/
class TokenSource (σ : Type) where
  /-- looks at the next token; an error in its place is passed over -/
  peek : σ → Except SyntaxError Token × σ
  /-- drops the token that was looked at -/
  drop : σ → σ
  /-- a bound on the number of tokens before the end -/
  size : σ → Nat

/-- What can be relied on in a supply of tokens. -/
class LawfulTokenSource (σ : Type) [TokenSource σ] : Prop where
  /-- looking again shows the same token -/
  peek_peek : ∀ {s s' : σ} {t : Token},
    TokenSource.peek s = (.ok t, s') → TokenSource.peek s' = (.ok t, s')
  /-- looking adds no token -/
  size_peek : ∀ s : σ, TokenSource.size (TokenSource.peek s).2 ≤ TokenSource.size s
  /-- dropping a token before the end leaves fewer -/
  size_drop : ∀ {s s' : σ} {t : Token}, TokenSource.peek s = (.ok t, s') → t.kind ≠ .eof →
    TokenSource.size (TokenSource.drop s') < TokenSource.size s

/-! ### Tokens on demand -/

/-- A source that is being read, with the token last looked at. -/
structure Lookahead where
  /-- the place reached in the source -/
  cursor : Cursor
  /-- the token that was looked at and not dropped -/
  peeked : Option Token

namespace Lookahead

/-- A source of which nothing has been read. -/
def ofString (source : String) : Lookahead := ⟨.ofString source, none⟩

/-- Looks at the next token, reading it if need be. -/
def peek (s : Lookahead) : Except SyntaxError Token × Lookahead :=
  match s.peeked with
  | some t => (.ok t, s)
  | none =>
    match s.cursor.next with
    | (.ok t, cursor) => (.ok t, ⟨cursor, some t⟩)
    | (.error e, cursor) => (.error e, ⟨cursor, none⟩)

/-- Drops the token that was looked at. -/
def drop (s : Lookahead) : Lookahead := ⟨s.cursor, none⟩

/-- The token that was looked at, and at most one for each character ahead. -/
def size (s : Lookahead) : Nat :=
  s.cursor.rest.length +
    match s.peeked with
    | some t => if t.kind.isEof then 0 else 1
    | none => 0

instance : TokenSource Lookahead := ⟨peek, drop, size⟩

/-- Reading a token does not make the source longer. -/
theorem size_peek (s : Lookahead) : s.peek.2.size ≤ s.size := by
  obtain ⟨cursor, peeked⟩ := s
  cases peeked with
  | some t => exact Nat.le_refl _
  | none =>
    have hle := cursor.length_rest_next_le
    have hlt := cursor.length_rest_next
    simp only [peek]
    split
    · next t c h =>
      rw [h] at hle hlt
      simp only [size]
      split
      · exact hle
      · next hk => exact hlt (Bool.eq_false_iff.2 hk)
    · next e c h =>
      rw [h] at hle
      exact hle

/-- Looking again shows the same token. -/
theorem peek_peek {s s' : Lookahead} {t : Token} (h : s.peek = (.ok t, s')) :
    s'.peek = (.ok t, s') := by
  unfold peek at h
  split at h
  · next heq =>
    cases h
    simp [peek, heq]
  · split at h
    · cases h
      rfl
    · cases h

/-- The token just looked at is the one that is kept. -/
theorem peeked_of_peek {s s' : Lookahead} {t : Token} (h : s.peek = (.ok t, s')) :
    s'.peeked = some t := by
  unfold peek at h
  split at h
  · next heq =>
    cases h
    exact heq
  · split at h
    · cases h
      rfl
    · cases h

instance : LawfulTokenSource Lookahead where
  peek_peek := peek_peek
  size_peek := size_peek
  size_drop := by
    intro s s' t h hk
    have hle := size_peek s
    change s.peek = (.ok t, s') at h
    rw [h] at hle
    refine Nat.lt_of_lt_of_le ?_ hle
    have hkind : t.kind.isEof = false := by
      rw [← Bool.not_eq_true]
      simpa using hk
    change s'.drop.size < s'.size
    simp [size, drop, peeked_of_peek h, hkind]

end Lookahead

/-! ### Tokens read beforehand -/

/-- Tokens, and what comes after them: the end, or an error. -/
structure TokenStream where
  /-- the tokens before the end -/
  tokens : List Token
  /-- where the end is, or the error in its place -/
  ending : Except SyntaxError Span

namespace TokenStream

/-- All tokens of a source up to its end or the first error. -/
def ofString (source : String) : TokenStream :=
  match (Cursor.ofString source).tokens with
  | (tokens, none) =>
    ⟨tokens.dropLast, .ok ((tokens.getLast?.map Token.span).getD (.point .origin))⟩
  | (tokens, some e) => ⟨tokens, .error e⟩

/-- Looks at the next token. -/
def peek (s : TokenStream) : Except SyntaxError Token × TokenStream :=
  match s.tokens, s.ending with
  | t :: _, _ => (.ok t, s)
  | [], .ok span => (.ok ⟨.eof, span⟩, s)
  | [], .error e => (.error e, s)

/-- Drops the next token. -/
def drop (s : TokenStream) : TokenStream := ⟨s.tokens.tail, s.ending⟩

/-- The number of tokens before the end. -/
def size (s : TokenStream) : Nat := s.tokens.length

instance : TokenSource TokenStream := ⟨peek, drop, size⟩

/-- Looking takes no token. -/
theorem peek_snd (s : TokenStream) : s.peek.2 = s := by
  unfold peek
  split <;> rfl

instance : LawfulTokenSource TokenStream where
  peek_peek := by
    intro s s' t h
    have : s' = s := by rw [← peek_snd s, show s.peek = _ from h]
    rwa [this] at h ⊢
  size_peek := by
    intro s
    exact Nat.le_of_eq (congrArg size (peek_snd s))
  size_drop := by
    intro s s' t h hk
    have hs : s' = s := by rw [← peek_snd s, show s.peek = _ from h]
    change s'.drop.size < s.size
    rw [hs]
    change s.peek = _ at h
    unfold peek at h
    split at h
    · next heq => simp [drop, size, heq]
    · cases h
      exact absurd rfl hk
    · cases h

end TokenStream

/-! ### Looking, dropping and expecting -/

/-- A parser: a process that takes tokens and may fail with a syntax error. -/
abbrev Parser (σ α : Type) : Type := Process σ SyntaxError α

namespace Parser

variable {σ : Type} [TokenSource σ]

/-- Looks at the next token. -/
def peek : Parser σ Token where
  run s :=
    match TokenSource.peek s with
    | (.ok t, s') => (.done t, s')
    | (.error e, s') => (.failed e, s')

variable {s s' : σ} {t : Token} {e : SyntaxError}

/-- Looking gives the token that is shown. -/
theorem run_peek (h : TokenSource.peek s = (.ok t, s')) :
    (peek : Parser σ Token).run s = (.done t, s') := by
  rw [peek]
  dsimp only
  rw [h]

/-- Looking fails with the error that is shown. -/
theorem run_peek_error (h : TokenSource.peek s = (.error e, s')) :
    (peek : Parser σ Token).run s = (.failed e, s') := by
  rw [peek]
  dsimp only
  rw [h]

/-- Drops the token that was looked at. -/
def skip : Parser σ Unit := Process.update TokenSource.drop

/-- Whether the next token is the given symbol. -/
def check (symbol : Symbol) : Parser σ Bool := do
  let token ← peek
  return token.kind.isSymbol symbol

/-- Takes the next token if it is the given symbol, and tells whether it was. -/
def accept (symbol : Symbol) : Parser σ Bool := do
  let token ← peek
  if token.kind.isSymbol symbol then
    skip
    return true
  else
    return false

/-- Takes the given symbol. -/
def expect (symbol : Symbol) (expected : Expected) : Parser σ Token := do
  let token ← peek
  if token.kind.isSymbol symbol then
    skip
    return token
  else
    Process.fail (.unexpected expected token)

end Parser

end RuleScript
