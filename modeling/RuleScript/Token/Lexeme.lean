import RuleScript.SyntaxError

/-!
# Lexemes

The piece of text that makes one token. A lexeme depends on the text alone and
not on where it stands: locations are added afterwards, by measuring the text
that was taken.

* `Lexeme.read` takes the lexeme at the front of a text that is not empty. Its
  reading is a token kind, or the reason why there is none; in both cases some
  text is taken.
* `Lexeme.read_split` and `Lexeme.read_text_ne_nil` say that the text taken and
  the text left make up what was given, and that something was taken.
-/

namespace RuleScript

/-- Letters and the underscore. -/
def isNameStart (c : Char) : Bool := c.isAlpha || c == '_'

/-- Letters, digits, the underscore and the dash. -/
def isNameRest (c : Char) : Bool := c.isAlphanum || c == '_' || c == '-'

/-- The piece of text at the front of another. -/
structure Lexeme where
  /-- the text that was taken -/
  text : List Char
  /-- what it means -/
  reading : Except LexicalCause TokenKind
  /-- the text that is left -/
  rest : List Char

namespace Lexeme

/-! ### Names and words -/

/-- The kind of a word: two of them are values, all others are names. -/
def wordKind (text : String) : TokenKind :=
  if text = "true" then .bool true
  else if text = "false" then .bool false
  else .name text

/-- A word, the front of which is already taken. -/
def word (front cs : List Char) : Lexeme where
  text := front ++ cs.takeWhile isNameRest
  reading := .ok (wordKind (String.ofList (front ++ cs.takeWhile isNameRest)))
  rest := cs.dropWhile isNameRest

/-- What follows two dashes: the name of a variable. -/
def dashed : List Char → Lexeme
  | c :: cs =>
    if isNameStart c then word ['-', '-', c] cs
    else ⟨['-', '-'], .error .missingName, c :: cs⟩
  | [] => ⟨['-', '-'], .error .missingName, []⟩

/-! ### Numbers -/

/-- The reading of a sequence of digits. -/
def integer (digits : List Char) : Except LexicalCause TokenKind :=
  match Integer.fit? (Decimal.digitsValue digits) with
  | some value => .ok (.int value)
  | none => .error (.integerTooLarge (String.ofList digits))

/-- What follows the point of a number, the digits before which are given. -/
def fraction (whole cs : List Char) : Lexeme :=
  let digits := cs.takeWhile Char.isDigit
  let text := whole ++ '.' :: digits
  match cs.dropWhile Char.isDigit with
  | '.' :: rest => ⟨text ++ ['.'], .error .secondPoint, rest⟩
  | rest => ⟨text, .ok (.float (Decimal.read whole digits)), rest⟩

/-- A number: digits, and more digits if a point follows. -/
def number (cs : List Char) : Lexeme :=
  let digits := cs.takeWhile Char.isDigit
  match cs.dropWhile Char.isDigit with
  | '.' :: rest => fraction digits rest
  | rest => ⟨digits, integer digits, rest⟩

/-! ### Quoted texts -/

/-- The inside of a quoted text up to the quote that closes it, and the text
after that quote. A backslash protects the character after it. -/
def closeQuote (quote : Char) : List Char → Option (List Char × List Char)
  | [] => none
  | c :: cs =>
    if c = quote then some ([], cs)
    else if c = '\\' then
      match cs with
      | [] => none
      | d :: ds => (closeQuote quote ds).map fun (body, rest) => (c :: d :: body, rest)
    else (closeQuote quote cs).map fun (body, rest) => (c :: body, rest)

/-- The character that a backslash and a character stand for. -/
def escaped : Char → Char
  | 'n' => '\n'
  | 'r' => '\r'
  | 't' => '\t'
  | 'f' => '\x0c'
  | c => c

/-- The text that the inside of a quoted text stands for. A carriage return
with a line feed after it is one line break and is kept as the carriage return
alone. -/
def unescape : List Char → List Char
  | [] => []
  | '\\' :: '\r' :: '\n' :: cs => '\r' :: unescape cs
  | '\\' :: c :: cs => escaped c :: unescape cs
  | '\r' :: '\n' :: cs => '\r' :: unescape cs
  | c :: cs => c :: unescape cs

/-- A quoted text, from its opening quote. -/
def quoted (quote : Char) (cs : List Char) : Lexeme :=
  match closeQuote quote cs with
  | some (body, rest) =>
    ⟨quote :: body ++ [quote], .ok (.string (String.ofList (unescape body))), rest⟩
  | none => ⟨quote :: cs, .error (.unterminatedString quote), []⟩

/-! ### Symbols -/

/-- The symbols of two characters. -/
def pairSymbol : Char → Char → Option Symbol
  | '!', '=' => some .notEqual
  | '=', '=' => some .equal
  | '<', '=' => some .lessEqual
  | '>', '=' => some .greaterEqual
  | '&', '&' => some .and
  | '|', '|' => some .or
  | _, _ => none

/-- The symbols of one character. -/
def charSymbol : Char → Option Symbol
  | '(' => some .openParen
  | ')' => some .closeParen
  | ',' => some .comma
  | '.' => some .dot
  | '#' => some .hash
  | '@' => some .at
  | '\x7b' => some .openBrace
  | '\x7d' => some .closeBrace
  | ':' => some .colon
  | ';' => some .semicolon
  | '[' => some .openBracket
  | ']' => some .closeBracket
  | '$' => some .dollar
  | '+' => some .plus
  | '-' => some .minus
  | '*' => some .star
  | '/' => some .slash
  | '%' => some .percent
  | '^' => some .caret
  | '!' => some .bang
  | '=' => some .assign
  | '<' => some .less
  | '>' => some .greater
  | _ => none

/-- The reading of a character alone. -/
def charReading (c : Char) : Except LexicalCause TokenKind :=
  match charSymbol c with
  | some s => .ok (.symbol s)
  | none => .error (if c = '&' ∨ c = '|' then .halfOperator c else .unexpectedCharacter c)

/-- A symbol, the longer one where two would do. -/
def punctuation (c : Char) : List Char → Lexeme
  | d :: cs =>
    match pairSymbol c d with
    | some s => ⟨[c, d], .ok (.symbol s), cs⟩
    | none => ⟨[c], charReading c, d :: cs⟩
  | [] => ⟨[c], charReading c, []⟩

/-! ### The lexeme at the front of a text -/

/-- Whether a text goes on with a digit. -/
def startsWithDigit : List Char → Bool
  | c :: _ => c.isDigit
  | [] => false

/-- Takes the lexeme at the front of a text. The text is no trivia. -/
def read (c : Char) (cs : List Char) : Lexeme :=
  if isNameStart c then word [c] cs
  else if c = '-' ∧ cs.head? = some '-' then dashed (cs.drop 1)
  else if c.isDigit || (c == '.' && startsWithDigit cs) then number (c :: cs)
  else if c = '\x22' ∨ c = '\x27' then quoted c cs
  else punctuation c cs

/-! ### Nothing is lost, and something is taken -/

/-- What was taken and what is left, put together again. -/
def whole (l : Lexeme) : List Char := l.text ++ l.rest

theorem whole_word (front cs : List Char) : (word front cs).whole = front ++ cs := by
  simp [word, whole]

theorem whole_dashed (cs : List Char) : (dashed cs).whole = '-' :: '-' :: cs := by
  cases cs with
  | nil => rfl
  | cons c cs =>
    rw [dashed]
    split
    · simp [whole_word]
    · rfl

theorem whole_fraction (front cs : List Char) : (fraction front cs).whole = front ++ '.' :: cs := by
  have h := List.takeWhile_append_dropWhile (p := Char.isDigit) (l := cs)
  rw [fraction]
  split
  · next rest heq =>
    rw [heq] at h
    simp only [whole, List.append_assoc, List.cons_append, List.nil_append]
    rw [h]
  · next rest heq => simp [whole, h]

theorem whole_number (cs : List Char) : (number cs).whole = cs := by
  have h := List.takeWhile_append_dropWhile (p := Char.isDigit) (l := cs)
  rw [number]
  split
  · next rest heq => rw [whole_fraction, ← heq, h]
  · next rest heq => simp [whole, h]

theorem closeQuote_split {quote : Char} {cs body rest : List Char}
    (h : closeQuote quote cs = some (body, rest)) : body ++ quote :: rest = cs := by
  fun_induction closeQuote quote cs generalizing body rest with
  | case1 => cases h
  | case2 cs =>
    cases h
    rfl
  | case3 => cases h
  | case4 hq d ds ih =>
    obtain ⟨⟨b, r⟩, hb, heq⟩ := Option.map_eq_some_iff.1 h
    cases heq
    rw [List.cons_append, List.cons_append, ih hb]
  | case5 c cs hq hs ih =>
    obtain ⟨⟨b, r⟩, hb, heq⟩ := Option.map_eq_some_iff.1 h
    cases heq
    rw [List.cons_append, ih hb]

theorem whole_quoted (quote : Char) (cs : List Char) : (quoted quote cs).whole = quote :: cs := by
  rw [quoted]
  split
  · next body rest h => simp [whole, ← closeQuote_split h]
  · simp [whole]

theorem whole_punctuation (c : Char) (cs : List Char) : (punctuation c cs).whole = c :: cs := by
  cases cs with
  | nil => rfl
  | cons d cs => rw [punctuation]; split <;> rfl

/-- The text taken and the text left make up what was given. -/
theorem read_split (c : Char) (cs : List Char) : (read c cs).whole = c :: cs := by
  rw [read]
  split
  · rw [whole_word, List.singleton_append]
  split
  · next h =>
    obtain ⟨rfl, hd⟩ := h
    rw [whole_dashed]
    cases cs <;> simp_all
  split
  · rw [whole_number]
  split
  · rw [whole_quoted]
  · rw [whole_punctuation]

/-- A lexeme is not empty. -/
theorem read_text_ne_nil (c : Char) (cs : List Char) : (read c cs).text ≠ [] := by
  rw [read]
  split
  · simp [word]
  split
  · cases cs.drop 1 with
    | nil => simp [dashed]
    | cons d ds => rw [dashed]; split <;> simp [word]
  split
  · next h =>
    rw [number]
    split
    · rw [fraction]
      split <;> simp
    · next hd hn =>
      intro hnil
      simp only at hnil
      by_cases hc : c.isDigit
      · simp [hc] at hnil
      · simp only [hc, Bool.false_or, Bool.and_eq_true, beq_iff_eq] at h
        refine hn cs ?_
        simp [h.1]
  split
  · rw [quoted]
    split <;> simp
  · cases cs with
    | nil => simp [punctuation]
    | cons d ds => rw [punctuation]; split <;> simp

/-- Less text is left than was given. -/
theorem length_rest_read (c : Char) (cs : List Char) :
    (read c cs).rest.length < (c :: cs).length := by
  have h := congrArg List.length (read_split c cs)
  have := List.length_pos_iff.2 (read_text_ne_nil c cs)
  simp only [whole, List.length_append] at h
  omega

/-- No lexeme reads as the end of the source. -/
theorem read_reading_ne_eof (ch : Char) (cs : List Char) :
    (read ch cs).reading ≠ .ok .eof := by
  rw [read]
  repeat' split
  · rw [word, wordKind]
    split
    · simp
    · split <;> simp
  · cases cs.drop 1 with
    | nil => simp [dashed]
    | cons d ds =>
      rw [dashed]
      split
      · rw [word, wordKind]
        split
        · simp
        · split <;> simp
      · simp
  · rw [number]
    split
    · rw [fraction]
      split <;> simp
    · simp only [integer]
      split <;> simp
  · rw [quoted]
    split <;> simp
  · cases cs with
    | nil => simp only [punctuation, charReading]; split <;> simp
    | cons d ds =>
      rw [punctuation]
      split
      · simp
      · simp only [charReading]; split <;> simp

end Lexeme

end RuleScript
