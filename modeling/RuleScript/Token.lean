import RuleScript.Source.Span
import RuleScript.Number.Integer
import RuleScript.Number.Decimal

/-!
# Tokens

The vocabulary of the language. A token is a **kind** with the span of source
it was read from. Kinds that are spelled in one way only are `Symbol`s; the
others carry what was read.
-/

namespace RuleScript

/-- Punctuation and operators, each with one spelling. -/
inductive Symbol where
  | plus
  | minus
  | star
  | slash
  | percent
  | caret
  | bang
  | assign
  | equal
  | notEqual
  | less
  | lessEqual
  | greater
  | greaterEqual
  | and
  | or
  | dollar
  | openParen
  | closeParen
  | comma
  | dot
  | hash
  | at
  | openBrace
  | closeBrace
  | colon
  | semicolon
  | openBracket
  | closeBracket
  deriving DecidableEq, Repr

/-- The spelling of a symbol. -/
def Symbol.text : Symbol → String
  | .plus => "+"
  | .minus => "-"
  | .star => "*"
  | .slash => "/"
  | .percent => "%"
  | .caret => "^"
  | .bang => "!"
  | .assign => "="
  | .equal => "=="
  | .notEqual => "!="
  | .less => "<"
  | .lessEqual => "<="
  | .greater => ">"
  | .greaterEqual => ">="
  | .and => "&&"
  | .or => "||"
  | .dollar => "$"
  | .openParen => "("
  | .closeParen => ")"
  | .comma => ","
  | .dot => "."
  | .hash => "#"
  | .at => "@"
  | .openBrace => "\x7b"
  | .closeBrace => "\x7d"
  | .colon => ":"
  | .semicolon => ";"
  | .openBracket => "["
  | .closeBracket => "]"

/-- A text between backticks, as messages quote what is written in a program. -/
def quoteCode (text : String) : String := "`" ++ text ++ "`"

/-- What a token is, apart from where it stands. -/
inductive TokenKind where
  /-- a name, with the dashes of a variable name if it has them -/
  | name (text : String)
  /-- an integer -/
  | int (value : Int64)
  /-- a number with a point -/
  | float (value : Float)
  /-- a quoted text, with its escapes resolved -/
  | string (text : String)
  /-- a truth value, `true` or `false` -/
  | bool (value : Bool)
  /-- punctuation or an operator -/
  | symbol (s : Symbol)
  /-- the end of the source -/
  | eof
  deriving Inhabited

namespace TokenKind

/-- The class of a token, which for a symbol is the symbol itself. -/
def category : TokenKind → String
  | .name _ => "identifier"
  | .int _ => "number"
  | .float _ => "number"
  | .string _ => "string"
  | .bool _ => "boolean"
  | .symbol s => s.text
  | .eof => "EOF"

/-- How a message speaks of a token. -/
def describe : TokenKind → String
  | .name text => "identifier " ++ quoteCode text
  | .int value => "integer " ++ quoteCode (Integer.display value)
  | .float value => "number " ++ quoteCode (Decimal.plain value)
  | .string _ => "string literal"
  | .bool value => quoteCode (toString value)
  | .symbol s => quoteCode s.text
  | .eof => "end of input"

/-- Whether a token is the given symbol. -/
def isSymbol (s : Symbol) : TokenKind → Bool
  | .symbol t => t == s
  | _ => false

/-- Whether a token marks the end of the source. -/
def isEof : TokenKind → Bool
  | .eof => true
  | _ => false

@[simp]
theorem isSymbol_iff {s : Symbol} {k : TokenKind} : k.isSymbol s = true ↔ k = .symbol s := by
  cases k <;> simp [isSymbol]

@[simp]
theorem isEof_iff {k : TokenKind} : k.isEof = true ↔ k = .eof := by
  cases k <;> simp [isEof]

end TokenKind

/-- A token and the span of source it was read from. -/
structure Token where
  /-- what was read -/
  kind : TokenKind
  /-- where it was read -/
  span : Span
  deriving Inhabited

/-- How a token is listed: where it starts, and what it is. -/
def Token.display (t : Token) : String :=
  t.span.start.display ++ " " ++ t.kind.describe

end RuleScript
