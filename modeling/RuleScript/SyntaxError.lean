import RuleScript.Token

/-!
# Syntax errors

Why a source text is not a program. A syntax error is a **cause** with the
span it is blamed on; message and help are read off the cause, so the wording
of every error stands in this module.

* `LexicalCause`: the text is no sequence of tokens.
* `GrammarCause`: the tokens are no program. The usual one is `unexpected`,
  which says what was `Expected` and what was found.
-/

namespace RuleScript

/-- Why a text could not be read as a token. -/
inductive LexicalCause where
  /-- a comment is not closed -/
  | unterminatedComment
  /-- a quoted text is not closed by the quote that opened it -/
  | unterminatedString (quote : Char)
  /-- two dashes with no name after them -/
  | missingName
  /-- a second point in a number -/
  | secondPoint
  /-- an integer of more than 64 bits -/
  | integerTooLarge (digits : String)
  /-- one half of a logical operator -/
  | halfOperator (c : Char)
  /-- a character that starts no token -/
  | unexpectedCharacter (c : Char)
  deriving DecidableEq, Repr

namespace LexicalCause

/-- What went wrong. -/
def message : LexicalCause → String
  | .unterminatedComment => "unterminated block comment"
  | .unterminatedString _ => "unterminated string literal"
  | .missingName => "expected a name after `--`"
  | .secondPoint => "unexpected second `.` in number literal"
  | .integerTooLarge digits =>
    "integer literal " ++ quoteCode digits ++ " does not fit in 64 bits"
  | .halfOperator c =>
    "unexpected character " ++ quoteCode (String.ofList [c]) ++ ", did you mean "
      ++ quoteCode (String.ofList [c, c]) ++ "?"
  | .unexpectedCharacter c => "unexpected character " ++ quoteCode (String.ofList [c])

/-- What to do about it. -/
def help : LexicalCause → Option String
  | .unterminatedComment => some "close the comment with `*/`"
  | .unterminatedString quote => some ("add a closing " ++ String.ofList [quote])
  | .missingName => some "variable names look like `--name`"
  | .secondPoint => some "a number may contain at most one `.`"
  | .integerTooLarge _ =>
    some ("integers range from " ++ toString Integer.least ++ " to " ++ toString Integer.greatest
      ++ "; write the minimum as " ++ quoteCode ("-" ++ toString Integer.greatest ++ " - 1"))
  | .halfOperator c =>
    some ("logical operators are written " ++ quoteCode (String.ofList [c, c]))
  | .unexpectedCharacter _ => none

end LexicalCause

/-- What the grammar asks for at some point of a program. -/
inductive Expected where
  /-- something that may stand at the top level -/
  | item
  /-- something that may stand in a block -/
  | statement
  /-- the start of an expression -/
  | value
  /-- the name of a parameter -/
  | parameterName
  /-- the name of an at-rule -/
  | atRuleName
  /-- the name of a variable that is read -/
  | variableName
  /-- the block of a rule -/
  | ruleBody (rule : String)
  /-- the end of a parameter -/
  | parameterEnd
  /-- the end of a group -/
  | groupEnd
  /-- the end of an argument list -/
  | callEnd (callee : String)
  /-- the end of a call statement -/
  | declarationEnd (property : String)
  /-- the end of a variable declaration -/
  | variableEnd (property : String)
  /-- the block of an at-rule, or its end -/
  | atRuleEnd (name : String)
  deriving DecidableEq, Repr

/-- The wording of an expectation. -/
def Expected.describe : Expected → String
  | .item => "a rule or an at-rule"
  | .statement => "a declaration, a nested rule or an at-rule"
  | .value => "a value"
  | .parameterName => "a parameter name"
  | .atRuleName => "an at-rule name after `@`"
  | .variableName => "a variable name after `$`"
  | .ruleBody rule => "`\x7b` to open the body of rule " ++ quoteCode rule
  | .parameterEnd => "`]` to close the parameter"
  | .groupEnd => "`)` to close the group"
  | .callEnd callee => "`)` to close the call to " ++ quoteCode callee
  | .declarationEnd property => "`;` to end the " ++ quoteCode property ++ " declaration"
  | .variableEnd property => "`;` after the value of " ++ quoteCode property
  | .atRuleEnd name => "`\x7b` or `;` to finish " ++ quoteCode ("@" ++ name)

/-- Why a sequence of tokens is no program. -/
inductive GrammarCause where
  /-- one thing was expected and another found -/
  | unexpected (expected : Expected) (found : TokenKind)
  /-- the source ends inside a block -/
  | unclosedBlock
  /-- two parameters of one rule are spelled alike -/
  | duplicateParameter (parameter rule : String)
  /-- a rule has the name of a variable -/
  | variableAsRule (name : String)

namespace GrammarCause

/-- What went wrong. -/
def message : GrammarCause → String
  | .unexpected expected found =>
    "expected " ++ expected.describe ++ ", found " ++ found.describe
  | .unclosedBlock => "unclosed block"
  | .duplicateParameter parameter rule =>
    "duplicate parameter " ++ quoteCode parameter ++ " in rule " ++ quoteCode rule
  | .variableAsRule name =>
    quoteCode name ++ " is a variable name and cannot name a rule"

/-- What to do about it. -/
def help : GrammarCause → Option String
  | .unexpected _ _ => none
  | .unclosedBlock => some "add a matching `\x7d`"
  | .duplicateParameter _ _ => none
  | .variableAsRule name => some ("declare a variable with " ++ quoteCode (name ++ ": value;"))

end GrammarCause

/-- Why a source text is not a program. -/
inductive SyntaxCause where
  /-- the text is no sequence of tokens -/
  | lexical (cause : LexicalCause)
  /-- the tokens are no program -/
  | grammar (cause : GrammarCause)

namespace SyntaxCause

/-- The family of a cause, as reports name it. -/
def family : SyntaxCause → String
  | .lexical _ => "lexical error"
  | .grammar _ => "parse error"

/-- What went wrong. -/
def message : SyntaxCause → String
  | .lexical cause => cause.message
  | .grammar cause => cause.message

/-- What to do about it. -/
def help : SyntaxCause → Option String
  | .lexical cause => cause.help
  | .grammar cause => cause.help

end SyntaxCause

/-- A syntax error: its cause, and the span of source to blame. -/
structure SyntaxError where
  /-- why the text is not a program -/
  cause : SyntaxCause
  /-- the text to blame -/
  span : Span

namespace SyntaxError

/-- What went wrong. -/
def message (e : SyntaxError) : String := e.cause.message

/-- What to do about it. -/
def help (e : SyntaxError) : Option String := e.cause.help

/-- The error in one line. -/
def display (e : SyntaxError) : String :=
  e.cause.family ++ " at " ++ e.span.start.display ++ ": " ++ e.message

/-- The error of finding `token` where something else was expected. -/
def unexpected (expected : Expected) (token : Token) : SyntaxError :=
  ⟨.grammar (.unexpected expected token.kind), token.span⟩

end SyntaxError

end RuleScript
