import RuleScript.Text.Printable

/-!
# Quoted texts

How a text is shown so that it can be told from its surroundings: in double
quotes, with a backslash in front of quotes and backslashes, short marks for
the usual control characters, and the code point of every other character that
has no shape of its own.
-/

namespace RuleScript.Quoted

/-- The code point of a character, in braces. -/
def byCode (c : Char) : List Char :=
  ['\\', 'u', '\x7b'] ++ Nat.toDigits 16 c.toNat ++ ['\x7d']

/-- How one character is written. -/
def escape (c : Char) : List Char :=
  if c = '\x22' then ['\\', '\x22']
  else if c = '\\' then ['\\', '\\']
  else if c = '\n' then ['\\', 'n']
  else if c = '\r' then ['\\', 'r']
  else if c = '\t' then ['\\', 't']
  else if c = '\x00' then ['\\', '0']
  else if isPrintable c then [c]
  else byCode c

/-- How a text is written. -/
def encode (text : String) : String :=
  String.ofList ('\x22' :: text.toList.flatMap escape ++ ['\x22'])

/-- How a list of texts is written. -/
def encodeList (texts : List String) : String :=
  "[" ++ String.intercalate ", " (texts.map encode) ++ "]"

end RuleScript.Quoted
