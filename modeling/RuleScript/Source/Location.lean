/-!
# Locations

A location is a point between two characters of a source text. It is kept in
the two forms a reader needs: a **byte offset**, by which text is cut, and a
**line and column**, by which an editor finds it.

* `Location.advance` reads a text from a location and gives the location after
  it. A carriage return directly before a line feed counts as *one* line break;
  each of them alone counts as one too.
-/

namespace RuleScript

/-- A point in a source text: its offset in bytes of UTF-8, and its line and
column, both counted from one. Columns count characters. -/
structure Location where
  /-- bytes before the point -/
  pos : Nat
  /-- line, from one -/
  line : Nat
  /-- column, from one -/
  col : Nat
  deriving DecidableEq, Repr, Inhabited

namespace Location

/-- The point before the first character of a text. -/
def origin : Location := ⟨0, 1, 1⟩

/-- How a location is written for a reader: `line:column`. -/
def display (loc : Location) : String :=
  toString loc.line ++ ":" ++ toString loc.col

/-- The location after a line break of so many bytes. -/
def newline (loc : Location) (bytes : Nat) : Location :=
  ⟨loc.pos + bytes, loc.line + 1, 1⟩

/-- The location after one character read alone. -/
def step (loc : Location) (c : Char) : Location :=
  if c = '\r' ∨ c = '\n' then loc.newline c.utf8Size
  else ⟨loc.pos + c.utf8Size, loc.line, loc.col + 1⟩

/-- The location after a text. A carriage return and the line feed after it
are one line break of two bytes. -/
def advance (loc : Location) : List Char → Location
  | [] => loc
  | '\r' :: '\n' :: cs => (loc.newline 2).advance cs
  | c :: cs => (loc.step c).advance cs

end Location

end RuleScript
