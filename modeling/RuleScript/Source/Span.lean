import RuleScript.Source.Location

/-!
# Spans

A span is the stretch of source text from one location up to another. Spans
are joined when parts of a program make up a whole, and cut out of the source
again when a message quotes it.

* `Span.union` keeps the outermost start and the outermost stop.
* `Span.slice` cuts by bytes and answers nothing rather than cut a character
  in two.
-/

namespace RuleScript

/-- The stretch of text from `start` up to, and without, `stop`. -/
structure Span where
  /-- where the stretch begins -/
  start : Location
  /-- where it is over -/
  stop : Location
  deriving DecidableEq, Repr, Inhabited

namespace Span

/-- The empty stretch at a location. -/
def point (loc : Location) : Span := ⟨loc, loc⟩

/-- The number of bytes covered, none if the ends are reversed. -/
def len (s : Span) : Nat := s.stop.pos - s.start.pos

/-- Whether no byte is covered. -/
def isEmpty (s : Span) : Bool := s.len == 0

/-- The smallest span that covers two. Where both begin, or both end, at the
same offset, the first one's location is kept. -/
def union (s t : Span) : Span where
  start := if t.start.pos < s.start.pos then t.start else s.start
  stop := if s.stop.pos < t.stop.pos then t.stop else s.stop

/-- How a span is written for a reader: its two ends, with a dash between. -/
def display (s : Span) : String := s.start.display ++ "-" ++ s.stop.display

/-- The characters after the first `n` bytes, if a character ends there. -/
def dropBytes : Nat → List Char → Option (List Char)
  | 0, cs => some cs
  | _ + 1, [] => none
  | n + 1, c :: cs =>
    if c.utf8Size ≤ n + 1 then dropBytes (n + 1 - c.utf8Size) cs else none

/-- The characters of the first `n` bytes, if a character ends there. -/
def takeBytes : Nat → List Char → Option (List Char)
  | 0, _ => some []
  | _ + 1, [] => none
  | n + 1, c :: cs =>
    if c.utf8Size ≤ n + 1 then (takeBytes (n + 1 - c.utf8Size) cs).map (c :: ·) else none

/-- The text a span covers. It is empty for a span that is reversed, that
leaves the source, or that would cut a character in two. -/
def slice (s : Span) (source : String) : String :=
  if s.start.pos ≤ s.stop.pos then
    let cut := (dropBytes s.start.pos source.toList).bind (takeBytes s.len)
    String.ofList (cut.getD [])
  else ""

/-! ### Unions -/

/-- A union covers no fewer bytes than its first part. -/
theorem start_union_le (s t : Span) : (s.union t).start.pos ≤ s.start.pos := by
  simp only [union]
  split <;> omega

end Span

end RuleScript
