import RuleScript.Parser.Progress

/-!
# Reading programs

The parser as it is used. Since the depth a parser needs is known from the
tokens it has (`RuleScript.Parser.Progress`), these functions take no bound and
always answer.

* `Parser.readExpression` and `Parser.readProgram` read from any supply of
  tokens and give it back, so that reading can go on after an error.
* `parse` reads a program from a source text.
-/

namespace RuleScript

namespace Parser

variable {σ : Type} [TokenSource σ]

/-- Steps enough for all tokens that are left. -/
def ampleDepth (s : σ) : Nat := 4 * TokenSource.size s + 8

variable [LawfulTokenSource σ]

/-- Reads one expression. -/
def readExpression (s : σ) : Except SyntaxError Expr × σ :=
  (binary (ampleDepth s) 0).settle s
    ((expressionProgress _).binary s 0 (by unfold ampleDepth; omega)).not_exhausted

/-- Reads a whole program. -/
def readProgram (s : σ) : Except SyntaxError Program × σ :=
  let (result, s') := (items (ampleDepth s)).settle s
    (items_progress _ s (by unfold ampleDepth; omega)).not_exhausted
  (result.map Program.mk, s')

end Parser

/-- Reads a program from a source text, token by token. -/
def parse (source : String) : Except SyntaxError Program :=
  (Parser.readProgram (Lookahead.ofString source)).1

/-- A source of which the items are read is **a program**. -/
theorem parse_of_done {source : String} {items : List Item} {s : Lookahead}
    (h : (Parser.items (Parser.ampleDepth (Lookahead.ofString source))).run
      (Lookahead.ofString source) = (.done items, s)) : parse source = .ok ⟨items⟩ := by
  rw [parse, Parser.readProgram, Process.settle_of_done h]
  rfl

/-- A source is **refused** with the error its items fail with. -/
theorem parse_of_failed {source : String} {e : SyntaxError} {s : Lookahead}
    (h : (Parser.items (Parser.ampleDepth (Lookahead.ofString source))).run
      (Lookahead.ofString source) = (.failed e, s)) : parse source = .error e := by
  rw [parse, Parser.readProgram, Process.settle_of_failed h]
  rfl

end RuleScript
