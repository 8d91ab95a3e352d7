/-!
# Trivia

What may stand between two tokens: blanks and block comments. Comments do not
nest, and one that is not closed takes all the rest of the text.

* `Trivia.closeComment` finds the end of a comment.
* `Trivia.skip` takes all trivia from the front of a text.
* `Trivia.skip_split` says that nothing is lost on the way.
-/

namespace RuleScript

/-- Space, tab, carriage return, line feed and form feed. -/
def isBlank (c : Char) : Bool :=
  c == ' ' || c == '\t' || c == '\r' || c == '\n' || c == '\x0c'

/-- A text divided after its leading trivia. -/
inductive Trivia where
  /-- the trivia, and the text after it -/
  | closed (skipped rest : List Char)
  /-- the trivia, and the comment after it that is not closed -/
  | unclosed (skipped comment : List Char)
  deriving DecidableEq, Repr

namespace Trivia

/-- The inside of a comment with the mark that closes it, and the text after. -/
def closeComment : List Char → Option (List Char × List Char)
  | '*' :: '/' :: cs => some (['*', '/'], cs)
  | c :: cs => (closeComment cs).map fun (body, rest) => (c :: body, rest)
  | [] => none

/-- What was skipped and what is left make up the text. -/
theorem closeComment_split {cs body rest : List Char}
    (h : closeComment cs = some (body, rest)) : body ++ rest = cs := by
  fun_induction closeComment cs generalizing body rest with
  | case1 cs =>
    cases h
    rfl
  | case2 c cs _ ih =>
    obtain ⟨⟨b, r⟩, hb, heq⟩ := Option.map_eq_some_iff.1 h
    cases heq
    rw [List.cons_append, ih hb]
  | case3 => cases h

/-- A closed comment is left behind. -/
theorem length_closeComment {cs body rest : List Char}
    (h : closeComment cs = some (body, rest)) : rest.length ≤ cs.length := by
  rw [← closeComment_split h]
  simp

/-- Puts a text in front of what was skipped. -/
def after (text : List Char) : Trivia → Trivia
  | .closed skipped rest => .closed (text ++ skipped) rest
  | .unclosed skipped comment => .unclosed (text ++ skipped) comment

/-- Divides a text after its leading trivia. -/
def skip : List Char → Trivia
  | '/' :: '*' :: cs =>
    match h : closeComment cs with
    | none => .unclosed [] ('/' :: '*' :: cs)
    | some (body, rest) =>
      have := length_closeComment h
      (skip rest).after ('/' :: '*' :: body)
  | c :: cs => if isBlank c then (skip cs).after [c] else .closed [] (c :: cs)
  | [] => .closed [] []
termination_by cs => cs.length

/-- The two parts of a text divided after its trivia, put together again. -/
def whole : Trivia → List Char
  | .closed skipped rest => skipped ++ rest
  | .unclosed skipped comment => skipped ++ comment

@[simp]
theorem whole_after (text : List Char) (t : Trivia) : (t.after text).whole = text ++ t.whole := by
  cases t <;> simp [after, whole]

/-- Skipping trivia loses nothing. -/
theorem skip_split (cs : List Char) : (skip cs).whole = cs := by
  fun_induction skip cs with
  | case1 cs h => rfl
  | case2 cs body rest h this ih =>
    rw [whole_after, ih, List.cons_append, List.cons_append, closeComment_split h]
  | case3 c cs _ hb ih => rw [whole_after, ih, List.singleton_append]
  | case4 c cs _ hb => rfl
  | case5 => rfl

/-- Text in front of the trivia does not change the comment after it. -/
theorem unclosed_of_after {t : Trivia} {text skipped comment : List Char}
    (h : t.after text = .unclosed skipped comment) : ∃ s, t = .unclosed s comment := by
  cases t with
  | closed s r => cases h
  | unclosed s c =>
    cases h
    exact ⟨s, rfl⟩

/-- A comment that is not closed is there all the same. -/
theorem comment_ne_nil {cs skipped comment : List Char}
    (h : skip cs = .unclosed skipped comment) : comment ≠ [] := by
  fun_induction skip cs generalizing skipped comment with
  | case1 cs _ =>
    cases h
    simp
  | case2 cs body rest _ _ ih =>
    obtain ⟨s, hs⟩ := unclosed_of_after h
    exact ih hs
  | case3 c cs _ _ ih =>
    obtain ⟨s, hs⟩ := unclosed_of_after h
    exact ih hs
  | case4 c cs _ _ => cases h
  | case5 => cases h

end Trivia

end RuleScript
