import RuleScript.Token.Cursor

/-!
# How tokens are spelled

The text that a lexeme takes from a source is the spelling of its token, and the text
skipped before it is made of blanks and whole comments. Both are said here without
speaking of how text is read: `Spells` relates a text to the kind of token that is
written so, and `Gap` is the text that may stand between two tokens.

* `Lexeme.read_faithful`: a lexeme spells what it reads as.
* `Trivia.skip_gap`: what is skipped is a gap.
* `Cursor.Step`: all that reading one token can come to, and the text that it takes.
-/

namespace RuleScript

/-! ### Spellings -/

/-- Two dashes or none, a letter or underscore, and then letters, digits, underscores and
dashes. -/
def IsName (text : List Char) : Prop :=
  ∃ dashes first rest, text = dashes ++ first :: rest ∧ (dashes = [] ∨ dashes = ['-', '-']) ∧
    isNameStart first = true ∧ ∀ c ∈ rest, isNameRest c = true

/-- All characters are decimal digits. -/
def AllDigits (text : List Char) : Prop := ∀ c ∈ text, c.isDigit = true

/-- The text **spells** a token of the kind. -/
def Spells (text : String) : TokenKind → Prop
  | .name name => text = name ∧ IsName text.toList ∧ text ≠ "true" ∧ text ≠ "false"
  | .bool value => text = toString value
  | .int value => text ≠ "" ∧ AllDigits text.toList ∧
      value.toInt = Nat.ofDigitChars 10 text.toList 0
  | .float value => ∃ whole fraction, text.toList = whole ++ '.' :: fraction ∧
      AllDigits whole ∧ AllDigits fraction ∧ (whole ≠ [] ∨ fraction ≠ []) ∧
      value = Decimal.read whole fraction
  | .string value => ∃ quote body, (quote = '\x22' ∨ quote = '\x27') ∧
      text.toList = quote :: (body ++ [quote]) ∧ value = String.ofList (Lexeme.unescape body)
  | .symbol s => text = s.text
  | .eof => text = ""

/-- The digits in front of a text are **digits**. -/
theorem allDigits_takeWhile (cs : List Char) : AllDigits (cs.takeWhile Char.isDigit) :=
  List.all_eq_true.1 List.all_takeWhile

namespace Lexeme

variable {kind : TokenKind}

/-- What a lexeme reads as is **spelled** by its text. -/
def Faithful (l : Lexeme) : Prop :=
  ∀ kind, l.reading = .ok kind → Spells (String.ofList l.text) kind

/-- Where reading fails there is no token to be **faithful** to. -/
theorem faithful_of_error {l : Lexeme} {cause : LexicalCause} (h : l.reading = .error cause) :
    l.Faithful := by
  intro kind hk
  cases h.symm.trans hk

/-- A word is spelled as a **name**, or as one of the truth values. -/
theorem wordKind_spells {text : String} (h : IsName text.toList) : Spells text (wordKind text) := by
  rw [wordKind]
  split
  · assumption
  · split
    · assumption
    · exact ⟨rfl, h, by assumption, by assumption⟩

/-- A **word** takes all characters that may go on, and spells what it is read as. -/
theorem word_faithful {dashes : List Char} {first : Char} (cs : List Char)
    (hdashes : dashes = [] ∨ dashes = ['-', '-']) (hfirst : isNameStart first = true) :
    (word (dashes ++ [first]) cs).Faithful := by
  rintro _ ⟨⟩
  refine wordKind_spells ?_
  rw [String.toList_ofList]
  refine ⟨dashes, first, cs.takeWhile isNameRest, ?_, hdashes, hfirst, ?_⟩
  · rw [word, List.append_assoc, List.singleton_append]
  · exact List.all_eq_true.1 List.all_takeWhile

/-- Two dashes are **the beginning of a name**, or no token at all. -/
theorem dashed_faithful (cs : List Char) : (dashed cs).Faithful := by
  cases cs with
  | nil => exact faithful_of_error rfl
  | cons c cs =>
    rw [dashed]
    split
    · next hc => exact word_faithful cs (.inr rfl) hc
    · exact faithful_of_error rfl

/-- Digits behind a point are **a fraction**. -/
theorem fraction_faithful {front cs : List Char} (hfront : AllDigits front)
    (h : front ≠ [] ∨ startsWithDigit cs = true) : (fraction front cs).Faithful := by
  rw [fraction]
  split
  · exact faithful_of_error rfl
  · rintro _ ⟨⟩
    refine ⟨front, cs.takeWhile Char.isDigit, String.toList_ofList, hfront,
      allDigits_takeWhile cs, h.imp_right ?_, rfl⟩
    intro hcs
    cases cs with
    | nil => cases hcs
    | cons c cs =>
      rw [List.takeWhile_cons_of_pos (show c.isDigit = true from hcs)]
      exact List.cons_ne_nil _ _

/-- A **number** is an integer or has a point in it. -/
theorem number_faithful {c : Char} {cs : List Char}
    (h : c.isDigit = true ∨ (c = '.' ∧ startsWithDigit cs = true)) :
    (number (c :: cs)).Faithful := by
  have hdigits := allDigits_takeWhile (c :: cs)
  rw [number]
  split
  · next rest heq =>
    refine fraction_faithful hdigits ?_
    obtain hc | ⟨rfl, hcs⟩ := h
    · left
      rw [List.takeWhile_cons_of_pos hc]
      exact List.cons_ne_nil _ _
    · right
      rw [List.dropWhile_cons_of_neg (by decide)] at heq
      cases heq
      exact hcs
  · next hrest =>
    intro kind hk
    obtain hc | ⟨rfl, hcs⟩ := h
    · rw [integer] at hk
      split at hk
      · next value hvalue =>
        cases hk
        refine ⟨?_, ?_, ?_⟩
        · rw [List.takeWhile_cons_of_pos hc]
          exact fun hnil => List.cons_ne_nil _ _ (String.ofList_eq_empty_iff.1 hnil)
        · rw [String.toList_ofList]
          exact hdigits
        · rw [String.toList_ofList]
          exact Integer.fit?_eq_some_iff.1 hvalue
      · cases hk
    · exact absurd (List.dropWhile_cons_of_neg (by decide)) (hrest cs)

/-- A **string** stands between two quotes of one kind. -/
theorem quoted_faithful {quote : Char} (cs : List Char) (h : quote = '\x22' ∨ quote = '\x27') :
    (quoted quote cs).Faithful := by
  rw [quoted]
  split
  · next body rest _ =>
    rintro _ ⟨⟩
    exact ⟨quote, body, h, String.toList_ofList, rfl⟩
  · exact faithful_of_error rfl

theorem pairSymbol_text {c d : Char} {s : Symbol} (h : pairSymbol c d = some s) :
    String.ofList [c, d] = s.text := by
  unfold pairSymbol at h
  split at h <;> cases h <;> rfl

theorem charSymbol_text {c : Char} {s : Symbol} (h : charSymbol c = some s) :
    String.ofList [c] = s.text := by
  unfold charSymbol at h
  split at h <;> cases h <;> rfl

/-- A symbol of one character is **spelled** by that character. -/
theorem charReading_spells {c : Char} (h : charReading c = .ok kind) :
    Spells (String.ofList [c]) kind := by
  rw [charReading] at h
  split at h
  · next s hs =>
    cases h
    exact charSymbol_text hs
  · cases h

/-- A **symbol** is read from one character or from two. -/
theorem punctuation_faithful (c : Char) (cs : List Char) : (punctuation c cs).Faithful := by
  cases cs with
  | nil => exact fun kind h => charReading_spells h
  | cons d cs =>
    rw [punctuation]
    split
    · next s hs =>
      rintro _ ⟨⟩
      exact pairSymbol_text hs
    · exact fun kind h => charReading_spells h

/-- **A lexeme** spells what it reads as. -/
theorem read_faithful (c : Char) (cs : List Char) : (read c cs).Faithful := by
  rw [read]
  split
  · next hc => exact word_faithful cs (.inl rfl) hc
  split
  · exact dashed_faithful (cs.drop 1)
  split
  · next h => exact number_faithful (by simpa using h)
  split
  · next h => exact quoted_faithful cs h
  · exact punctuation_faithful c cs

end Lexeme

/-! ### Gaps -/

/-- Text between two tokens: blanks, and comments up to the first mark that closes
them. -/
inductive Gap : List Char → Prop where
  /-- nothing -/
  | nil : Gap []
  /-- a blank -/
  | blank {c : Char} {cs : List Char} (hc : isBlank c = true) (hcs : Gap cs) : Gap (c :: cs)
  /-- a whole comment -/
  | comment {inner cs : List Char} (hinner : ¬['*', '/'] <:+: inner) (hcs : Gap cs) :
    Gap ('/' :: '*' :: (inner ++ '*' :: '/' :: cs))

namespace Trivia

/-- A comment is closed by **the first** star with a slash behind it. -/
theorem closeComment_inner {cs body rest : List Char} (h : closeComment cs = some (body, rest)) :
    ∃ inner, body = inner ++ ['*', '/'] ∧ ¬['*', '/'] <:+: inner := by
  fun_induction closeComment cs generalizing body rest with
  | case1 cs =>
    cases h
    exact ⟨[], rfl, by simp⟩
  | case2 c cs hopen ih =>
    obtain ⟨⟨b, r⟩, hb, heq⟩ := Option.map_eq_some_iff.1 h
    cases heq
    obtain ⟨inner, rfl, hinner⟩ := ih hb
    refine ⟨c :: inner, rfl, ?_⟩
    -- the mark would have to begin with this character, where it was not found
    rw [List.infix_cons_iff]
    rintro (⟨tail, htail⟩ | hinfix)
    · obtain ⟨rfl, rfl⟩ := List.cons.inj htail
      refine hopen (tail ++ '*' :: '/' :: rest) rfl ?_
      rw [← closeComment_split hb]
      simp
    · exact hinner hinfix
  | case3 => cases h

/-- The part of a text that was skipped. -/
def skipped : Trivia → List Char
  | .closed skipped _ => skipped
  | .unclosed skipped _ => skipped

theorem skipped_after (text : List Char) (t : Trivia) :
    (t.after text).skipped = text ++ t.skipped := by
  cases t <;> rfl

/-- **What is skipped** is a gap. -/
theorem skip_gap (cs : List Char) : Gap (skip cs).skipped := by
  fun_induction skip cs with
  | case1 => exact .nil
  | case2 cs body rest h _ ih =>
    obtain ⟨inner, rfl, hinner⟩ := closeComment_inner h
    rw [skipped_after]
    simpa using Gap.comment hinner ih
  | case3 c cs _ hc ih =>
    rw [skipped_after]
    exact .blank hc ih
  | case4 => exact .nil
  | case5 => exact .nil

end Trivia

/-! ### One step -/

namespace Cursor

/-- **One step** of a cursor: behind a gap it is at the end, at a token, at a text that is refused,
or at a comment that is not closed. -/
inductive Step (c : Cursor) : Except SyntaxError Token → Cursor → Prop where
  /-- the end -/
  | ending (hgap : Gap c.rest) :
      Step c (.ok ⟨.eof, .point (c.loc.advance c.rest)⟩) ⟨[], c.loc.advance c.rest⟩
  /-- a token -/
  | token {gap cs : List Char} {ch : Char} {kind : TokenKind} (hgap : Gap gap)
      (hskip : Trivia.skip c.rest = .closed gap (ch :: cs))
      (hrest : c.rest = gap ++ ((Lexeme.read ch cs).text ++ (Lexeme.read ch cs).rest))
      (hread : (Lexeme.read ch cs).reading = .ok kind) (hkind : kind ≠ .eof) :
      Step c
        (.ok ⟨kind, c.loc.advance gap, (c.loc.advance gap).advance (Lexeme.read ch cs).text⟩)
        ⟨(Lexeme.read ch cs).rest, (c.loc.advance gap).advance (Lexeme.read ch cs).text⟩
  /-- a text that is refused -/
  | refused {gap cs : List Char} {ch : Char} {cause : LexicalCause} (hgap : Gap gap)
      (hskip : Trivia.skip c.rest = .closed gap (ch :: cs))
      (hrest : c.rest = gap ++ ((Lexeme.read ch cs).text ++ (Lexeme.read ch cs).rest))
      (hread : (Lexeme.read ch cs).reading = .error cause) :
      Step c
        (.error ⟨.lexical cause, c.loc.advance gap,
          (c.loc.advance gap).advance (Lexeme.read ch cs).text⟩)
        ⟨(Lexeme.read ch cs).rest, (c.loc.advance gap).advance (Lexeme.read ch cs).text⟩
  /-- a comment that is not closed -/
  | unclosed {gap comment : List Char} (hgap : Gap gap)
      (hskip : Trivia.skip c.rest = .unclosed gap comment) (hrest : c.rest = gap ++ comment) :
      Step c
        (.error ⟨.lexical .unterminatedComment, c.loc.advance gap,
          (c.loc.advance gap).advance comment⟩)
        ⟨[], (c.loc.advance gap).advance comment⟩

variable {c c' : Cursor} {result : Except SyntaxError Token}

/-- Whatever is read is **a step**. -/
theorem Step.of_next (h : c.next = (result, c')) : c.Step result c' := by
  have hgap := Trivia.skip_gap c.rest
  have hsplit := Trivia.skip_split c.rest
  rw [next] at h
  split at h <;> rename_i hskip <;> rw [hskip] at hgap hsplit
  · cases h
    exact .unclosed hgap hskip hsplit.symm
  · cases h
    obtain rfl : c.rest = _ := hsplit.symm.trans (List.append_nil _)
    exact .ending hgap
  · next gap ch cs =>
    have hrest : c.rest = gap ++ ((Lexeme.read ch cs).text ++ (Lexeme.read ch cs).rest) := by
      rw [← hsplit, Trivia.whole, ← Lexeme.read_split ch cs]
      rfl
    dsimp only at h
    split at h
    · next hread =>
      cases h
      refine .token hgap hskip hrest hread ?_
      rintro rfl
      exact Lexeme.read_reading_ne_eof ch cs hread
    · next hread =>
      cases h
      exact .refused hgap hskip hrest hread

/-- Reading is **one step**. -/
theorem next_step (c : Cursor) : c.Step c.next.1 c.next.2 := .of_next rfl

/-- A step **takes** a gap and a text after it. -/
theorem Step.takes (h : c.Step result c') :
    ∃ gap text, c.rest = gap ++ (text ++ c'.rest) ∧
      c'.loc = (c.loc.advance gap).advance text := by
  cases h with
  | ending => exact ⟨c.rest, [], by simp, rfl⟩
  | token _ _ hrest => exact ⟨_, _, hrest, rfl⟩
  | refused _ _ hrest => exact ⟨_, _, hrest, rfl⟩
  | @unclosed gap comment _ _ hrest => exact ⟨gap, comment, by rw [List.append_nil, hrest], rfl⟩

end Cursor

end RuleScript
