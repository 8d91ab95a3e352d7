import RuleScript.Proofs.Tiling

/-!
# Where a token ends

A lexer takes as much as it can, and looks no further than **one character** to know when
to stop. So a text that was read as a token once is read as that token wherever it stands,
unless the character after it would be taken with it: `TokenKind.prolongedBy`.

* `Lexeme.Reads`: a text is read as a token, whatever follows that does not prolong it.
* `Lexeme.read_reads`: this holds of every text that was read as a token.
* `Trivia.skip_append`: a gap is skipped, whatever follows it.
* `Cursor.next_of_reads` and `Cursor.reads_of_next`: a cursor reads a token exactly if a gap
  and such a text are ahead of it.
-/

namespace RuleScript

/-- Whether a character right after a token would be **taken with** it. The slash and the
star make a comment. -/
def TokenKind.prolongedBy : TokenKind → Char → Bool
  | .name _, c => isNameRest c
  | .bool _, c => isNameRest c
  | .int _, c => c.isDigit || c == '.'
  | .float _, c => c.isDigit || c == '.'
  | .symbol .minus, c => c == '-'
  | .symbol .dot, c => c.isDigit
  | .symbol .slash, c => c == '*'
  | .symbol .bang, c => c == '='
  | .symbol .assign, c => c == '='
  | .symbol .less, c => c == '='
  | .symbol .greater, c => c == '='
  | _, _ => false

/-- A token of the kind is over where the text begins. -/
def TokenKind.EndsBefore (k : TokenKind) (rest : List Char) : Prop :=
  ∀ c ∈ rest.head?, k.prolongedBy c = false

/-- At the end of a text **every token ends**. -/
theorem TokenKind.endsBefore_nil (k : TokenKind) : k.EndsBefore [] := nofun

/-- Only the next character counts. -/
theorem TokenKind.endsBefore_append {k : TokenKind} {rest : List Char} (hne : rest ≠ [])
    (more : List Char) : k.EndsBefore (rest ++ more) ↔ k.EndsBefore rest := by
  obtain ⟨c, cs, rfl⟩ := List.exists_cons_of_ne_nil hne
  rfl

namespace Lexeme

variable {k : TokenKind} {rest : List Char}

/-- A text is **read as** a token of the kind, whatever follows that does not prolong it. -/
def Reads (text : List Char) (k : TokenKind) : Prop :=
  ∃ c cs, text = c :: cs ∧ ∀ rest, k.EndsBefore rest → read c (cs ++ rest) = ⟨text, .ok k, rest⟩

/-! ### Each kind of lexeme -/

/-- Characters with a property stand in front, up to **the first without it**. -/
theorem span_append {p : Char → Bool} {w : List Char} (hw : ∀ c ∈ w, p c = true)
    (hrest : ∀ c ∈ rest.head?, p c = false) :
    (w ++ rest).takeWhile p = w ∧ (w ++ rest).dropWhile p = rest := by
  rw [List.takeWhile_append_of_pos hw, List.dropWhile_append_of_pos hw]
  cases rest with
  | nil => simp
  | cons d ds =>
    have hd : ¬p d = true := Bool.eq_false_iff.1 (hrest d rfl)
    rw [List.takeWhile_cons_of_neg hd, List.dropWhile_cons_of_neg hd, List.append_nil]
    exact ⟨rfl, rfl⟩

/-- A word goes on **as long as it may**, and ends there. -/
theorem word_append (front : List Char) {w : List Char} (hw : ∀ c ∈ w, isNameRest c = true)
    (hrest : ∀ c ∈ rest.head?, isNameRest c = false) :
    word front (w ++ rest) =
      ⟨front ++ w, .ok (wordKind (String.ofList (front ++ w))), rest⟩ := by
  obtain ⟨htake, hdrop⟩ := span_append hw hrest
  rw [word, htake, hdrop]

/-- A word goes on with what **a name may go on with**, whether it is a name or a truth value. -/
theorem prolongedBy_wordKind (text : String) (c : Char) :
    (wordKind text).prolongedBy c = isNameRest c := by
  unfold wordKind
  split
  · rfl
  · split <;> rfl

/-- A name, with or without dashes, is read as a word. -/
theorem reads_of_isName {text : List Char} (h : IsName text) :
    Reads text (wordKind (String.ofList text)) := by
  obtain ⟨dashes, first, w, rfl, hdashes, hfirst, hw⟩ := h
  have hrest : ∀ text rest, (wordKind text).EndsBefore rest →
      ∀ c ∈ rest.head?, isNameRest c = false := by
    intro text rest h c hc
    rw [← prolongedBy_wordKind text]
    exact h c hc
  obtain rfl | rfl := hdashes
  · refine ⟨first, w, rfl, fun rest h => ?_⟩
    rw [read, if_pos hfirst, word_append _ hw (hrest _ rest h)]
    rfl
  · refine ⟨'-', '-' :: first :: w, rfl, fun rest h => ?_⟩
    rw [read, if_neg (by decide), if_pos ⟨rfl, rfl⟩]
    simp only [List.cons_append, List.drop_succ_cons, List.drop_zero, dashed, hfirst, if_true]
    rw [word_append _ hw (hrest _ rest h)]
    rfl

/-- A digit comes before every letter and before the underscore. -/
theorem isNameStart_of_isDigit {c : Char} (h : c.isDigit = true) : isNameStart c = false := by
  have hle : c.val ≤ 57 := of_decide_eq_true (Bool.and_eq_true_iff.1 h).2
  have hbefore {k : UInt32} (hk : 57 < k) : ¬k ≤ c.val := fun hle' =>
    UInt32.not_lt.2 (UInt32.le_trans hle' hle) hk
  have hunderscore : (c == '_') = false := by
    rw [beq_eq_false_iff_ne]
    rintro rfl
    exact absurd h (by decide)
  have hupper : c.isUpper = false := decide_eq_false fun hc => hbefore (by decide) hc.1
  have hlower : c.isLower = false :=
    Bool.and_eq_false_iff.2 (.inl (decide_eq_false (hbefore (by decide))))
  rw [isNameStart, hunderscore, Bool.or_false]
  exact Bool.or_eq_false_iff.2 ⟨hupper, hlower⟩

/-- A digit, or a point with a digit behind it, begins **a number**. -/
theorem read_eq_number {c : Char} {cs : List Char}
    (h : c.isDigit = true ∨ c = '.' ∧ startsWithDigit cs = true) :
    read c cs = number (c :: cs) := by
  have hname : ¬isNameStart c = true := by
    obtain hc | ⟨rfl, -⟩ := h
    · exact Bool.eq_false_iff.1 (isNameStart_of_isDigit hc)
    · decide
  have hdash : ¬(c = '-' ∧ cs.head? = some '-') := by
    rintro ⟨rfl, -⟩
    obtain hc | ⟨hc, -⟩ := h <;> cases hc
  rw [read, if_neg hname, if_neg hdash, if_pos (by simpa using h)]

/-- Digits with a value in range are read as **that integer**. -/
theorem reads_integer {ds : List Char} {value : Int64} (hne : ds ≠ []) (hds : AllDigits ds)
    (h : integer ds = .ok (.int value)) : Reads ds (.int value) := by
  obtain ⟨c, cs, rfl⟩ := List.exists_cons_of_ne_nil hne
  refine ⟨c, cs, rfl, fun rest hrest => ?_⟩
  have hrest : ∀ d ∈ rest.head?, d.isDigit = false ∧ d ≠ '.' := by
    intro d hd
    simpa [TokenKind.prolongedBy] using hrest d hd
  obtain ⟨htake, hdrop⟩ := span_append hds fun d hd => (hrest d hd).1
  rw [read_eq_number (.inl (hds c List.mem_cons_self)), ← List.cons_append, number, htake, hdrop, h]
  split
  · next rest' => exact absurd rfl (hrest '.' rfl).2
  · rfl

/-- Digits with a point among them are read as **that fraction**. -/
theorem reads_fraction {whole frac : List Char} (hwhole : AllDigits whole) (hfrac : AllDigits frac)
    (hne : whole ≠ [] ∨ frac ≠ []) :
    Reads (whole ++ '.' :: frac) (.float (Decimal.read whole frac)) := by
  have hnumber : ∀ rest, (TokenKind.float (Decimal.read whole frac)).EndsBefore rest →
      number (whole ++ '.' :: (frac ++ rest)) =
        ⟨whole ++ '.' :: frac, .ok (.float (Decimal.read whole frac)), rest⟩ := by
    intro rest hrest
    have hrest : ∀ d ∈ rest.head?, d.isDigit = false ∧ d ≠ '.' := by
      intro d hd
      simpa [TokenKind.prolongedBy] using hrest d hd
    have hpoint : ∀ d ∈ ('.' :: (frac ++ rest)).head?, d.isDigit = false := by
      rintro d ⟨⟩
      rfl
    obtain ⟨htake, hdrop⟩ := span_append hwhole hpoint
    obtain ⟨htake', hdrop'⟩ := span_append hfrac fun d hd => (hrest d hd).1
    rw [number, htake, hdrop]
    simp only [fraction, htake', hdrop']
    split
    · next rest' => exact absurd rfl (hrest '.' rfl).2
    · rfl
  cases whole with
  | nil =>
    refine ⟨'.', frac, rfl, fun rest hrest => ?_⟩
    obtain ⟨c, cs, rfl⟩ := List.exists_cons_of_ne_nil (hne.resolve_left fun h => h rfl)
    have hstart : startsWithDigit (c :: cs ++ rest) = true := hfrac c List.mem_cons_self
    rw [read_eq_number (.inr ⟨rfl, hstart⟩)]
    exact hnumber rest hrest
  | cons c cs =>
    refine ⟨c, cs ++ '.' :: frac, rfl, fun rest hrest => ?_⟩
    rw [read_eq_number (.inl (hwhole c List.mem_cons_self)), List.append_assoc]
    exact hnumber rest hrest

theorem closeQuote_quote (quote : Char) (cs : List Char) :
    closeQuote quote (quote :: cs) = some ([], cs) := by
  rw [closeQuote.eq_def]
  exact if_pos rfl

/-- A backslash takes **the next character** with it, be it the quote. -/
theorem closeQuote_backslash {quote : Char} (h : '\\' ≠ quote) (c : Char) (cs : List Char) :
    closeQuote quote ('\\' :: c :: cs) =
      (closeQuote quote cs).map fun (body, rest) => ('\\' :: c :: body, rest) := by
  rw [closeQuote.eq_def]
  exact if_neg h

theorem closeQuote_cons {quote c : Char} (hq : c ≠ quote) (hc : c ≠ '\\') (cs : List Char) :
    closeQuote quote (c :: cs) =
      (closeQuote quote cs).map fun (body, rest) => (c :: body, rest) := by
  rw [closeQuote.eq_def]
  exact (if_neg hq).trans (if_neg hc)

/-- A closing quote closes whatever follows it. -/
theorem closeQuote_append {quote : Char} {cs body after : List Char}
    (h : closeQuote quote cs = some (body, after)) (rest : List Char) :
    closeQuote quote (body ++ quote :: rest) = some (body, rest) := by
  fun_induction closeQuote quote cs generalizing body after with
  | case1 => cases h
  | case2 cs =>
    cases h
    exact closeQuote_quote quote rest
  | case3 => cases h
  | case4 d ds hq ih =>
    obtain ⟨⟨b, r⟩, hb, heq⟩ := Option.map_eq_some_iff.1 h
    cases heq
    rw [List.cons_append, List.cons_append, closeQuote_backslash hq, ih hb]
    rfl
  | case5 c cs hq hc ih =>
    obtain ⟨⟨b, r⟩, hb, heq⟩ := Option.map_eq_some_iff.1 h
    cases heq
    rw [List.cons_append, closeQuote_cons hq hc, ih hb]
    rfl

/-- A quote begins **a string**. -/
theorem read_eq_quoted {quote : Char} (h : quote = '\x22' ∨ quote = '\x27') (cs : List Char) :
    read quote cs = quoted quote cs := by
  rw [read, if_neg, if_neg, if_neg, if_pos h]
  all_goals obtain rfl | rfl := h <;> simp [isNameStart]

/-- A text between quotes is read as **a string**, with its escapes decoded. -/
theorem reads_quoted {quote : Char} {cs body after : List Char}
    (hquote : quote = '\x22' ∨ quote = '\x27') (h : closeQuote quote cs = some (body, after)) :
    Reads (quote :: (body ++ [quote])) (.string (String.ofList (unescape body))) := by
  refine ⟨quote, body ++ [quote], rfl, fun rest _ => ?_⟩
  rw [read_eq_quoted hquote, quoted, List.append_assoc, List.singleton_append,
    closeQuote_append h]
  rfl

/-- A symbol that is not prolonged is **no part of a longer one**. -/
theorem pairSymbol_eq_none {c d : Char} {s : Symbol} (hc : charSymbol c = some s)
    (hd : (TokenKind.symbol s).prolongedBy d = false) : pairSymbol c d = none := by
  cases hpair : pairSymbol c d with
  | none => rfl
  | some p =>
    -- each pair begins with no symbol, or with one that its second character prolongs
    unfold pairSymbol at hpair
    split at hpair <;> first | contradiction | cases hc; cases hd

/-- A symbol of one character is read alone unless the next one is taken with it. -/
theorem read_of_charSymbol {c : Char} {s : Symbol} (hc : charSymbol c = some s)
    (hrest : (TokenKind.symbol s).EndsBefore rest) :
    read c rest = ⟨[c], .ok (.symbol s), rest⟩ := by
  have hclass : ¬isNameStart c = true ∧ ¬c.isDigit = true ∧ ¬(c = '\x22' ∨ c = '\x27') := by
    unfold charSymbol at hc
    split at hc <;> first | decide | cases hc
  have hdash : ¬(c = '-' ∧ rest.head? = some '-') := by
    rintro ⟨rfl, hd⟩
    cases hc
    cases hrest '-' hd
  have hpoint : ¬(c = '.' ∧ startsWithDigit rest = true) := by
    rintro ⟨rfl, hd⟩
    cases hc
    cases rest with
    | nil => cases hd
    | cons d ds => exact Bool.eq_false_iff.1 (hrest d rfl) hd
  rw [read, if_neg hclass.1, if_neg hdash, if_neg (by simpa [hclass.2.1] using hpoint),
    if_neg hclass.2.2]
  have hreading : charReading c = .ok (.symbol s) := by rw [charReading, hc]
  cases rest with
  | nil => rw [punctuation, hreading]
  | cons d ds => rw [punctuation, pairSymbol_eq_none hc (hrest d rfl), hreading]

/-- The text of a symbol is read as **that symbol**. -/
theorem reads_symbol (s : Symbol) : Reads s.text.toList (.symbol s) := by
  cases s
  case equal | notEqual | lessEqual | greaterEqual | and | or =>
    exact ⟨_, _, rfl, fun _ _ => rfl⟩
  all_goals exact ⟨_, [], rfl, fun rest hrest => read_of_charSymbol rfl hrest⟩

/-- Whatever **spells** a token is read as that token, a quoted text apart, where the
closing quote has to be the first one. -/
theorem reads_of_spells {text : List Char} (h : Spells (String.ofList text) k) (heof : k ≠ .eof)
    (hstring : ∀ value, k ≠ .string value) : Reads text k := by
  cases k with
  | name name =>
    obtain ⟨rfl, hname, htrue, hfalse⟩ := h
    rw [String.toList_ofList] at hname
    have hreads := reads_of_isName hname
    rwa [wordKind, if_neg htrue, if_neg hfalse] at hreads
  | bool value =>
    have hname : IsName (toString value).toList ∧ wordKind (toString value) = .bool value := by
      cases value
      · exact ⟨⟨[], 'f', ['a', 'l', 's', 'e'], rfl, .inl rfl, rfl, List.all_eq_true.1 rfl⟩, rfl⟩
      · exact ⟨⟨[], 't', ['r', 'u', 'e'], rfl, .inl rfl, rfl, List.all_eq_true.1 rfl⟩, rfl⟩
    obtain ⟨hname, hkind⟩ := hname
    have hreads := reads_of_isName hname
    rwa [String.ofList_toList, hkind, ← h, String.toList_ofList] at hreads
  | int value =>
    obtain ⟨hne, hdigits, hvalue⟩ := h
    rw [String.toList_ofList] at hdigits hvalue
    refine reads_integer ?_ hdigits ?_
    · rintro rfl
      exact hne rfl
    · have hfit : Integer.fit? (Decimal.digitsValue text) = some value :=
        Integer.fit?_eq_some_iff.2 hvalue
      rw [integer, hfit]
  | float value =>
    obtain ⟨whole, fraction, htext, hwhole, hfraction, hne, rfl⟩ := h
    rw [String.toList_ofList] at htext
    rw [htext]
    exact reads_fraction hwhole hfraction hne
  | string value => exact absurd rfl (hstring value)
  | symbol s =>
    have htext : text = s.text.toList := by rw [← h, String.toList_ofList]
    rw [htext]
    exact reads_symbol s
  | eof => exact absurd rfl heof

/-! ### Whatever was read -/

/-- What was **read as a token** once is read as that token again. -/
theorem read_reads {c : Char} {cs : List Char} (h : (read c cs).reading = .ok k) :
    Reads (read c cs).text k := by
  have hspells := read_faithful c cs k h
  by_cases hstring : ∃ value, k = .string value
  · obtain ⟨value, rfl⟩ := hstring
    obtain ⟨quote, body, hquote, htext, -⟩ := hspells
    rw [String.toList_ofList] at htext
    obtain rfl : quote = c := by
      have hsplit := read_split c cs
      rw [whole, htext] at hsplit
      exact (List.cons.inj hsplit).1
    rw [read_eq_quoted hquote, quoted] at h ⊢
    split at h
    · next hclose =>
      cases h
      exact reads_quoted hquote hclose
    · cases h
  · refine reads_of_spells hspells ?_ fun value hk => hstring ⟨value, hk⟩
    rintro rfl
    exact read_reading_ne_eof c cs h

/-- A token that was read is **over** where the rest begins. Of a slash this has to be known
by other means, since a comment is no lexeme. -/
def Over (l : Lexeme) : Prop :=
  ∀ k, l.reading = .ok k → k ≠ .symbol .slash → k.EndsBefore l.rest

theorem head?_dropWhile (p : Char → Bool) (cs : List Char) :
    ∀ c ∈ (cs.dropWhile p).head?, p c = false := by
  intro c hc
  have h := List.head?_dropWhile_not p cs
  rwa [hc] at h

/-- A word is over where **no more of it** follows. -/
theorem word_over (front cs : List Char) : (word front cs).Over := by
  rintro _ ⟨⟩ - c hc
  rw [prolongedBy_wordKind]
  exact head?_dropWhile isNameRest cs c hc

theorem dashed_over (cs : List Char) : (dashed cs).Over := by
  cases cs with
  | nil => rintro _ ⟨⟩
  | cons c cs =>
    rw [dashed]
    split
    · exact word_over _ cs
    · rintro _ ⟨⟩

/-- After digits that no point follows comes neither a digit nor a point. -/
theorem digits_over {cs : List Char} (h : ∀ r, cs.dropWhile Char.isDigit = '.' :: r → False) :
    ∀ c ∈ (cs.dropWhile Char.isDigit).head?, (c.isDigit || c == '.') = false := by
  intro c hc
  have hne : c ≠ '.' := by
    rintro rfl
    obtain ⟨r, hr⟩ := List.head?_eq_some_iff.1 hc
    exact h r hr
  simp [head?_dropWhile Char.isDigit cs c hc, hne]

/-- A number is over where **no digit** follows, nor a point in an integer. -/
theorem number_over (cs : List Char) : (number cs).Over := by
  rw [number]
  split
  · rw [fraction]
    split
    · rintro _ ⟨⟩
    · next hpoint =>
      rintro _ ⟨⟩ -
      exact digits_over hpoint
  · next hpoint =>
    intro k hk _
    rw [integer] at hk
    split at hk
    · cases hk
      exact digits_over hpoint
    · cases hk

theorem quoted_over (quote : Char) (cs : List Char) : (quoted quote cs).Over := by
  rw [quoted]
  split
  · rintro _ ⟨⟩ - c -
    rfl
  · rintro _ ⟨⟩

/-- A character that prolongs a symbol is taken with it, unless that makes a name, a number
or a comment. -/
theorem prolongedBy_charSymbol {c d : Char} {s : Symbol} (hs : charSymbol c = some s)
    (hd : (TokenKind.symbol s).prolongedBy d = true) :
    c = '-' ∧ d = '-' ∨ c = '.' ∧ d.isDigit = true ∨ s = .slash ∨
      (pairSymbol c d).isSome = true := by
  unfold charSymbol at hs
  split at hs <;> cases hs <;> simp_all [TokenKind.prolongedBy, pairSymbol]

/-- A symbol is over where **no longer one** begins. -/
theorem punctuation_over {c : Char} {cs : List Char} (hdash : ¬(c = '-' ∧ cs.head? = some '-'))
    (hpoint : ¬(c = '.' ∧ startsWithDigit cs = true)) : (punctuation c cs).Over := by
  cases cs with
  | nil => exact fun k _ _ => k.endsBefore_nil
  | cons d ds =>
    intro k hk hslash
    rw [punctuation] at hk ⊢
    split at hk
    · next s hs =>
      cases hk
      unfold pairSymbol at hs
      split at hs <;> cases hs <;> exact fun _ _ => rfl
    · next hpair =>
      rintro _ ⟨⟩
      rw [charReading] at hk
      split at hk
      · next s hs =>
        cases hk
        rw [Bool.eq_false_iff]
        intro hd
        obtain ⟨rfl, rfl⟩ | h | rfl | h := prolongedBy_charSymbol hs hd
        · exact hdash ⟨rfl, rfl⟩
        · exact hpoint h
        · exact hslash rfl
        · rw [hpair] at h
          cases h
      · cases hk

/-- **What was read** is over where the rest begins. -/
theorem read_over (c : Char) (cs : List Char) : (read c cs).Over := by
  rw [read]
  split
  · exact word_over [c] cs
  split
  · exact dashed_over (cs.drop 1)
  split
  · exact number_over (c :: cs)
  split
  · exact quoted_over c cs
  · next hdash hnumber _ =>
    simp only [Bool.or_eq_true, Bool.and_eq_true, beq_iff_eq, not_or] at hnumber
    exact punctuation_over hdash hnumber.2

end Lexeme

/-! ### Gaps -/

namespace Trivia

variable {gap : List Char}

/-- A comment is over at the first mark that closes it, whatever follows. -/
theorem closeComment_append {inner : List Char} (h : ¬['*', '/'] <:+: inner) (rest : List Char) :
    closeComment (inner ++ '*' :: '/' :: rest) = some (inner ++ ['*', '/'], rest) := by
  induction inner with
  | nil => rw [List.nil_append, closeComment, List.nil_append]
  | cons c inner ih =>
    rw [List.infix_cons_iff, not_or] at h
    rw [List.cons_append, closeComment, ih h.2]
    · rfl
    · -- the mark would have to begin with this character
      intro tail hc htail
      subst hc
      refine h.1 ?_
      cases inner with
      | nil => cases htail
      | cons d inner =>
        cases htail
        exact ⟨inner, rfl⟩

/-- A gap is **skipped**, and then whatever can be skipped after it. -/
theorem skip_append (h : Gap gap) (rest : List Char) :
    skip (gap ++ rest) = (skip rest).after gap := by
  induction h with
  | nil => cases hskip : skip rest <;> simp [after, hskip]
  | @blank c cs hc _ ih =>
    rw [List.cons_append, skip, if_pos hc, ih]
    · cases skip rest <;> rfl
    · rintro _ rfl -
      cases hc
  | @comment inner cs hinner _ ih =>
    have hclose := closeComment_append hinner (cs ++ rest)
    have happend : '/' :: '*' :: (inner ++ '*' :: '/' :: cs) ++ rest =
        '/' :: '*' :: (inner ++ '*' :: '/' :: (cs ++ rest)) := by simp
    rw [happend, skip]
    split
    · next hnone =>
      rw [hclose] at hnone
      cases hnone
    · next hsome =>
      rw [hclose] at hsome
      cases hsome
      rw [ih]
      cases skip rest <;> simp [after]

/-- Where a gap is over there is **no other** gap. -/
theorem skip_rest {cs skipped rest : List Char} (h : skip cs = .closed skipped rest) :
    skip rest = .closed [] rest := by
  have hgap : Gap skipped := by simpa only [h, Trivia.skipped] using skip_gap cs
  have hsplit : skipped ++ rest = cs := by simpa only [h, whole] using skip_split cs
  have happend := skip_append hgap rest
  rw [hsplit, h] at happend
  cases hrest : skip rest with
  | closed s r => simpa [hrest, after, eq_comm] using happend
  | unclosed s r =>
    rw [hrest] at happend
    cases happend

/-- A comment is **skipped**, and does not begin a token. -/
theorem skip_comment_ne (cs rest : List Char) : skip ('/' :: '*' :: cs) ≠ .closed [] rest := by
  rw [skip]
  split
  · simp
  · next body after _ => cases skip after <;> simp [Trivia.after]

end Trivia

/-! ### One token -/

namespace Lexeme

variable {k : TokenKind} {text rest : List Char}

theorem read_slash (cs : List Char) : read '/' cs = ⟨['/'], .ok (.symbol .slash), cs⟩ := by
  cases cs <;> rfl

/-- Only a slash is read as **a slash**. -/
theorem eq_slash_of_read {c : Char} {cs : List Char}
    (h : (read c cs).reading = .ok (.symbol .slash)) : c = '/' := by
  have hspells : String.ofList (read c cs).text = "/" := read_faithful c cs _ h
  have hsplit := read_split c cs
  rw [whole, ← String.toList_ofList (l := (read c cs).text), hspells] at hsplit
  exact (List.cons.inj hsplit).1.symm

/-- A blank is read as **no token**. -/
theorem isBlank_of_read {c : Char} {cs : List Char} (h : (read c cs).reading = .ok k) :
    isBlank c = false := by
  rw [Bool.eq_false_iff]
  intro hc
  simp only [isBlank, Bool.or_eq_true, beq_iff_eq, or_assoc] at hc
  obtain rfl | rfl | rfl | rfl | rfl := hc <;> cases cs <;> cases h

/-- A token begins where it stands: there is **no gap** before it. -/
theorem Reads.skip (h : Reads text k) (hrest : k.EndsBefore rest) :
    Trivia.skip (text ++ rest) = .closed [] (text ++ rest) := by
  obtain ⟨c, cs, rfl, hread⟩ := h
  have hread := hread rest hrest
  have hblank : ¬isBlank c = true :=
    Bool.eq_false_iff.1 (isBlank_of_read (congrArg Lexeme.reading hread))
  rw [List.cons_append, Trivia.skip, if_neg hblank]
  rintro tail rfl hstar
  -- a slash is a token by itself, so that the star would have to follow it
  rw [read_slash] at hread
  cases hread
  cases hrest '*' (by rw [← List.nil_append rest, hstar]; rfl)

/-- A token has **a character**, at least. -/
theorem Reads.ne_nil (h : Reads text k) : text ≠ [] := by
  obtain ⟨c, cs, rfl, -⟩ := h
  exact List.cons_ne_nil c cs

/-- Whatever is read as a token **spells** it. -/
theorem Reads.spells (h : Reads text k) : Spells (String.ofList text) k := by
  obtain ⟨c, cs, -, hread⟩ := h
  have hread := hread [] k.endsBefore_nil
  have hfaithful := read_faithful c (cs ++ [])
  rw [hread] at hfaithful
  exact hfaithful k rfl

/-- No text is read as **the end**. -/
theorem Reads.ne_eof (h : Reads text k) : k ≠ .eof := by
  obtain ⟨c, cs, rfl, hread⟩ := h
  rintro rfl
  have hread := hread [] (TokenKind.endsBefore_nil _)
  exact read_reading_ne_eof c (cs ++ []) (by rw [hread])

end Lexeme

namespace Cursor

variable {gap text rest : List Char} {k : TokenKind} {loc : Location}

/-- A cursor with a gap and a token ahead of it **reads** that token. -/
theorem next_of_reads (hgap : Gap gap) (htext : Lexeme.Reads text k) (hrest : k.EndsBefore rest)
    (loc : Location) :
    (Cursor.mk (gap ++ (text ++ rest)) loc).next =
      (.ok ⟨k, loc.advance gap, (loc.advance gap).advance text⟩,
        ⟨rest, (loc.advance gap).advance text⟩) := by
  have hskip := Trivia.skip_append hgap (text ++ rest)
  rw [htext.skip hrest, Trivia.after, List.append_nil] at hskip
  obtain ⟨c, cs, rfl, hread⟩ := htext
  have hread := hread rest hrest
  rw [next]
  dsimp only
  rw [hskip, List.cons_append]
  dsimp only
  rw [hread]

/-- With nothing but a gap ahead a cursor reads the **end**. -/
theorem next_of_gap (hgap : Gap gap) (loc : Location) :
    (Cursor.mk gap loc).next =
      (.ok ⟨.eof, .point (loc.advance gap)⟩, ⟨[], loc.advance gap⟩) := by
  have hskip := Trivia.skip_append hgap []
  rw [List.append_nil, Trivia.skip, Trivia.after, List.append_nil] at hskip
  rw [next]
  dsimp only
  rw [hskip]

/-- Whatever token a cursor reads, **a gap and that token** are ahead of it. -/
theorem reads_of_next {c c' : Cursor} {t : Token} (h : c.next = (.ok t, c')) (ht : t.kind ≠ .eof) :
    ∃ gap text, c.rest = gap ++ (text ++ c'.rest) ∧ Gap gap ∧ Lexeme.Reads text t.kind ∧
      t.kind.EndsBefore c'.rest ∧ t.span.start = c.loc.advance gap ∧
      t.span.stop = t.span.start.advance text ∧ c'.loc = t.span.stop := by
  cases Step.of_next h with
  | ending => exact absurd rfl ht
  | @token gap cs ch kind hgap hskip hrest hread _ =>
    refine ⟨gap, (Lexeme.read ch cs).text, hrest, hgap, Lexeme.read_reads hread, ?_, rfl, rfl, rfl⟩
    by_cases hslash : kind = .symbol .slash
    · -- a slash with a star after it would have been skipped
      subst hslash
      obtain rfl := Lexeme.eq_slash_of_read hread
      rw [Lexeme.read_slash]
      intro d hd
      obtain ⟨tail, rfl⟩ := List.head?_eq_some_iff.1 hd
      refine beq_eq_false_iff_ne.2 ?_
      rintro rfl
      exact Trivia.skip_comment_ne tail _ (Trivia.skip_rest hskip)
    · exact Lexeme.read_over ch cs kind hread hslash

end Cursor

end RuleScript
