import RuleScript.Proofs.Tiling

/-!
# What quoted texts stand for

A quoted text stands for the characters inside it, with escapes resolved: `decode`. The
value of a token comes close to it. Since the lexer steps over a carriage return and a
line feed at once, of such a pair only the carriage return reaches the value.

* `Lexeme.unescape_eq_decode`: the value is what the text stands for after each pair is
  folded into a carriage return.
* `Lexeme.unescape_eq_decode_iff`: it is what the text itself stands for exactly if there
  is no such pair.
* `string_token_value`: tokens of a source.
-/

namespace RuleScript

/-- What a text stands for: a backslash with a letter for a control character, a backslash
with another character for that one, and every other character for itself. -/
def decode : List Char → List Char
  | '\\' :: 'n' :: cs => '\n' :: decode cs
  | '\\' :: 'r' :: cs => '\r' :: decode cs
  | '\\' :: 't' :: cs => '\t' :: decode cs
  | '\\' :: 'f' :: cs => '\x0c' :: decode cs
  | '\\' :: c :: cs => c :: decode cs
  | c :: cs => c :: decode cs
  | [] => []

theorem decode_backslash (c : Char) (cs : List Char) :
    decode ('\\' :: c :: cs) = Lexeme.escaped c :: decode cs := by
  unfold Lexeme.escaped
  split
  · rfl
  · rfl
  · rfl
  · rfl
  · next hn hr ht hf =>
    rw [decode]
    all_goals assumption

/-- A character stands for itself unless it is a backslash with another one after it. -/
theorem decode_cons {c : Char} {cs : List Char} (h : c = '\\' → cs = []) :
    decode (c :: cs) = c :: decode cs := by
  by_cases hc : c = '\\'
  · rw [hc, h hc]
    rfl
  · rw [decode]
    all_goals
      intros
      contradiction

/-! ### Line breaks of two characters -/

/-- A text with every carriage return and line feed **folded** into the carriage return. -/
def foldBreaks : List Char → List Char
  | '\r' :: '\n' :: cs => '\r' :: foldBreaks cs
  | c :: cs => c :: foldBreaks cs
  | [] => []

/-- How many line breaks of two characters there are. -/
def breaks : List Char → Nat
  | '\r' :: '\n' :: cs => breaks cs + 1
  | _ :: cs => breaks cs
  | [] => 0

theorem breaks_eq_zero_iff (cs : List Char) : breaks cs = 0 ↔ ¬['\r', '\n'] <:+: cs := by
  fun_induction breaks cs with
  | case1 cs ih =>
    refine iff_of_false (Nat.succ_ne_zero _) (not_not_intro ?_)
    exact ⟨[], cs, rfl⟩
  | case2 c cs hc ih =>
    rw [ih, List.infix_cons_iff, not_or]
    refine (and_iff_right ?_).symm
    rintro ⟨tail, htail⟩
    obtain ⟨rfl, rfl⟩ := List.cons.inj htail
    exact hc tail rfl rfl
  | case3 => simp

theorem foldBreaks_of_breaks {cs : List Char} (h : breaks cs = 0) : foldBreaks cs = cs := by
  fun_induction foldBreaks cs with
  | case1 cs ih => cases h
  | case2 c cs hc ih =>
    rw [breaks] at h
    · rw [ih h]
    · exact hc
  | case3 => rfl

namespace Lexeme

theorem eq_nil_of_backslash {c : Char} {cs : List Char}
    (h : ∀ d ds, c = '\\' → cs = d :: ds → False) (hc : c = '\\') : cs = [] := by
  cases cs with
  | nil => rfl
  | cons d ds => exact (h d ds hc rfl).elim

/-- The value of a quoted text is what its inside stands for **with line breaks folded**. -/
theorem unescape_eq_decode (body : List Char) : unescape body = decode (foldBreaks body) := by
  fun_induction unescape body with
  | case1 => rfl
  | case2 cs ih =>
    rw [ih]
    rfl
  | case3 c cs hcut ih =>
    have hfold : foldBreaks ('\\' :: c :: cs) = '\\' :: c :: foldBreaks cs := by
      rw [foldBreaks, foldBreaks]
      · exact hcut
      · exact nofun
    rw [hfold, decode_backslash, ih]
  | case4 cs ih =>
    rw [ih]
    rfl
  | case5 c cs _ hescape hcut ih =>
    have hfold : foldBreaks (c :: cs) = c :: foldBreaks cs := by
      rw [foldBreaks]
      exact hcut
    rw [hfold, decode_cons, ih]
    intro hc
    rw [eq_nil_of_backslash hescape hc]
    rfl

/-- **One character** is lost for each line break of two. -/
theorem length_unescape (body : List Char) :
    (unescape body).length + breaks body = (decode body).length := by
  fun_induction unescape body with
  | case1 => rfl
  | case2 cs ih =>
    change (unescape cs).length + 1 + (breaks cs + 1) = (decode cs).length + 1 + 1
    omega
  | case3 c cs hcut ih =>
    have hbreaks : breaks ('\\' :: c :: cs) = breaks cs := by
      rw [breaks, breaks]
      · exact hcut
      · exact nofun
    rw [hbreaks, decode_backslash, List.length_cons, List.length_cons]
    omega
  | case4 cs ih =>
    change (unescape cs).length + 1 + (breaks cs + 1) = (decode cs).length + 1 + 1
    omega
  | case5 c cs _ hescape hcut ih =>
    have hbreaks : breaks (c :: cs) = breaks cs := by
      rw [breaks]
      exact hcut
    rw [hbreaks, decode_cons (eq_nil_of_backslash hescape), List.length_cons, List.length_cons]
    omega

/-- **Nothing** is lost exactly if there is no line break of two characters. -/
theorem unescape_eq_decode_iff (body : List Char) :
    unescape body = decode body ↔ ¬['\r', '\n'] <:+: body := by
  rw [← breaks_eq_zero_iff]
  constructor
  · intro h
    have hlength := length_unescape body
    rw [h] at hlength
    omega
  · intro h
    rw [unescape_eq_decode, foldBreaks_of_breaks h]

end Lexeme

/-! ### Tokens -/

/-- The text strictly between the first and the last character of a token. -/
def Token.inside (source : String) (t : Token) : List Char :=
  (t.span.slice source).toList.tail.dropLast

/-- **String tokens decode their own text**, but for line breaks of two characters: of a
carriage return and a line feed only the carriage return is kept. The value of a string
token is what the text inside it stands for exactly if there is none. -/
theorem string_token_value (source : String) (tokens : List Token) (t : Token) (value : String)
    (h : lex source = .ok tokens) (ht : t ∈ tokens) (hvalue : t.kind = .string value) :
    value.toList = decode (foldBreaks (t.inside source)) ∧
      (value.toList = decode (t.inside source) ↔ ¬['\r', '\n'] <:+: t.inside source) := by
  have hspells := ((tiles_of_lex h).placed t ht).spelled
  rw [hvalue] at hspells
  obtain ⟨quote, body, -, htext, rfl⟩ := hspells
  have hinside : t.inside source = body := by
    rw [Token.inside, htext, List.tail_cons, List.dropLast_concat]
  rw [String.toList_ofList, hinside]
  exact ⟨Lexeme.unescape_eq_decode body, Lexeme.unescape_eq_decode_iff body⟩

/-- A backslash and a letter are decoded. -/
theorem string_token_value_escape :
    ∃ tokens t, lex "'\\n'" = .ok tokens ∧ t ∈ tokens ∧ t.kind = .string "\n" ∧
      "\n".toList = decode (foldBreaks (t.inside "'\\n'")) := by
  have hfirst : (Cursor.ofString "'\\n'").next =
      (.ok ⟨.string "\n", ⟨0, 1, 1⟩, ⟨4, 1, 5⟩⟩, ⟨[], ⟨4, 1, 5⟩⟩) := by with_unfolding_all rfl
  have hlast : (Cursor.mk [] ⟨4, 1, 5⟩).next =
      (.ok ⟨.eof, ⟨4, 1, 5⟩, ⟨4, 1, 5⟩⟩, ⟨[], ⟨4, 1, 5⟩⟩) := by with_unfolding_all rfl
  have hlex := lex_of_one hfirst rfl hlast rfl
  exact ⟨_, _, hlex, List.mem_cons_self, rfl,
    (string_token_value _ _ _ _ hlex List.mem_cons_self rfl).1⟩

/-- A carriage return and a line feed between quotes: the line feed is **lost**. -/
theorem string_token_loses_line_feed :
    ∃ tokens t value, lex "'\r\n'" = .ok tokens ∧ t ∈ tokens ∧ t.kind = .string value ∧
      value.toList = ['\r'] ∧ decode (t.inside "'\r\n'") = ['\r', '\n'] := by
  have hfirst : (Cursor.ofString "'\r\n'").next =
      (.ok ⟨.string "\r", ⟨0, 1, 1⟩, ⟨4, 2, 2⟩⟩, ⟨[], ⟨4, 2, 2⟩⟩) := by with_unfolding_all rfl
  have hlast : (Cursor.mk [] ⟨4, 2, 2⟩).next =
      (.ok ⟨.eof, ⟨4, 2, 2⟩, ⟨4, 2, 2⟩⟩, ⟨[], ⟨4, 2, 2⟩⟩) := by with_unfolding_all rfl
  exact ⟨_, _, _, lex_of_one hfirst rfl hlast rfl, List.mem_cons_self, rfl, by decide, by decide⟩

end RuleScript
