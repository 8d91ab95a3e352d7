import RuleScript.Proofs.Escape
import RuleScript.Proofs.Lexing

/-!
# Lexing undoes rendering

Tokens can be written down: each is rendered as one of its spellings, a string between
quotes with the characters escaped that would not survive there. If gaps are left between
them, reading the text gives the same kinds of tokens again.

A gap begins with a blank or a slash, and neither prolongs any token. So it does not matter
which tokens stand next to each other, nor what is inside the comments of a gap.

* `Lexeme.decode_escape`: a string is what its escaped text stands for.
* `Rendered`: a token as it is rendered, with the gap after it.
* `lexing_undoes_rendering`: sequences of tokens.
-/

namespace RuleScript

/-! ### Strings between quotes -/

namespace Lexeme

/-- A text **escaped** to stand between quotes: a backslash before each backslash and each
such quote, and `\r` for a carriage return. -/
def escape (quote : Char) : List Char → List Char
  | [] => []
  | c :: cs =>
    if c = '\\' ∨ c = quote then '\\' :: c :: escape quote cs
    else if c = '\r' then '\\' :: 'r' :: escape quote cs
    else c :: escape quote cs

variable {quote : Char}

/-- No quote inside an escaped text closes it. -/
theorem closeQuote_escape (hquote : '\\' ≠ quote) (cs rest : List Char) :
    closeQuote quote (escape quote cs ++ quote :: rest) = some (escape quote cs, rest) := by
  induction cs with
  | nil => exact closeQuote_quote quote rest
  | cons c cs ih =>
    rw [escape]
    split
    · rw [List.cons_append, List.cons_append, closeQuote_backslash hquote, ih]
      rfl
    · next hc =>
      obtain ⟨hbackslash, hne⟩ := not_or.1 hc
      split
      · rw [List.cons_append, List.cons_append, closeQuote_backslash hquote, ih]
        rfl
      · rw [List.cons_append, closeQuote_cons hne hbackslash, ih]
        rfl

theorem not_mem_escape (hquote : quote ≠ '\r') (cs : List Char) : '\r' ∉ escape quote cs := by
  induction cs with
  | nil => exact List.not_mem_nil
  | cons c cs ih =>
    rw [escape]
    split
    · next hc =>
      have hne : '\r' ≠ c := by
        rintro rfl
        obtain hc | hc := hc
        · cases hc
        · exact hquote hc.symm
      simp [hne, ih]
    · split
      · simp [ih]
      · next hne => simp [Ne.symm hne, ih]

/-- An escaped text **stands for** the text it was made from. -/
theorem decode_escape (hquote : escaped quote = quote) (cs : List Char) :
    decode (escape quote cs) = cs := by
  induction cs with
  | nil => rfl
  | cons c cs ih =>
    rw [escape]
    split
    · next hc =>
      have hescaped : escaped c = c := by
        obtain rfl | rfl := hc
        · rfl
        · exact hquote
      rw [decode_backslash, hescaped, ih]
    · next hc =>
      split
      · next hr =>
        rw [decode_backslash, ih, hr]
        rfl
      · rw [decode_cons fun h => absurd (.inl h) hc, ih]

theorem unescape_escape (hquote : quote = '\x22' ∨ quote = '\x27') (cs : List Char) :
    unescape (escape quote cs) = cs := by
  have hfold : ¬['\r', '\n'] <:+: escape quote cs := by
    intro h
    refine not_mem_escape ?_ cs (h.subset List.mem_cons_self)
    obtain rfl | rfl := hquote <;> decide
  rw [(unescape_eq_decode_iff _).2 hfold, decode_escape]
  obtain rfl | rfl := hquote <;> rfl

end Lexeme

/-! ### Tokens and gaps -/

/-- The texts that a token may be **rendered** as: for a string its escaped text between
quotes of either kind, and for all others any spelling. The end is not rendered. -/
def Renders (text : List Char) : TokenKind → Prop
  | .string value => ∃ quote, (quote = '\x22' ∨ quote = '\x27') ∧
      text = quote :: (Lexeme.escape quote value.toList ++ [quote])
  | .eof => False
  | k => Spells (String.ofList text) k

theorem Renders.reads {text : List Char} {k : TokenKind} (h : Renders text k) :
    Lexeme.Reads text k := by
  cases k with
  | string value =>
    obtain ⟨quote, hquote, rfl⟩ := h
    have hne : '\\' ≠ quote := by obtain rfl | rfl := hquote <;> decide
    have hreads := Lexeme.reads_quoted hquote (Lexeme.closeQuote_escape hne value.toList [])
    rwa [Lexeme.unescape_escape hquote, String.ofList_toList] at hreads
  | eof => exact h.elim
  | name | int | float | bool | symbol => exact Lexeme.reads_of_spells h nofun nofun

/-- What a gap may begin with prolongs **no token**. -/
theorem TokenKind.prolongedBy_eq_false (k : TokenKind) {c : Char} (h : isBlank c = true ∨ c = '/') :
    k.prolongedBy c = false := by
  simp only [isBlank, Bool.or_eq_true, beq_iff_eq, or_assoc] at h
  obtain rfl | rfl | rfl | rfl | rfl | rfl := h <;> cases k with
  | symbol s => cases s <;> rfl
  | name | int | float | bool | string | eof => rfl

/-- A token is over where a gap begins, or the end is. -/
theorem Gap.endsBefore {gap rest : List Char} (h : Gap gap) (hrest : gap = [] → rest = [])
    (k : TokenKind) : k.EndsBefore (gap ++ rest) := by
  cases h with
  | nil =>
    rw [hrest rfl]
    exact k.endsBefore_nil
  | blank hc =>
    rintro _ ⟨⟩
    exact k.prolongedBy_eq_false (.inl hc)
  | comment =>
    rintro _ ⟨⟩
    exact k.prolongedBy_eq_false (.inr rfl)

/-- A token as it is **rendered**, with the gap after it. -/
structure Rendered where
  /-- what is rendered -/
  kind : TokenKind
  /-- the text it is rendered as -/
  text : List Char
  /-- the gap after the text -/
  gap : List Char
  renders : Renders text kind
  isGap : Gap gap

/-- The text of tokens one after the other, each with the gap after it. -/
def Rendered.join (ps : List Rendered) : List Char := ps.flatMap fun p => p.text ++ p.gap

/-- A cursor **reads back** what was rendered. -/
theorem Cursor.tokens_join {lead : List Char} {ps : List Rendered} (hlead : Gap lead)
    (hgaps : ∀ p ∈ ps.dropLast, p.gap ≠ []) (loc : Location) :
    ∃ tokens, (Cursor.mk (lead ++ Rendered.join ps) loc).tokens = (tokens, none) ∧
      tokens.map Token.kind = ps.map Rendered.kind ++ [.eof] := by
  induction ps generalizing lead loc with
  | nil =>
    have hnext := next_of_gap hlead loc
    rw [Rendered.join, List.flatMap_nil, List.append_nil, tokens_of_end hnext rfl]
    exact ⟨_, rfl, rfl⟩
  | cons p ps ih =>
    have hends : p.kind.EndsBefore (p.gap ++ Rendered.join ps) := by
      refine p.isGap.endsBefore (fun hgap => ?_) p.kind
      cases ps with
      | nil => rfl
      | cons q qs => exact absurd hgap (hgaps p List.mem_cons_self)
    have hmore : ∀ q ∈ ps.dropLast, q.gap ≠ [] := by
      intro q hq
      refine hgaps q ?_
      cases ps with
      | nil => cases hq
      | cons r rs => exact List.mem_cons_of_mem p hq
    have hnext := next_of_reads hlead p.renders.reads hends loc
    obtain ⟨tokens, htokens, hkinds⟩ := ih p.isGap hmore ((loc.advance lead).advance p.text)
    have hjoin : Rendered.join (p :: ps) = p.text ++ (p.gap ++ Rendered.join ps) := by
      simp [Rendered.join]
    have hkind : p.kind.isEof = false := by
      simpa [Bool.eq_false_iff] using p.renders.reads.ne_eof
    rw [hjoin, tokens_of_token hnext hkind, htokens]
    exact ⟨_, rfl, by rw [List.map_cons, hkinds, List.map_cons, List.cons_append]⟩

/-- **Lexing undoes rendering.** Take any tokens, render each in any way, and put any gaps
before, between and after them, of which those between two tokens are not empty. Then the
text is made up of tokens, and these are of the same kinds, with the end after them. -/
theorem lexing_undoes_rendering (lead : List Char) (ps : List Rendered) (hlead : Gap lead)
    (hgaps : ∀ p ∈ ps.dropLast, p.gap ≠ []) :
    ∃ tokens, lex (String.ofList (lead ++ Rendered.join ps)) = .ok tokens ∧
      tokens.map Token.kind = ps.map Rendered.kind ++ [.eof] := by
  obtain ⟨tokens, htokens, hkinds⟩ := Cursor.tokens_join hlead hgaps .origin
  refine ⟨tokens, ?_, hkinds⟩
  rw [lex, Cursor.ofString, String.toList_ofList, htokens]

/-- A slash before a comment with a quote in it, a string with a comment mark in it, and a
minus before a name with dashes. -/
theorem lexing_undoes_rendering_slash :
    ∃ tokens, lex "//*'*/'/*\\r' - --x" = .ok tokens ∧
      tokens.map Token.kind =
        [.symbol .slash, .string "/*\r", .symbol .minus, .name "--x", .eof] := by
  have hcomment : Gap ('/' :: '*' :: (['\x27'] ++ ['*', '/'])) := .comment (by decide) .nil
  have hblank : Gap [' '] := .blank rfl .nil
  have hname : Renders ['-', '-', 'x'] (.name "--x") :=
    ⟨rfl, ⟨['-', '-'], 'x', [], rfl, .inr rfl, rfl, nofun⟩, by decide, by decide⟩
  have hstring : Renders ['\x27', '/', '*', '\\', 'r', '\x27'] (.string "/*\r") :=
    ⟨'\x27', .inr rfl, rfl⟩
  exact lexing_undoes_rendering []
    [⟨.symbol .slash, _, _, rfl, hcomment⟩, ⟨.string "/*\r", _, _, hstring, hblank⟩,
      ⟨.symbol .minus, _, _, rfl, hblank⟩, ⟨.name "--x", _, [], hname, .nil⟩] .nil (by simp)

end RuleScript
