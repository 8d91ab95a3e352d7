import Mathlib.Data.String.Basic
import RuleScript.Proofs.Spelling
import RuleScript.Proofs.Stream

/-!
# Tokens tile the source

Tokens lie in the source one after the other. Each covers its own spelling, whole
characters of it, and between two of them there is nothing but a gap.

What a cursor does is put in one relation, `Laid`: from a location on, a text is a gap,
the spelling of a token, and a text with the other tokens laid out in it. One token is
read by laying it before the others (`Cursor.next_laid`). All that is said of spans and
slices follows from `Laid`, since the offset of a location counts the bytes before it.

* `Tiles`: what is said of the tokens of a source.
* `tokens_tile_source`: the tokens that are read from a source tile it, up to its end or to
  the first error.
-/

namespace RuleScript

open String (utf8Len)

/-! ### Cutting by bytes -/

/-- The offset of a location counts **bytes**. -/
theorem Location.pos_advance (loc : Location) (cs : List Char) :
    (loc.advance cs).pos = loc.pos + utf8Len cs := by
  fun_induction Location.advance loc cs with
  | case1 => rfl
  | case2 loc cs ih =>
    have hsize : ('\r').utf8Size = 1 ∧ ('\n').utf8Size = 1 := by decide
    have hpos : (loc.newline 2).pos = loc.pos + 2 := rfl
    rw [ih, hpos, String.utf8Len_cons, String.utf8Len_cons, hsize.1, hsize.2]
    omega
  | case3 loc c cs _ ih =>
    have hstep : (loc.step c).pos = loc.pos + c.utf8Size := by
      unfold Location.step
      split <;> rfl
    rw [ih, hstep, String.utf8Len_cons]
    omega

namespace Span

theorem dropBytes_cons {n : Nat} {c : Char} (cs : List Char) (h : c.utf8Size ≤ n) :
    dropBytes n (c :: cs) = dropBytes (n - c.utf8Size) cs := by
  cases n with
  | zero => exact absurd h (Nat.not_le.2 c.utf8Size_pos)
  | succ n => exact if_pos h

theorem takeBytes_cons {n : Nat} {c : Char} (cs : List Char) (h : c.utf8Size ≤ n) :
    takeBytes n (c :: cs) = (takeBytes (n - c.utf8Size) cs).map (c :: ·) := by
  cases n with
  | zero => exact absurd h (Nat.not_le.2 c.utf8Size_pos)
  | succ n => exact if_pos h

theorem dropBytes_append (a b : List Char) : dropBytes (utf8Len a) (a ++ b) = some b := by
  induction a with
  | nil => cases b <;> rfl
  | cons c a ih =>
    rw [List.cons_append, String.utf8Len_cons, dropBytes_cons _ (Nat.le_add_left _ _),
      Nat.add_sub_cancel, ih]

theorem takeBytes_append (a b : List Char) : takeBytes (utf8Len a) (a ++ b) = some a := by
  induction a with
  | nil => cases b <;> rfl
  | cons c a ih =>
    rw [List.cons_append, String.utf8Len_cons, takeBytes_cons _ (Nat.le_add_left _ _),
      Nat.add_sub_cancel, ih, Option.map_some]

/-- A span that begins after a text and is as long as the next one **covers** that one. -/
theorem slice_of_split {s : Span} {source : String} {before text after : List Char}
    (h : source.toList = before ++ (text ++ after)) (hstart : s.start.pos = utf8Len before)
    (hstop : s.stop.pos = s.start.pos + utf8Len text) : s.slice source = String.ofList text := by
  have hlen : s.len = utf8Len text := by
    rw [len, hstop]
    omega
  rw [slice, if_pos (by omega), h, hstart, dropBytes_append, hlen, Option.bind_some,
    takeBytes_append]
  rfl

end Span

theorem isValid_of_split {source : String} {before after : List Char}
    (h : source.toList = before ++ after) :
    String.Pos.Raw.IsValid source ⟨utf8Len before⟩ := by
  rw [String.Pos.Raw.isValid_iff_exists_append]
  refine ⟨String.ofList before, String.ofList after, ?_, ?_⟩
  · rw [← String.ofList_append, ← h, String.ofList_toList]
  · rw [← String.utf8ByteSize_ofList]
    rfl

/-! ### Tokens laid out in a text -/

/-- Tokens are **laid out** in a text from a location on: a gap, the spelling of the
first, and the others after it. After the end there is no text. -/
inductive Laid : Location → List Char → List Token → Prop where
  /-- no tokens -/
  | nil {loc : Location} {cs : List Char} : Laid loc cs []
  /-- a token and those after it -/
  | cons {loc : Location} {gap text rest : List Char} {t : Token} {ts : List Token}
    (hgap : Gap gap) (hspells : Spells (String.ofList text) t.kind)
    (htext : t.kind ≠ .eof → text ≠ []) (hend : t.kind = .eof → rest = [])
    (hstart : t.span.start = loc.advance gap) (hstop : t.span.stop = t.span.start.advance text)
    (hts : Laid t.span.stop rest ts) : Laid loc (gap ++ (text ++ rest)) (t :: ts)

namespace Cursor

/-- Reading **one token** lays it before those that are read next. -/
theorem next_laid {c c' : Cursor} {t : Token} {ts : List Token} (h : c.next = (.ok t, c'))
    (hts : Laid c'.loc c'.rest ts) : Laid c.loc c.rest (t :: ts) := by
  cases Step.of_next h with
  | ending hgap =>
    have hlaid : Laid c.loc (c.rest ++ ([] ++ [])) (⟨.eof, .point (c.loc.advance c.rest)⟩ :: ts) :=
      .cons hgap rfl (fun hk => absurd rfl hk) (fun _ => rfl) rfl rfl hts
    rwa [List.append_nil, List.append_nil] at hlaid
  | @token gap cs ch kind hgap _ hrest hread hkind =>
    rw [hrest]
    exact .cons hgap (Lexeme.read_faithful ch cs kind hread)
      (fun _ => Lexeme.read_text_ne_nil ch cs) (fun hend => absurd hend hkind) rfl rfl hts

/-- **All tokens** that are read are laid out. -/
theorem tokens_laid (c : Cursor) : Laid c.loc c.rest c.tokens.1 := by
  induction c using tokens_induction with
  | error c e c' hn =>
    rw [tokens_of_error hn]
    exact .nil
  | ending c t c' hn hk =>
    rw [tokens_of_end hn hk]
    exact next_laid hn .nil
  | token c t c' hn hk ih =>
    rw [tokens_of_token hn hk]
    exact next_laid hn ih

end Cursor

/-! ### Tilings -/

/-- A token has its **place** in a source. Its span begins and ends between characters and
covers the spelling of the token; it is empty only for the end, which is at the end. -/
structure Token.Placed (source : String) (t : Token) : Prop where
  start : String.Pos.Raw.IsValid source ⟨t.span.start.pos⟩
  stop : String.Pos.Raw.IsValid source ⟨t.span.stop.pos⟩
  spelled : Spells (t.span.slice source) t.kind
  proper : t.kind ≠ .eof → t.span.start.pos < t.span.stop.pos
  ending : t.kind = .eof →
    t.span.start.pos = source.utf8ByteSize ∧ t.span.stop.pos = source.utf8ByteSize

/-- A token that spells a stretch of a source, and says so in its span, has its place
there. -/
theorem Token.placed_of_split {source : String} {before text rest : List Char} {t : Token}
    (hsource : source.toList = before ++ (text ++ rest))
    (hstart : t.span.start.pos = utf8Len before)
    (hstop : t.span.stop.pos = t.span.start.pos + utf8Len text)
    (hspells : Spells (String.ofList text) t.kind) (htext : t.kind ≠ .eof → text ≠ [])
    (hend : t.kind = .eof → rest = []) : t.Placed source := by
  refine ⟨?_, ?_, ?_, ?_, ?_⟩
  · rw [hstart]
    exact isValid_of_split hsource
  · rw [← List.append_assoc] at hsource
    rw [hstop, hstart, ← String.utf8Len_append]
    exact isValid_of_split hsource
  · rwa [Span.slice_of_split hsource hstart hstop]
  · intro hk
    obtain ⟨c, text, rfl⟩ := List.exists_cons_of_ne_nil (htext hk)
    have := c.utf8Size_pos
    rw [hstop, String.utf8Len_cons]
    omega
  · intro hk
    -- nothing is covered and nothing is left
    obtain rfl := hend hk
    rw [hk] at hspells
    obtain rfl := String.ofList_eq_empty_iff.1 hspells
    have hsize : source.utf8ByteSize = utf8Len before := by
      rw [← String.ofList_toList (s := source), hsource, List.append_nil, List.append_nil,
        String.utf8ByteSize_ofList]
    rw [hstop, hstart, hsize]
    exact ⟨rfl, rfl⟩

/-- The stretches before each of the tokens, from a location on. -/
def gapsFrom (loc : Location) (tokens : List Token) : List Span :=
  List.zipWith Span.mk (loc :: tokens.map (·.span.stop)) (tokens.map (·.span.start))

/-- Tokens **tile** a source from a location on: they have their places in it, each ends
before the next one begins, and only gaps are left. -/
structure Tiles (source : String) (loc : Location) (tokens : List Token) : Prop where
  placed : ∀ t ∈ tokens, t.Placed source
  ordered : tokens.Pairwise fun t u => t.span.stop.pos ≤ u.span.start.pos
  gaps : ∀ g ∈ gapsFrom loc tokens, g.start.pos ≤ g.stop.pos ∧ Gap (g.slice source).toList

namespace Laid

variable {loc : Location} {cs : List Char} {tokens : List Token} {source : String}

theorem start_le (h : Laid loc cs tokens) : ∀ t ∈ tokens, loc.pos ≤ t.span.start.pos := by
  induction h with
  | nil => exact nofun
  | @cons loc gap text rest t ts _ _ _ _ hstart hstop _ ih =>
    have hle : loc.pos ≤ t.span.start.pos := by
      rw [hstart, Location.pos_advance]
      omega
    have hle' : t.span.start.pos ≤ t.span.stop.pos := by
      rw [hstop, Location.pos_advance]
      omega
    intro u hu
    cases hu with
    | head => exact hle
    | tail _ hu => exact (hle.trans hle').trans (ih u hu)

/-- Tokens laid out in the rest of a source **tile** that rest. -/
theorem tiles (h : Laid loc cs tokens) (before : List Char)
    (hsource : source.toList = before ++ cs) (hloc : loc.pos = utf8Len before) :
    Tiles source loc tokens := by
  induction h generalizing before with
  | nil => exact ⟨nofun, .nil, nofun⟩
  | @cons loc gap text rest t ts hgap hspells htext hend hstart hstop hts ih =>
    have hstartPos : t.span.start.pos = utf8Len (before ++ gap) := by
      rw [hstart, Location.pos_advance, hloc, String.utf8Len_append]
    have hstopPos : t.span.stop.pos = t.span.start.pos + utf8Len text := by
      rw [hstop, Location.pos_advance]
    have hsplit : source.toList = before ++ gap ++ (text ++ rest) := by
      rw [hsource, List.append_assoc]
    have ht : t.Placed source :=
      Token.placed_of_split hsplit hstartPos hstopPos hspells htext hend
    obtain ⟨hplaced, hordered, hgaps⟩ := ih (before ++ gap ++ text)
      (by rw [hsplit, List.append_assoc _ text])
      (by rw [hstopPos, hstartPos, ← String.utf8Len_append])
    refine ⟨List.forall_mem_cons.2 ⟨ht, hplaced⟩, .cons hts.start_le hordered, ?_⟩
    have hgapStop : t.span.start.pos = loc.pos + utf8Len gap := by
      rw [hstart, Location.pos_advance]
    have hslice : (Span.mk loc t.span.start).slice source = String.ofList gap :=
      Span.slice_of_split hsource hloc hgapStop
    refine List.forall_mem_cons.2 ⟨⟨?_, ?_⟩, hgaps⟩
    · exact hgapStop ▸ Nat.le_add_right _ _
    · rwa [hslice, String.toList_ofList]

end Laid

/-! ### Sources -/

/-- The first results of a lexer, so many at most. -/
def Lexer.results : Nat → Lexer → List (Except SyntaxError Token)
  | 0, _ => []
  | n + 1, l =>
    match l.next? with
    | (none, _) => []
    | (some result, l') => result :: l'.results n

/-- A lexer gives the tokens ahead **one by one**, then the error in place of the end if
there is one, and then nothing. -/
theorem Lexer.results_eq (c : Cursor) (n : Nat) :
    (Lexer.mk c false).results n =
      (c.tokens.1.map Except.ok ++ (c.tokens.2.map Except.error).toList).take n := by
  have hfinished : ∀ n c, (Lexer.mk c true).results n = [] := by
    intro n c
    cases n <;> rfl
  induction c using Cursor.tokens_induction generalizing n with
  | error c e c' hn =>
    cases n with
    | zero => rfl
    | succ n => simp [results, next?, hn, hfinished, Cursor.tokens_of_error hn]
  | ending c t c' hn hk =>
    cases n with
    | zero => rfl
    | succ n => simp [results, next?, hn, hk, hfinished, Cursor.tokens_of_end hn hk]
  | token c t c' hn hk ih =>
    cases n with
    | zero => rfl
    | succ n => simp [results, next?, hn, hk, ih n, Cursor.tokens_of_token hn hk]

/-- The tokens of a source, read up to its end or the first error, tile it. -/
theorem tiles_tokens (source : String) : Tiles source .origin (Cursor.ofString source).tokens.1 :=
  (Cursor.ofString source).tokens_laid.tiles [] rfl rfl

theorem tiles_of_lex {source : String} {tokens : List Token} (h : lex source = .ok tokens) :
    Tiles source .origin tokens := by
  have htiles := tiles_tokens source
  rwa [tokens_of_lex h] at htiles

/-- **Tokens tile the source.** If a source is made up of tokens, these are placed in it
in order with nothing but gaps between them, each covering its spelling, and the last of
them and no other is the end. If there is an error instead, this holds of the tokens that
are given before it. -/
theorem tokens_tile_source (source : String) :
    (∀ tokens, lex source = .ok tokens → Tiles source .origin tokens ∧
      (∃ (before : List Token) (ending : Token), tokens = before ++ [ending] ∧
        ending.kind = .eof ∧ ∀ t ∈ before, t.kind ≠ .eof) ∧
      ∀ n, (Lexer.ofString source).results n = (tokens.map Except.ok).take n) ∧
    ∀ e, lex source = .error e → ∃ tokens, Tiles source .origin tokens ∧
      (∀ t ∈ tokens, t.kind ≠ .eof) ∧
      ∀ n, (Lexer.ofString source).results n =
        (tokens.map Except.ok ++ [Except.error e]).take n := by
  have htiles := tiles_tokens source
  have hresults := Lexer.results_eq (Cursor.ofString source)
  have heof := fun t => Cursor.kind_ne_eof_of_mem_stream (c := Cursor.ofString source) (t := t)
  rw [Cursor.tokens_eq_stream] at htiles hresults
  rw [lex_eq_stream, Lexer.ofString]
  generalize (Cursor.ofString source).stream = x at htiles hresults heof ⊢
  obtain ⟨before, _ | span⟩ := x
  · refine ⟨by rintro _ ⟨⟩, ?_⟩
    rintro _ ⟨⟩
    exact ⟨before, htiles, heof, hresults⟩
  · refine ⟨?_, by rintro _ ⟨⟩⟩
    rintro _ ⟨⟩
    refine ⟨htiles, ⟨before, _, rfl, rfl, heof⟩, fun n => ?_⟩
    rw [hresults, Option.map_none, Option.toList_none, List.append_nil]

/-- A comment with a character of two bytes, and a name after it. -/
theorem tokens_tile_source_comment :
    ∃ tokens, lex "/*é*/ x" = .ok tokens ∧ tokens.map Token.kind = [.name "x", .eof] ∧
      tokens.map (·.span.start.pos) = [7, 8] ∧ Tiles "/*é*/ x" .origin tokens := by
  have hfirst : (Cursor.ofString "/*é*/ x").next =
      (.ok ⟨.name "x", ⟨7, 1, 7⟩, ⟨8, 1, 8⟩⟩, ⟨[], ⟨8, 1, 8⟩⟩) := by with_unfolding_all rfl
  have hlast : (Cursor.mk [] ⟨8, 1, 8⟩).next =
      (.ok ⟨.eof, ⟨8, 1, 8⟩, ⟨8, 1, 8⟩⟩, ⟨[], ⟨8, 1, 8⟩⟩) := by with_unfolding_all rfl
  have hlex := lex_of_one hfirst rfl hlast rfl
  exact ⟨_, hlex, rfl, rfl, ((tokens_tile_source _).1 _ hlex).1⟩

end RuleScript
