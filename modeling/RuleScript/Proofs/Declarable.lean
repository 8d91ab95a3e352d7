import RuleScript.Proofs.Rendering
import RuleScript.Proofs.Reparsing
import RuleScript.Proofs.WellFormed

/-!
# Declared names, read without their dashes

A variable is declared with two dashes in front of its name, and it is read behind a dollar sign,
with the dashes or without them. Both spellings are one token, but for two names: `--true` and
`--false` are names like all others, while `true` and `false` are words of their own and no names.
So the variables of these two names can be read with their dashes only.

* `exists_name_of_lex`: what can be declared is two dashes and a name, and a gap after it.
* `dereferences_of_name`, `readExpression_of_bool`: a word behind a dollar sign, if it is a name and
  if it is not.
* `declared_read_without_dashes`: both ways to read a variable that can be declared.
-/

namespace RuleScript

/-! ### What can be declared -/

/-- No gap begins with a dash. -/
theorem Gap.eq_nil_of_dash {gap cs ds : List Char} (h : Gap gap) (heq : gap ++ cs = '-' :: ds) :
    gap = [] := by
  cases h with
  | nil => rfl
  | blank hc =>
    cases heq
    cases hc
  | comment => cases heq

/-- A name that begins with a dash is **two dashes and a name** that does not. -/
theorem IsName.split_dashes {text rest cs : List Char} (h : IsName text)
    (heq : text ++ rest = '-' :: '-' :: cs) :
    ∃ first more, text = '-' :: '-' :: first :: more ∧ cs = first :: more ++ rest ∧
      IsName (first :: more) ∧ first ≠ '-' := by
  obtain ⟨dashes, first, more, rfl, rfl | rfl, hfirst, hmore⟩ := h
  · obtain ⟨rfl, -⟩ := List.cons.inj heq
    cases hfirst
  · obtain ⟨-, heq⟩ := List.cons.inj heq
    obtain ⟨-, rfl⟩ := List.cons.inj heq
    refine ⟨first, more, rfl, rfl, ⟨[], first, more, rfl, .inl rfl, hfirst, hmore⟩, ?_⟩
    rintro rfl
    cases hfirst

theorem Name.withoutDashes_dashes (name : String) : withoutDashes ("--" ++ name) = name := by
  rw [withoutDashes, String.toList_append]
  exact String.ofList_toList

/-- A text that is one token with two dashes in front of it is a **name**, with nothing but a gap
after it, and that token is the name with the dashes. -/
theorem exists_name_of_lex {n w : String} {s : Span} {ending : Token}
    (h : lex ("--" ++ n) = .ok [⟨.name w, s⟩, ending]) :
    ∃ name gap : String, n = name ++ gap ∧ Gap gap.toList ∧ w = "--" ++ name ∧
      (Name.mk w s).Spelled ∧ IsName name.toList ∧ Name.hasDashes name = false := by
  obtain ⟨span, hstream⟩ := stream_of_lex h
  have hone : (Cursor.ofString ("--" ++ n)).stream.tokens = [⟨.name w, s⟩] :=
    congrArg TokenStream.tokens hstream
  obtain ⟨c, hn, hc⟩ := Cursor.next_of_stream hone
  obtain ⟨gap, text, hrest, hgap, htext, -⟩ := Cursor.reads_of_next hn nofun
  have hsource : gap ++ (text ++ c.rest) = '-' :: '-' :: n.toList := by
    rw [← hrest, Cursor.ofString, String.toList_append]
    rfl
  obtain rfl := hgap.eq_nil_of_dash hsource
  obtain ⟨rfl, hform, htrue, hfalse⟩ := htext.spells
  have hword : IsName text := by rwa [String.toList_ofList] at hform
  obtain ⟨first, more, rfl, hname, hplain, hfirst⟩ := hword.split_dashes hsource
  refine ⟨String.ofList (first :: more), String.ofList c.rest, ?_, ?_, ?_,
    ⟨hform, htrue, hfalse⟩, ?_, ?_⟩
  · rw [← String.ofList_append, ← hname, String.ofList_toList]
  · rw [String.toList_ofList]
    exact Cursor.gap_of_stream (hc.trans (congrArg _ (congrArg TokenStream.ending hstream)))
  · exact String.toList_inj.1 (by simp)
  · rwa [String.toList_ofList]
  · exact Name.hasDashes_eq_false String.toList_ofList hfirst

/-! ### Behind a dollar sign -/

namespace Cursor

variable {text gap : List Char}

/-- A dollar sign is a token, **whatever follows**. -/
theorem next_dollar (cs : List Char) (loc : Location) :
    (Cursor.mk ('$' :: cs) loc).next =
      (.ok ⟨.symbol .dollar, loc, loc.advance ['$']⟩, ⟨cs, loc.advance ['$']⟩) := by
  have hreads : Lexeme.Reads ['$'] (.symbol .dollar) := Lexeme.reads_symbol .dollar
  exact next_of_reads .nil hreads (fun _ _ => rfl) loc

/-- A name with only a gap after it is read as a word. -/
theorem next_name (htext : IsName text) (hgap : Gap gap) (loc : Location) :
    (Cursor.mk (text ++ gap) loc).next =
      (.ok ⟨Lexeme.wordKind (String.ofList text), loc, loc.advance text⟩,
        ⟨gap, loc.advance text⟩) := by
  have hover : (Lexeme.wordKind (String.ofList text)).EndsBefore gap := by
    rw [← List.append_nil gap]
    exact hgap.endsBefore (fun _ => rfl) _
  exact next_of_reads .nil (Lexeme.reads_of_isName htext) hover loc

/-- A dollar sign and a word are all the tokens there are. -/
theorem shows_dollar (htext : IsName text) (hgap : Gap gap) (loc : Location) :
    (Cursor.mk ('$' :: (text ++ gap)) loc).stream.Shows
      [.symbol .dollar, Lexeme.wordKind (String.ofList text)] := by
  have hword : (Lexeme.wordKind (String.ofList text)).isEof = false := by
    simpa [Bool.eq_false_iff] using (Lexeme.reads_of_isName htext).ne_eof
  rw [stream_of_token (next_dollar _ loc) rfl, stream_of_token (next_name htext hgap _) hword,
    stream_of_end (next_of_gap hgap _) rfl]
  exact ⟨rfl, _, rfl⟩

end Cursor

/-- A source is read as an expression that **dereferences** the variable, with nothing but the end
left of it. -/
def Dereferences (source var : String) : Prop :=
  ∃ name span s t s',
    Parser.readExpression (Lookahead.ofString source) = (.ok (.deref name span), s) ∧
      name.variableName = var ∧ s.peek = (.ok t, s') ∧ t.kind = .eof

/-- The text of a dollar sign and what follows it. -/
theorem toList_dollar (text gap : String) :
    ("$" ++ (text ++ gap)).toList = '$' :: (text.toList ++ gap.toList) := by
  rw [String.toList_append, String.toList_append]
  rfl

variable {gap : String}

/-- A name behind a dollar sign **dereferences** the variable it stands for. -/
theorem dereferences_of_name {n : Name} (h : n.Spelled) (hgap : Gap gap.toList) :
    Dereferences ("$" ++ (n.text ++ gap)) n.variableName := by
  have hshows := Cursor.shows_dollar h.form hgap .origin
  rw [String.ofList_toList, Lexeme.wordKind, if_neg h.not_true, if_neg h.not_false,
    ← toList_dollar] at hshows
  obtain ⟨e, s, t, s', hread, hseen, hpeek, hend⟩ :=
    Parser.readExpression_of_shows (q := .deref n.text) trivial hshows
  cases e with
  | deref name span =>
    obtain ⟨hname, -⟩ := Expr.deref.inj hseen
    obtain ⟨htext, -⟩ := Name.mk.inj hname
    exact ⟨name, span, s, t, s', hread, congrArg Name.withoutDashes htext, hpeek, hend⟩
  | _ => cases hseen

theorem Lookahead.peek_of_next {c c' : Cursor} {t : Token} (h : c.next = (.ok t, c')) :
    (Lookahead.mk c none).peek = (.ok t, ⟨c', some t⟩) := by
  rw [Lookahead.peek, h]

/-- Behind a dollar sign **nothing but a name** is accepted. -/
theorem Parser.readExpression_of_dollar {σ : Type} [TokenSource σ] [LawfulTokenSource σ]
    {s s₁ s₂ : σ} {span : Span} {u : Token}
    (hdollar : TokenSource.peek s = (.ok ⟨.symbol .dollar, span⟩, s₁))
    (hnext : TokenSource.peek (TokenSource.drop s₁) = (.ok u, s₂))
    (hu : ∀ text, u.kind ≠ .name text) :
    readExpression s = (.error (.unexpected .variableName u), s₂) := by
  have hrun : ∀ d level, (binary (d + 3) level).run s =
      (.failed (.unexpected .variableName u), s₂) := by
    intro d level
    have hname : (expectName .variableName : Parser σ Name).run (TokenSource.drop s₁) =
        (.failed (.unexpected .variableName u), s₂) := by
      rw [expectName, Process.run_bind_done (run_peek hnext)]
      split
      · next text heq => exact absurd heq (hu text)
      · rfl
    have hprimary : (primary (d + 1)).run s₁ = (.failed (.unexpected .variableName u), s₂) := by
      rw [primary, Process.run_bind_done (run_peek (LawfulTokenSource.peek_peek hdollar))]
      exact Process.run_bind_failed hname _
    have hunary : (unary (d + 2)).run s = (.failed (.unexpected .variableName u), s₂) := by
      rw [unary, Process.run_bind_done (run_peek hdollar)]
      exact hprimary
    rw [binary]
    exact Process.run_bind_failed hunary _
  exact Process.settle_of_failed (hrun (4 * TokenSource.size s + 5) 0) _

/-- The words for the two truth values are **no names** behind a dollar sign. -/
theorem readExpression_of_bool {value : Bool} (htext : IsName (toString value).toList)
    (hgap : Gap gap.toList) :
    (Parser.readExpression (Lookahead.ofString ("$" ++ (toString value ++ gap)))).1 =
      .error (.unexpected .variableName
        ⟨.bool value, ⟨1, 1, 2⟩, Location.advance ⟨1, 1, 2⟩ (toString value).toList⟩) := by
  have hdollar := Cursor.next_dollar ((toString value).toList ++ gap.toList) .origin
  have hword := Cursor.next_name htext hgap ⟨1, 1, 2⟩
  have hkind : Lexeme.wordKind (String.ofList (toString value).toList) = .bool value := by
    cases value <;> rfl
  rw [hkind] at hword
  rw [← toList_dollar] at hdollar
  have hnone : ∀ text, TokenKind.bool value ≠ .name text := nofun
  rw [Parser.readExpression_of_dollar (Lookahead.peek_of_next hdollar)
    (Lookahead.peek_of_next hword) hnone]

/-! ### Variables that can be declared -/

/-- **Declared names are read without their dashes**, but for two. Take any text that is one name
when two dashes are put in front of it, so that a variable can be declared in this way. Then the
text is the name of that variable, and maybe a gap after it, which is no part of the token. Behind
a dollar sign the text with its dashes dereferences the variable, and so does the text without
them, unless the name is `true` or `false`. These words are refused there, with an error on the
word. -/
theorem declared_read_without_dashes (n w : String) (s : Span) (ending : Token)
    (h : lex ("--" ++ n) = .ok [⟨.name w, s⟩, ending]) :
    ∃ name gap : String, n = name ++ gap ∧ Gap gap.toList ∧ w = "--" ++ name ∧
      Dereferences ("$--" ++ n) name ∧
      (name ≠ "true" → name ≠ "false" → Dereferences ("$" ++ n) name) ∧
      ∀ value : Bool, name = toString value →
        (Parser.readExpression (Lookahead.ofString ("$" ++ n))).1 =
          .error (.unexpected .variableName
            ⟨.bool value, ⟨1, 1, 2⟩, Location.advance ⟨1, 1, 2⟩ name.toList⟩) := by
  obtain ⟨name, gap, rfl, hgap, rfl, hdashed, hname, hplain⟩ := exists_name_of_lex h
  refine ⟨name, gap, rfl, hgap, rfl, ?_, ?_, ?_⟩
  · have hread := dereferences_of_name hdashed hgap
    have hsource : "$" ++ ("--" ++ name ++ gap) = "$--" ++ (name ++ gap) :=
      String.toList_inj.1 (by simp)
    rwa [Name.variableName, Name.withoutDashes_dashes, hsource] at hread
  · intro htrue hfalse
    have hspelled : (Name.mk name s).Spelled := ⟨hname, htrue, hfalse⟩
    have hread := dereferences_of_name hspelled hgap
    rwa [Name.variableName, Name.withoutDashes_of_not_hasDashes hplain] at hread
  · rintro value rfl
    exact readExpression_of_bool hname hgap

/-- A name with a dash in it, and a comment behind it. -/
theorem declared_read_without_dashes_inside :
    ∃ s ending, lex "--x-1/**/" = .ok [⟨.name "--x-1", s⟩, ending] ∧
      Dereferences "$--x-1/**/" "x-1" ∧ "x-1" ≠ "true" ∧ "x-1" ≠ "false" ∧
      Dereferences "$x-1/**/" "x-1" := by
  have hfirst : (Cursor.ofString "--x-1/**/").next =
      (.ok ⟨.name "--x-1", ⟨0, 1, 1⟩, ⟨5, 1, 6⟩⟩, ⟨['/', '*', '*', '/'], ⟨5, 1, 6⟩⟩) := by
    with_unfolding_all rfl
  have hlast : (Cursor.mk ['/', '*', '*', '/'] ⟨5, 1, 6⟩).next =
      (.ok ⟨.eof, ⟨9, 1, 10⟩, ⟨9, 1, 10⟩⟩, ⟨[], ⟨9, 1, 10⟩⟩) := by with_unfolding_all rfl
  have hlex : lex ("--" ++ "x-1/**/") = _ := lex_of_one hfirst rfl hlast rfl
  obtain ⟨name, gap, -, -, hname, hdashed, hplain, -⟩ := declared_read_without_dashes _ _ _ _ hlex
  obtain rfl : name = "x-1" := by
    rw [← Name.withoutDashes_dashes name, ← hname]
    rfl
  exact ⟨_, _, hlex, hdashed, by decide, by decide, hplain (by decide) (by decide)⟩

/-- The variable `true` can be declared, but **not read** without its dashes. -/
theorem reserved_not_read_without_dashes :
    (∃ s ending, lex ("--" ++ "true") = .ok [⟨.name ("--" ++ "true"), s⟩, ending]) ∧
      Dereferences ("$--" ++ "true") "true" ∧
      ∀ e s, Parser.readExpression (Lookahead.ofString ("$" ++ "true")) ≠ (.ok e, s) := by
  have hform : IsName ("--" ++ "true").toList :=
    ⟨['-', '-'], 't', ['r', 'u', 'e'], rfl, .inr rfl, rfl, List.all_eq_true.1 rfl⟩
  have hword : IsName (toString true).toList :=
    ⟨[], 't', ['r', 'u', 'e'], rfl, .inl rfl, rfl, List.all_eq_true.1 rfl⟩
  have hspelled : (Name.mk ("--" ++ "true") default).Spelled := ⟨hform, by decide, by decide⟩
  have hgap : Gap "".toList := .nil
  have hfirst : (Cursor.ofString ("--" ++ "true")).next =
      (.ok ⟨.name ("--" ++ "true"), ⟨0, 1, 1⟩, ⟨6, 1, 7⟩⟩, ⟨[], ⟨6, 1, 7⟩⟩) := by
    with_unfolding_all rfl
  refine ⟨⟨_, _, lex_of_one hfirst rfl (Cursor.next_of_gap .nil _) rfl⟩, ?_, fun e s hread => ?_⟩
  · have hread := dereferences_of_name hspelled hgap
    rwa [Name.variableName, Name.withoutDashes_dashes, String.append_empty,
      ← String.append_assoc] at hread
  · have hrefused := readExpression_of_bool hword hgap
    rw [String.append_empty, show toString true = "true" from rfl, hread] at hrefused
    cases hrefused

end RuleScript
