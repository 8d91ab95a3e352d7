import Mathlib.Data.List.DropRight
import RuleScript.Proofs.Escape

/-!
# Lines and columns

A location is counted up while a source is read, character by character. What it comes to
can be said at once: the line counts the **line breaks** before the place, and the column
the characters after the last of them. A carriage return with the line feed after it is
one line break, and no place lies between the two.

* `Location.Marks`: the location of the place after a text, without speaking of reading.
* `Location.Marks.advance`: reading on from a place marks the place that is reached.
* `Location.LiesIn`: the places of a source. `LiesIn.eq_of_pos` and `LiesIn.before_of_pos`
  say that the offset of a place determines its line and column, and in which order.
-/

namespace RuleScript

open String (utf8Len)

/-! ### Line breaks -/

/-- Carriage return and line feed. -/
def isBreak (c : Char) : Bool := c == '\r' || c == '\n'

/-- The number of **line breaks** in a text: every carriage return and every line feed, but
the two together only once. -/
def lineBreaks (cs : List Char) : Nat := cs.countP isBreak - breaks cs

/-- The characters after the last line break of a text. -/
def lastLine (cs : List Char) : List Char := cs.rtakeWhile fun c => !isBreak c

/-- A cut that does not separate a carriage return from its line feed. -/
def Seam (a b : List Char) : Prop := a.getLast? = some '\r' → b.head? ≠ some '\n'

namespace Seam

variable {a b c : List Char}

/-- Nothing is separated where the second text begins with **no line feed**. -/
theorem of_head (h : b.head? ≠ some '\n') : Seam a b := fun _ => h

/-- Nothing is separated where the first text ends with **no carriage return**. -/
theorem of_last (h : a.getLast? ≠ some '\r') : Seam a b := fun hl => absurd hl h

/-- Only the text next to the cut matters. -/
theorem prepend (h : Seam b c) (hb : b ≠ []) (a : List Char) : Seam (a ++ b) c := by
  intro hl
  rw [List.getLast?_append_of_ne_nil a hb] at hl
  exact h hl

theorem tail {d : Char} (h : Seam (d :: a) b) : Seam a b := by
  intro hl
  refine h ?_
  cases a with
  | nil => cases hl
  | cons c cs => simpa using hl

end Seam

/-- Every pair of characters is **two breaks**. -/
theorem two_mul_breaks_le (cs : List Char) : 2 * breaks cs ≤ cs.countP isBreak := by
  fun_induction breaks cs with
  | case1 cs ih =>
    rw [List.countP_cons_of_pos (by decide), List.countP_cons_of_pos (by decide)]
    omega
  | case2 c cs _ ih =>
    rw [List.countP_cons]
    omega
  | case3 => exact Nat.le_refl 0

/-- No pair is lost or made **at a seam**. -/
theorem breaks_append {a b : List Char} (h : Seam a b) :
    breaks (a ++ b) = breaks a + breaks b := by
  fun_induction breaks a with
  | case1 cs ih =>
    rw [List.cons_append, List.cons_append, breaks, ih h.tail.tail]
    omega
  | case2 c cs hc ih =>
    rw [List.cons_append, breaks, ih h.tail]
    -- a pair would begin with this character and lie across the cut, or before it
    rintro ds rfl hds
    cases cs with
    | nil => exact h rfl (by rw [List.nil_append] at hds; rw [hds]; rfl)
    | cons d cs =>
      obtain ⟨rfl, -⟩ := List.cons.inj hds
      exact hc cs rfl rfl
  | case3 => rw [List.nil_append, Nat.zero_add]

/-- Line breaks **add up** at a seam. -/
theorem lineBreaks_append {a b : List Char} (h : Seam a b) :
    lineBreaks (a ++ b) = lineBreaks a + lineBreaks b := by
  have ha := two_mul_breaks_le a
  have hb := two_mul_breaks_le b
  rw [lineBreaks, lineBreaks, lineBreaks, List.countP_append, breaks_append h]
  omega

/-- A text without line breaks has **neither of the two characters**. -/
theorem lineBreaks_eq_zero_iff {cs : List Char} :
    lineBreaks cs = 0 ↔ ∀ c ∈ cs, isBreak c = false := by
  have h := two_mul_breaks_le cs
  have hcount : lineBreaks cs = 0 ↔ cs.countP isBreak = 0 := by
    rw [lineBreaks]
    omega
  rw [hcount, List.countP_eq_zero]
  simp

/-- What has no line break **goes on** with the last line. -/
theorem lastLine_append_of_none (a : List Char) {b : List Char} (h : lineBreaks b = 0) :
    lastLine (a ++ b) = lastLine a ++ b := by
  have hall : ∀ c ∈ b.reverse, (!isBreak c) = true := by
    intro c hc
    rw [lineBreaks_eq_zero_iff.1 h c (List.mem_reverse.1 hc)]
    rfl
  rw [lastLine, lastLine, List.rtakeWhile, List.rtakeWhile, List.reverse_append,
    List.takeWhile_append_of_pos hall, List.reverse_append, List.reverse_reverse]

/-- Behind a line break there is **nothing yet** in the last line. -/
theorem lastLine_concat_break (a : List Char) {c : Char} (h : isBreak c = true) :
    lastLine (a ++ [c]) = [] :=
  List.rtakeWhile_concat_neg _ _ _ (by rw [h]; decide)

/-! ### Places -/

/-- The location of the place after a text. -/
structure Location.Marks (loc : Location) (before : List Char) : Prop where
  pos : loc.pos = utf8Len before
  line : loc.line = 1 + lineBreaks before
  col : loc.col = 1 + (lastLine before).length

namespace Location.Marks

variable {loc : Location} {before : List Char}

theorem origin : Location.origin.Marks [] := ⟨rfl, rfl, rfl⟩

/-- A place that marks a text **steps** with the next character. -/
theorem step (h : loc.Marks before) {c : Char} (hc : Seam before [c]) :
    (loc.step c).Marks (before ++ [c]) := by
  have hpos : utf8Len (before ++ [c]) = utf8Len before + c.utf8Size := by
    rw [String.utf8Len_append, String.utf8Len_cons, String.utf8Len_nil, Nat.zero_add]
  rw [Location.step]
  split
  · next hbreak =>
    have hc' : isBreak c = true := by simpa [isBreak] using hbreak
    refine ⟨?_, ?_, ?_⟩
    · rw [hpos, ← h.pos]
      rfl
    · have hone : lineBreaks [c] = 1 := by obtain rfl | rfl := hbreak <;> rfl
      rw [lineBreaks_append hc, hone, ← Nat.add_assoc, ← h.line]
      rfl
    · rw [lastLine_concat_break before hc']
      rfl
  · next hbreak =>
    have hnone : lineBreaks [c] = 0 := by
      rw [lineBreaks_eq_zero_iff]
      simpa [isBreak] using hbreak
    refine ⟨?_, ?_, ?_⟩
    · rw [hpos, ← h.pos]
    · rw [lineBreaks_append hc, hnone, Nat.add_zero]
      exact h.line
    · rw [lastLine_append_of_none before hnone, List.length_append, ← Nat.add_assoc, ← h.col]
      rfl

/-- The two characters of a line break are **one step**. -/
theorem newline (h : loc.Marks before) : (loc.newline 2).Marks (before ++ ['\r', '\n']) := by
  have hseam : Seam before ['\r', '\n'] := .of_head (by decide)
  refine ⟨?_, ?_, ?_⟩
  · rw [String.utf8Len_append, ← h.pos]
    rfl
  · rw [lineBreaks_append hseam, ← Nat.add_assoc, ← h.line]
    rfl
  · rw [List.append_cons, lastLine_concat_break _ (by decide)]
    rfl

/-- **Reading on** from a place marks the place that is reached. -/
theorem advance (h : loc.Marks before) {cs : List Char} (hcut : Seam before cs) :
    (loc.advance cs).Marks (before ++ cs) := by
  fun_induction Location.advance loc cs generalizing before with
  | case1 => rwa [List.append_nil]
  | case2 loc cs ih =>
    rw [List.append_cons, List.append_cons, List.append_assoc before]
    refine ih h.newline (.of_last ?_)
    simp
  | case3 loc c cs hc ih =>
    rw [List.append_cons]
    refine ih (h.step fun hl => ?_) ?_
    · simpa using hcut hl
    · intro hl
      obtain rfl : c = '\r' := by simpa using hl
      intro hd
      obtain ⟨ds, rfl⟩ := List.head?_eq_some_iff.1 hd
      exact hc ds rfl rfl

end Location.Marks

/-- A location **lies in** a source: it marks a place of the source that is not inside a
line break of two characters. -/
def Location.LiesIn (source : String) (loc : Location) : Prop :=
  ∃ before after, source.toList = before ++ after ∧ Seam before after ∧ loc.Marks before

namespace Location.LiesIn

variable {source : String} {l m : Location}

/-- Of two places of a source, the one with the smaller offset has less text before it. -/
theorem exists_between (hl : l.LiesIn source) (hm : m.LiesIn source) (h : l.pos ≤ m.pos) :
    ∃ before between, Seam before between ∧ l.Marks before ∧ m.Marks (before ++ between) := by
  obtain ⟨a, b, hsource, hseam, hmarks⟩ := hl
  obtain ⟨a', b', hsource', hseam', hmarks'⟩ := hm
  have hpos : utf8Len a ≤ utf8Len a' := by rwa [← hmarks.pos, ← hmarks'.pos]
  obtain ⟨c, rfl, rfl⟩ | ⟨c, rfl, rfl⟩ :=
    List.append_eq_append_iff.1 (hsource.symm.trans hsource')
  · refine ⟨a, c, ?_, hmarks, hmarks'⟩
    intro hlast
    have := hseam hlast
    cases c with
    | nil => exact nofun
    | cons d c => simpa using this
  · -- the other way round only if the places are the same
    have hnil : c = [] := by
      rw [String.utf8Len_append] at hpos
      exact String.utf8Len_eq_zero.1 (by omega)
    subst hnil
    exact ⟨a', [], fun _ => nofun, by rwa [List.append_nil] at hmarks, by rwa [List.append_nil]⟩

/-- The offset of a place **determines** its line and column. -/
theorem eq_of_pos (hl : l.LiesIn source) (hm : m.LiesIn source) (h : l.pos = m.pos) : l = m := by
  obtain ⟨before, between, -, hmarks, hmarks'⟩ := hl.exists_between hm (Nat.le_of_eq h)
  have hnil : between = [] := by
    have := hmarks.pos
    have := hmarks'.pos
    rw [String.utf8Len_append] at this
    exact String.utf8Len_eq_zero.1 (by omega)
  subst hnil
  rw [List.append_nil] at hmarks'
  obtain ⟨pos, line, col⟩ := l
  obtain ⟨pos', line', col'⟩ := m
  obtain rfl : pos = pos' := h
  obtain rfl : line = line' := hmarks.line.trans hmarks'.line.symm
  obtain rfl : col = col' := hmarks.col.trans hmarks'.col.symm
  rfl

/-- A place with a smaller offset is on an **earlier line**, or in an earlier column of the
same line. -/
theorem before_of_pos (hl : l.LiesIn source) (hm : m.LiesIn source) (h : l.pos < m.pos) :
    l.line < m.line ∨ l.line = m.line ∧ l.col < m.col := by
  obtain ⟨before, between, hseam, hmarks, hmarks'⟩ := hl.exists_between hm (Nat.le_of_lt h)
  have hline := hmarks'.line
  rw [lineBreaks_append hseam, ← Nat.add_assoc, ← hmarks.line] at hline
  by_cases hnone : lineBreaks between = 0
  · refine .inr ⟨by omega, ?_⟩
    have hcol := hmarks'.col
    rw [lastLine_append_of_none before hnone, List.length_append, ← Nat.add_assoc,
      ← hmarks.col] at hcol
    have hne : between ≠ [] := by
      rintro rfl
      have := hmarks.pos
      have := hmarks'.pos
      rw [List.append_nil] at this
      omega
    have := List.length_pos_iff.2 hne
    omega
  · exact .inl (by omega)

end Location.LiesIn

end RuleScript
