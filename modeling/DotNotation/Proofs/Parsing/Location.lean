/-
# Lines and columns name one place

A report gives the place of a failure by line and column, and shows the line.  All three are found
by looking from the place to the line feeds on both sides of it.  Here they are compared with the
lines of the whole source text, counted from its start.  The main results are

* `Text.Locates.unique`: a place has at most one line and column;
* `Diagnostic.locates`: the line and column of a report are those of its place;
* `Diagnostic.locates_iff`: they are the only ones, and the snippet shows that line.
-/
import DotNotation.Parsing.Diagnostic
import Mathlib.Algebra.GroupWithZero.Nat
import Mathlib.Data.List.TakeWhile
import Mathlib.Tactic.Lemma

namespace DotNotation

/-! ## The lines of a text -/

namespace Text

/-- The lines of a text.  Behind a line feed at its end there is a last, empty line. -/
def lines (t : Text) : List Text := t.splitOn '\n'

/-- The number of characters in lines that are each followed by a line feed. -/
def extent (ls : List Text) : Nat := (ls.map fun l => l.length + 1).sum

/-- The place stands in the given line, which has the given content, and in the given column.
Lines and columns count from one, and the column behind the last character belongs to the line. -/
structure Locates (source : Text) (offset line column : Nat) (content : Text) : Prop where
  one_le_line : 1 ≤ line
  line_le : line ≤ source.lines.length
  content_eq : source.lines[line - 1]? = some content
  one_le_column : 1 ≤ column
  column_le : column ≤ content.length + 1
  offset_eq : extent (source.lines.take (line - 1)) + (column - 1) = offset

variable {t u : Text} {ls ms : List Text}

@[simp] lemma extent_nil : extent [] = 0 := rfl

@[simp] lemma extent_cons : extent (t :: ls) = t.length + 1 + extent ls := by
  simp [extent]

@[simp] lemma extent_append : extent (ls ++ ms) = extent ls + extent ms := by
  simp [extent]

lemma extent_le_of_prefix (h : ls <+: ms) : extent ls ≤ extent ms := by
  obtain ⟨rest, rfl⟩ := h
  simp

/-- A character other than a line feed makes the first line longer; a line feed starts a line. -/
lemma lines_cons_cases (c : Char) (t : Text) :
    (c = '\n' ∧ lines (c :: t) = [] :: lines t) ∨
      c ≠ '\n' ∧ ∃ first rest, lines t = first :: rest ∧
        lines (c :: t) = (c :: first) :: rest := by
  by_cases hc : c = '\n'
  · exact Or.inl ⟨hc, by simp [lines, List.splitOn_cons_eq_if_modifyHead, hc]⟩
  · obtain ⟨first, rest, hlines⟩ := List.exists_cons_of_ne_nil (List.splitOn_ne_nil '\n' t)
    refine Or.inr ⟨hc, first, rest, hlines, ?_⟩
    simp [lines, List.splitOn_cons_eq_if_modifyHead, hc, hlines]

lemma length_lines (t : Text) : t.lines.length = t.count '\n' + 1 := by
  induction t with
  | nil => rfl
  | cons c t ih =>
    rcases lines_cons_cases c t with ⟨rfl, hlines⟩ | ⟨hc, first, rest, ht, hlines⟩
    · simp [hlines, ih]
    · rw [hlines, List.count_cons_of_ne hc, ← ih, ht]
      rfl

/-- With a line feed behind the last one, the lines are all of the text. -/
lemma extent_lines (t : Text) : extent t.lines = t.length + 1 := by
  induction t with
  | nil => rfl
  | cons c t ih =>
    rcases lines_cons_cases c t with ⟨rfl, hlines⟩ | ⟨-, first, rest, ht, hlines⟩
    · rw [hlines, extent_cons, ih, List.length_cons, List.length_nil]
      omega
    · rw [ht, extent_cons] at ih
      rw [hlines, extent_cons, List.length_cons, List.length_cons]
      omega

lemma lines_append_line (t u : Text) : lines (t ++ '\n' :: u) = t.lines ++ u.lines :=
  List.splitOn_append_cons_self t u

/-- A text goes on up to its first line feed, which is its end if there is none. -/
lemma cases_takeWhile (t : Text) : '\n' ∉ t.takeWhile (· != '\n') ∧
    (t.takeWhile (· != '\n') = t ∨ ∃ rest, t = t.takeWhile (· != '\n') ++ '\n' :: rest) := by
  have hsplit := List.takeWhile_append_dropWhile (p := (· != '\n')) (l := t)
  refine ⟨fun hmem => absurd (List.mem_takeWhile_imp hmem) (by decide), ?_⟩
  cases hrest : t.dropWhile (· != '\n') with
  | nil => exact Or.inl (by rwa [hrest, List.append_nil] at hsplit)
  | cons c rest =>
    obtain rfl : c = '\n' := by simpa [hrest] using List.head?_dropWhile_not (· != '\n') t
    exact Or.inr ⟨rest, by rw [← hrest, hsplit]⟩

/-- Behind a text without a line feed the first line goes on up to the next one. -/
lemma exists_lines_append (ht : '\n' ∉ t) (u : Text) :
    ∃ later, lines (t ++ u) = (t ++ u.takeWhile (· != '\n')) :: later := by
  obtain ⟨hfirst, hcases⟩ := cases_takeWhile u
  have hline : '\n' ∉ t ++ u.takeWhile (· != '\n') := fun hmem =>
    (List.mem_append.1 hmem).elim ht hfirst
  rcases hcases with hall | ⟨rest, hrest⟩
  · rw [hall] at hline ⊢
    exact ⟨[], List.splitOn_eq_singleton hline⟩
  · refine ⟨lines rest, ?_⟩
    calc lines (t ++ u)
        = lines (t ++ u.takeWhile (· != '\n') ++ '\n' :: rest) := by
          rw [List.append_assoc, ← hrest]
      _ = (t ++ u.takeWhile (· != '\n')) :: lines rest :=
          List.splitOn_append_cons_self_of_not_mem hline rest

/-! ## A place has one line and column -/

namespace Locates

variable {source content other : Text} {offset line column line' column' : Nat}

/-- Two lines of one place: the later line would start behind the place. -/
lemma line_le_line (h : source.Locates offset line column content)
    (h' : source.Locates offset line' column' other) : line' ≤ line := by
  rcases Nat.lt_or_ge line line' with hlt | hle
  · exfalso
    have hstep : extent (source.lines.take line) =
        extent (source.lines.take (line - 1)) + (content.length + 1) := by
      have htake := List.take_add_one (l := source.lines) (i := line - 1)
      rw [Nat.sub_add_cancel h.one_le_line, h.content_eq] at htake
      simp [htake]
    have hmono : extent (source.lines.take line) ≤ extent (source.lines.take (line' - 1)) :=
      extent_le_of_prefix (List.take_prefix_take_left (by omega))
    have hcolumn := h.column_le
    have hoffset := h.offset_eq
    have hoffset' := h'.offset_eq
    have hpos := h.one_le_column
    omega
  · exact hle

lemma unique (h : source.Locates offset line column content)
    (h' : source.Locates offset line' column' other) :
    line' = line ∧ column' = column ∧ other = content := by
  obtain rfl : line' = line := Nat.le_antisymm (h.line_le_line h') (h'.line_le_line h)
  refine ⟨rfl, ?_, ?_⟩
  · have hoffset := h.offset_eq
    have hoffset' := h'.offset_eq
    have hpos := h.one_le_column
    have hpos' := h'.one_le_column
    omega
  · exact Option.some.inj (h'.content_eq.symm.trans h.content_eq)

end Locates

end Text

/-! ## The line and column of a report -/

namespace Diagnostic

open Text (lines extent)

variable (d : Diagnostic)

lemma before_append_behind : d.before ++ d.behind = d.source := List.take_append_drop _ _

lemma lineStart_cases : ('\n' ∉ d.before ∧ d.lineStart = d.before) ∨
    '\n' ∉ d.lineStart ∧ ∃ front, d.before = front ++ '\n' :: d.lineStart := by
  obtain ⟨hstart, hcases⟩ := Text.cases_takeWhile d.before.reverse
  rw [← List.mem_reverse] at hstart
  rcases hcases with hall | ⟨rest, hrest⟩
  · have heq : d.lineStart = d.before := by rw [lineStart, hall, List.reverse_reverse]
    exact Or.inl ⟨heq ▸ hstart, heq⟩
  · refine Or.inr ⟨hstart, rest.reverse, ?_⟩
    have hreverse := congrArg List.reverse hrest
    simpa [lineStart] using hreverse

/-- The lines of the source: those that end before the place, the one with the place, and those
that start behind it. -/
lemma exists_lines_eq : ∃ earlier later, d.source.lines = earlier ++ d.lineText :: later ∧
    earlier.length + 1 = d.line ∧ extent earlier + d.lineStart.length = d.before.length := by
  rw [← d.before_append_behind, line, lineText]
  rcases d.lineStart_cases with ⟨hbefore, heq⟩ | ⟨hstart, front, heq⟩
  · obtain ⟨later, hlines⟩ := Text.exists_lines_append hbefore d.behind
    refine ⟨[], later, by rw [hlines, heq]; rfl, ?_, by simp [heq]⟩
    rw [List.count_eq_zero.2 hbefore, List.length_nil]
  · obtain ⟨later, hlines⟩ := Text.exists_lines_append hstart d.behind
    refine ⟨front.lines, later, ?_, ?_, ?_⟩
    · rw [heq, List.append_assoc, List.cons_append, Text.lines_append_line, hlines]
    · rw [heq, List.count_append, List.count_cons_self, List.count_eq_zero.2 hstart,
        Text.length_lines]
    · rw [Text.extent_lines, heq, List.length_append, List.length_cons]
      omega

variable {d}

/-- The line and column of a report are those of its place. -/
lemma locates (h : d.offset ≤ d.source.length) :
    d.source.Locates d.offset d.line d.column d.lineText := by
  obtain ⟨earlier, later, hlines, hline, hextent⟩ := d.exists_lines_eq
  have hbefore : d.before.length = d.offset := List.length_take_of_le h
  have hcolumn : d.column = d.lineStart.length + 1 := by
    rw [column]
    omega
  have hearlier : d.line - 1 = earlier.length := by omega
  exact {
    one_le_line := by omega
    line_le := by rw [hlines, List.length_append, List.length_cons]; omega
    content_eq := by rw [hlines, hearlier, List.getElem?_append_right (Nat.le_refl _)]; simp
    one_le_column := by omega
    column_le := by rw [hcolumn, lineText, List.length_append]; omega
    offset_eq := by rw [hlines, hearlier, List.take_left, hcolumn]; omega }

/-- For every place of a source text there is exactly one line and column, and these are the ones
that are reported; the snippet shows that line with the caret below the place.  Two places with the
same line and column are the same. -/
theorem locates_iff (h : d.offset ≤ d.source.length) :
    ∃ content, (∀ line column text, d.source.Locates d.offset line column text ↔
        line = d.line ∧ column = d.column ∧ text = content) ∧
      d.snippet = content ++ '\n' :: List.replicate (d.column - 1) ' ' ++ ['^'] ∧
      ∀ other : Diagnostic, other.source = d.source → other.offset ≤ d.source.length →
        other.line = d.line → other.column = d.column → other.offset = d.offset := by
  have hplace := locates h
  refine ⟨d.lineText, fun line column text => ⟨hplace.unique, ?_⟩, rfl, ?_⟩
  · rintro ⟨rfl, rfl, rfl⟩
    exact hplace
  · intro other hsource hother hline hcolumn
    have hplace' := locates (hsource ▸ hother)
    rw [hsource, hline, hcolumn] at hplace'
    exact hplace'.offset_eq.symm.trans hplace.offset_eq

/-- The end of a source text that ends with a line feed: the column of an empty last line. -/
theorem locates_iff_behind_line_feed :
    ∃ content, (∀ line column text, Text.Locates "a\n\nbc\n".toList 6 line column text ↔
        line = 4 ∧ column = 1 ∧ text = content) ∧
      "\n^".toList = content ++ '\n' :: List.replicate (1 - 1) ' ' ++ ['^'] ∧
      ∀ other : Diagnostic, other.source = "a\n\nbc\n".toList → other.offset ≤ 6 →
        other.line = 4 → other.column = 1 → other.offset = 6 :=
  @locates_iff ⟨"a\n\nbc\n".toList, 6, [], []⟩ (by decide)

end Diagnostic

end DotNotation
