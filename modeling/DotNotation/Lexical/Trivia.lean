/-
# Trivia

Blanks and comments may stand between any two tokens and mean nothing.  Blanks are runs of
spaces, tabs and line ends, where a line end is a line feed with an optional carriage return
before it.  A comment runs from `#` or from two slashes up to the line feed, or stands
between `/*` and the first `*/` after it; without that end there is no comment.
-/
import DotNotation.Lexical.Cut

namespace DotNotation.Lexical

/-- Take all blanks at the front of a text. -/
def blankRun : Text → Cut
  | ' ' :: cs => (blankRun cs).cons ' '
  | '\t' :: cs => (blankRun cs).cons '\t'
  | '\n' :: cs => (blankRun cs).cons '\n'
  | '\r' :: '\n' :: cs => ((blankRun cs).cons '\n').cons '\r'
  | cs => ⟨[], cs⟩

/-- Take at least one blank. -/
def blanks (t : Text) : Option Cut :=
  if (blankRun t).taken.isEmpty then none else some (blankRun t)

/-- Take the text up to and including the first `*/`. -/
def closeComment : Text → Option Cut
  | '*' :: '/' :: cs => some ⟨['*', '/'], cs⟩
  | c :: cs => (closeComment cs).map (Cut.cons c)
  | [] => none

/-- Take the text up to the next line feed. -/
def restOfLine (t : Text) : Cut := Cut.span (· != '\n') t

/-- Take a comment. -/
def comment : Text → Option Cut
  | '#' :: cs => some ((restOfLine cs).cons '#')
  | '/' :: '/' :: cs => some (((restOfLine cs).cons '/').cons '/')
  | '/' :: '*' :: cs => (closeComment cs).map fun cut => (cut.cons '*').cons '/'
  | _ => none

/-- Take one piece of trivia: a run of blanks or a comment. -/
def trivia (t : Text) : Option Cut :=
  match blanks t with
  | some cut => some cut
  | none => comment t

/-! ## Nothing is lost -/

theorem whole_blankRun (t : Text) : (blankRun t).whole = t := by
  fun_induction blankRun t <;> simp_all [Cut.whole]

theorem whole_of_blanks {t : Text} {cut : Cut} (h : blanks t = some cut) : cut.whole = t := by
  unfold blanks at h
  split at h
  · cases h
  · cases h
    exact whole_blankRun t

theorem whole_of_closeComment {t : Text} {cut : Cut} (h : closeComment t = some cut) :
    cut.whole = t := by
  fun_induction closeComment t generalizing cut with
  | case1 cs => cases h; rfl
  | case2 c cs _ ih =>
    obtain ⟨inner, hi, rfl⟩ := Option.map_eq_some_iff.1 h
    simp [ih hi]
  | case3 => cases h

theorem whole_of_comment {t : Text} {cut : Cut} (h : comment t = some cut) : cut.whole = t := by
  unfold comment at h
  split at h
  · cases h
    simp [restOfLine]
  · cases h
    simp [restOfLine]
  · obtain ⟨inner, hi, rfl⟩ := Option.map_eq_some_iff.1 h
    simp [whole_of_closeComment hi]
  · cases h

theorem whole_of_trivia {t : Text} {cut : Cut} (h : trivia t = some cut) : cut.whole = t := by
  unfold trivia at h
  split at h
  · cases h
    exact whole_of_blanks (by assumption)
  · exact whole_of_comment h

/-! ## Something is taken -/

theorem taken_ne_nil_of_comment {t : Text} {cut : Cut} (h : comment t = some cut) :
    cut.taken ≠ [] := by
  unfold comment at h
  split at h
  · cases h
    simp
  · cases h
    simp
  · obtain ⟨inner, _, rfl⟩ := Option.map_eq_some_iff.1 h
    simp
  · cases h

theorem taken_ne_nil_of_trivia {t : Text} {cut : Cut} (h : trivia t = some cut) :
    cut.taken ≠ [] := by
  unfold trivia blanks at h
  split at h
  · rename_i hb
    split at hb
    · cases hb
    · rename_i hne
      cases hb
      cases h
      simpa using hne
  · exact taken_ne_nil_of_comment h

end DotNotation.Lexical
