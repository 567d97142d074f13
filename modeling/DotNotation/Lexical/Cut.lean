/-
# Cuts

A scanner reads a piece off the front of a text.  Its answer is a cut: the piece taken and
the rest that follows it.
-/
import DotNotation.Text

namespace DotNotation.Lexical

/-- A piece taken off the front of a text, and what follows it. -/
structure Cut where
  /-- The piece that was taken. -/
  taken : Text
  /-- What follows it. -/
  rest : Text
deriving DecidableEq, Repr

namespace Cut

/-- The text that was cut. -/
def whole (cut : Cut) : Text := cut.taken ++ cut.rest

/-- Put one more character in front of the piece taken. -/
def cons (c : Char) (cut : Cut) : Cut := ⟨c :: cut.taken, cut.rest⟩

/-- Take the longest piece whose characters all satisfy `p`. -/
def span (p : Char → Bool) (t : Text) : Cut := ⟨t.takeWhile p, t.dropWhile p⟩

@[simp] theorem whole_cons (c : Char) (cut : Cut) : (cut.cons c).whole = c :: cut.whole := rfl

@[simp] theorem taken_cons (c : Char) (cut : Cut) : (cut.cons c).taken = c :: cut.taken := rfl

@[simp] theorem rest_cons (c : Char) (cut : Cut) : (cut.cons c).rest = cut.rest := rfl

@[simp] theorem whole_span (p : Char → Bool) (t : Text) : (span p t).whole = t :=
  List.takeWhile_append_dropWhile

/-- A piece that is not empty leaves a shorter rest. -/
theorem length_rest_lt {cut : Cut} {t : Text} (h : cut.whole = t) (hne : cut.taken ≠ []) :
    cut.rest.length < t.length := by
  have := List.length_pos_iff.2 hne
  rw [← h, whole, List.length_append]
  omega

end Cut

end DotNotation.Lexical
