/-
# Bracketed labels

A label stands between angle brackets, and the brackets inside it nest.  Scanning counts
how many inner brackets are open; the label ends at the closing bracket that meets none.
-/
import DotNotation.Lexical.Cut

namespace DotNotation.Lexical

/-- Take a label, given the text after its opening bracket and the number of inner brackets
that are open.  The piece is the text before the bracket that closes the label; the rest
follows that bracket. -/
def closeLabel (depth : Nat) : Text → Option Cut
  | [] => none
  | c :: cs =>
    if c = '<' then (closeLabel (depth + 1) cs).map (Cut.cons c)
    else if c = '>' then
      match depth with
      | 0 => some ⟨[], cs⟩
      | n + 1 => (closeLabel n cs).map (Cut.cons c)
    else (closeLabel depth cs).map (Cut.cons c)

/-- Are the angle brackets inside the text balanced? -/
def isLabelBody (t : Text) : Bool :=
  match closeLabel 0 (t ++ ['>']) with
  | some cut => cut.rest.isEmpty
  | none => false

/-- The length of the label, brackets included, at the front of a text. -/
def labelLength : Text → Option Nat
  | '<' :: cs => (closeLabel 0 cs).map fun cut => cut.taken.length + 2
  | _ => none

/-- The place behind the label that starts at the given place of a text. -/
def labelEnd (t : Text) (start : Nat) : Option Nat :=
  (labelLength (t.drop start)).map (start + ·)

theorem closeLabel_eq_some {depth : Nat} {t : Text} {cut : Cut}
    (h : closeLabel depth t = some cut) : t = cut.taken ++ '>' :: cut.rest := by
  induction t generalizing depth cut with
  | nil => simp [closeLabel] at h
  | cons c cs ih =>
    unfold closeLabel at h
    split at h
    · obtain ⟨inner, hi, rfl⟩ := Option.map_eq_some_iff.1 h
      simp [← ih hi]
    · split at h
      · split at h
        · cases h
          simp_all
        · obtain ⟨inner, hi, rfl⟩ := Option.map_eq_some_iff.1 h
          simp [← ih hi]
      · obtain ⟨inner, hi, rfl⟩ := Option.map_eq_some_iff.1 h
        simp [← ih hi]

end DotNotation.Lexical
