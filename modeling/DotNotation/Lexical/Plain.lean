/-
# Words and numbers

An identifier that needs no quotes is either a word, which starts with an ASCII letter or an
underscore and goes on with letters, digits and underscores, or a number: an optional minus
sign, then a whole part without leading zeros and an optional fraction, or a fraction alone.
Each scanner takes the longest such piece off the front of a text.
-/
import DotNotation.Lexical.Cut

namespace DotNotation.Lexical

/-! ## Words -/

/-- Can the character start a word? -/
def isWordStart (c : Char) : Bool := c.isAlpha || c == '_'

/-- Can the character stand inside a word? -/
def isWordChar (c : Char) : Bool := c.isAlphanum || c == '_'

/-- Take a word. -/
def word : Text → Option Cut
  | [] => none
  | c :: cs => if isWordStart c then some ((Cut.span isWordChar cs).cons c) else none

/-! ## Numbers -/

/-- Take a fraction: a point and at least one digit. -/
def fraction : Text → Option Cut
  | '.' :: d :: cs =>
    if d.isDigit then some (((Cut.span Char.isDigit cs).cons d).cons '.') else none
  | _ => none

/-- Take the whole part of a number: a lone zero, or digits that do not start with zero. -/
def wholePart : Text → Option Cut
  | [] => none
  | c :: cs =>
    if c = '0' then some ⟨['0'], cs⟩
    else if c.isDigit then some ((Cut.span Char.isDigit cs).cons c)
    else none

/-- Take a number without sign. -/
def magnitude (t : Text) : Option Cut :=
  match wholePart t with
  | some digits => match fraction digits.rest with
    | some places => some ⟨digits.taken ++ places.taken, places.rest⟩
    | none => some digits
  | none => fraction t

/-- Take a number with an optional minus sign. -/
def number : Text → Option Cut
  | '-' :: cs => (magnitude cs).map (Cut.cons '-')
  | t => magnitude t

/-! ## Plain identifiers -/

/-- Take a plain identifier: a word or a number. -/
def plain (t : Text) : Option Cut :=
  match word t with
  | some cut => some cut
  | none => number t

/-- Is the whole text one plain identifier? -/
def isPlain (t : Text) : Bool :=
  match plain t with
  | some cut => cut.rest.isEmpty
  | none => false

/-! ## Nothing is lost -/

theorem whole_of_word {t : Text} {cut : Cut} (h : word t = some cut) : cut.whole = t := by
  cases t with
  | nil => simp [word] at h
  | cons c cs =>
    simp only [word] at h
    split at h
    · cases h
      simp
    · cases h

theorem whole_of_fraction {t : Text} {cut : Cut} (h : fraction t = some cut) :
    cut.whole = t := by
  unfold fraction at h
  split at h
  · split at h
    · cases h
      simp
    · cases h
  · cases h

theorem whole_of_wholePart {t : Text} {cut : Cut} (h : wholePart t = some cut) :
    cut.whole = t := by
  cases t with
  | nil => simp [wholePart] at h
  | cons c cs =>
    simp only [wholePart] at h
    split at h
    · rename_i hc
      cases h
      simp [Cut.whole, hc]
    · split at h
      · cases h
        simp
      · cases h

theorem whole_of_magnitude {t : Text} {cut : Cut} (h : magnitude t = some cut) :
    cut.whole = t := by
  unfold magnitude at h
  split at h
  · rename_i digits hd
    have hw := whole_of_wholePart hd
    split at h
    · rename_i places hp
      have hf := whole_of_fraction hp
      cases h
      simp only [Cut.whole] at hw hf ⊢
      rw [List.append_assoc, hf, hw]
    · cases h
      exact hw
  · exact whole_of_fraction h

theorem whole_of_number {t : Text} {cut : Cut} (h : number t = some cut) : cut.whole = t := by
  unfold number at h
  split at h
  · obtain ⟨inner, hi, rfl⟩ := Option.map_eq_some_iff.1 h
    simp [whole_of_magnitude hi]
  · exact whole_of_magnitude h

theorem whole_of_plain {t : Text} {cut : Cut} (h : plain t = some cut) : cut.whole = t := by
  unfold plain at h
  split at h
  · cases h
    exact whole_of_word (by assumption)
  · exact whole_of_number h

/-! ## Something is taken -/

theorem taken_ne_nil_of_word {t : Text} {cut : Cut} (h : word t = some cut) : cut.taken ≠ [] := by
  cases t with
  | nil => simp [word] at h
  | cons c cs =>
    simp only [word] at h
    split at h
    · cases h
      simp
    · cases h

theorem taken_ne_nil_of_fraction {t : Text} {cut : Cut} (h : fraction t = some cut) :
    cut.taken ≠ [] := by
  unfold fraction at h
  split at h
  · split at h
    · cases h
      simp
    · cases h
  · cases h

theorem taken_ne_nil_of_wholePart {t : Text} {cut : Cut} (h : wholePart t = some cut) :
    cut.taken ≠ [] := by
  cases t with
  | nil => simp [wholePart] at h
  | cons c cs =>
    simp only [wholePart] at h
    split at h
    · cases h
      simp
    · split at h
      · cases h
        simp
      · cases h

theorem taken_ne_nil_of_magnitude {t : Text} {cut : Cut} (h : magnitude t = some cut) :
    cut.taken ≠ [] := by
  unfold magnitude at h
  split at h
  · rename_i digits hd
    have hne := taken_ne_nil_of_wholePart hd
    split at h
    · cases h
      simp [hne]
    · cases h
      exact hne
  · exact taken_ne_nil_of_fraction h

theorem taken_ne_nil_of_number {t : Text} {cut : Cut} (h : number t = some cut) :
    cut.taken ≠ [] := by
  unfold number at h
  split at h
  · obtain ⟨inner, _, rfl⟩ := Option.map_eq_some_iff.1 h
    simp
  · exact taken_ne_nil_of_magnitude h

theorem taken_ne_nil_of_plain {t : Text} {cut : Cut} (h : plain t = some cut) :
    cut.taken ≠ [] := by
  unfold plain at h
  split at h
  · cases h
    exact taken_ne_nil_of_word (by assumption)
  · exact taken_ne_nil_of_number h

end DotNotation.Lexical
