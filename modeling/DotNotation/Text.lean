/-
# Texts

A text is a list of characters, and its length counts characters.  Everything the
library reads or writes is a text, so that recursion on a text is recursion on a list.
Here are the few general operations that the other modules share: decimal numerals,
padding, and the sorted list of the distinct members of a list of texts.
-/

namespace DotNotation

/-- A text, as the list of its characters. -/
abbrev Text := List Char

namespace Text

/-- The decimal numeral of a natural number. -/
def ofNat (n : Nat) : Text := Nat.toDigits 10 n

/-- The decimal numeral of an integer, with a minus sign in front when it is negative. -/
def ofInt : Int → Text
  | .ofNat n => ofNat n
  | .negSucc n => '-' :: ofNat (n + 1)

/-- A run of blanks; a negative width is no blank at all. -/
def spaces (width : Int) : Text := List.replicate width.toNat ' '

/-- The text without the blanks at its end. -/
def dropTrailingSpaces (t : Text) : Text := (t.reverse.dropWhile (· == ' ')).reverse

/-- Insert a text into a sorted list of texts, unless it is there already. -/
def insertSorted (t : Text) : List Text → List Text
  | [] => [t]
  | u :: us => if t < u then t :: u :: us else if t = u then u :: us else u :: insertSorted t us

/-- The distinct members of a list of texts, sorted by code points. -/
def sortDistinct : List Text → List Text
  | [] => []
  | t :: ts => insertSorted t (sortDistinct ts)

/-- The parts in order, with `sep` between each two. -/
def join (sep : Text) : List Text → Text
  | [] => []
  | [t] => t
  | t :: u :: ts => t ++ sep ++ join sep (u :: ts)

@[simp] theorem join_nil (sep : Text) : join sep [] = [] := rfl

@[simp] theorem join_singleton (sep t : Text) : join sep [t] = t := rfl

theorem join_cons_cons (sep t u : Text) (ts : List Text) :
    join sep (t :: u :: ts) = t ++ sep ++ join sep (u :: ts) := rfl

/-- Insertion adds one member and no other. -/
theorem mem_insertSorted {t u : Text} {us : List Text} :
    u ∈ insertSorted t us ↔ u = t ∨ u ∈ us := by
  induction us with
  | nil => simp [insertSorted]
  | cons v vs ih =>
    unfold insertSorted
    split
    · simp
    · split
      · rename_i h
        subst h
        simp
      · simp only [List.mem_cons, ih]
        constructor
        · rintro (h | h | h) <;> simp [h]
        · rintro (h | h | h) <;> simp [h]

/-- Sorting keeps exactly the members. -/
@[simp] theorem mem_sortDistinct {u : Text} {ts : List Text} :
    u ∈ sortDistinct ts ↔ u ∈ ts := by
  induction ts with
  | nil => simp [sortDistinct]
  | cons t ts ih => simp [sortDistinct, mem_insertSorted, ih]

end Text

end DotNotation
