/-
# Quoted text

Between double quotes a backslash and the character after it belong together, and a double
quote that no backslash guards ends the text.  The text between the quotes is kept as
written; its meaning drops each guarding backslash, and drops a backslash together with the
line end that it guards.
-/
import DotNotation.Lexical.Cut

namespace DotNotation.Lexical

/-! ## Scanning -/

/-- Take the longest piece that can stand between double quotes. -/
def quotedBody : Text → Cut
  | [] => ⟨[], []⟩
  | c :: cs =>
    if c = '"' then ⟨[], c :: cs⟩
    else if c = '\\' then
      match cs with
      | [] => ⟨[], ['\\']⟩
      | d :: ds => ((quotedBody ds).cons d).cons '\\'
    else (quotedBody cs).cons c

/-- Can the whole text stand between double quotes? -/
def isQuotedBody (t : Text) : Bool := (quotedBody t).rest.isEmpty

/-- Take a quoted text, given the text after its opening quote.  The piece is the text between
the quotes; the rest follows the closing one. -/
def closeQuote (t : Text) : Option Cut :=
  match (quotedBody t).rest with
  | '"' :: rest => some ⟨(quotedBody t).taken, rest⟩
  | _ => none

/-! ## Meaning -/

/-- Guard every double quote and every backslash. -/
def escape : Text → Text
  | [] => []
  | c :: cs => if c = '"' ∨ c = '\\' then '\\' :: c :: escape cs else c :: escape cs

/-- The meaning of the text between double quotes. -/
def unescape : Text → Text
  | [] => []
  | c :: cs =>
    if c = '\\' then
      match cs with
      | [] => ['\\']
      | '\n' :: ds => unescape ds
      | '\r' :: '\n' :: ds => unescape ds
      | d :: ds => d :: unescape ds
    else c :: unescape cs

/-! ## Nothing is lost -/

theorem whole_quotedBody (t : Text) : (quotedBody t).whole = t := by
  fun_induction quotedBody t with
  | case1 => rfl
  | case2 => rfl
  | case3 => rfl
  | case4 d ds _ ih => simp_all
  | case5 c cs _ _ ih => simp_all

theorem closeQuote_eq_some {t : Text} {cut : Cut} (h : closeQuote t = some cut) :
    t = cut.taken ++ '"' :: cut.rest := by
  unfold closeQuote at h
  split at h
  · rename_i rest hr
    cases h
    have := whole_quotedBody t
    rw [Cut.whole, hr] at this
    exact this.symm
  · cases h

end DotNotation.Lexical
