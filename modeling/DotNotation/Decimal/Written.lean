/-
# Written real numbers

A real number is written with the fewest digits that identify it, positionally when its
leading digit stands at most four places after the point and at most sixteen before it, and
otherwise with a signed exponent of at least two digits.  A positional form always has a
point.
-/
import DotNotation.Decimal.Shortest

namespace DotNotation.Decimal

/-- The digits of a decimal without zeros at the end, and the exponent of the first one. -/
def Scaled.significant (d : Scaled) : Text × Int :=
  let digits := Text.ofNat d.digits
  let trimmed := (digits.reverse.dropWhile (· == '0')).reverse
  (trimmed, d.exponent + digits.length - 1)

/-- The exponent of an exponential form. -/
def exponentText (e : Int) : Text :=
  let digits := Text.ofNat e.natAbs
  (if e < 0 then ['e', '-'] else ['e', '+']) ++
    (if digits.length < 2 then '0' :: digits else digits)

/-- Write the digits of a number whose first digit has the given exponent. -/
def layout (digits : Text) (lead : Int) : Text :=
  if -4 ≤ lead && lead < 16 then
    if lead < 0 then "0.".toList ++ List.replicate (-lead - 1).toNat '0' ++ digits
    else
      let whole := (lead + 1).toNat
      if digits.length ≤ whole then
        digits ++ List.replicate (whole - digits.length) '0' ++ ".0".toList
      else digits.take whole ++ '.' :: digits.drop whole
  else match digits with
    | first :: second :: more => first :: '.' :: second :: more ++ exponentText lead
    | _ => digits ++ exponentText lead

/-- Write the positive number `mantissa · 2 ^ exponent`. -/
def writePositive (mantissa : Nat) (exponent : Int) : Text :=
  let (digits, lead) := (Interval.ofBinary mantissa exponent).shortest.significant
  layout digits lead

/-- The sign of a number. -/
def signText (negative : Bool) : Text := if negative then ['-'] else []

/-- Write a binary number. -/
def Binary.write : Binary → Text
  | undefined => "nan".toList
  | infinite negative => signText negative ++ "inf".toList
  | finite negative mantissa exponent =>
    signText negative ++
      if mantissa == 0 then "0.0".toList else writePositive mantissa exponent

end DotNotation.Decimal
