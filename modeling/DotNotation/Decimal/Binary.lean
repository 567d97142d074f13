/-
# Binary numbers

A real number is kept as a whole number times a power of two, with at most fifty-three binary
digits and a bounded exponent.  Beside these there are two infinities and a value that is no
number at all.  Zero has a sign.

The whole number of a finite value is as long as the bounds allow, so that equal numbers other
than zero have one form: either it has exactly fifty-three digits or the exponent is the least
one.
-/
import DotNotation.Text

namespace DotNotation.Decimal

/-- A binary number. -/
inductive Binary where
  | undefined
  | infinite (negative : Bool)
  | finite (negative : Bool) (mantissa : Nat) (exponent : Int)
deriving DecidableEq, Repr

namespace Binary

/-- The least mantissa of full length: two to the power of fifty-two. -/
def fractions : Nat := 4503599627370496

/-- The least exponent. -/
def leastExponent : Int := -1074

/-- The greatest exponent. -/
def greatestExponent : Int := 971

/-- Is the number zero? -/
def isZero : Binary → Bool
  | finite _ mantissa _ => mantissa == 0
  | _ => false

/-- Are two numbers equal?  The undefined value equals nothing, and the two zeros are equal. -/
def same (x y : Binary) : Bool := x != undefined && (x == y || (x.isZero && y.isZero))

/-- The whole number that a binary number equals. -/
def whole? : Binary → Option Int
  | finite negative mantissa exponent =>
    let up := mantissa * Nat.pow 2 exponent.toNat
    let down := Nat.pow 2 (-exponent).toNat
    if up % down == 0 then
      let n : Int := (up / down : Nat)
      some (if negative then -n else n)
    else none
  | _ => none

end Binary

end DotNotation.Decimal
