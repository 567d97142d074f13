/-
# Nearest binary numbers

The binary number nearest to a fraction; of two that are equally near the one with an even
mantissa.  Fractions beyond the greatest finite number by half a unit or more become infinite.
All arithmetic is exact.
-/
import DotNotation.Decimal.Binary

namespace DotNotation.Decimal

/-- A positive fraction. -/
structure Fraction where
  /-- The numerator. -/
  numerator : Nat
  /-- The denominator. -/
  denominator : Nat
deriving DecidableEq, Repr

namespace Fraction

/-- The fraction divided by two to the given power. -/
def halve (f : Fraction) (power : Int) : Fraction :=
  ⟨f.numerator * Nat.pow 2 (-power).toNat, f.denominator * Nat.pow 2 power.toNat⟩

/-- The fraction times ten to the given power. -/
def scale (f : Fraction) (power : Int) : Fraction :=
  ⟨f.numerator * Nat.pow 10 power.toNat, f.denominator * Nat.pow 10 (-power).toNat⟩

/-- The whole number below the fraction. -/
def floor (f : Fraction) : Nat := f.numerator / f.denominator

/-- The whole number nearest to the fraction, the even one on a tie. -/
def round (f : Fraction) : Nat :=
  let below := f.floor
  let excess := 2 * (f.numerator % f.denominator)
  if excess < f.denominator || (excess == f.denominator && below % 2 == 0) then below
  else below + 1

/-- The exponent with which the mantissa of the fraction has full length, or the least exponent
if that is greater.  The logarithms fix it up to one. -/
def exponent (f : Fraction) : Int :=
  let guess : Int := (f.numerator.log2 : Int) - (f.denominator.log2 : Int) - 53
  let exponent := if (f.halve guess).floor < 2 * Binary.fractions then guess else guess + 1
  max exponent Binary.leastExponent

/-- The binary number with a sign that is nearest to the fraction. -/
def nearest (f : Fraction) (negative : Bool) : Binary :=
  let exponent := f.exponent
  let rounded := (f.halve exponent).round
  let (mantissa, exponent) :=
    if rounded == 2 * Binary.fractions then (Binary.fractions, exponent + 1)
    else (rounded, exponent)
  if exponent > Binary.greatestExponent then .infinite negative
  else .finite negative mantissa exponent

end Fraction

end DotNotation.Decimal
