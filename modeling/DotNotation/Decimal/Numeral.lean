/-
# Numerals of real numbers

Reading a real number from a text: digits with an optional fraction and an optional power of
ten, or a name for an infinity or for the undefined value.  What the numeral spells is rounded
once, to the nearest binary number.
-/
import DotNotation.Decimal.Nearest
import DotNotation.Text.Numeral

namespace DotNotation.Decimal

open DotNotation.Text

/-- Digits that may be missing altogether. -/
def optionalDigits (t : Text) : Text × Text := (digitRun t).getD ([], t)

/-- Read the exponent of a real number; a text without one has exponent zero. -/
def readExponent? : Text → Option Int
  | [] => some 0
  | c :: cs =>
    if c == 'e' || c == 'E' then
      let (negative, body) := splitSign cs
      match digitRun body with
      | some (digits, []) =>
        let n : Int := digitsValue digits
        some (if negative then -n else n)
      | _ => none
    else none

/-- No number from this power of ten on, and none whose inverse reaches it, is other than
infinite or zero. -/
def greatestPower : Int := 400

/-- The binary number nearest to `digits · 10 ^ exponent`.  Numbers far outside the range are
settled before the power is formed. -/
def ofDigits (negative : Bool) (digits : Text) (exponent : Int) : Binary :=
  let digits := digits.dropWhile (· == '0')
  let magnitude : Int := exponent + digits.length
  if digits.isEmpty || magnitude < -greatestPower then .finite negative 0 Binary.leastExponent
  else if magnitude > greatestPower then .infinite negative
  else ((Fraction.mk (digitsValue digits) 1).scale exponent).nearest negative

/-- Read a real number. -/
def read? (t : Text) : Option Binary :=
  let (negative, body) := splitSign (asciiDigits (trimBoth isPadding t))
  let word := body.map Char.toLower
  if word == "inf".toList || word == "infinity".toList then some (.infinite negative)
  else if word == "nan".toList then some .undefined
  else
    let (whole, rest) := optionalDigits body
    let (fraction, rest) := match rest with
      | '.' :: cs => optionalDigits cs
      | cs => ([], cs)
    if whole.isEmpty && fraction.isEmpty then none
    else (readExponent? rest).map fun exponent =>
      ofDigits negative (whole ++ fraction) (exponent - fraction.length)

end DotNotation.Decimal
