/-
# Shortest decimals

A binary number stands for every real number that rounds to it.  Its shortest decimal is the
one with the fewest digits among those real numbers, and of several with equally few digits
the one nearest to it, the even one on a tie.  All arithmetic here is exact: numbers
are fractions of natural numbers with one common denominator.
-/
import DotNotation.Decimal.Binary

namespace DotNotation.Decimal

/-- A positive number together with the reals that round to it, as numerators over one
denominator. -/
structure Interval where
  /-- The lower end. -/
  low : Nat
  /-- The number itself. -/
  value : Nat
  /-- The upper end. -/
  high : Nat
  /-- The common denominator. -/
  unit : Nat
  /-- Do the ends belong to the interval? -/
  closed : Bool
deriving Repr

/-- A decimal `digits · 10 ^ exponent`. -/
structure Scaled where
  /-- The digits, as a number. -/
  digits : Nat
  /-- The power of ten. -/
  exponent : Int
deriving DecidableEq, Repr

namespace Interval

/-- The interval of the positive number `mantissa · 2 ^ exponent`.  The gap below a number is
half as wide as the one above when its mantissa is the least of full length. -/
def ofBinary (mantissa : Nat) (exponent : Int) : Interval :=
  let least := mantissa == Binary.fractions && exponent != Binary.leastExponent
  let up := Nat.pow 2 (exponent - 2).toNat
  { low := (4 * mantissa - if least then 1 else 2) * up
    value := 4 * mantissa * up
    high := (4 * mantissa + 2) * up
    unit := Nat.pow 2 (2 - exponent).toNat
    closed := mantissa % 2 == 0 }

/-- The interval times ten to the given power. -/
def scale (i : Interval) (power : Int) : Interval :=
  let up := Nat.pow 10 power.toNat
  { i with
    low := i.low * up
    value := i.value * up
    high := i.high * up
    unit := i.unit * Nat.pow 10 (-power).toNat }

/-- Does the whole number lie in the interval? -/
def holds (i : Interval) (n : Nat) : Bool :=
  if i.closed then i.low ≤ n * i.unit && n * i.unit ≤ i.high
  else i.low < n * i.unit && n * i.unit < i.high

/-- The whole number next to the value that lies in the interval: of two the nearer, on a tie
the even one. -/
def nearest? (i : Interval) : Option Nat :=
  let below := i.value / i.unit
  let excess := i.value % i.unit
  match i.holds below, i.holds (below + 1) with
  | false, false => none
  | true, false => some below
  | false, true => some (below + 1)
  | true, true =>
    if 2 * excess < i.unit || (2 * excess == i.unit && below % 2 == 0) then some below
    else some (below + 1)

/-- How many steps of the search for the leading digit are enough for every number. -/
def maxShift : Nat := 400

/-- The least power of ten by which a value below one has to be multiplied to reach one. -/
def shiftUp (value unit : Nat) : Nat → Nat → Nat
  | 0, shift => shift
  | fuel + 1, shift =>
    if unit ≤ value * Nat.pow 10 shift then shift else shiftUp value unit fuel (shift + 1)

/-- The exponent of the leading decimal digit of the value. -/
def leading (i : Interval) : Int :=
  if i.unit ≤ i.value then ((Text.ofNat (i.value / i.unit)).length : Int) - 1
  else -(shiftUp i.value i.unit maxShift 1 : Int)

/-- The shortest decimal in the interval; seventeen digits are always enough. -/
def shortest (i : Interval) : Scaled :=
  let lead := i.leading
  let attempt (digits : Nat) : Option Scaled :=
    let exponent := lead + 1 - digits
    (i.scale (-exponent)).nearest?.map (⟨·, exponent⟩)
  ((List.range 17).findSome? fun n => attempt (n + 1)).getD ⟨0, 0⟩

end Interval

end DotNotation.Decimal
