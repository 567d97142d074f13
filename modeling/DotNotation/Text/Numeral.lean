/-
# Numerals

Reading an integer from a text, and writing it.  A numeral that is read may use the decimal digits
of any script, may carry a sign, and may have single underscores between its digits; blanks around
it are ignored.  Either way there is a limit to the number of digits.
-/
import DotNotation.Text.Blank

namespace DotNotation.Text

/-- The code points of the zero of each script's decimal digits; the other nine follow it. -/
def zeroDigits : List Nat :=
  [48, 1632, 1776, 1984, 2406, 2534, 2662, 2790, 2918, 3046, 3174, 3302, 3430, 3558, 3664, 3792,
    3872, 4160, 4240, 6112, 6160, 6470, 6608, 6784, 6800, 6992, 7088, 7232, 7248, 42528, 43216,
    43264, 43472, 43504, 43600, 44016, 65296, 66720, 68912, 69734, 69872, 69942, 70096, 70384,
    70736, 70864, 71248, 71360, 71472, 71904, 72016, 72784, 73040, 73120, 92768, 92864, 93008,
    120782, 120792, 120802, 120812, 120822, 123200, 123632, 125264, 130032]

/-- May the character stand around a numeral?  The four ASCII separators may not. -/
def isPadding (c : Char) : Bool := isBlank c && !(28 ≤ c.toNat && c.toNat ≤ 31)

/-- The value of a decimal digit of any script. -/
def digitValue? (c : Char) : Option Nat :=
  (zeroDigits.find? fun origin => origin ≤ c.toNat && c.toNat ≤ origin + 9).map (c.toNat - ·)

/-- The text with every decimal digit replaced by its ASCII form. -/
def asciiDigits (t : Text) : Text :=
  t.map fun c => match digitValue? c with
    | some d => Char.ofNat (48 + d)
    | none => c

/-- Read digits with single underscores between them: the digits and what follows them.
There is no reading when no digit stands first. -/
def digitRun : Text → Option (Text × Text)
  | [] => none
  | c :: cs =>
    if c.isDigit then
      match cs with
      | '_' :: ds => match digitRun ds with
        | some (more, rest) => some (c :: more, rest)
        | none => some ([c], cs)
      | ds => match digitRun ds with
        | some (more, rest) => some (c :: more, rest)
        | none => some ([c], ds)
    else none

/-- Split an optional sign off: is it negative, and what follows it. -/
def splitSign : Text → Bool × Text
  | '-' :: cs => (true, cs)
  | '+' :: cs => (false, cs)
  | cs => (false, cs)

/-- The number that a run of ASCII digits spells. -/
def digitsValue (digits : Text) : Nat := digits.foldl (fun n c => 10 * n + (c.toNat - 48)) 0

/-- The longest run of digits that is read as an integer or written for one. -/
def maxDigits : Nat := 4300

/-- Read an integer. -/
def readInt? (t : Text) : Option Int :=
  let (negative, body) := splitSign (asciiDigits (trimBoth isPadding t))
  match digitRun body with
  | some (digits, []) =>
    if digits.length ≤ maxDigits then
      let n : Int := digitsValue digits
      some (if negative then -n else n)
    else none
  | _ => none

/-- Write an integer.  One with too many digits is not written. -/
def ofInt? (n : Int) : Option Text :=
  if (ofNat n.natAbs).length ≤ maxDigits then some (ofInt n) else none

end DotNotation.Text
