/-
# Literal form of a text

Messages show a piece of text as a literal: between quotes, with everything that would be
invisible or ambiguous written as an escape.  The quote is the single one, unless the text
has single quotes and no double quote.
-/
import DotNotation.Text.Printable

namespace DotNotation.Text

/-- The lower-case hexadecimal numeral of `n` with at least `width` digits. -/
def hex (width n : Nat) : Text :=
  let digits := Nat.toDigits 16 n
  List.replicate (width - digits.length) '0' ++ digits

/-- The escape of a character by its code point, in the shortest of the three widths. -/
def codeEscape (c : Char) : Text :=
  let n := c.toNat
  if n < 0x100 then ['\\', 'x'] ++ hex 2 n
  else if n < 0x10000 then ['\\', 'u'] ++ hex 4 n
  else ['\\', 'U'] ++ hex 8 n

/-- One character of a literal that is enclosed in `quote`. -/
def literalChar (quote c : Char) : Text :=
  if c == quote || c == '\\' then ['\\', c]
  else if c == '\n' then ['\\', 'n']
  else if c == '\r' then ['\\', 'r']
  else if c == '\t' then ['\\', 't']
  else if isPrintable c then [c]
  else codeEscape c

/-- The quote that encloses a literal: the single one, unless only single quotes occur. -/
def literalQuote (t : Text) : Char := if t.contains '\'' && !t.contains '"' then '"' else '\''

/-- The literal form of a text. -/
def literal (t : Text) : Text :=
  let quote := literalQuote t
  quote :: t.flatMap (literalChar quote) ++ [quote]

end DotNotation.Text
