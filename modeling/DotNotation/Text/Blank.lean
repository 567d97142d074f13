/-
# Blank characters

A character is blank when it is white space in any script: the ASCII blanks and
separators, the next-line and no-break characters, and the spaces and separators of the
general punctuation block.  Trimming removes blanks at both ends of a text.
-/
import DotNotation.Text

namespace DotNotation.Text

/-- Is the character white space? -/
def isBlank (c : Char) : Bool :=
  let n := c.toNat
  (9 ≤ n && n ≤ 13) || (28 ≤ n && n ≤ 32) || n == 133 || n == 160 || n == 5760 ||
    (8192 ≤ n && n ≤ 8202) || n == 8232 || n == 8233 || n == 8239 || n == 8287 || n == 12288

/-- The text without the characters at both ends that satisfy `p`. -/
def trimBoth (p : Char → Bool) (t : Text) : Text := ((t.dropWhile p).reverse.dropWhile p).reverse

/-- The text without the blanks at both ends. -/
def trim (t : Text) : Text := trimBoth isBlank t

end DotNotation.Text
