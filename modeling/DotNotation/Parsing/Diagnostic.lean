/-
# Diagnostics

A failure is reported by the line and column of its place, what was expected there, and what
stands there instead; a snippet shows the line with a caret under the column.  Lines end at
line feeds, and lines and columns count from one.
-/
import DotNotation.Parsing.Document

namespace DotNotation

/-- A report about one place of a source text. -/
structure Diagnostic where
  /-- The source text. -/
  source : Text
  /-- The place. -/
  offset : Nat
  /-- The name of the rule that failed. -/
  rule : Text
  /-- What was expected, in any order. -/
  expected : List Text
deriving DecidableEq, Repr

namespace Diagnostic

/-- The text before the place. -/
def before (d : Diagnostic) : Text := d.source.take d.offset

/-- The text from the place on. -/
def behind (d : Diagnostic) : Text := d.source.drop d.offset

/-- The number of the line with the place. -/
def line (d : Diagnostic) : Nat := d.before.count '\n' + 1

/-- The part of the line that stands before the place. -/
def lineStart (d : Diagnostic) : Text := (d.before.reverse.takeWhile (· != '\n')).reverse

/-- The number of the column of the place.  A place beyond the end of the text counts on from
the start of the last line. -/
def column (d : Diagnostic) : Nat := d.offset - (d.before.length - d.lineStart.length) + 1

/-- The line with the place. -/
def lineText (d : Diagnostic) : Text := d.lineStart ++ d.behind.takeWhile (· != '\n')

/-- The expectations, sorted and without repetition. -/
def wanted (d : Diagnostic) : List Text := Text.sortDistinct d.expected

/-- What stands at the place. -/
def found (d : Diagnostic) : Text :=
  match d.behind with
  | c :: _ => Text.literal [c]
  | [] => "end of input".toList

/-- The report in one line. -/
def message (d : Diagnostic) : Text :=
  let wanted := if d.wanted.isEmpty then "nothing".toList else Text.join ", ".toList d.wanted
  Text.ofNat d.line ++ ":".toList ++ Text.ofNat d.column ++ ": expected ".toList ++ wanted ++
    " in ".toList ++ d.rule ++ ", found ".toList ++ d.found

/-- The line with a caret under the column. -/
def snippet (d : Diagnostic) : Text :=
  d.lineText ++ '\n' :: List.replicate (d.column - 1) ' ' ++ ['^']

end Diagnostic

/-- The report of a failure in a source text. -/
def Failure.diagnostic (f : Failure) (source : Text) : Diagnostic where
  source := source
  offset := f.offset
  rule := f.frame.rule.name
  expected := f.expected.map Expectation.text

end DotNotation
