/-
# Print settings

How a document is laid out: the indentation, the text that separates lines, whether
everything stands on one line, whether statements end in semicolons, and how long an edge
statement may be to stay on one line.
-/
import DotNotation.Text

namespace DotNotation

/-- Settings for writing documents. -/
structure Settings where
  /-- The width of one step of indentation; the contents of a body stand two steps in. -/
  indentStep : Int := 2
  /-- The indentation of the line on which writing starts. -/
  currentIndent : Int := 0
  /-- The text between two lines. -/
  lineSeparator : Text := ['\n']
  /-- Is everything written on one line? -/
  alwaysInline : Bool := false
  /-- Do statements end in semicolons, and do semicolons separate attributes? -/
  useSemicolons : Bool := false
  /-- The greatest length of an edge statement that is kept on one line. -/
  inlineThreshold : Int := 90
deriving DecidableEq, Repr

/-- What the layout of a part depends on besides the part itself. -/
structure Pen where
  /-- The settings. -/
  settings : Settings
  /-- Are edges written as arrows? -/
  directed : Bool
  /-- Is everything written on one line? -/
  inline : Bool
  /-- The indentation of the present line. -/
  indent : Int
deriving DecidableEq, Repr

namespace Pen

/-- The pen at the start of a document. -/
def start (settings : Settings) (directed : Bool) : Pen :=
  ⟨settings, directed, settings.alwaysInline, settings.currentIndent⟩

/-- The pen that keeps everything on one line. -/
def oneLine (pen : Pen) : Pen := { pen with inline := true }

/-- The pen for the statements inside a body. -/
def inside (pen : Pen) : Pen :=
  if pen.inline then pen else { pen with indent := pen.indent + 2 * pen.settings.indentStep }

/-- The sign between two vertices of a chain. -/
def arrow (pen : Pen) : Text := if pen.directed then " -> ".toList else " -- ".toList

/-- The sign between two attributes. -/
def separator (pen : Pen) : Text := if pen.settings.useSemicolons then [';'] else [',']

@[simp] theorem settings_oneLine (pen : Pen) : pen.oneLine.settings = pen.settings := rfl

@[simp] theorem directed_oneLine (pen : Pen) : pen.oneLine.directed = pen.directed := rfl

@[simp] theorem inline_oneLine (pen : Pen) : pen.oneLine.inline = true := rfl

@[simp] theorem settings_inside (pen : Pen) : pen.inside.settings = pen.settings := by
  unfold inside
  split <;> rfl

@[simp] theorem directed_inside (pen : Pen) : pen.inside.directed = pen.directed := by
  unfold inside
  split <;> rfl

@[simp] theorem inline_inside (pen : Pen) : pen.inside.inline = pen.inline := by
  unfold inside
  split <;> rfl

end Pen

end DotNotation
