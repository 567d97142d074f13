/-
# Printers

A printer is used for one part after the other.  It shares its settings with its user, and
while it writes nested bodies it moves the indentation in those settings forth and back; it
remembers whether edges are directed, which writing a graph decides anew; and it decided at
its creation whether everything stands on one line, which it also does for a moment while it
tries an edge on one line.  Work with a printer can fail in the middle of a body, and what
was moved is moved back all the same.
-/
import DotNotation.Construct.Fault
import DotNotation.Printing.Layout

namespace DotNotation

/-- The state of a printer. -/
structure Printer where
  /-- The settings, with the present indentation. -/
  settings : Settings
  /-- Are edges written as arrows? -/
  directed : Bool
  /-- Is everything written on one line? -/
  inline : Bool
deriving DecidableEq, Repr

namespace Printer

/-- A new printer. -/
def create (settings : Settings) (directed : Bool) : Printer :=
  ⟨settings, directed, settings.alwaysInline⟩

/-- The pen that the printer holds. -/
def pen (printer : Printer) : Pen :=
  ⟨printer.settings, printer.directed, printer.inline, printer.settings.currentIndent⟩

/-- Move the indentation. -/
def shift (printer : Printer) (width : Int) : Printer :=
  { printer with
    settings := { printer.settings with
      currentIndent := printer.settings.currentIndent + width } }

end Printer

/-- Work with a printer: it gives a result or a fault, and leaves the printer in some state. -/
def Work (α : Type) : Type := Printer → Built α × Printer

namespace Work

variable {α β : Type}

/-- No work. -/
def done (a : α) : Work α := fun printer => (.ok a, printer)

/-- Fail. -/
def fail (fault : Fault) : Work α := fun printer => (.error fault, printer)

/-- Do one thing after the other. -/
def andThen (w : Work α) (f : α → Work β) : Work β := fun printer =>
  match w printer with
  | (.ok a, printer) => f a printer
  | (.error fault, printer) => (.error fault, printer)

instance : Monad Work where
  pure := done
  bind := andThen

/-- Look at the printer. -/
def look (f : Printer → α) : Work α := fun printer => (.ok (f printer), printer)

/-- Use what was built, or fail with its fault. -/
def given (built : Built α) : Work α := fun printer => (built, printer)

/-- Direct edges or not from now on. -/
def direct (directed : Bool) : Work Unit := fun printer => (.ok (), { printer with directed })

/-- Work two steps further in, and come back whether the work succeeds or fails. -/
def nested (w : Work α) : Work α := fun printer =>
  let width := 2 * printer.settings.indentStep
  let (result, after) := w (printer.shift width)
  (result, after.shift (-width))

/-- Work on one line, and go back to the former mode whether the work succeeds or fails. -/
def oneLine (w : Work α) : Work α := fun printer =>
  let (result, after) := w { printer with inline := true }
  (result, { after with inline := printer.inline })

/-- Write a body, given the work for each of its statements. -/
def braces (statements : List (Work Text)) : Work Text := do
  if statements.isEmpty then return "\x7b\x7d".toList
  if ← look Printer.inline then
    let texts ← statements.mapM fun w => do return (← w).dropTrailingSpaces
    return '{' :: Text.join [' '] texts ++ ['}']
  let sep ← look (·.settings.lineSeparator)
  let closing ← look fun printer => Text.spaces printer.settings.currentIndent ++ ['}']
  let lines ← nested do
    let pad ← look fun printer => Text.spaces printer.settings.currentIndent
    statements.mapM fun w => do return pad ++ (← w)
  return '{' :: sep ++ Text.join sep lines ++ sep ++ closing

/-- Write an edge on one line if that fits, given the work of writing it in either form. -/
def edge (chain : Work Text) : Work Text := do
  if ← look Printer.inline then chain
  else
    let short ← oneLine chain
    if (short.length : Int) ≤ (← look (·.settings.inlineThreshold)) then return short
    chain

end Work

end DotNotation
