/-
# Invocations

What a command line asks for: reformatting a document, checking that it can be read, or
rendering it with the layout tool.  Each command reads its document from a file or from
standard input.
-/
import DotNotation.CommandLine.Options
import DotNotation.Printing.Settings
import DotNotation.Rendering
import DotNotation.Text.Numeral

namespace DotNotation.CommandLine

/-- A command with its options. -/
inductive Command where
  | format (settings : Settings) (output : Option Text)
  | check
  | render (args : List Argument) (config : ToolConfig)
deriving DecidableEq, Repr

/-- What a command line asks for. -/
structure Invocation where
  /-- Is the work reported while it is done? -/
  verbose : Bool
  /-- The command. -/
  command : Command
  /-- The file with the document; without one it is read from standard input. -/
  input : Option Text
deriving DecidableEq, Repr

/-! ## Options -/

/-- An option that takes a value. -/
def valued (names : List String) : OptionSpec := ⟨names.map String.toList, true⟩

/-- An option that takes no value. -/
def flag (names : List String) : OptionSpec := ⟨names.map String.toList, false⟩

/-- The options in front of the command. -/
def commonSpecs : List OptionSpec := [flag ["--verbose", "-v"]]

/-- The options of the command that reformats. -/
def formatSpecs : List OptionSpec :=
  [valued ["--indent", "-i"], flag ["--semi"], flag ["--inline"], valued ["--width", "-w"],
    valued ["--output", "-o"]]

/-- The options of the command that renders. -/
def renderSpecs : List OptionSpec :=
  [valued ["--format", "-T"], valued ["--layout", "-K"], valued ["--output", "-o"],
    valued ["--dot-binary"], valued ["--arg"]]

/-- An option whose value is a number. -/
def number? (parsed : Parsed) (key : String) (default : Int) : Option Int :=
  match parsed.last? key with
  | some t => Text.readInt? t
  | none => some default

/-- A text that counts as given only when it is not empty. -/
def nonEmpty : Option Text → Option Text
  | some [] => none
  | t => t

/-! ## Commands -/

/-- The command that reformats. -/
def formatCommand? (parsed : Parsed) : Option Command := do
  let indent ← number? parsed "--indent" 2
  let width ← number? parsed "--width" 90
  let settings : Settings :=
    { indentStep := indent
      alwaysInline := parsed.has "--inline"
      useSemicolons := parsed.has "--semi"
      inlineThreshold := width }
  return .format settings (nonEmpty (parsed.last? "--output"))

/-- The command that renders. -/
def renderCommand? (parsed : Parsed) : Option Command := do
  let format ← Vocabulary.format.memberOf? ((parsed.last? "--format").getD "svg".toList)
  let layout ← match parsed.last? "--layout" with
    | some t => (Vocabulary.layout.memberOf? t).map fun m => [Argument.layout m]
    | none => some []
  let output := (nonEmpty (parsed.last? "--output")).toList.map Argument.output
  let extra := (parsed.values "--arg").map Argument.custom
  let binary := (parsed.last? "--dot-binary").getD "dot".toList
  return .render (.format format :: layout ++ output ++ extra) { binary }

/-- The operand of a command, of which there is at most one. -/
def input? : List Text → Option (Option Text)
  | [] => some none
  | [path] => some (some path)
  | _ => none

/-- Take apart what follows the name of a command. -/
def readCommand (verbose : Bool) (specs : List OptionSpec) (command? : Parsed → Option Command)
    (words : List Text) : Option Invocation := do
  let parsed ← parseWords specs true words
  let command ← command? parsed
  let input ← input? parsed.operands
  return ⟨verbose, command, input⟩

/-- What a command line asks for, if it is usable. -/
def Invocation.read? (words : List Text) : Option Invocation := do
  let common ← parseWords commonSpecs false words
  let verbose := common.has "--verbose"
  match common.operands with
  | [] => none
  | name :: rest =>
    if name = "fmt".toList then readCommand verbose formatSpecs formatCommand? rest
    else if name = "check".toList then readCommand verbose [] (fun _ => some .check) rest
    else if name = "render".toList then readCommand verbose renderSpecs renderCommand? rest
    else none

end DotNotation.CommandLine
