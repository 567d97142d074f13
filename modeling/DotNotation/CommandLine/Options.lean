/-
# Options of a command line

A command line consists of options and operands.  An option has long names and one-letter
names and may take a value: the rest of its word or the next word.  One-letter options may
share a word.  Two dashes alone end the options.  An unknown option, a missing value or a
value for an option that takes none make the command line unusable.
-/
import DotNotation.Text

namespace DotNotation.CommandLine

/-- An option that a command knows. -/
structure OptionSpec where
  /-- The names, dashes included; the first one stands for the option. -/
  names : List Text
  /-- Does the option take a value? -/
  takesValue : Bool
deriving DecidableEq, Repr

namespace OptionSpec

/-- The name that stands for the option. -/
def key (spec : OptionSpec) : Text := spec.names.headD []

end OptionSpec

/-- A use of an option, with its value if it takes one. -/
structure Use where
  /-- The name that stands for the option. -/
  key : Text
  /-- The value. -/
  value : Option Text
deriving DecidableEq, Repr

/-- A command line taken apart. -/
structure Parsed where
  /-- The uses of options in order. -/
  uses : List Use
  /-- The operands in order. -/
  operands : List Text
deriving DecidableEq, Repr

namespace Parsed

/-- The values of an option in order. -/
def values (parsed : Parsed) (key : String) : List Text :=
  parsed.uses.filterMap fun use => if use.key = key.toList then use.value else none

/-- The last value of an option. -/
def last? (parsed : Parsed) (key : String) : Option Text := (parsed.values key).getLast?

/-- Is the option used? -/
def has (parsed : Parsed) (key : String) : Bool := parsed.uses.any (·.key == key.toList)

/-- Put uses of options in front. -/
def withUses (parsed : Parsed) (uses : List Use) : Parsed :=
  { parsed with uses := uses ++ parsed.uses }

end Parsed

/-- What a word of the command line is. -/
inductive Word where
  | operand
  | separator
  | options (uses : List Use)
  | needsValue (uses : List Use) (key : Text)
  | unusable
deriving DecidableEq, Repr

/-- The option with a given name. -/
def specNamed? (specs : List OptionSpec) (name : Text) : Option OptionSpec :=
  specs.find? (·.names.contains name)

/-- Read the letters of a word of one-letter options. -/
def readLetters (specs : List OptionSpec) (uses : List Use) : Text → Word
  | [] => .options uses
  | c :: rest =>
    match specNamed? specs ['-', c] with
    | none => .unusable
    | some spec =>
      if spec.takesValue then
        if rest.isEmpty then .needsValue uses spec.key
        else .options (uses ++ [⟨spec.key, some rest⟩])
      else readLetters specs (uses ++ [⟨spec.key, none⟩]) rest

/-- Does the word have two dashes in front? -/
def isLong : Text → Bool
  | '-' :: '-' :: _ => true
  | _ => false

/-- Read a word of the command line. -/
def readWord (specs : List OptionSpec) (word : Text) : Word :=
  match word with
  | '-' :: c :: cs =>
    if word = ['-', '-'] then .separator
    else if isLong word then
      let name := word.takeWhile (· != '=')
      let attached := word.dropWhile (· != '=')
      match specNamed? specs name with
      | none => .unusable
      | some spec =>
        match spec.takesValue, attached with
        | true, [] => .needsValue [] spec.key
        | true, _ :: value => .options [⟨spec.key, some value⟩]
        | false, [] => .options [⟨spec.key, none⟩]
        | false, _ :: _ => .unusable
    else readLetters specs [] (c :: cs)
  | _ => .operand

/-- Take a command line apart.  When options may not stand among operands, everything from the
first operand on is an operand. -/
def parseWords (specs : List OptionSpec) (interspersed : Bool) : List Text → Option Parsed
  | [] => some ⟨[], []⟩
  | word :: rest =>
    match readWord specs word with
    | .operand =>
      if interspersed then
        (parseWords specs interspersed rest).map fun parsed =>
          { parsed with operands := word :: parsed.operands }
      else some ⟨[], word :: rest⟩
    | .separator => some ⟨[], rest⟩
    | .options uses => (parseWords specs interspersed rest).map (·.withUses uses)
    | .needsValue uses key =>
      match rest with
      | [] => none
      | value :: others =>
        (parseWords specs interspersed others).map (·.withUses (uses ++ [⟨key, some value⟩]))
    | .unusable => none

end DotNotation.CommandLine
