/-
# Faults

Why building or writing a tree from loosely typed values can fail.  Each cause has one
message.
-/
import DotNotation.Element
import DotNotation.Parsing.Diagnostic
import DotNotation.Syntax.Validity
import DotNotation.Text.Numeral
import DotNotation.Vocabulary

namespace DotNotation

/-- What a value was expected to be. -/
inductive Wanted where
  | attribute
  | statement
  | vertex
deriving DecidableEq, Repr

/-- Why the arguments of a call do not fit the function. -/
inductive Misfit where
  | missing (names : List Text)
  | surplus (least most given : Nat)
  | unknown (name : Text)
  | repeated (name : Text)
deriving DecidableEq, Repr

/-- Why something could not be built or written.  Types and functions are given by their names
and values by their literal forms. -/
inductive Fault where
  | defect (d : Defect)
  | looseLabel (value : Text)
  | wrongType (wanted : Wanted) (type : Text)
  | parse (source : Text) (e : ParseError)
  | notMember (value : Text) (v : Vocabulary)
  | notNumeral (value : Text)
  | tooManyDigits
  | unprintable (type : Text)
  | unknownTarget (target : Text)
  | unusableKey (type : Text)
  | unknownHelper (e : Element) (helper : Text)
  | noField (type field : Text)
  | notIterable (type : Text)
  | notText (type : Text)
  | notWritten (type : Text)
  | notJoined (left right : Text)
  | notWord (position : Nat) (type : Text)
  | noLength (type : Text)
  | unbound (name : Text)
  | misfit (function : Text) (m : Misfit)
deriving DecidableEq, Repr

namespace Wanted

/-- How a message names what was expected. -/
def phrase : Wanted → Text
  | .attribute => "expected Attribute, got ".toList
  | .statement => "expected a statement, got ".toList
  | .vertex => "expected NodeId or Subgraph in edge chain, got ".toList

end Wanted

namespace Misfit

/-- The ending of a plural, for any count but one. -/
def plural (count : Nat) : Text := if count = 1 then [] else ['s']

/-- Names in quotes, with commas and a word before the last one. -/
def enumerate : List Text → Text
  | [] => []
  | [name] => name.literal
  | [first, second] => first.literal ++ " and ".toList ++ second.literal
  | names =>
    Text.join ", ".toList (names.dropLast.map Text.literal) ++ ", and ".toList ++
      ((names.getLast?.map Text.literal).getD [])

/-- The numbers of arguments that a function takes by position. -/
def range (least most : Nat) : Text :=
  if least = most then Text.ofNat most ++ " positional argument".toList ++ plural most
  else
    "from ".toList ++ Text.ofNat least ++ " to ".toList ++ Text.ofNat most ++
      " positional arguments".toList

/-- What a message says about the arguments of a function. -/
def message : Misfit → Text
  | missing names =>
    " missing ".toList ++ Text.ofNat names.length ++ " required positional argument".toList ++
      plural names.length ++ ": ".toList ++ enumerate names
  | surplus least most given =>
    " takes ".toList ++ range least most ++ " but ".toList ++ Text.ofNat given ++
      (if given = 1 then " was given".toList else " were given".toList)
  | unknown name => " got an unexpected keyword argument ".toList ++ name.literal
  | repeated name => " got multiple values for argument ".toList ++ name.literal

end Misfit

namespace Fault

/-- The message for a fault.  A parse that went too deep has no message of its own. -/
def message : Fault → Text
  | defect d => d.message
  | looseLabel value => "unbalanced angle brackets in html label ".toList ++ value
  | wrongType wanted type => wanted.phrase ++ type
  | parse source (.unexpected failure) => (failure.diagnostic source).message
  | parse _ .tooDeep => []
  | notMember value v => value ++ " is not a valid ".toList ++ v.name
  | notNumeral value => "could not convert string to float: ".toList ++ value
  | tooManyDigits =>
    "Exceeds the limit (".toList ++ Text.ofNat Text.maxDigits ++
      " digits) for integer string conversion; ".toList ++
      "use sys.set_int_max_str_digits() to increase the limit".toList
  | unprintable type => "cannot print ".toList ++ type
  | unknownTarget target => target
  | unusableKey type => "unhashable type: '".toList ++ type ++ ['\'']
  | unknownHelper e helper =>
    "type object '".toList ++ e.tableName ++ "' has no attribute '".toList ++ helper ++ ['\'']
  | noField type field =>
    '\'' :: type ++ "' object has no attribute '".toList ++ field ++ ['\'']
  | notIterable type => '\'' :: type ++ "' object is not iterable".toList
  | notText type => "expected string or bytes-like object, got '".toList ++ type ++ ['\'']
  | notWritten type => "__str__ returned non-string (type ".toList ++ type ++ [')']
  | notJoined left right =>
    "unsupported operand type(s) for +: '".toList ++ left ++ "' and '".toList ++ right ++ ['\'']
  | notWord position type =>
    "sequence item ".toList ++ Text.ofNat position ++ ": expected str instance, ".toList ++ type ++
      " found".toList
  | noLength type => "object of type '".toList ++ type ++ "' has no len()".toList
  | unbound name => name.literal
  | misfit function m => function ++ "()".toList ++ m.message

end Fault

/-- The result of building something. -/
abbrev Built (α : Type) : Type := Except Fault α

/-- The result of a check for defects. -/
def Built.checked {α : Type} : Except Defect α → Built α
  | .ok a => .ok a
  | .error d => .error (.defect d)

end DotNotation
