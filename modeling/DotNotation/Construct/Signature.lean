/-
# Signatures

A function takes its arguments by position or by name.  Its signature lists the parameters:
those that need an argument, those that have a default, and those that are given only by
name.  Some functions take any number of further arguments by position.

Matching a call against a signature finds first a name that is unknown or already has an
argument, then arguments by position beyond the last parameter, then parameters without an
argument.
-/
import DotNotation.Construct.Fault
import DotNotation.Construct.Value

namespace DotNotation

/-- The arguments of a call. -/
structure Arguments where
  /-- The arguments given by position. -/
  positional : List Value := []
  /-- The arguments given by name. -/
  named : List (Text × Value) := []

/-- The parameters of a function. -/
structure Signature where
  /-- How messages name the function. -/
  title : String
  /-- How many arguments stand before those of the call. -/
  receivers : Nat := 0
  /-- The parameters that need an argument. -/
  required : List String := []
  /-- The parameters after those, with their defaults. -/
  optional : List (String × Value) := []
  /-- Are further arguments taken by position? -/
  variadic : Bool := false
  /-- The parameters that are given only by name, with their defaults. -/
  named : List (String × Value) := []

/-- What a call gives to the parameters of a function. -/
structure Bound where
  /-- The values of the parameters. -/
  values : List (Text × Value)
  /-- The further arguments. -/
  rest : List Value

/-- The value of a parameter. -/
def Bound.get (b : Bound) (name : String) : Value := (b.values.lookup name.toList).getD .absent

namespace Signature

/-- The names of the parameters that can be given by position. -/
def positional (s : Signature) : List Text :=
  s.required.map String.toList ++ s.optional.map fun entry => entry.1.toList

/-- The names of all parameters. -/
def names (s : Signature) : List Text :=
  s.positional ++ s.named.map fun entry => entry.1.toList

/-- The parameters with a default. -/
def defaults (s : Signature) : List (Text × Value) :=
  (s.optional ++ s.named).map fun entry => (entry.1.toList, entry.2)

/-- The fault of a call. -/
def fault {α : Type} (s : Signature) (m : Misfit) : Built α := .error (.misfit s.title.toList m)

/-- Give the arguments by name to parameters that have no value yet. -/
def bindNamed (s : Signature) (bound : List (Text × Value)) :
    List (Text × Value) → Built (List (Text × Value))
  | [] => .ok bound
  | (name, v) :: rest =>
    if !s.names.contains name then s.fault (.unknown name)
    else if (bound.lookup name).isSome then s.fault (.repeated name)
    else s.bindNamed (bound ++ [(name, v)]) rest

/-- Match a call against a signature. -/
def bind (s : Signature) (args : Arguments) : Built Bound := do
  let bound ← s.bindNamed (s.positional.zip args.positional) args.named
  let rest := args.positional.drop s.positional.length
  if !s.variadic && !rest.isEmpty then
    s.fault (.surplus (s.receivers + s.required.length) (s.receivers + s.positional.length)
      (s.receivers + args.positional.length))
  let missing := (s.required.map String.toList).filter fun name => (bound.lookup name).isNone
  if !missing.isEmpty then s.fault (.missing missing)
  return ⟨bound ++ s.defaults, rest⟩

end Signature

end DotNotation
