/-
# Terms and scripts

A term says how to build a value: literally, from the numeral of a real number, by naming a
member of a vocabulary, as a list, from a variable, or by calling a function.  Arguments are
evaluated from left to right, and the first fault ends the evaluation.  A script binds the
values of terms to names, one step after the other; a step that fails binds nothing.
-/
import DotNotation.Construct.Build
import DotNotation.Dictionary

namespace DotNotation

/-- A term. -/
inductive Term where
  | value (v : Value)
  | numeral (t : Text)
  | member (vocabulary name : Text)
  | list (items : List Term)
  | var (name : Text)
  | call (f : Function) (args : List Term) (named : List (Text × Term))

/-- Values by name. -/
abbrev Bindings := Dictionary Value

namespace Term

mutual

/-- The value of a term. -/
def eval (bindings : Bindings) : Term → Built Value
  | value v => .ok v
  | numeral t => match Decimal.read? t with
    | some x => .ok (.real x)
    | none => .error (.notNumeral t.literal)
  | member vocabulary name => match Vocabulary.ofName? vocabulary with
    | some v => match v.memberNamed? name with
      | some m => .ok (.member m)
      | none => .error (.unbound name)
    | none => .error (.unbound vocabulary)
  | list items => do
    return .list (← evalAll bindings items)
  | var name => match bindings.get? name with
    | some v => .ok v
    | none => .error (.unbound name)
  | call f args named => do
    let positional ← evalAll bindings args
    let named ← evalNamed bindings named
    f.apply ⟨positional, named⟩

/-- The values of terms, from left to right. -/
def evalAll (bindings : Bindings) : List Term → Built (List Value)
  | [] => .ok []
  | t :: rest => do
    let v ← t.eval bindings
    return v :: (← evalAll bindings rest)

/-- The values of terms with names, from left to right. -/
def evalNamed (bindings : Bindings) : List (Text × Term) → Built (List (Text × Value))
  | [] => .ok []
  | (name, t) :: rest => do
    let v ← t.eval bindings
    return (name, v) :: (← evalNamed bindings rest)

end

end Term

/-- One step of a script: the name that is bound and the term for its value. -/
structure ScriptStep where
  /-- The name. -/
  name : Text
  /-- The term. -/
  term : Term

/-- Run the steps of a script: what each gives, and what the names are bound to at the end. -/
def runScript (bindings : Bindings) : List ScriptStep → List (Built Value) × Bindings
  | [] => ([], bindings)
  | step :: rest =>
    let result := step.term.eval bindings
    let next := match result with
      | .ok v => bindings.set step.name v
      | .error _ => bindings
    let (results, final) := runScript next rest
    (result :: results, final)

end DotNotation
