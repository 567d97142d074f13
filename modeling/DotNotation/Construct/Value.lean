/-
# Loosely typed values

Trees can be built by hand from loosely typed values: numbers, truth values, texts, members
of vocabularies, and parts of trees.  Building a part checks some of what goes into it and
takes the rest as it comes, so a part may hold a value that does not belong there; that shows
only when the part is used.
-/
import DotNotation.Decimal.Numeral
import DotNotation.Decimal.Written
import DotNotation.Vocabulary

namespace DotNotation

/-- The kinds of arguments for the layout tool. -/
inductive ArgumentKind where
  | format
  | layout
  | output
  | custom
deriving DecidableEq, Repr

/-- A loosely typed value. -/
inductive Value where
  | absent
  | bool (b : Bool)
  | int (n : Int)
  | real (x : Decimal.Binary)
  | text (t : Text)
  | list (items : List Value)
  | tuple (items : List Value)
  | member (m : Member)
  | id (kind value : Value)
  | port (name compass : Value)
  | nodeId (name port : Value)
  | attr (key value : Value)
  | node (id : Value) (attrs : List Value)
  | subgraph (name : Value) (body : List Value)
  | edge (chain attrs : List Value)
  | defaults (target : Value) (attrs : List Value)
  | graph (strict directed name : Value) (body : List Value)
  | argument (kind : ArgumentKind) (content : Value)

/-- The name of the kind of an argument. -/
def ArgumentKind.typeName : ArgumentKind → Text
  | format => "FormatArg".toList
  | layout => "LayoutArg".toList
  | output => "OutputArg".toList
  | custom => "CustomArg".toList

/-- The name of what an argument of a kind holds. -/
def ArgumentKind.fieldName : ArgumentKind → String
  | format => "format"
  | layout => "layout"
  | output => "path"
  | custom => "value"

/-- The value of a member. -/
def Member.content (m : Member) : Value :=
  match m.value with
  | .number n => .int n
  | .word t => .text t

namespace Value

/-- The name of the type of a value, as messages give it. -/
def typeName : Value → Text
  | absent => "NoneType".toList
  | bool _ => "bool".toList
  | int _ => "int".toList
  | real _ => "float".toList
  | text _ => "str".toList
  | list _ => "list".toList
  | tuple _ => "tuple".toList
  | member m => m.vocabulary.name
  | id _ _ => "Id".toList
  | port _ _ => "Port".toList
  | nodeId _ _ => "NodeId".toList
  | attr _ _ => "Attribute".toList
  | node _ _ => "Node".toList
  | subgraph _ _ => "Subgraph".toList
  | edge _ _ => "Edge".toList
  | defaults _ _ => "AttributeStatement".toList
  | graph _ _ _ _ => "Graph".toList
  | argument kind _ => kind.typeName

/-- Is the value absent? -/
def isAbsent : Value → Bool
  | absent => true
  | _ => false

/-- Is the value an attribute? -/
def isAttribute : Value → Bool
  | attr _ _ => true
  | _ => false

/-- Is the value a statement? -/
def isStatement : Value → Bool
  | node _ _ => true
  | edge _ _ => true
  | subgraph _ _ => true
  | attr _ _ => true
  | defaults _ _ => true
  | _ => false

/-- Is the value a vertex of a chain? -/
def isVertex : Value → Bool
  | nodeId _ _ => true
  | subgraph _ _ => true
  | _ => false

/-- Does the value count as true? -/
def truth : Value → Bool
  | absent => false
  | bool b => b
  | int n => n != 0
  | real x => !x.isZero
  | text t => !t.isEmpty
  | list items => !items.isEmpty
  | tuple items => !items.isEmpty
  | _ => true

/-- The way to write identifiers that a value stands for. -/
def idKind? : Value → Option IdKind
  | member m => m.idKind?
  | _ => none

/-- Is the value the given text? -/
def isText (t : Text) : Value → Bool
  | text u => u == t
  | _ => false

end Value

/-! ## Equality -/

namespace Value

/-- The whole number that a truth value or an integer counts as. -/
def asInt? : Value → Option Int
  | bool b => some (if b then 1 else 0)
  | int n => some n
  | _ => none

/-- Is the whole number equal to a value? -/
def sameInt (n : Int) : Value → Bool
  | real x => x.whole? == some n
  | other => other.asInt? == some n

/-- Is the real number equal to a value? -/
def sameReal (x : Decimal.Binary) : Value → Bool
  | real y => x.same y
  | other => other.asInt?.isSome && x.whole? == other.asInt?

mutual

/-- Are two values equal?  Numbers are compared by what they count as, everything else by kind
and parts. -/
def same : Value → Value → Bool
  | absent, w => w.isAbsent
  | bool b, w => sameInt (if b then 1 else 0) w
  | int n, w => sameInt n w
  | real x, w => sameReal x w
  | text t, w => w.isText t
  | list items, w => match w with
    | list others => sameAll items others
    | _ => false
  | tuple items, w => match w with
    | tuple others => sameAll items others
    | _ => false
  | member m, w => match w with
    | member n => m == n
    | _ => false
  | id kind value, w => match w with
    | id kind' value' => kind.same kind' && value.same value'
    | _ => false
  | port name compass, w => match w with
    | port name' compass' => name.same name' && compass.same compass'
    | _ => false
  | nodeId name place, w => match w with
    | nodeId name' place' => name.same name' && place.same place'
    | _ => false
  | attr key value, w => match w with
    | attr key' value' => key.same key' && value.same value'
    | _ => false
  | node ref attrs, w => match w with
    | node ref' attrs' => ref.same ref' && sameAll attrs attrs'
    | _ => false
  | subgraph name body, w => match w with
    | subgraph name' body' => name.same name' && sameAll body body'
    | _ => false
  | edge chain attrs, w => match w with
    | edge chain' attrs' => sameAll chain chain' && sameAll attrs attrs'
    | _ => false
  | defaults target attrs, w => match w with
    | defaults target' attrs' => target.same target' && sameAll attrs attrs'
    | _ => false
  | graph strict directed name body, w => match w with
    | graph strict' directed' name' body' =>
      strict.same strict' && directed.same directed' && name.same name' && sameAll body body'
    | _ => false
  | argument kind content, w => match w with
    | argument kind' content' => kind == kind' && content.same content'
    | _ => false

/-- Are two lists of values equal, one by one? -/
def sameAll : List Value → List Value → Bool
  | [], [] => true
  | v :: rest, w :: others => v.same w && sameAll rest others
  | _, _ => false

end

end Value

end DotNotation
