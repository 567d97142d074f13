/-
# Literal form of values

Messages show a value in literal form: texts in quotes, lists in brackets, and a part of a
tree by the name of its kind with its fields in parentheses.
-/
import DotNotation.Construct.Fault
import DotNotation.Construct.Value
import DotNotation.Text.Literal

namespace DotNotation

/-- A sequence in parentheses; a lone member has a comma after it. -/
def tupleLiteral : List Text → Text
  | [] => "()".toList
  | [t] => '(' :: t ++ ",)".toList
  | ts => '(' :: Text.join ", ".toList ts ++ [')']

/-- The name of a kind with fields in parentheses. -/
def recordLiteral (name : Text) (fields : List (String × Text)) : Text :=
  name ++ '(' ::
    Text.join ", ".toList (fields.map fun field => field.1.toList ++ '=' :: field.2) ++ [')']

/-- A truth value. -/
def boolLiteral (b : Bool) : Text := if b then "True".toList else "False".toList

/-- The name of a member together with that of its vocabulary. -/
def Member.path (m : Member) : Text := m.vocabulary.name ++ '.' :: m.name

/-- The literal form of a member. -/
def Member.literal (m : Member) : Text :=
  let value := match m.value with
    | .number n => Text.ofNat n
    | .word t => t.literal
  '<' :: m.path ++ ": ".toList ++ value ++ ['>']

namespace Value

mutual

/-- The literal form of a value.  An integer with too many digits has none, and so has no value
that it is part of. -/
def literal : Value → Built Text
  | absent => .ok "None".toList
  | bool b => .ok (boolLiteral b)
  | int n => match Text.ofInt? n with
    | some t => .ok t
    | none => .error .tooManyDigits
  | real x => .ok x.write
  | text t => .ok t.literal
  | list items => do return '[' :: Text.join ", ".toList (← literals items) ++ [']']
  | tuple items => do return tupleLiteral (← literals items)
  | member m => .ok m.literal
  | id kind value => do
    return recordLiteral "Id".toList [("kind", ← kind.literal), ("value", ← value.literal)]
  | port name compass => do
    return recordLiteral "Port".toList [("id", ← name.literal), ("compass", ← compass.literal)]
  | nodeId name place => do
    return recordLiteral "NodeId".toList [("id", ← name.literal), ("port", ← place.literal)]
  | attr key value => do
    return recordLiteral "Attribute".toList [("key", ← key.literal), ("value", ← value.literal)]
  | node ref attrs => do
    return recordLiteral "Node".toList
      [("id", ← ref.literal), ("attrs", tupleLiteral (← literals attrs))]
  | subgraph name body => do
    return recordLiteral "Subgraph".toList
      [("id", ← name.literal), ("body", tupleLiteral (← literals body))]
  | edge chain attrs => do
    return recordLiteral "Edge".toList
      [("chain", tupleLiteral (← literals chain)), ("attrs", tupleLiteral (← literals attrs))]
  | defaults target attrs => do
    return recordLiteral "AttributeStatement".toList
      [("target", ← target.literal), ("attrs", tupleLiteral (← literals attrs))]
  | graph strict directed name body => do
    return recordLiteral "Graph".toList
      [("strict", ← strict.literal), ("directed", ← directed.literal), ("id", ← name.literal),
        ("body", tupleLiteral (← literals body))]
  | argument kind content => do
    return recordLiteral kind.typeName [(kind.fieldName, ← content.literal)]

/-- The literal forms of values. -/
def literals : List Value → Built (List Text)
  | [] => .ok []
  | v :: rest => do return (← v.literal) :: (← literals rest)

end

end Value

end DotNotation
