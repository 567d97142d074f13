/-
# Trees as values

Every part of a tree is a loosely typed value, and a value all of whose parts have the types
that they should have is a part of a tree.
-/
import DotNotation.Construct.Value

namespace DotNotation

/-! ## From trees to values -/

/-- The member for a way to write identifiers. -/
def IdKind.member : IdKind → Member
  | plain => ⟨.idKind, "Plain".toList, .number 1⟩
  | quoted => ⟨.idKind, "Quoted".toList, .number 2⟩
  | html => ⟨.idKind, "Html".toList, .number 3⟩

/-- The member for a compass point. -/
def Compass.member (c : Compass) : Member :=
  (Vocabulary.compassPoint.memberOf? c.word).getD ⟨.compassPoint, [], .word c.word⟩

/-- The member for a target. -/
def Target.member (t : Target) : Member :=
  (Vocabulary.attributeTarget.memberOf? t.word).getD ⟨.attributeTarget, [], .word t.word⟩

/-- An identifier as a value. -/
def Id.toValue (name : Id) : Value := .id (.member name.kind.member) (.text name.value)

/-- A part that may be absent as a value. -/
def optionValue {α : Type} (f : α → Value) : Option α → Value
  | some a => f a
  | none => .absent

/-- A port as a value. -/
def Port.toValue (p : Port) : Value :=
  .port (optionValue Id.toValue p.id) (optionValue (fun c => .member c.member) p.compass)

/-- A node reference as a value. -/
def NodeId.toValue (n : NodeId) : Value := .nodeId n.id.toValue (optionValue Port.toValue n.port)

/-- An attribute as a value. -/
def Attribute.toValue (a : Attribute) : Value := .attr a.key.toValue a.value.toValue

mutual

/-- A subgraph as a value. -/
def Subgraph.toValue : Subgraph → Value
  | .mk id body => .subgraph (optionValue Id.toValue id) (Statement.toValues body)

/-- A statement as a value. -/
def Statement.toValue : Statement → Value
  | .node ref attrs => .node ref.toValue (attrs.map Attribute.toValue)
  | .edge chain attrs => .edge (Vertex.toValues chain) (attrs.map Attribute.toValue)
  | .subgraph group => group.toValue
  | .assign attr => attr.toValue
  | .defaults target attrs => .defaults (.member target.member) (attrs.map Attribute.toValue)

/-- Statements as values. -/
def Statement.toValues : List Statement → List Value
  | [] => []
  | s :: rest => s.toValue :: Statement.toValues rest

/-- A vertex as a value. -/
def Vertex.toValue : Vertex → Value
  | .node id => id.toValue
  | .subgraph group => group.toValue

/-- Vertices as values. -/
def Vertex.toValues : List Vertex → List Value
  | [] => []
  | v :: rest => v.toValue :: Vertex.toValues rest

end

/-- A graph as a value. -/
def Graph.toValue (g : Graph) : Value :=
  .graph (.bool g.strict) (.bool g.directed) (optionValue Id.toValue g.id)
    (Statement.toValues g.body)

/-! ## From values to trees -/

namespace Value

/-- The identifier that a value is. -/
def toId? : Value → Option Id
  | id kind (text t) => kind.idKind?.map (⟨·, t⟩)
  | _ => none

/-- A part that may be absent. -/
def toOption? {α : Type} (f : Value → Option α) : Value → Option (Option α)
  | absent => some none
  | other => (f other).map some

/-- The compass point that a value is. -/
def toCompass? : Value → Option Compass
  | member m => m.compass?
  | _ => none

/-- The port that a value is. -/
def toPort? : Value → Option Port
  | port name compass => do return ⟨← name.toOption? toId?, ← compass.toOption? toCompass?⟩
  | _ => none

/-- The node reference that a value is. -/
def toNodeId? : Value → Option NodeId
  | nodeId name place => do return ⟨← name.toId?, ← place.toOption? toPort?⟩
  | _ => none

/-- The attribute that a value is. -/
def toAttribute? : Value → Option Attribute
  | attr key value => do return ⟨← key.toId?, ← value.toId?⟩
  | _ => none

/-- The target that a value is. -/
def toTarget? : Value → Option Target
  | member m => m.target?
  | _ => none

mutual

/-- The statement that a value is. -/
def toStatement? : Value → Option Statement
  | node ref attrs => do return .node (← ref.toNodeId?) (← attrs.mapM toAttribute?)
  | edge chain attrs => do return .edge (← toVertices? chain) (← attrs.mapM toAttribute?)
  | subgraph name body => do
    return .subgraph (.mk (← name.toOption? toId?) (← toStatements? body))
  | attr key value => do return .assign ⟨← key.toId?, ← value.toId?⟩
  | defaults target attrs => do
    return .defaults (← target.toTarget?) (← attrs.mapM toAttribute?)
  | _ => none

/-- The statements that values are. -/
def toStatements? : List Value → Option (List Statement)
  | [] => some []
  | v :: rest => do return (← v.toStatement?) :: (← toStatements? rest)

/-- The vertex that a value is. -/
def toVertex? : Value → Option Vertex
  | subgraph name body => do
    return .subgraph (.mk (← name.toOption? toId?) (← toStatements? body))
  | other => other.toNodeId?.map .node

/-- The vertices that values are. -/
def toVertices? : List Value → Option (List Vertex)
  | [] => some []
  | v :: rest => do return (← v.toVertex?) :: (← toVertices? rest)

end

/-- The graph that a value is. -/
def toGraph? : Value → Option Graph
  | graph (bool strict) (bool directed) name body => do
    return ⟨strict, directed, ← name.toOption? toId?, ← toStatements? body⟩
  | _ => none

end Value

end DotNotation
