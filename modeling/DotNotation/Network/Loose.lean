/-
# Networks of values

The network of a loosely typed graph.  Only what the network depends on is looked at, in the
order in which the statements stand: the meanings of identifiers, the ports, and whether edges
are directed.  The first value that lacks what is asked of it is at fault.
-/
import DotNotation.Construct.Build
import DotNotation.Network.Basic

namespace DotNotation

namespace Value

/-- An identifier with the meaning of a value. -/
def settledId (v : Value) : Built Id := do
  match v.toId? with
  | some name => return name
  | none => return Id.quote (← (← v.field .text).asText)

/-- The meaning of a name that may be absent. -/
def settledName (v : Value) : Built (Option Id) :=
  if v.isAbsent then .ok none else do return some (← v.settledId)

/-- A field of a value, unless the value is absent. -/
def fieldOfGiven (v : Value) (f : Field) : Built (List Value) :=
  if v.isAbsent then .ok [] else do return [← v.field f]

/-- The words of a port: its name and its compass point. -/
def portWords (v : Value) : Built (List Value) := do
  let name ← (← v.field .id).fieldOfGiven .text
  return name ++ (← (← v.field .compass).fieldOfGiven .value)

/-- A port with the meaning of a value. -/
def settledPort (v : Value) : Built (Option Port) :=
  if v.isAbsent then .ok none
  else match v.toPort? with
    | some p => .ok (some p)
    | none => do
      let text := Text.join [':'] (← words 0 (← v.portWords))
      return some ⟨some (Id.quote text), none⟩

/-- Attributes with the meaning of values. -/
def settledAttributes (vs : List Value) : Built (List Attribute) :=
  vs.mapM fun v => do return ⟨← (← v.field .key).settledId, ← (← v.field .value).settledId⟩

/-- The target of default attributes; anything that is not the graph or its nodes counts as its
edges. -/
def settledTarget (v : Value) : Target := v.toTarget?.getD .edge

mutual

/-- Statements with the meaning of a value.  Attributes of the graph count only at the top. -/
def settled (top : Bool) : Value → Built (List Statement)
  | node ref attrs => do
    let name ← (← ref.field .id).settledId
    return [.node ⟨name, none⟩ (← settledAttributes attrs)]
  | edge chain attrs => do
    let attrs ← settledAttributes attrs
    return [.edge (← settledVertices chain) attrs]
  | subgraph name body => do
    let name ← name.settledName
    return [.subgraph (.mk name (← settledAll false body))]
  | attr key value =>
    if top then do return [.assign ⟨← key.settledId, ← value.settledId⟩] else .ok []
  | defaults target attrs => do
    let target := target.settledTarget
    if target = .graph ∧ !top then return []
    return [.defaults target (← settledAttributes attrs)]
  | _ => .ok []

/-- Statements with the meanings of values. -/
def settledAll (top : Bool) : List Value → Built (List Statement)
  | [] => .ok []
  | v :: rest => do
    let first ← settled top v
    return first ++ (← settledAll top rest)

/-- A vertex with the meaning of a value. -/
def settledVertex : Value → Built Vertex
  | subgraph name body => do
    let name ← name.settledName
    return .subgraph (.mk name (← settledAll false body))
  | other => do
    let name ← (← other.field .id).settledId
    return .node ⟨name, ← (← other.field .port).settledPort⟩

/-- Vertices with the meanings of values. -/
def settledVertices : List Value → Built (List Vertex)
  | [] => .ok []
  | v :: rest => do
    let first ← v.settledVertex
    return first :: (← settledVertices rest)

end

/-- The network of a graph. -/
def network (v : Value) : Built Network :=
  match v.toGraph? with
  | some g => .ok (Network.ofGraph g)
  | none => match v with
    | graph strict directed name body => do
      let name ← name.settledName
      let body ← settledAll true body
      return Network.ofGraph ⟨strict.truth, directed.truth, name, body⟩
    | other => other.lacks .directed

end Value

end DotNotation
