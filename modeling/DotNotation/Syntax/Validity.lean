/-
# Well-formed trees

Not every tree can be written down.  A part is well formed when its identifiers can be
written the way they are meant, when a port has a name or a compass point, when a chain
joins at least two vertices, and when a node that carries attributes is not named by the
bare word of a target, since that would read as default attributes.  `Defect` lists what can
be wrong with one part; a tree is valid when no part of it has a defect.
-/
import DotNotation.Syntax.Statement
import DotNotation.Text.Literal

namespace DotNotation

/-- What can be wrong with one part of a tree. -/
inductive Defect where
  | notPlain (value : Text)
  | strayQuote (value : Text)
  | unbalancedLabel (value : Text)
  | emptyPort
  | shortChain (length : Nat)
  | keywordNode (word : Text)
deriving DecidableEq, Repr

namespace Defect

/-- The message for a defect. -/
def message : Defect → Text
  | notPlain value => "not a plain identifier or number: ".toList ++ value.literal
  | strayQuote value => "unescaped quote or dangling backslash in ".toList ++ value.literal
  | unbalancedLabel value => "unbalanced angle brackets in html label ".toList ++ value.literal
  | emptyPort => "a port needs an id, a compass point or both".toList
  | shortChain length => "an edge needs at least two vertices, got ".toList ++ Text.ofNat length
  | keywordNode word =>
    "bare keyword ".toList ++ word.literal ++ " with attributes is an attribute statement".toList

end Defect

/-! ## Building one part -/

/-- The identifier of the given kind, if the value can be written in that way. -/
def Id.make (kind : IdKind) (value : Text) : Except Defect Id :=
  let id : Id := ⟨kind, value⟩
  if id.isValid then .ok id
  else match kind with
    | .plain => .error (.notPlain value)
    | .quoted => .error (.strayQuote value)
    | .html => .error (.unbalancedLabel value)

theorem Id.make_eq_ok_iff {kind : IdKind} {value : Text} {id : Id} :
    Id.make kind value = .ok id ↔ id = ⟨kind, value⟩ ∧ id.isValid = true := by
  constructor
  · intro h
    cases hvalid : Id.isValid ⟨kind, value⟩ with
    | true =>
      have hmake : Id.make kind value = .ok ⟨kind, value⟩ := if_pos hvalid
      rw [hmake] at h
      cases h
      exact ⟨rfl, hvalid⟩
    | false => cases kind <;> simp [Id.make, hvalid] at h
  · rintro ⟨rfl, hvalid⟩
    exact if_pos hvalid

/-- Has the port a name or a compass point? -/
def Port.isComplete (port : Port) : Bool := port.id.isSome || port.compass.isSome

/-- The port with the given parts, at least one of which must be there. -/
def Port.make (id : Option Id) (compass : Option Compass) : Except Defect Port :=
  let port : Port := ⟨id, compass⟩
  if port.isComplete then .ok port else .error .emptyPort

/-- The target whose bare word names the node, when it has no port. -/
def NodeId.targetWord? (node : NodeId) : Option Target :=
  Target.all.find? fun target => node.isWord target.word

/-- The node statement, unless it would read as default attributes. -/
def Statement.makeNode (node : NodeId) (attrs : List Attribute) : Except Defect Statement :=
  if attrs.isEmpty then .ok (.node node attrs)
  else match node.targetWord? with
    | some target => .error (.keywordNode target.word)
    | none => .ok (.node node attrs)

/-- The edge statement along a chain of at least two vertices. -/
def Statement.makeEdge (chain : List Vertex) (attrs : List Attribute) : Except Defect Statement :=
  if 2 ≤ chain.length then .ok (.edge chain attrs) else .error (.shortChain chain.length)

/-! ## Whole trees -/

/-- Is every part of the port well formed? -/
def Port.isValid (port : Port) : Bool := port.isComplete && port.id.all Id.isValid

/-- Is every part of the node reference well formed? -/
def NodeId.isValid (node : NodeId) : Bool := node.id.isValid && node.port.all Port.isValid

/-- Are key and value well formed? -/
def Attribute.isValid (attr : Attribute) : Bool := attr.key.isValid && attr.value.isValid

mutual

/-- Is every part of the subgraph well formed? -/
def Subgraph.isValid : Subgraph → Bool
  | .mk id body => id.all Id.isValid && Statement.areValid body

/-- Is every part of the statement well formed? -/
def Statement.isValid : Statement → Bool
  | .node id attrs =>
    id.isValid && attrs.all Attribute.isValid && (attrs.isEmpty || id.targetWord?.isNone)
  | .edge chain attrs =>
    decide (2 ≤ chain.length) && Vertex.areValid chain && attrs.all Attribute.isValid
  | .subgraph group => group.isValid
  | .assign attr => attr.isValid
  | .defaults _ attrs => attrs.all Attribute.isValid

/-- Is every statement of the body well formed? -/
def Statement.areValid : List Statement → Bool
  | [] => true
  | s :: rest => s.isValid && Statement.areValid rest

/-- Is every part of the vertex well formed? -/
def Vertex.isValid : Vertex → Bool
  | .node id => id.isValid
  | .subgraph group => group.isValid

/-- Is every vertex of the chain well formed? -/
def Vertex.areValid : List Vertex → Bool
  | [] => true
  | v :: rest => v.isValid && Vertex.areValid rest

end

/-- Is every part of the graph well formed? -/
def Graph.isValid (graph : Graph) : Bool :=
  graph.id.all Id.isValid && Statement.areValid graph.body

end DotNotation
