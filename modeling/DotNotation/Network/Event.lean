/-
# Events of a document

Read from left to right, the statements of a document say what happens to the network that
it describes: a node is mentioned, attributes are set, two nodes are linked, a named
subgraph ends.  Here a document is flattened into the list of these events.

A vertex of a chain stands for a list of nodes.  For a subgraph the list is collected statement by
statement, and what a statement hands on is added as far as it is not there yet.  A chain links
every node of a vertex to every node of the next one.
-/
import DotNotation.Dictionary
import DotNotation.Syntax.Statement

namespace DotNotation

/-- A list of nodes with those of another list behind it, each unless it is there already. -/
def Text.addMissing (known : List Text) : List Text → List Text
  | [] => known
  | t :: ts => Text.addMissing (if t ∈ known then known else known ++ [t]) ts

/-- The meaning of an attribute: its name and value. -/
def Attribute.pair (a : Attribute) : Text × Text := (a.key.text, a.value.text)

/-- The meaning of a list of attributes. -/
def Attribute.pairs (attrs : List Attribute) : List (Text × Text) := attrs.map Attribute.pair

/-- The meaning of a port: the meanings of its parts with a colon between them. -/
def Port.text (p : Port) : Text :=
  Text.join [':'] ((p.id.map Id.text).toList ++ (p.compass.map Compass.word).toList)

/-! ## Nodes of a vertex -/

mutual

/-- The nodes that a subgraph stands for: the list of its body. -/
def Subgraph.collected : Subgraph → List Text
  | .mk _ body => Statement.collect [] body

/-- The nodes that a statement hands on to the list of its body.  The list of an edge statement
starts with the nodes of its first vertex. -/
def Statement.collected : Statement → List Text
  | .node id _ => [id.id.text]
  | .edge [] _ => []
  | .edge (first :: rest) _ => Vertex.collect first.endpoints rest
  | .subgraph group => group.collected
  | .assign _ => []
  | .defaults _ _ => []

/-- The list of a body, where `known` is the list so far. -/
def Statement.collect (known : List Text) : List Statement → List Text
  | [] => known
  | s :: rest => Statement.collect (Text.addMissing known s.collected) rest

/-- The nodes that a vertex stands for. -/
def Vertex.endpoints : Vertex → List Text
  | .node id => [id.id.text]
  | .subgraph group => group.collected

/-- The list of a chain, where `known` is the list so far. -/
def Vertex.collect (known : List Text) : List Vertex → List Text
  | [] => known
  | v :: rest => Vertex.collect (Text.addMissing known v.endpoints) rest

end

/-- The meaning of the port of a vertex. -/
def Vertex.portText : Vertex → Option Text
  | .node id => id.port.map Port.text
  | .subgraph _ => none

/-! ## Links -/

/-- An edge between two nodes. -/
structure Link where
  /-- The node where it starts. -/
  tail : Text
  /-- The node where it ends. -/
  head : Text
  /-- Its attributes. -/
  data : Dictionary Text
deriving DecidableEq, Repr

/-- Set an attribute to a value that may be absent, unless it is there. -/
def Dictionary.setDefault? (d : Dictionary Text) (key : Text) : Option Text → Dictionary Text
  | some value => d.setDefault key value
  | none => d

/-- The attributes of a link between two vertices: those of the edge statement, and the ports
of the two ends. -/
def Link.dataOf (attrs : List Attribute) (tail head : Vertex) : Dictionary Text :=
  let own := Dictionary.ofList (Attribute.pairs attrs)
  let own := own.setDefault? "tailport".toList tail.portText
  own.setDefault? "headport".toList head.portText

/-- The links of one step of a chain. -/
def Link.step (attrs : List Attribute) (tail head : Vertex) : List Link :=
  tail.endpoints.flatMap fun u =>
    head.endpoints.map fun v => ⟨u, v, Link.dataOf attrs tail head⟩

/-! ## Events -/

/-- What happens to a network. -/
inductive Event where
  | node (name : Text) (owner : Option Text)
  | nodeAttributes (name : Text) (pairs : List (Text × Text))
  | link (l : Link)
  | close (name : Text) (members : List Text)
  | graphAttributes (pairs : List (Text × Text))
  | nodeDefaults (pairs : List (Text × Text))
  | edgeDefaults (pairs : List (Text × Text))
deriving DecidableEq, Repr

/-- The event at the end of a subgraph, if it has a name. -/
def Event.closing (id : Option Id) (members : List Text) : List Event :=
  match id with
  | some name => [.close name.text members]
  | none => []

/-- The nearest named subgraph around the statements of a subgraph. -/
def ownerInside (id : Option Id) (owner : Option Text) : Option Text :=
  match id with
  | some name => some name.text
  | none => owner

mutual

/-- The events of a subgraph inside the nearest named subgraph `owner`. -/
def Subgraph.events (owner : Option Text) : Subgraph → List Event
  | .mk id body =>
    Statement.eventsAll (ownerInside id owner) false body ++
      Event.closing id (Statement.collect [] body)

/-- The events of a statement inside the nearest named subgraph `owner`.  Attributes of the
graph itself are set only at the top of the document. -/
def Statement.events (owner : Option Text) (top : Bool) : Statement → List Event
  | .node id attrs =>
    [.node id.id.text owner, .nodeAttributes id.id.text (Attribute.pairs attrs)]
  | .edge chain attrs => Vertex.eventsAll owner attrs none chain
  | .subgraph group => group.events owner
  | .assign a => if top then [.graphAttributes [a.pair]] else []
  | .defaults .graph attrs => if top then [.graphAttributes (Attribute.pairs attrs)] else []
  | .defaults .node attrs => [.nodeDefaults (Attribute.pairs attrs)]
  | .defaults .edge attrs => [.edgeDefaults (Attribute.pairs attrs)]

/-- The events of a body. -/
def Statement.eventsAll (owner : Option Text) (top : Bool) : List Statement → List Event
  | [] => []
  | s :: rest => s.events owner top ++ Statement.eventsAll owner top rest

/-- The events of a vertex. -/
def Vertex.events (owner : Option Text) : Vertex → List Event
  | .node id => [.node id.id.text owner]
  | .subgraph group => group.events owner

/-- The events of a chain that follows the vertex `before`, if any: each vertex is visited and
then linked to the one before it. -/
def Vertex.eventsAll (owner : Option Text) (attrs : List Attribute) (before : Option Vertex) :
    List Vertex → List Event
  | [] => []
  | v :: rest =>
    v.events owner ++ ((before.map fun u => (Link.step attrs u v).map Event.link).getD []) ++
      Vertex.eventsAll owner attrs (some v) rest

end

/-- The events of a document. -/
def Graph.events (g : Graph) : List Event :=
  (g.id.map fun name => Event.graphAttributes [("name".toList, name.text)]).toList ++
    Statement.eventsAll none true g.body

end DotNotation
