/-
# Networks

The network that a document describes: its nodes and links with their attributes, the
members of its named subgraphs, and the default attributes.  A node is known by the meaning
of its identifier.  Nodes stand in the order of their first mention, links in the order in
which they arise, and named subgraphs in the order in which they end.
-/
import DotNotation.Network.Event

namespace DotNotation

/-- A network. -/
structure Network where
  /-- Do links have a direction? -/
  directed : Bool
  /-- Are parallel links to be merged by the reader of the network? -/
  strict : Bool
  /-- The attributes of the graph. -/
  attributes : Dictionary Text := .empty
  /-- The nodes with their attributes. -/
  nodes : Dictionary (Dictionary Text) := .empty
  /-- The links. -/
  links : List Link := []
  /-- The named subgraphs with their members. -/
  groups : List (Text × List Text) := []
  /-- The default attributes of nodes. -/
  nodeDefaults : Dictionary Text := .empty
  /-- The default attributes of edges. -/
  edgeDefaults : Dictionary Text := .empty
deriving DecidableEq, Repr

namespace Network

/-- The attribute of a node that names the nearest named subgraph of its first mention in
one. -/
def ownerKey : Text := "subgraph".toList

/-- The attributes of a node after a mention of it. -/
def mention (owner : Option Text) (attrs : Dictionary Text) : Dictionary Text :=
  attrs.setDefault? ownerKey owner

/-- The network after an event.  A link brings the nodes at its ends with it. -/
def apply (n : Network) : Event → Network
  | .node name owner =>
    { n with nodes := (n.nodes.setDefault name .empty).modify name (mention owner) }
  | .nodeAttributes name pairs =>
    { n with nodes := n.nodes.modify name fun attrs => attrs.setAll pairs }
  | .link l =>
    { n with
      nodes := (n.nodes.setDefault l.tail .empty).setDefault l.head .empty
      links := n.links ++ [l] }
  | .close name members => { n with groups := n.groups ++ [(name, members)] }
  | .graphAttributes pairs => { n with attributes := n.attributes.setAll pairs }
  | .nodeDefaults pairs => { n with nodeDefaults := n.nodeDefaults.setAll pairs }
  | .edgeDefaults pairs => { n with edgeDefaults := n.edgeDefaults.setAll pairs }

/-- The network after a list of events. -/
def applyAll (n : Network) (events : List Event) : Network := events.foldl apply n

/-- The network of a document. -/
def ofGraph (g : Graph) : Network :=
  applyAll { directed := g.directed, strict := g.strict } g.events

/-- The names of the nodes. -/
def nodeNames (n : Network) : List Text := n.nodes.keys

/-- The number of nodes. -/
def nodeCount (n : Network) : Nat := n.nodes.entries.length

end Network

end DotNotation
