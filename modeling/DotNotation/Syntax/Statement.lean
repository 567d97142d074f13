/-
# Statements

The body of a graph is a list of statements.  A statement declares a node, joins the
vertices of a chain by edges, groups statements in a subgraph, sets one attribute of the
enclosing graph, or sets default attributes.  A vertex of a chain is a node reference or a
whole subgraph, so statements, subgraphs and vertices are defined together.
-/
import DotNotation.Syntax.Port

namespace DotNotation

/-- An attribute and its value. -/
structure Attribute where
  /-- The name of the attribute. -/
  key : Id
  /-- Its value. -/
  value : Id
deriving DecidableEq, Repr

/-- What default attributes apply to. -/
inductive Target where
  | graph
  | node
  | edge
deriving DecidableEq, Repr

namespace Target

/-- All targets. -/
def all : List Target := [graph, node, edge]

/-- The keyword of a target. -/
def keyword : Target → Keyword
  | graph => .graph
  | node => .node
  | edge => .edge

/-- The spelling of that keyword. -/
def word (target : Target) : Text := target.keyword.word

/-- The target with the given keyword. -/
def ofWord? (t : Text) : Option Target := all.find? (·.word == t)

end Target

mutual

/-- A group of statements with an optional name. -/
inductive Subgraph where
  | mk (id : Option Id) (body : List Statement)

/-- A statement of a body. -/
inductive Statement where
  | node (id : NodeId) (attrs : List Attribute)
  | edge (chain : List Vertex) (attrs : List Attribute)
  | subgraph (group : Subgraph)
  | assign (attr : Attribute)
  | defaults (target : Target) (attrs : List Attribute)

/-- A vertex of an edge chain. -/
inductive Vertex where
  | node (id : NodeId)
  | subgraph (group : Subgraph)

end

namespace Subgraph

/-- The name of a subgraph. -/
def id : Subgraph → Option Id
  | mk id _ => id

/-- The statements of a subgraph. -/
def body : Subgraph → List Statement
  | mk _ body => body

/-- The subgraph with further statements at its end. -/
def extended (group : Subgraph) (more : List Statement) : Subgraph :=
  mk group.id (group.body ++ more)

end Subgraph

/-- A graph document. -/
structure Graph where
  /-- Are parallel edges merged? -/
  strict : Bool := false
  /-- Do edges have a direction? -/
  directed : Bool := false
  /-- The name of the graph. -/
  id : Option Id := none
  /-- The statements of the graph. -/
  body : List Statement := []

namespace Graph

/-- The graph with further statements at its end. -/
def extended (graph : Graph) (more : List Statement) : Graph :=
  { graph with body := graph.body ++ more }

/-- The keyword for a kind of graph. -/
def kindWord (directed : Bool) : Text := if directed then "digraph".toList else "graph".toList

end Graph

end DotNotation
