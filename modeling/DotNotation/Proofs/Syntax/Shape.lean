/-
# Clear ports and nesting

A port that has only a plain name, and this name is the word of a compass point, is written
like the compass point and so cannot be read back.  Ports of any other form are clear.  The
nesting of a tree is the number of bodies that are open at once when it is written.
-/
import DotNotation.Syntax.Validity
import Mathlib.Tactic.Lemma

namespace DotNotation

/-- Is the port different from a lone compass point when it is written? -/
def Port.isClear (port : Port) : Bool :=
  match port.id, port.compass with
  | some name, none => !(name.kind == .plain && (Compass.ofWord? name.value).isSome)
  | _, _ => true

/-- Is the port of the node reference clear? -/
def NodeId.isClear (node : NodeId) : Bool := node.port.all Port.isClear

mutual

/-- Are all ports in the subgraph clear? -/
def Subgraph.isClear : Subgraph → Bool
  | .mk _ body => Statement.areClear body

/-- Are all ports in the statement clear? -/
def Statement.isClear : Statement → Bool
  | .node id _ => id.isClear
  | .edge chain _ => Vertex.areClear chain
  | .subgraph group => group.isClear
  | .assign _ => true
  | .defaults _ _ => true

/-- Are all ports in the body clear? -/
def Statement.areClear : List Statement → Bool
  | [] => true
  | s :: rest => s.isClear && Statement.areClear rest

/-- Are all ports in the vertex clear? -/
def Vertex.isClear : Vertex → Bool
  | .node id => id.isClear
  | .subgraph group => group.isClear

/-- Are all ports in the chain clear? -/
def Vertex.areClear : List Vertex → Bool
  | [] => true
  | v :: rest => v.isClear && Vertex.areClear rest

end

/-- Are all ports in the graph clear? -/
def Graph.isClear (graph : Graph) : Bool := Statement.areClear graph.body

mutual

/-- The number of bodies that are open at once in the subgraph. -/
def Subgraph.nesting : Subgraph → Nat
  | .mk _ body => Statement.nestingAll body + 1

/-- The number of bodies that are open at once in the statement. -/
def Statement.nesting : Statement → Nat
  | .node _ _ => 0
  | .edge chain _ => Vertex.nestingAll chain
  | .subgraph group => group.nesting
  | .assign _ => 0
  | .defaults _ _ => 0

/-- The number of bodies that are open at once inside a body. -/
def Statement.nestingAll : List Statement → Nat
  | [] => 0
  | s :: rest => max s.nesting (Statement.nestingAll rest)

/-- The number of bodies that are open at once in the vertex. -/
def Vertex.nesting : Vertex → Nat
  | .node _ => 0
  | .subgraph group => group.nesting

/-- The number of bodies that are open at once in the chain. -/
def Vertex.nestingAll : List Vertex → Nat
  | [] => 0
  | v :: rest => max v.nesting (Vertex.nestingAll rest)

end

/-- The number of bodies that are open at once in the graph, its own body included. -/
def Graph.nesting (graph : Graph) : Nat := Statement.nestingAll graph.body + 1

lemma Statement.areValid_iff {body : List Statement} :
    Statement.areValid body = true ↔ ∀ s ∈ body, s.isValid = true := by
  induction body with
  | nil => simp [Statement.areValid]
  | cons s body ih => simp [Statement.areValid, ih]

lemma Statement.areClear_iff {body : List Statement} :
    Statement.areClear body = true ↔ ∀ s ∈ body, s.isClear = true := by
  induction body with
  | nil => simp [Statement.areClear]
  | cons s body ih => simp [Statement.areClear, ih]

lemma Vertex.areValid_iff {chain : List Vertex} :
    Vertex.areValid chain = true ↔ ∀ v ∈ chain, v.isValid = true := by
  induction chain with
  | nil => simp [Vertex.areValid]
  | cons v chain ih => simp [Vertex.areValid, ih]

lemma Vertex.areClear_iff {chain : List Vertex} :
    Vertex.areClear chain = true ↔ ∀ v ∈ chain, v.isClear = true := by
  induction chain with
  | nil => simp [Vertex.areClear]
  | cons v chain ih => simp [Vertex.areClear, ih]

end DotNotation
