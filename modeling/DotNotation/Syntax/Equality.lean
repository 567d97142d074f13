/-
# Equality of syntax trees

Two trees are equal when they are built in the same way from equal parts.  Equality of
statements, subgraphs and vertices is decided by comparing them side by side; the main
statement `Statement.same_iff` says that the comparison decides equality.
-/
import DotNotation.Syntax.Statement

namespace DotNotation

mutual

/-- Compare two subgraphs. -/
def Subgraph.same : Subgraph → Subgraph → Bool
  | .mk i body, .mk j other => i == j && Statement.sameAll body other

/-- Compare two statements. -/
def Statement.same : Statement → Statement → Bool
  | .node i attrs, .node j others => i == j && attrs == others
  | .edge chain attrs, .edge other others => Vertex.sameAll chain other && attrs == others
  | .subgraph g, .subgraph h => g.same h
  | .assign a, .assign b => a == b
  | .defaults t attrs, .defaults u others => t == u && attrs == others
  | _, _ => false

/-- Compare two bodies. -/
def Statement.sameAll : List Statement → List Statement → Bool
  | [], [] => true
  | s :: rest, t :: others => s.same t && Statement.sameAll rest others
  | _, _ => false

/-- Compare two vertices. -/
def Vertex.same : Vertex → Vertex → Bool
  | .node i, .node j => i == j
  | .subgraph g, .subgraph h => g.same h
  | _, _ => false

/-- Compare two chains. -/
def Vertex.sameAll : List Vertex → List Vertex → Bool
  | [], [] => true
  | v :: rest, w :: others => v.same w && Vertex.sameAll rest others
  | _, _ => false

end

mutual

theorem Subgraph.same_iff : ∀ g h : Subgraph, g.same h = true ↔ g = h
  | .mk i body, .mk j other => by
    simp [Subgraph.same, Statement.sameAll_iff body other]

theorem Statement.same_iff : ∀ s t : Statement, s.same t = true ↔ s = t
  | .node i attrs, t => by cases t <;> simp [Statement.same]
  | .edge chain attrs, t => by
    cases t with
    | edge other others => simp [Statement.same, Vertex.sameAll_iff chain other]
    | _ => simp [Statement.same]
  | .subgraph g, t => by
    cases t with
    | subgraph h => simp [Statement.same, Subgraph.same_iff g h]
    | _ => simp [Statement.same]
  | .assign a, t => by cases t <;> simp [Statement.same]
  | .defaults target attrs, t => by cases t <;> simp [Statement.same]

theorem Statement.sameAll_iff :
    ∀ body other : List Statement, Statement.sameAll body other = true ↔ body = other
  | [], other => by cases other <;> simp [Statement.sameAll]
  | s :: rest, other => by
    cases other with
    | nil => simp [Statement.sameAll]
    | cons t others =>
      simp [Statement.sameAll, Statement.same_iff s t, Statement.sameAll_iff rest others]

theorem Vertex.same_iff : ∀ v w : Vertex, v.same w = true ↔ v = w
  | .node i, w => by cases w <;> simp [Vertex.same]
  | .subgraph g, w => by
    cases w with
    | subgraph h => simp [Vertex.same, Subgraph.same_iff g h]
    | _ => simp [Vertex.same]

theorem Vertex.sameAll_iff :
    ∀ chain other : List Vertex, Vertex.sameAll chain other = true ↔ chain = other
  | [], other => by cases other <;> simp [Vertex.sameAll]
  | v :: rest, other => by
    cases other with
    | nil => simp [Vertex.sameAll]
    | cons w others =>
      simp [Vertex.sameAll, Vertex.same_iff v w, Vertex.sameAll_iff rest others]

end

instance : DecidableEq Subgraph := fun g h => decidable_of_iff _ (Subgraph.same_iff g h)

instance : DecidableEq Statement := fun s t => decidable_of_iff _ (Statement.same_iff s t)

instance : DecidableEq Vertex := fun v w => decidable_of_iff _ (Vertex.same_iff v w)

deriving instance DecidableEq for Graph

end DotNotation
