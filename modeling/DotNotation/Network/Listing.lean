/-
# Listing the links of a network

Links are listed node by node: for each node its neighbours in the order in which they were
first joined to it, and for each neighbour the parallel links in the order in which they
arose, numbered from zero.  In an undirected network either end of a link has the other one
for a neighbour, and a link is listed once, at the end that comes first among the nodes.

Degrees are counted along the same neighbours, and the number of links is taken from the degrees.
-/
import DotNotation.Network.Basic

namespace DotNotation

/-- Each member of a list once, in the order of first occurrence. -/
def Text.distinct : List Text → List Text
  | [] => []
  | t :: ts => t :: (Text.distinct ts).filter (· ≠ t)

/-- A link in a listing. -/
structure ListedLink where
  /-- The node at which it is listed. -/
  tail : Text
  /-- The neighbour to which it leads. -/
  head : Text
  /-- Its number among the parallel links. -/
  key : Nat
  /-- Its attributes. -/
  data : Dictionary Text
deriving DecidableEq, Repr

namespace Link

/-- Does the link lead from `u` to `v`, in either direction when it has none? -/
def joins (directed : Bool) (u v : Text) (l : Link) : Bool :=
  (l.tail == u && l.head == v) || (!directed && l.tail == v && l.head == u)

/-- The node to which the link leads from `u`. -/
def other? (directed : Bool) (u : Text) (l : Link) : Option Text :=
  if l.tail == u then some l.head
  else if !directed && l.head == u then some l.tail
  else none

end Link

namespace Network

/-- The neighbours of a node in the order in which they were first joined to it. -/
def neighbours (n : Network) (u : Text) : List Text :=
  Text.distinct (n.links.filterMap (Link.other? n.directed u))

/-- The links from `u` to `v` in the order in which they arose. -/
def between (n : Network) (u v : Text) : List Link := n.links.filter (Link.joins n.directed u v)

/-- The listing of the links from `u` to `v`. -/
def listBetween (n : Network) (u v : Text) : List ListedLink :=
  (n.between u v).zipIdx.map fun (l, key) => ⟨u, v, key, l.data⟩

/-- The listing for the given nodes, after the nodes in `seen`. -/
def listFrom (n : Network) (seen : List Text) : List Text → List ListedLink
  | [] => []
  | u :: rest =>
    let visible := (n.neighbours u).filter fun v => n.directed || !seen.contains v
    visible.flatMap (n.listBetween u) ++ n.listFrom (u :: seen) rest

/-- The listing of all links. -/
def listing (n : Network) : List ListedLink := n.listFrom [] n.nodeNames

/-! ## Counting -/

/-- The sum of a count over texts. -/
def total (count : Text → Nat) (ts : List Text) : Nat := ts.foldr (fun t sum => count t + sum) 0

/-- The degree of a node by its row: the links in it, and with directions the links to the node
in all rows, else the loops of the node once more. -/
def rowDegree (n : Network) (u : Text) : Nat :=
  total (fun v => (n.between u v).length) (n.neighbours u) +
    if n.directed then total (fun w => (n.between w u).length) n.nodeNames
    else (n.between u u).length

/-- The degree of a node.  A text that is the name of no node has degree zero. -/
def degree (n : Network) (name : Text) : Nat :=
  if n.nodes.contains name then n.rowDegree name else 0

/-- The number of links: half the sum of the degrees. -/
def linkCount (n : Network) : Nat := total n.degree n.nodeNames / 2

end Network

end DotNotation
