/-
# The items of a document

A document is a tree, and what it says about its network is spread over the tree: node
statements, nodes in chains, attributes, and subgraphs, which may stand in a body or in a chain.
Here these items are listed from left to right, a subgraph in a chain at its place in the chain
and each subgraph at its end.  An item comes with the names of the subgraphs around it, from the
inside out, so that it can be asked of an item alone whether it stands at the top of the document
and which named subgraph is the nearest.

The network grows while the document is read, with the nearest name handed down into the
subgraphs and with links between the statements.  `Network.unlinked_ofGraph` says that, links
apart, it is what the items make of it one after the other.
-/
import DotNotation.Proofs.Network.Hops

namespace DotNotation

/-! ## Items and occurrences -/

/-- A node statement. -/
structure NodeStatement where
  /-- The node. -/
  id : NodeId
  /-- Its attributes. -/
  attrs : List Attribute

/-- An item of a document. -/
inductive Item where
  | node (s : NodeStatement)
  | vertex (id : NodeId)
  | assign (a : Attribute)
  | defaults (target : Target) (attrs : List Attribute)
  | subgraph (group : Subgraph)

/-- An item at its place in a document. -/
structure Occurrence where
  /-- The item. -/
  item : Item
  /-- The names of the subgraphs around it, from the inside out. -/
  around : List (Option Id)

/-- The occurrence with one more subgraph around everything that is around it. -/
def Occurrence.inside (id : Option Id) (o : Occurrence) : Occurrence :=
  { o with around := o.around ++ [id] }

mutual

/-- The items inside a subgraph, and then the subgraph itself. -/
def Subgraph.occurrences : Subgraph → List Occurrence
  | .mk id body =>
    (Statement.occurrencesAll body).map (Occurrence.inside id) ++ [⟨.subgraph (.mk id body), []⟩]

/-- The items of a statement. -/
def Statement.occurrences : Statement → List Occurrence
  | .node id attrs => [⟨.node ⟨id, attrs⟩, []⟩]
  | .edge chain _ => Vertex.occurrencesAll chain
  | .subgraph group => group.occurrences
  | .assign a => [⟨.assign a, []⟩]
  | .defaults target attrs => [⟨.defaults target attrs, []⟩]

/-- The items of a body. -/
def Statement.occurrencesAll : List Statement → List Occurrence
  | [] => []
  | s :: rest => s.occurrences ++ Statement.occurrencesAll rest

/-- The items of a vertex. -/
def Vertex.occurrences : Vertex → List Occurrence
  | .node id => [⟨.vertex id, []⟩]
  | .subgraph group => group.occurrences

/-- The items of a chain. -/
def Vertex.occurrencesAll : List Vertex → List Occurrence
  | [] => []
  | v :: rest => v.occurrences ++ Vertex.occurrencesAll rest

end

/-- The items of a document. -/
def Graph.occurrences (g : Graph) : List Occurrence := Statement.occurrencesAll g.body

namespace Occurrence

/-- The node that is referred to, in a statement of its own or in a chain. -/
def reference? (o : Occurrence) : Option NodeId :=
  match o.item with
  | .node s => some s.id
  | .vertex id => some id
  | _ => none

/-- The node statement. -/
def nodeStatement? (o : Occurrence) : Option NodeStatement :=
  match o.item with
  | .node s => some s
  | _ => none

/-- The subgraph. -/
def subgraph? (o : Occurrence) : Option Subgraph :=
  match o.item with
  | .subgraph group => some group
  | _ => none

/-- The name of the nearest named subgraph around. -/
def nearest? (o : Occurrence) : Option Text := o.around.findSome? fun id => id.map Id.text

end Occurrence

/-- The references to nodes inside a subgraph, from left to right. -/
def Subgraph.references (group : Subgraph) : List NodeId :=
  group.occurrences.filterMap Occurrence.reference?

/-- The references to nodes in a document, from left to right. -/
def Graph.references (g : Graph) : List NodeId := g.occurrences.filterMap Occurrence.reference?

/-- The node statements of a document at any depth, from left to right. -/
def Graph.nodeStatements (g : Graph) : List NodeStatement :=
  g.occurrences.filterMap Occurrence.nodeStatement?

/-- The subgraphs of a document at any depth, in the order in which they end. -/
def Graph.subgraphs (g : Graph) : List Subgraph := g.occurrences.filterMap Occurrence.subgraph?

/-! ## The events of an item -/

namespace Occurrence

/-- The events of an item, where `owner` is the nearest named subgraph around the whole and `top`
says whether the whole stands at the top of the document. -/
def events (owner : Option Text) (top : Bool) (o : Occurrence) : List Event :=
  match o.item with
  | .node s =>
    [.node s.id.id.text (o.nearest?.or owner),
      .nodeAttributes s.id.id.text (Attribute.pairs s.attrs)]
  | .vertex id => [.node id.id.text (o.nearest?.or owner)]
  | .assign a => if top && o.around.isEmpty then [.graphAttributes [a.pair]] else []
  | .defaults .graph attrs =>
    if top && o.around.isEmpty then [.graphAttributes (Attribute.pairs attrs)] else []
  | .defaults .node attrs => [.nodeDefaults (Attribute.pairs attrs)]
  | .defaults .edge attrs => [.edgeDefaults (Attribute.pairs attrs)]
  | .subgraph (.mk id body) => Event.closing id (Statement.collect [] body)

lemma nearest?_inside (id : Option Id) (owner : Option Text) (o : Occurrence) :
    (o.inside id).nearest?.or owner = o.nearest?.or (ownerInside id owner) := by
  cases id <;> simp [inside, nearest?, ownerInside, List.findSome?_append]

/-- A subgraph hands its name down to its items and keeps them from the top. -/
lemma events_inside (id : Option Id) (owner : Option Text) (top : Bool) (o : Occurrence) :
    (o.inside id).events owner top = o.events (ownerInside id owner) false := by
  have haround : (o.inside id).around.isEmpty = false := by simp [inside]
  unfold events
  rw [nearest?_inside, haround, Bool.and_false]
  rfl

end Occurrence

/-- Is the event no link? -/
def Event.isUnlinked (e : Event) : Bool := e.link?.isNone

lemma Event.filter_isUnlinked_links (links : List Link) :
    (links.map Event.link).filter Event.isUnlinked = [] := by
  simp [List.filter_eq_nil_iff, Event.isUnlinked, Event.link?]

lemma Event.filter_isUnlinked_closing (id : Option Id) (members : List Text) :
    (Event.closing id members).filter Event.isUnlinked = Event.closing id members := by
  cases id <;> rfl

mutual

lemma Subgraph.unlinked_events (owner : Option Text) (top : Bool) : ∀ group : Subgraph,
    (group.events owner).filter Event.isUnlinked =
      group.occurrences.flatMap (Occurrence.events owner top)
  | .mk id body => by
    -- inside, the owner is this subgraph if it has a name, and nothing is at the top
    have hinside : ((Statement.occurrencesAll body).map (Occurrence.inside id)).flatMap
        (Occurrence.events owner top) =
          (Statement.occurrencesAll body).flatMap
            (Occurrence.events (ownerInside id owner) false) := by
      simp only [List.flatMap_map, Occurrence.events_inside]
    rw [Subgraph.events, Subgraph.occurrences, List.filter_append, List.flatMap_append, hinside,
      Event.filter_isUnlinked_closing, Statement.unlinked_eventsAll, List.flatMap_singleton]
    rfl

lemma Statement.unlinked_events (owner : Option Text) (top : Bool) : ∀ s : Statement,
    (s.events owner top).filter Event.isUnlinked =
      s.occurrences.flatMap (Occurrence.events owner top)
  | .node id attrs => rfl
  | .edge chain attrs => by
    rw [Statement.events, Statement.occurrences]
    exact Vertex.unlinked_eventsAll owner top attrs none chain
  | .subgraph group => by
    rw [Statement.events, Statement.occurrences]
    exact Subgraph.unlinked_events owner top group
  | .assign a => by cases top <;> rfl
  | .defaults target attrs => by cases target <;> cases top <;> rfl

lemma Statement.unlinked_eventsAll (owner : Option Text) (top : Bool) :
    ∀ body : List Statement,
    (Statement.eventsAll owner top body).filter Event.isUnlinked =
      (Statement.occurrencesAll body).flatMap (Occurrence.events owner top)
  | [] => rfl
  | s :: rest => by
    rw [Statement.eventsAll, Statement.occurrencesAll, List.filter_append, List.flatMap_append,
      Statement.unlinked_events owner top s, Statement.unlinked_eventsAll owner top rest]

lemma Vertex.unlinked_events (owner : Option Text) (top : Bool) : ∀ v : Vertex,
    (v.events owner).filter Event.isUnlinked =
      v.occurrences.flatMap (Occurrence.events owner top)
  | .node id => rfl
  | .subgraph group => by
    rw [Vertex.events, Vertex.occurrences]
    exact Subgraph.unlinked_events owner top group

lemma Vertex.unlinked_eventsAll (owner : Option Text) (top : Bool) (attrs : List Attribute)
    (before : Option Vertex) : ∀ chain : List Vertex,
    (Vertex.eventsAll owner attrs before chain).filter Event.isUnlinked =
      (Vertex.occurrencesAll chain).flatMap (Occurrence.events owner top)
  | [] => rfl
  | v :: rest => by
    have hstep : ((before.map fun u => (Link.step attrs u v).map Event.link).getD []).filter
        Event.isUnlinked = [] := by
      cases before with
      | none => rfl
      | some u => exact Event.filter_isUnlinked_links _
    rw [Vertex.eventsAll, Vertex.occurrencesAll, List.filter_append, List.filter_append, hstep,
      List.append_nil, List.flatMap_append, Vertex.unlinked_events owner top v,
      Vertex.unlinked_eventsAll owner top attrs (some v) rest]

end

/-! ## The network, item by item -/

namespace Network

/-- The network without its links. -/
def unlinked (n : Network) : Network := { n with links := [] }

/-- The network after an item at its place in the document. -/
def visit (n : Network) (o : Occurrence) : Network := n.applyAll (o.events none true)

/-- The network after a list of items. -/
def visitAll (n : Network) (os : List Occurrence) : Network := os.foldl visit n

/-- The network of a document before its body. -/
def start (g : Graph) : Network :=
  { directed := g.directed
    strict := g.strict
    attributes := .ofList (g.id.map fun name => ("name".toList, name.text)).toList }

/-- Links are recorded and never looked at. -/
lemma unlinked_record (n : Network) (e : Event) :
    (n.record e).unlinked = if e.isUnlinked then n.unlinked.apply e else n.unlinked := by
  cases e <;> rfl

lemma unlinked_recordAll (n : Network) (events : List Event) :
    (n.recordAll events).unlinked = n.unlinked.applyAll (events.filter Event.isUnlinked) := by
  induction events generalizing n with
  | nil => rfl
  | cons e rest ih =>
    have hrest : (n.recordAll (e :: rest)).unlinked = _ := ih (n.record e)
    rw [hrest, unlinked_record]
    cases h : e.isUnlinked with
    | true => rw [List.filter_cons_of_pos h]; rfl
    | false => rw [List.filter_cons_of_neg (by simp [h])]; rfl

/-- Links apart, the network is what the items of the document make of it from left to right. -/
theorem unlinked_ofGraph (g : Graph) :
    (ofGraph g).unlinked = (start g).visitAll g.occurrences := by
  have hname : ((g.id.map fun name =>
      Event.graphAttributes [("name".toList, name.text)]).toList.filter Event.isUnlinked) =
        (g.id.map fun name => Event.graphAttributes [("name".toList, name.text)]).toList := by
    cases g.id <;> rfl
  have hstart : (applyAll { directed := g.directed, strict := g.strict }
      (g.id.map fun name => Event.graphAttributes [("name".toList, name.text)]).toList) =
        start g := by
    rw [start]
    cases g.id <;> rfl
  rw [ofGraph_eq_recordAll, unlinked_recordAll, Graph.events, List.filter_append, hname,
    Statement.unlinked_eventsAll, applyAll, List.foldl_append, List.foldl_flatMap]
  exact congrArg (visitAll · g.occurrences) hstart

end Network

/-! ## What an item does -/

/-- The entry that a subgraph makes at its end, if it has a name. -/
def Subgraph.entry? (group : Subgraph) : Option (Text × List Text) :=
  group.id.map fun name => (name.text, group.collected)

namespace Occurrence

/-- The entry that an item makes among the named subgraphs. -/
def entry? (o : Occurrence) : Option (Text × List Text) := o.subgraph?.bind Subgraph.entry?

/-- What an item at the top of the document sets of the attributes of the graph. -/
def settings (o : Occurrence) : List (Text × Text) :=
  match o.item, o.around with
  | .assign a, [] => [a.pair]
  | .defaults .graph attrs, [] => Attribute.pairs attrs
  | _, _ => []

/-- What an item sets of the default attributes of a target. -/
def defaults (target : Target) (o : Occurrence) : List (Text × Text) :=
  match o.item with
  | .defaults t attrs => if t = target then Attribute.pairs attrs else []
  | _ => []

end Occurrence

namespace Network

/-- What an item does to a network, its nodes apart. -/
lemma visit_eq (n : Network) (o : Occurrence) :
    n.visit o =
      { n with
        nodes := (n.visit o).nodes
        groups := o.entry?.elim n.groups fun entry => n.groups ++ [entry]
        attributes := n.attributes.setAll o.settings
        nodeDefaults := n.nodeDefaults.setAll (o.defaults .node)
        edgeDefaults := n.edgeDefaults.setAll (o.defaults .edge) } := by
  obtain ⟨item, around⟩ := o
  cases item with
  | node s => rfl
  | vertex id => rfl
  | assign a => cases around <;> rfl
  | defaults target attrs => cases target <;> cases around <;> rfl
  | subgraph group =>
    obtain ⟨id, body⟩ := group
    cases id <;> rfl

/-- Only a reference to a node changes the nodes. -/
lemma nodes_visit {o : Occurrence} (h : o.reference? = none) (n : Network) :
    (n.visit o).nodes = n.nodes := by
  obtain ⟨item, around⟩ := o
  cases item with
  | node s => cases h
  | vertex id => cases h
  | assign a => cases around <;> rfl
  | defaults target attrs => cases target <;> cases around <;> rfl
  | subgraph group =>
    obtain ⟨id, body⟩ := group
    cases id <;> rfl

lemma groups_visitAll (n : Network) (os : List Occurrence) :
    (n.visitAll os).groups = n.groups ++ os.filterMap Occurrence.entry? := by
  induction os generalizing n with
  | nil => simp [visitAll]
  | cons o rest ih =>
    have hstep : (n.visit o).groups = _ := congrArg Network.groups (visit_eq n o)
    have hrest : (n.visitAll (o :: rest)).groups = _ := ih (n.visit o)
    rw [hrest, hstep]
    cases h : o.entry? <;> simp [h]

/-- What each item sets in a dictionary is set by all of them in order. -/
lemma setAll_visitAll {field : Network → Dictionary Text} {f : Occurrence → List (Text × Text)}
    (hstep : ∀ n o, field (n.visit o) = (field n).setAll (f o)) (n : Network)
    (os : List Occurrence) : field (n.visitAll os) = (field n).setAll (os.flatMap f) := by
  induction os generalizing n with
  | nil => rfl
  | cons o rest ih =>
    have hrest : field (n.visitAll (o :: rest)) = _ := ih (n.visit o)
    rw [hrest, hstep, List.flatMap_cons, Dictionary.setAll_append]

end Network

end DotNotation
