/-
# Links lead between nodes that are there

A network takes a link together with the nodes at its ends, whether they are there or not.  In the
network of a document they always are: a vertex is visited before anything is linked to it, so its
nodes were mentioned by then.  `Event.Linked` says this of a list of events, and it holds of the
events of each part of a document (`Statement.linked_eventsAll`).

So a link changes the links and nothing else, and `Network.ofGraph_eq_recordAll` gives the network
of a document in these simpler steps.
-/
import DotNotation.Proofs.Network.Members

namespace DotNotation

/-! ## The nodes of events -/

/-- The link of an event. -/
def Event.link? : Event → Option Link
  | .link l => some l
  | _ => none

/-- The node that an event mentions. -/
def Event.node? : Event → Option Text
  | .node name _ => some name
  | _ => none

lemma Event.filterMap_node?_links (links : List Link) :
    (links.map Event.link).filterMap Event.node? = [] := by
  simp [List.filterMap_eq_nil_iff, Event.node?]

lemma Event.node?_closing (id : Option Id) (members : List Text) :
    (Event.closing id members).filterMap Event.node? = [] := by
  cases id <;> rfl

mutual

lemma Subgraph.nodes_events (owner : Option Text) : ∀ group : Subgraph,
    (group.events owner).filterMap Event.node? = group.mentions
  | .mk id body => by
    rw [Subgraph.events, Subgraph.mentions, List.filterMap_append, Event.node?_closing,
      List.append_nil]
    exact Statement.nodes_eventsAll _ _ body

lemma Statement.nodes_events (owner : Option Text) (top : Bool) : ∀ s : Statement,
    (s.events owner top).filterMap Event.node? = s.mentions
  | .node id attrs => by simp [Statement.events, Statement.mentions, Event.node?]
  | .edge chain attrs => by
    rw [Statement.events, Statement.mentions]
    exact Vertex.nodes_eventsAll owner attrs none chain
  | .subgraph group => by
    rw [Statement.events, Statement.mentions]
    exact Subgraph.nodes_events owner group
  | .assign a => by
    cases top <;> simp [Statement.events, Statement.mentions, Event.node?]
  | .defaults target attrs => by
    cases target <;> cases top <;> simp [Statement.events, Statement.mentions, Event.node?]

lemma Statement.nodes_eventsAll (owner : Option Text) (top : Bool) : ∀ body : List Statement,
    (Statement.eventsAll owner top body).filterMap Event.node? = Statement.mentionsAll body
  | [] => by simp [Statement.eventsAll, Statement.mentionsAll]
  | s :: rest => by
    rw [Statement.eventsAll, Statement.mentionsAll, List.filterMap_append,
      Statement.nodes_events owner top s, Statement.nodes_eventsAll owner top rest]

lemma Vertex.nodes_events (owner : Option Text) : ∀ v : Vertex,
    (v.events owner).filterMap Event.node? = v.mentions
  | .node id => by simp [Vertex.events, Vertex.mentions, Event.node?]
  | .subgraph group => by
    rw [Vertex.events, Vertex.mentions]
    exact Subgraph.nodes_events owner group

lemma Vertex.nodes_eventsAll (owner : Option Text) (attrs : List Attribute)
    (before : Option Vertex) : ∀ chain : List Vertex,
    (Vertex.eventsAll owner attrs before chain).filterMap Event.node? =
      Vertex.mentionsAll chain
  | [] => by simp [Vertex.eventsAll, Vertex.mentionsAll]
  | v :: rest => by
    have hstep : ((before.map fun u => (Link.step attrs u v).map Event.link).getD []).filterMap
        Event.node? = [] := by
      cases before with
      | none => rfl
      | some u => exact Event.filterMap_node?_links _
    rw [Vertex.eventsAll, Vertex.mentionsAll, List.filterMap_append, List.filterMap_append,
      hstep, List.append_nil, Vertex.nodes_events owner v,
      Vertex.nodes_eventsAll owner attrs (some v) rest]

end

/-- Apart from attributes the events of a document are those of its body. -/
lemma Graph.filterMap_events {α : Type} {f : Event → Option α} (g : Graph)
    (hf : ∀ pairs, f (.graphAttributes pairs) = none) :
    g.events.filterMap f = (Statement.eventsAll none true g.body).filterMap f := by
  have hname : (g.id.map fun name =>
      Event.graphAttributes [("name".toList, name.text)]).toList.filterMap f = [] := by
    cases g.id with
    | none => rfl
    | some name => simp [hf]
  rw [Graph.events, List.filterMap_append, hname, List.nil_append]

/-! ## The ends of links -/

/-- In a list of events every link leads between nodes that are known or mentioned before it. -/
def Event.Linked (known : List Text) : List Event → Prop
  | [] => True
  | e :: rest =>
    (∀ l, e.link? = some l → l.tail ∈ known ∧ l.head ∈ known) ∧
      Event.Linked (known ++ e.node?.toList) rest

namespace Event

variable {known : List Text}

lemma linked_append {events more : List Event} (h : Linked known events)
    (hmore : Linked (known ++ events.filterMap node?) more) : Linked known (events ++ more) := by
  induction events generalizing known with
  | nil => simpa using hmore
  | cons e rest ih =>
    refine ⟨h.1, ih h.2 ?_⟩
    cases hnode : e.node? with
    | none => simpa [hnode] using hmore
    | some name => simpa [hnode] using hmore

lemma linked_of_no_links {events : List Event} (h : ∀ e ∈ events, e.link? = none) :
    Linked known events := by
  induction events generalizing known with
  | nil => trivial
  | cons e rest ih =>
    refine ⟨fun l hl => ?_, ih fun e he => h e (List.mem_cons_of_mem _ he)⟩
    rw [h e List.mem_cons_self] at hl
    cases hl

lemma linked_links {links : List Link} (h : ∀ l ∈ links, l.tail ∈ known ∧ l.head ∈ known) :
    Linked known (links.map link) := by
  induction links generalizing known with
  | nil => trivial
  | cons l rest ih =>
    refine ⟨fun m hm => ?_, ih fun m hm => ?_⟩
    · obtain rfl : l = m := Option.some.inj hm
      exact h l List.mem_cons_self
    · simpa [node?] using h m (List.mem_cons_of_mem _ hm)

lemma linked_closing (id : Option Id) (members : List Text) :
    Linked known (closing id members) := by
  refine linked_of_no_links fun e he => ?_
  cases id with
  | none => cases he
  | some name =>
    obtain rfl : e = .close name.text members := List.mem_singleton.mp he
    rfl

end Event

/-- The ends of the links of a step are nodes of the two vertices. -/
lemma Link.mem_endpoints_of_step {attrs : List Attribute} {u v : Vertex} {l : Link}
    (h : l ∈ Link.step attrs u v) : l.tail ∈ u.endpoints ∧ l.head ∈ v.endpoints := by
  obtain ⟨a, ha, h⟩ := List.mem_flatMap.mp h
  obtain ⟨b, hb, rfl⟩ := List.mem_map.mp h
  exact ⟨ha, hb⟩

lemma Vertex.mem_mentions_of_endpoints {v : Vertex} {t : Text} (h : t ∈ v.endpoints) :
    t ∈ v.mentions := by
  rw [Vertex.endpoints_eq, Vertex.members] at h
  exact Text.mem_distinct.mp h

mutual

lemma Subgraph.linked_events (known : List Text) (owner : Option Text) : ∀ group : Subgraph,
    Event.Linked known (group.events owner)
  | .mk id body => by
    rw [Subgraph.events]
    exact Event.linked_append (Statement.linked_eventsAll known _ _ body)
      (Event.linked_closing id _)

lemma Statement.linked_events (known : List Text) (owner : Option Text) (top : Bool) :
    ∀ s : Statement, Event.Linked known (s.events owner top)
  | .node id attrs => by
    rw [Statement.events]
    exact Event.linked_of_no_links (by simp [Event.link?])
  | .edge chain attrs => by
    rw [Statement.events]
    exact Vertex.linked_eventsAll known owner attrs none (by simp) chain
  | .subgraph group => by
    rw [Statement.events]
    exact Subgraph.linked_events known owner group
  | .assign a => by
    rw [Statement.events]
    cases top <;> exact Event.linked_of_no_links (by simp [Event.link?])
  | .defaults target attrs => by
    cases target <;> cases top <;>
      exact Event.linked_of_no_links (by simp [Statement.events, Event.link?])

lemma Statement.linked_eventsAll (known : List Text) (owner : Option Text) (top : Bool) :
    ∀ body : List Statement, Event.Linked known (Statement.eventsAll owner top body)
  | [] => by
    rw [Statement.eventsAll]
    trivial
  | s :: rest => by
    rw [Statement.eventsAll]
    exact Event.linked_append (Statement.linked_events known owner top s)
      (Statement.linked_eventsAll _ owner top rest)

lemma Vertex.linked_events (known : List Text) (owner : Option Text) : ∀ v : Vertex,
    Event.Linked known (v.events owner)
  | .node id => by
    rw [Vertex.events]
    exact Event.linked_of_no_links (by simp [Event.link?])
  | .subgraph group => by
    rw [Vertex.events]
    exact Subgraph.linked_events known owner group

/-- A chain goes on from a vertex whose nodes are known. -/
lemma Vertex.linked_eventsAll (known : List Text) (owner : Option Text) (attrs : List Attribute)
    (before : Option Vertex) (hbefore : ∀ u ∈ before, ∀ t ∈ u.endpoints, t ∈ known) :
    ∀ chain : List Vertex, Event.Linked known (Vertex.eventsAll owner attrs before chain)
  | [] => by
    rw [Vertex.eventsAll]
    trivial
  | v :: rest => by
    have hhead : ∀ t ∈ v.endpoints, t ∈ known ++ (v.events owner).filterMap Event.node? := by
      intro t ht
      rw [Vertex.nodes_events]
      exact List.mem_append_right _ (Vertex.mem_mentions_of_endpoints ht)
    have hstep : Event.Linked (known ++ (v.events owner).filterMap Event.node?)
        ((before.map fun u => (Link.step attrs u v).map Event.link).getD []) := by
      cases before with
      | none => trivial
      | some u =>
        refine Event.linked_links fun l hl => ?_
        obtain ⟨htail, hhead'⟩ := Link.mem_endpoints_of_step hl
        exact ⟨List.mem_append_left _ (hbefore u rfl l.tail htail), hhead l.head hhead'⟩
    have hvisited := Event.linked_append (Vertex.linked_events known owner v) hstep
    rw [Vertex.eventsAll]
    refine Event.linked_append hvisited (Vertex.linked_eventsAll _ owner attrs (some v) ?_ rest)
    intro u hu t ht
    obtain rfl : v = u := Option.some.inj hu
    rw [List.filterMap_append]
    rcases List.mem_append.mp (hhead t ht) with h | h
    · exact List.mem_append_left _ h
    · exact List.mem_append_right _ (List.mem_append_left _ h)

end

lemma Graph.linked_events (g : Graph) : Event.Linked [] g.events := by
  refine Event.linked_append (Event.linked_of_no_links fun e he => ?_)
    (Statement.linked_eventsAll _ none true g.body)
  obtain ⟨name, -, rfl⟩ := Option.map_eq_some_iff.mp (Option.mem_toList.mp he)
  rfl

/-! ## Links that change no node -/

lemma Dictionary.setDefault_of_mem {α : Type} {d : Dictionary α} {key : Text}
    (h : key ∈ d.keys) (value : α) : d.setDefault key value = d := by
  rw [setDefault, if_pos ((contains_iff_mem_keys d key).mpr h)]

namespace Network

/-- The network after an event, where the nodes at the ends of a link are left as they are. -/
def record (n : Network) : Event → Network
  | .link l => { n with links := n.links ++ [l] }
  | e => n.apply e

/-- The network after a list of events, where links leave the nodes as they are. -/
def recordAll (n : Network) (events : List Event) : Network := events.foldl record n

/-- An event that mentions a node puts it at the end unless it is there, and no other event
changes the nodes. -/
lemma nodeNames_record (n : Network) (e : Event) :
    (n.record e).nodeNames =
      e.node?.elim n.nodeNames fun name =>
        if name ∈ n.nodeNames then n.nodeNames else n.nodeNames ++ [name] := by
  cases e with
  | node name owner =>
    show ((n.nodes.setDefault name .empty).modify name (mention owner)).keys = _
    rw [Dictionary.keys_modify, Dictionary.keys_setDefault]
    rfl
  | nodeAttributes name pairs => exact Dictionary.keys_modify n.nodes name _
  | _ => rfl

lemma mem_nodeNames_record (n : Network) (e : Event) (t : Text) :
    t ∈ (n.record e).nodeNames ↔ t ∈ n.nodeNames ∨ e.node? = some t := by
  rw [nodeNames_record]
  cases e.node? with
  | none => simp
  | some name =>
    by_cases h : name ∈ n.nodeNames
    · have hold : name = t → t ∈ n.nodeNames := fun heq => heq ▸ h
      simpa [h] using hold
    · simp [h, eq_comm]

/-- A link between nodes that are there brings no node. -/
lemma apply_eq_record {n : Network} {e : Event}
    (h : ∀ l, e.link? = some l → l.tail ∈ n.nodeNames ∧ l.head ∈ n.nodeNames) :
    n.apply e = n.record e := by
  cases e with
  | link l =>
    obtain ⟨htail, hhead⟩ := h l rfl
    rw [apply, record, Dictionary.setDefault_of_mem htail, Dictionary.setDefault_of_mem hhead]
  | _ => rfl

lemma applyAll_eq_recordAll {n : Network} {known : List Text} {events : List Event}
    (hknown : ∀ t ∈ known, t ∈ n.nodeNames) (h : Event.Linked known events) :
    n.applyAll events = n.recordAll events := by
  induction events generalizing n known with
  | nil => rfl
  | cons e rest ih =>
    have hstep : n.apply e = n.record e := apply_eq_record fun l hl =>
      ⟨hknown _ (h.1 l hl).1, hknown _ (h.1 l hl).2⟩
    have hmore : ∀ t ∈ known ++ e.node?.toList, t ∈ (n.record e).nodeNames := by
      intro t ht
      rw [mem_nodeNames_record]
      exact (List.mem_append.mp ht).imp (hknown t) Option.mem_toList.mp
    calc n.applyAll (e :: rest)
        = (n.apply e).applyAll rest := rfl
      _ = (n.record e).applyAll rest := by rw [hstep]
      _ = (n.record e).recordAll rest := ih hmore h.2
      _ = n.recordAll (e :: rest) := rfl

/-- In the network of a document links change no node. -/
theorem ofGraph_eq_recordAll (g : Graph) :
    ofGraph g = recordAll { directed := g.directed, strict := g.strict } g.events :=
  applyAll_eq_recordAll (by simp) g.linked_events

end Network

end DotNotation
