/-
# The links that a document asks for

An edge statement may stand at any depth of a document, also inside a subgraph that is itself
a vertex of a chain.  A hop of it is a pair of consecutive vertices of its chain, and it asks
for one link between every node of the first vertex and every node of the second.

The links of the network arise while the document is read from left to right, those of the
inner statements of a vertex before those of the hop that leads to it.  `Graph.links_perm`
says that these are nevertheless the links of the hops, each statement taken once and for
itself.  `Network.closed_ofGraph` places the ends of the links among the nodes, and
`Link.get?_dataOf` says what data a link carries.
-/
import DotNotation.Proofs.Network.Linking
import Mathlib.Data.List.ProdSigma

namespace DotNotation

/-! ## Edge statements, hops and crossings -/

/-- An edge statement. -/
structure EdgeStatement where
  /-- Its vertices. -/
  chain : List Vertex
  /-- Its attributes. -/
  attrs : List Attribute

mutual

/-- The edge statements inside a subgraph, at any depth. -/
def Subgraph.edges : Subgraph → List EdgeStatement
  | .mk _ body => Statement.edgesAll body

/-- A statement, if it is an edge statement, and the edge statements inside it. -/
def Statement.edges : Statement → List EdgeStatement
  | .node _ _ => []
  | .edge chain attrs => ⟨chain, attrs⟩ :: Vertex.edgesAll chain
  | .subgraph group => group.edges
  | .assign _ => []
  | .defaults _ _ => []

/-- The edge statements of a body, at any depth. -/
def Statement.edgesAll : List Statement → List EdgeStatement
  | [] => []
  | s :: rest => s.edges ++ Statement.edgesAll rest

/-- The edge statements inside a vertex. -/
def Vertex.edges : Vertex → List EdgeStatement
  | .node _ => []
  | .subgraph group => group.edges

/-- The edge statements inside the vertices of a chain. -/
def Vertex.edgesAll : List Vertex → List EdgeStatement
  | [] => []
  | v :: rest => v.edges ++ Vertex.edgesAll rest

end

/-- Two consecutive vertices of an edge statement, with its attributes. -/
structure Hop where
  /-- The attributes of the statement. -/
  attrs : List Attribute
  /-- The vertex where the hop starts. -/
  tail : Vertex
  /-- The vertex where it ends. -/
  head : Vertex

/-- The hops of an edge statement. -/
def EdgeStatement.hops (e : EdgeStatement) : List Hop :=
  (e.chain.zip e.chain.tail).map fun (u, v) => ⟨e.attrs, u, v⟩

/-- The hops of a document. -/
def Graph.hops (g : Graph) : List Hop := (Statement.edgesAll g.body).flatMap EdgeStatement.hops

/-- What a hop says about a key: the last value that the attributes give it, else the port of
an end under its own key. -/
def Hop.value (h : Hop) (key : Text) : Option Text :=
  ((h.attrs.reverse.find? (·.key.text == key)).map (·.value.text)).or
    (if key = "tailport".toList then h.tail.portText
    else if key = "headport".toList then h.head.portText
    else none)

/-- A link that a hop asks for. -/
structure Crossing where
  /-- The hop. -/
  hop : Hop
  /-- A node of its tail. -/
  tail : Text
  /-- A node of its head. -/
  head : Text

/-- The links that a hop asks for: one for each of the distinct nodes mentioned in its tail
and each of those mentioned in its head. -/
def Hop.crossings (h : Hop) : List Crossing :=
  (h.tail.mentions.dedup ×ˢ h.head.mentions.dedup).map fun (u, v) => ⟨h, u, v⟩

/-- The links that a document asks for. -/
def Graph.crossings (g : Graph) : List Crossing := g.hops.flatMap Hop.crossings

/-! ## The data of a link -/

lemma Dictionary.get?_setDefault? (d : Dictionary Text) (key other : Text)
    (value : Option Text) :
    (d.setDefault? key value).get? other =
      (d.get? other).or (if other = key then value else none) := by
  cases value with
  | none => simp [Dictionary.setDefault?]
  | some value => exact d.get?_setDefault key other value

lemma Dictionary.nodup_keys_setDefault? {d : Dictionary Text} (h : d.keys.Nodup) (key : Text)
    (value : Option Text) : (d.setDefault? key value).keys.Nodup := by
  cases value with
  | none => exact h
  | some value => exact Dictionary.nodup_keys_setDefault h key value

lemma Attribute.lookup_pairs (attrs : List Attribute) (key : Text) :
    (Attribute.pairs attrs).lookup key =
      (attrs.find? (·.key.text == key)).map (·.value.text) := by
  induction attrs with
  | nil => rfl
  | cons a rest ih =>
    have hpairs : Attribute.pairs (a :: rest) =
        (a.key.text, a.value.text) :: Attribute.pairs rest := rfl
    by_cases h : key = a.key.text
    · simp [hpairs, h]
    · have hne : (a.key.text == key) = false := by simpa using fun heq => h heq.symm
      rw [hpairs, Dictionary.lookup_cons_of_ne h, ih, List.find?_cons_of_neg (by simp [hne])]

/-- The data of a link under any key. -/
theorem Link.get?_dataOf (h : Hop) (key : Text) :
    (Link.dataOf h.attrs h.tail h.head).get? key = h.value key := by
  have hpairs : (Attribute.pairs h.attrs).reverse = Attribute.pairs h.attrs.reverse := by
    simp [Attribute.pairs]
  rw [Link.dataOf, Dictionary.get?_setDefault?, Dictionary.get?_setDefault?,
    Dictionary.get?_ofList, hpairs, Attribute.lookup_pairs, Option.or_assoc, Hop.value]
  congr 1
  by_cases htail : key = "tailport".toList
  · have hhead : key ≠ "headport".toList := by
      rw [htail]
      decide
    rw [if_pos htail, if_pos htail, if_neg hhead, Option.or_none]
  · rw [if_neg htail, if_neg htail, Option.none_or]

lemma Link.nodup_keys_dataOf (attrs : List Attribute) (tail head : Vertex) :
    (Link.dataOf attrs tail head).keys.Nodup :=
  Dictionary.nodup_keys_setDefault?
    (Dictionary.nodup_keys_setDefault? (Dictionary.nodup_keys_ofList _) _ _) _ _

/-! ## The links of a chain -/

/-- The link of a crossing. -/
def Crossing.link (c : Crossing) : Link :=
  ⟨c.tail, c.head, Link.dataOf c.hop.attrs c.hop.tail c.hop.head⟩

/-- The links of a hop in the order in which they arise. -/
def Hop.links (h : Hop) : List Link := Link.step h.attrs h.tail h.head

/-- The links of an edge statement without those inside its vertices. -/
def EdgeStatement.links (e : EdgeStatement) : List Link := e.hops.flatMap Hop.links

lemma EdgeStatement.links_cons_cons (attrs : List Attribute) (u v : Vertex)
    (rest : List Vertex) :
    EdgeStatement.links ⟨u :: v :: rest, attrs⟩ =
      Link.step attrs u v ++ EdgeStatement.links ⟨v :: rest, attrs⟩ := by
  simp [EdgeStatement.links, EdgeStatement.hops, Hop.links]

lemma EdgeStatement.links_singleton (attrs : List Attribute) (v : Vertex) :
    EdgeStatement.links ⟨[v], attrs⟩ = [] := rfl

/-- A hop asks for the links that it makes. -/
lemma Hop.crossings_perm (h : Hop) : (h.crossings.map Crossing.link).Perm h.links := by
  have htail : h.tail.endpoints.Perm h.tail.mentions.dedup :=
    h.tail.endpoints_eq ▸ Text.distinct_perm_dedup h.tail.mentions
  have hhead : h.head.endpoints.Perm h.head.mentions.dedup :=
    h.head.endpoints_eq ▸ Text.distinct_perm_dedup h.head.mentions
  have hlinks : h.crossings.map Crossing.link =
      h.tail.mentions.dedup.flatMap fun u => h.head.mentions.dedup.map fun v =>
        ⟨u, v, Link.dataOf h.attrs h.tail h.head⟩ := by
    simp only [Hop.crossings, SProd.sprod, List.product, List.map_flatMap, List.map_map]
    rfl
  rw [hlinks]
  exact (List.Perm.flatMap htail fun u _ => hhead.map _).symm

lemma Graph.crossings_perm (g : Graph) :
    (g.crossings.map Crossing.link).Perm (g.hops.flatMap Hop.links) := by
  rw [Graph.crossings, List.map_flatMap]
  exact List.Perm.flatMap_left _ fun h _ => h.crossings_perm

/-! ## The links of a document -/

lemma Event.filterMap_link?_links (links : List Link) :
    (links.map Event.link).filterMap Event.link? = links := by
  rw [List.filterMap_map]
  exact List.filterMap_some

lemma Event.link?_closing (id : Option Id) (members : List Text) :
    (Event.closing id members).filterMap Event.link? = [] := by
  cases id <;> rfl

mutual

lemma Subgraph.links_events (owner : Option Text) : ∀ group : Subgraph,
    ((group.events owner).filterMap Event.link?).Perm (group.edges.flatMap EdgeStatement.links)
  | .mk id body => by
    rw [Subgraph.events, Subgraph.edges, List.filterMap_append, Event.link?_closing,
      List.append_nil]
    exact Statement.links_eventsAll _ _ body

lemma Statement.links_events (owner : Option Text) (top : Bool) : ∀ s : Statement,
    ((s.events owner top).filterMap Event.link?).Perm (s.edges.flatMap EdgeStatement.links)
  | .node id attrs => by simp [Statement.events, Statement.edges, Event.link?]
  | .edge chain attrs => by
    rw [Statement.events, Statement.edges, List.flatMap_cons]
    exact Vertex.links_eventsAll owner attrs none chain
  | .subgraph group => by
    rw [Statement.events, Statement.edges]
    exact Subgraph.links_events owner group
  | .assign a => by
    cases top <;> simp [Statement.events, Statement.edges, Event.link?]
  | .defaults target attrs => by
    cases target <;> cases top <;> simp [Statement.events, Statement.edges, Event.link?]

lemma Statement.links_eventsAll (owner : Option Text) (top : Bool) : ∀ body : List Statement,
    ((Statement.eventsAll owner top body).filterMap Event.link?).Perm
      ((Statement.edgesAll body).flatMap EdgeStatement.links)
  | [] => by simp [Statement.eventsAll, Statement.edgesAll]
  | s :: rest => by
    rw [Statement.eventsAll, Statement.edgesAll, List.filterMap_append, List.flatMap_append]
    exact (Statement.links_events owner top s).append (Statement.links_eventsAll owner top rest)

lemma Vertex.links_events (owner : Option Text) : ∀ v : Vertex,
    ((v.events owner).filterMap Event.link?).Perm (v.edges.flatMap EdgeStatement.links)
  | .node id => by simp [Vertex.events, Vertex.edges, Event.link?]
  | .subgraph group => by
    rw [Vertex.events, Vertex.edges]
    exact Subgraph.links_events owner group

/-- The links of a chain behind a vertex are those of its hops and those inside its vertices. -/
lemma Vertex.links_eventsAll (owner : Option Text) (attrs : List Attribute)
    (before : Option Vertex) : ∀ chain : List Vertex,
    ((Vertex.eventsAll owner attrs before chain).filterMap Event.link?).Perm
      (EdgeStatement.links ⟨before.toList ++ chain, attrs⟩ ++
        (Vertex.edgesAll chain).flatMap EdgeStatement.links)
  | [] => by
    cases before with
    | none => simp [Vertex.eventsAll, Vertex.edgesAll, EdgeStatement.links, EdgeStatement.hops]
    | some u => simp [Vertex.eventsAll, Vertex.edgesAll, EdgeStatement.links_singleton]
  | v :: rest => by
    -- the links inside `v` arise before the hop to it, and the counts forget this order
    have hinner := (Vertex.links_events owner v).count_eq
    have hrest := (Vertex.links_eventsAll owner attrs (some v) rest).count_eq
    rw [Vertex.eventsAll, Vertex.edgesAll, List.perm_iff_count]
    intro l
    have hin := hinner l
    have hre := hrest l
    cases before with
    | none =>
      simp only [Option.map_none, Option.getD_none, List.append_nil, Option.toList_none,
        Option.toList_some, List.nil_append, List.singleton_append, List.filterMap_append,
        List.flatMap_append, List.count_append] at hre ⊢
      omega
    | some u =>
      simp only [Option.map_some, Option.getD_some, Option.toList_some, List.cons_append,
        List.nil_append, EdgeStatement.links_cons_cons, List.filterMap_append,
        Event.filterMap_link?_links, List.flatMap_append, List.count_append] at hre ⊢
      omega

end

/-! ## The network of a document -/

namespace Network

lemma links_apply (n : Network) (e : Event) : (n.apply e).links = n.links ++ e.link?.toList := by
  cases e <;> simp [apply, Event.link?]

lemma directed_apply (n : Network) (e : Event) : (n.apply e).directed = n.directed := by
  cases e <;> rfl

lemma nodup_nodeNames_record {n : Network} (h : n.nodeNames.Nodup) (e : Event) :
    (n.record e).nodeNames.Nodup := by
  rw [nodeNames_record]
  cases e.node? with
  | none => exact h
  | some name =>
    by_cases hname : name ∈ n.nodeNames
    · simpa [hname] using h
    · simpa [hname] using List.Nodup.concat hname h

lemma links_applyAll (n : Network) (events : List Event) :
    (n.applyAll events).links = n.links ++ events.filterMap Event.link? := by
  induction events generalizing n with
  | nil => simp [applyAll]
  | cons e rest ih =>
    have hrest : (n.applyAll (e :: rest)).links = _ := ih (n.apply e)
    rw [hrest, links_apply, List.append_assoc]
    cases h : e.link? with
    | none => simp [h]
    | some l => simp [h]

lemma directed_applyAll (n : Network) (events : List Event) :
    (n.applyAll events).directed = n.directed := by
  induction events generalizing n with
  | nil => rfl
  | cons e rest ih => exact (ih (n.apply e)).trans (directed_apply n e)

lemma mem_nodeNames_recordAll (n : Network) (events : List Event) (t : Text) :
    t ∈ (n.recordAll events).nodeNames ↔
      t ∈ n.nodeNames ∨ t ∈ events.filterMap Event.node? := by
  induction events generalizing n with
  | nil => simp [recordAll]
  | cons e rest ih =>
    have hrest : t ∈ (n.recordAll (e :: rest)).nodeNames ↔ _ := ih (n.record e)
    rw [hrest, mem_nodeNames_record, or_assoc]
    cases h : e.node? with
    | none => simp [h]
    | some name => simp [h, eq_comm]

lemma nodup_nodeNames_recordAll {n : Network} (h : n.nodeNames.Nodup) (events : List Event) :
    (n.recordAll events).nodeNames.Nodup := by
  induction events generalizing n with
  | nil => exact h
  | cons e rest ih => exact ih (nodup_nodeNames_record h e)

lemma nodup_nodeNames_ofGraph (g : Graph) : (ofGraph g).nodeNames.Nodup := by
  have hstart : (nodeNames { directed := g.directed, strict := g.strict }).Nodup :=
    List.nodup_nil
  rw [ofGraph_eq_recordAll]
  exact nodup_nodeNames_recordAll hstart g.events

@[simp] lemma directed_ofGraph (g : Graph) : (ofGraph g).directed = g.directed :=
  directed_applyAll _ g.events

lemma links_ofGraph (g : Graph) : (ofGraph g).links = g.events.filterMap Event.link? :=
  links_applyAll _ g.events

/-- The nodes of the network are those that the document mentions. -/
theorem mem_nodeNames_ofGraph (g : Graph) (t : Text) :
    t ∈ (ofGraph g).nodeNames ↔ t ∈ Statement.mentionsAll g.body := by
  have hempty : t ∉ nodeNames { directed := g.directed, strict := g.strict } := by
    simp [nodeNames, Dictionary.keys, Dictionary.empty]
  rw [ofGraph_eq_recordAll, mem_nodeNames_recordAll, or_iff_right hempty,
    g.filterMap_events fun _ => rfl, Statement.nodes_eventsAll]

end Network

/-- The links of the network are those of the hops of the document. -/
theorem Graph.links_perm (g : Graph) :
    (Network.ofGraph g).links.Perm (g.hops.flatMap Hop.links) := by
  rw [Network.links_ofGraph, g.filterMap_events fun _ => rfl, Graph.hops, List.flatMap_assoc]
  exact Statement.links_eventsAll none true g.body

/-! ## The ends of the links -/

lemma Vertex.mem_mentionsAll {t : Text} {v : Vertex} {chain : List Vertex} (hv : v ∈ chain)
    (ht : t ∈ v.mentions) : t ∈ Vertex.mentionsAll chain := by
  induction chain with
  | nil => simp at hv
  | cons first rest ih =>
    rw [Vertex.mentionsAll, List.mem_append]
    rcases List.mem_cons.mp hv with rfl | hv
    · exact .inl ht
    · exact .inr (ih hv)

mutual

lemma Subgraph.mem_mentions_of_edges {t : Text} {e : EdgeStatement}
    (ht : t ∈ Vertex.mentionsAll e.chain) : ∀ {group : Subgraph}, e ∈ group.edges →
      t ∈ group.mentions
  | .mk id body, h => by
    rw [Subgraph.edges] at h
    rw [Subgraph.mentions]
    exact Statement.mem_mentionsAll_of_edges ht h

lemma Statement.mem_mentions_of_edges {t : Text} {e : EdgeStatement}
    (ht : t ∈ Vertex.mentionsAll e.chain) : ∀ {s : Statement}, e ∈ s.edges → t ∈ s.mentions
  | .node id attrs, h => by simp [Statement.edges] at h
  | .edge chain attrs, h => by
    rw [Statement.edges, List.mem_cons] at h
    rw [Statement.mentions]
    rcases h with rfl | h
    · exact ht
    · exact Vertex.mem_mentionsAll_of_edges ht h
  | .subgraph group, h => by
    rw [Statement.edges] at h
    rw [Statement.mentions]
    exact Subgraph.mem_mentions_of_edges ht h
  | .assign a, h => by simp [Statement.edges] at h
  | .defaults target attrs, h => by simp [Statement.edges] at h

lemma Statement.mem_mentionsAll_of_edges {t : Text} {e : EdgeStatement}
    (ht : t ∈ Vertex.mentionsAll e.chain) : ∀ {body : List Statement},
      e ∈ Statement.edgesAll body → t ∈ Statement.mentionsAll body
  | [], h => by simp [Statement.edgesAll] at h
  | s :: rest, h => by
    rw [Statement.edgesAll, List.mem_append] at h
    rw [Statement.mentionsAll, List.mem_append]
    rcases h with h | h
    · exact .inl (Statement.mem_mentions_of_edges ht h)
    · exact .inr (Statement.mem_mentionsAll_of_edges ht h)

lemma Vertex.mem_mentions_of_edges {t : Text} {e : EdgeStatement}
    (ht : t ∈ Vertex.mentionsAll e.chain) : ∀ {v : Vertex}, e ∈ v.edges → t ∈ v.mentions
  | .node id, h => by simp [Vertex.edges] at h
  | .subgraph group, h => by
    rw [Vertex.edges] at h
    rw [Vertex.mentions]
    exact Subgraph.mem_mentions_of_edges ht h

lemma Vertex.mem_mentionsAll_of_edges {t : Text} {e : EdgeStatement}
    (ht : t ∈ Vertex.mentionsAll e.chain) : ∀ {chain : List Vertex},
      e ∈ Vertex.edgesAll chain → t ∈ Vertex.mentionsAll chain
  | [], h => by simp [Vertex.edgesAll] at h
  | v :: rest, h => by
    rw [Vertex.edgesAll, List.mem_append] at h
    rw [Vertex.mentionsAll, List.mem_append]
    rcases h with h | h
    · exact .inl (Vertex.mem_mentions_of_edges ht h)
    · exact .inr (Vertex.mem_mentionsAll_of_edges ht h)

end

lemma Hop.ends_mem_mentions {e : EdgeStatement} {h : Hop} (hh : h ∈ e.hops) {l : Link}
    (hl : l ∈ h.links) :
    l.tail ∈ Vertex.mentionsAll e.chain ∧ l.head ∈ Vertex.mentionsAll e.chain := by
  obtain ⟨⟨u, v⟩, huv, rfl⟩ := List.mem_map.mp hh
  obtain ⟨hu, hv⟩ := List.of_mem_zip huv
  obtain ⟨htail, hhead⟩ := Link.mem_endpoints_of_step hl
  exact ⟨Vertex.mem_mentionsAll hu (Vertex.mem_mentions_of_endpoints htail),
    Vertex.mem_mentionsAll (List.mem_of_mem_tail hv) (Vertex.mem_mentions_of_endpoints hhead)⟩

/-- Each node stands once among the nodes, and links lead from nodes to nodes. -/
structure Network.Closed (n : Network) : Prop where
  nodup : n.nodeNames.Nodup
  tail_mem : ∀ l ∈ n.links, l.tail ∈ n.nodeNames
  head_mem : ∀ l ∈ n.links, l.head ∈ n.nodeNames

theorem Network.closed_ofGraph (g : Graph) : (Network.ofGraph g).Closed := by
  have hends : ∀ l ∈ (Network.ofGraph g).links,
      l.tail ∈ (Network.ofGraph g).nodeNames ∧ l.head ∈ (Network.ofGraph g).nodeNames := by
    intro l hl
    obtain ⟨h, hh, hl⟩ := List.mem_flatMap.mp (g.links_perm.mem_iff.mp hl)
    obtain ⟨e, he, hh⟩ := List.mem_flatMap.mp hh
    obtain ⟨htail, hhead⟩ := Hop.ends_mem_mentions hh hl
    rw [Network.mem_nodeNames_ofGraph, Network.mem_nodeNames_ofGraph]
    exact ⟨Statement.mem_mentionsAll_of_edges htail he,
      Statement.mem_mentionsAll_of_edges hhead he⟩
  exact ⟨Network.nodup_nodeNames_ofGraph g, fun l hl => (hends l hl).1, fun l hl => (hends l hl).2⟩

end DotNotation
