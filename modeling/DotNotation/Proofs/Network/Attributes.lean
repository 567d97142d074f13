/-
# Attributes of a network

Attributes come from five kinds of statements at any depth, and a later value of a key replaces
an earlier one.  `Dictionary.Merges` says what it is to merge a list of pairs in this way.  The
attribute that names the subgraph of a node goes the other way: it is a default, set at every
mention inside a named subgraph and kept from the first.

`Network.attribute?_visitAll` follows one attribute of one node through a list of items: the last
node statement that gives it counts, else what was there before, else the default of the first
item that has one.  `Network.owner_ofGraph` and `Network.attributes_ofGraph` read this off for
the two sorts of attributes.
-/
import DotNotation.Proofs.Network.Mentions

namespace DotNotation

/-! ## Merges in which the last value counts -/

namespace Dictionary

/-- The last value of a key in a list of pairs. -/
def lastValue? (pairs : List (Text × Text)) (key : Text) : Option Text :=
  (pairs.filter fun pair => pair.1 = key).getLast?.map Prod.snd

/-- The dictionary is the merge of the pairs: each key has its last value, and the keys stand in
the order of first occurrence. -/
structure Merges (d : Dictionary Text) (pairs : List (Text × Text)) : Prop where
  keys : Text.ListsOnce d.keys (pairs.map Prod.fst)
  get?_eq : ∀ key, d.get? key = lastValue? pairs key

@[simp] lemma lastValue?_nil (key : Text) : lastValue? [] key = none := rfl

lemma lastValue?_append (pairs more : List (Text × Text)) (key : Text) :
    lastValue? (pairs ++ more) key = (lastValue? more key).or (lastValue? pairs key) := by
  rw [lastValue?, List.filter_append, List.getLast?_append, Option.map_or]
  rfl

lemma lastValue?_eq_none {pairs : List (Text × Text)} {key : Text}
    (h : ∀ pair ∈ pairs, pair.1 ≠ key) : lastValue? pairs key = none := by
  have hnil : (pairs.filter fun pair => pair.1 = key) = [] := by
    rw [List.filter_eq_nil_iff]
    intro pair hpair
    simpa using h pair hpair
  rw [lastValue?, hnil]
  rfl

lemma lookup_reverse (pairs : List (Text × Text)) (key : Text) :
    pairs.reverse.lookup key = lastValue? pairs key := by
  induction pairs with
  | nil => rfl
  | cons pair rest ih =>
    obtain ⟨k, v⟩ := pair
    have hsplit : lastValue? ((k, v) :: rest) key = _ := lastValue?_append [(k, v)] rest key
    rw [List.reverse_cons, List.lookup_append, ih, hsplit]
    by_cases h : k = key
    · simp [lastValue?, h]
    · have hne : key ≠ k := fun heq => h heq.symm
      simp [lastValue?, h, lookup_cons_of_ne hne]

lemma listsOnce_keys_setAll {d : Dictionary Text} {set : List Text}
    (h : Text.ListsOnce d.keys set) (pairs : List (Text × Text)) :
    Text.ListsOnce (d.setAll pairs).keys (set ++ pairs.map Prod.fst) := by
  induction pairs generalizing d set with
  | nil => simpa [setAll] using h
  | cons pair rest ih =>
    have hset : Text.ListsOnce (d.set pair.1 pair.2).keys (set ++ [pair.1]) := by
      rw [keys_set]
      exact h.concat pair.1
    have hrest : Text.ListsOnce (d.setAll (pair :: rest)).keys _ := ih hset
    simpa using hrest

theorem merges_ofList (pairs : List (Text × Text)) : (ofList pairs).Merges pairs := by
  have hempty : Text.ListsOnce (empty : Dictionary Text).keys [] := Text.listsOnce_nil
  refine ⟨listsOnce_keys_setAll hempty pairs, fun key => ?_⟩
  rw [get?_ofList, lookup_reverse]

end Dictionary

/-! ## What the items of a document set -/

@[simp] lemma Attribute.pairs_nil : Attribute.pairs [] = [] := rfl

lemma Attribute.pairs_append (attrs more : List Attribute) :
    Attribute.pairs (attrs ++ more) = Attribute.pairs attrs ++ Attribute.pairs more :=
  List.map_append

/-- What a statement sets of the attributes of its graph. -/
def Statement.settings : Statement → List (Text × Text)
  | .assign a => [a.pair]
  | .defaults .graph attrs => Attribute.pairs attrs
  | _ => []

/-- The attributes of a graph in the order in which they are set: its name, and what its own
statements set. -/
def Graph.settings (g : Graph) : List (Text × Text) :=
  (g.id.map fun name => ("name".toList, name.text)).toList ++ g.body.flatMap Statement.settings

namespace Occurrence

/-- The attributes that an item gives to a node. -/
def attributesOf (name : Text) (o : Occurrence) : List Attribute :=
  match o.item with
  | .node s => if s.id.id.text = name then s.attrs else []
  | _ => []

/-- Does the item refer to the node? -/
def refersTo (name : Text) (o : Occurrence) : Bool := o.reference?.any (·.id.text == name)

/-- Is there a named subgraph around the item? -/
def isGrouped (o : Occurrence) : Bool := o.around.any Option.isSome

/-- The nearest named subgraph around the item, if the item refers to the node. -/
def ownerOf? (name : Text) (o : Occurrence) : Option Text :=
  if o.refersTo name then o.nearest? else none

lemma isSome_nearest? (o : Occurrence) : o.nearest?.isSome = o.isGrouped := by
  rw [nearest?, isGrouped, List.isSome_findSome?]
  simp only [Option.isSome_map]

end Occurrence

/-- The default attributes of a target in the order in which they are set, at any depth. -/
def Graph.defaults (g : Graph) (target : Target) : List (Text × Text) :=
  g.occurrences.flatMap (Occurrence.defaults target)

/-- The attributes of all node statements for a node, at any depth, from left to right. -/
def Graph.attributesOf (g : Graph) (name : Text) : List Attribute :=
  (g.nodeStatements.filter fun s => s.id.id.text = name).flatMap NodeStatement.attrs

lemma Graph.attributesOf_eq (g : Graph) (name : Text) :
    g.attributesOf name = g.occurrences.flatMap (Occurrence.attributesOf name) := by
  rw [Graph.attributesOf, Graph.nodeStatements]
  induction g.occurrences with
  | nil => rfl
  | cons o rest ih =>
    obtain ⟨item, around⟩ := o
    rw [List.flatMap_cons, ← ih]
    cases item with
    | node s =>
      by_cases h : s.id.id.text = name <;>
        simp [Occurrence.nodeStatement?, Occurrence.attributesOf, h]
    | _ => rfl

lemma Subgraph.settings_occurrences (group : Subgraph) :
    group.occurrences.flatMap Occurrence.settings = [] := by
  cases group with
  | mk id body =>
    rw [Subgraph.occurrences, List.flatMap_append, List.flatMap_map]
    simp [Occurrence.settings, Occurrence.inside]

lemma Vertex.settings_occurrencesAll (chain : List Vertex) :
    (Vertex.occurrencesAll chain).flatMap Occurrence.settings = [] := by
  induction chain with
  | nil => rfl
  | cons v rest ih =>
    rw [Vertex.occurrencesAll, List.flatMap_append, ih, List.append_nil]
    cases v with
    | node id => rfl
    | subgraph group => exact Subgraph.settings_occurrences group

/-- Nothing inside a subgraph sets attributes of the graph. -/
lemma Statement.settings_occurrences (s : Statement) :
    s.occurrences.flatMap Occurrence.settings = s.settings := by
  cases s with
  | node id attrs => rfl
  | edge chain attrs => exact Vertex.settings_occurrencesAll chain
  | subgraph group => exact Subgraph.settings_occurrences group
  | assign a => rfl
  | defaults target attrs =>
    cases target <;> simp [Statement.occurrences, Occurrence.settings, Statement.settings]

lemma Statement.settings_occurrencesAll (body : List Statement) :
    (Statement.occurrencesAll body).flatMap Occurrence.settings =
      body.flatMap Statement.settings := by
  induction body with
  | nil => rfl
  | cons s rest ih =>
    rw [Statement.occurrencesAll, List.flatMap_append, List.flatMap_cons, ih,
      Statement.settings_occurrences]

/-! ## One attribute of one node -/

namespace Network

/-- The value of an attribute of a node. -/
def attribute? (n : Network) (name key : Text) : Option Text :=
  (n.nodes.get? name).bind fun attrs => attrs.get? key

lemma exists_get?_of_mem {n : Network} {name : Text} (h : name ∈ n.nodeNames) :
    ∃ attrs, n.nodes.get? name = some attrs := by
  rw [← Option.isSome_iff_exists]
  exact (Dictionary.contains_iff_mem_keys n.nodes name).mpr h

/-- A mention leaves all attributes as they are, and the owner is a default for one of them. -/
lemma attribute?_apply_node (n : Network) (mentioned : Text) (owner : Option Text)
    (name key : Text) :
    (n.apply (.node mentioned owner)).attribute? name key =
      (n.attribute? name key).or (if mentioned = name ∧ key = ownerKey then owner else none) := by
  have hget : (n.apply (.node mentioned owner)).nodes.get? name = _ :=
    Dictionary.get?_modify _ mentioned name (mention owner)
  rw [attribute?, attribute?, hget, Dictionary.get?_setDefault, Dictionary.get?_setDefault]
  by_cases h : name = mentioned
  · subst h
    have hempty : (Dictionary.empty : Dictionary Text).get? key = none := rfl
    cases n.nodes.get? name with
    | none => simp [mention, Dictionary.get?_setDefault?, hempty]
    | some attrs => simp [mention, Dictionary.get?_setDefault?]
  · have hne : mentioned ≠ name := fun heq => h heq.symm
    simp [h, hne]

/-- Attributes that are given to a node replace those that it has. -/
lemma attribute?_apply_nodeAttributes {n : Network} {changed : Text} (h : changed ∈ n.nodeNames)
    (pairs : List (Text × Text)) (name key : Text) :
    (n.apply (.nodeAttributes changed pairs)).attribute? name key =
      (if changed = name then Dictionary.lastValue? pairs key else none).or
        (n.attribute? name key) := by
  have hget : (n.apply (.nodeAttributes changed pairs)).nodes.get? name = _ :=
    Dictionary.get?_modify n.nodes changed name fun attrs => attrs.setAll pairs
  rw [attribute?, attribute?, hget]
  by_cases hname : name = changed
  · subst hname
    obtain ⟨attrs, hattrs⟩ := exists_get?_of_mem h
    simp [hattrs, Dictionary.get?_setAll, Dictionary.lookup_reverse]
  · have hne : changed ≠ name := fun heq => hname heq.symm
    simp [hname, hne]

/-- What an item does to an attribute of a node: the attributes of a node statement replace what
is there, and a reference inside a named subgraph gives the owner by default. -/
lemma attribute?_visit (n : Network) (o : Occurrence) (name key : Text) :
    (n.visit o).attribute? name key =
      (Dictionary.lastValue? (Attribute.pairs (o.attributesOf name)) key).or
        ((n.attribute? name key).or (if key = ownerKey then o.ownerOf? name else none)) := by
  obtain ⟨item, around⟩ := o
  cases item with
  | node s =>
    -- the mention comes first, so the attributes find their node
    have hmem : s.id.id.text ∈ (n.apply (.node s.id.id.text
        ((Occurrence.nearest? ⟨.node s, around⟩).or none))).nodeNames :=
      (mem_nodeNames_record n (.node _ _) _).mpr (.inr rfl)
    show ((n.apply _).apply (.nodeAttributes _ _)).attribute? name key = _
    rw [attribute?_apply_nodeAttributes hmem, attribute?_apply_node]
    by_cases h : s.id.id.text = name <;> by_cases hkey : key = ownerKey <;>
      simp [Occurrence.attributesOf, Occurrence.ownerOf?, Occurrence.refersTo,
        Occurrence.reference?, h, hkey]
  | vertex id =>
    show (n.apply (.node _ _)).attribute? name key = _
    rw [attribute?_apply_node]
    by_cases h : id.id.text = name <;> by_cases hkey : key = ownerKey <;>
      simp [Occurrence.attributesOf, Occurrence.ownerOf?, Occurrence.refersTo,
        Occurrence.reference?, h, hkey]
  | _ =>
    rw [attribute?, nodes_visit rfl]
    simp [attribute?, Occurrence.attributesOf, Occurrence.ownerOf?, Occurrence.refersTo,
      Occurrence.reference?]

/-- An attribute of a node after a list of items. -/
lemma attribute?_visitAll (n : Network) (os : List Occurrence) (name key : Text) :
    (n.visitAll os).attribute? name key =
      (Dictionary.lastValue? (Attribute.pairs (os.flatMap (Occurrence.attributesOf name))) key).or
        ((n.attribute? name key).or
          (if key = ownerKey then os.findSome? (Occurrence.ownerOf? name) else none)) := by
  induction os generalizing n with
  | nil => simp [visitAll]
  | cons o rest ih =>
    have hrest : (n.visitAll (o :: rest)).attribute? name key = _ := ih (n.visit o)
    have hfirst : (o :: rest).findSome? (Occurrence.ownerOf? name) =
        (o.ownerOf? name).or (rest.findSome? (Occurrence.ownerOf? name)) := by
      rw [List.findSome?_cons]
      cases o.ownerOf? name <;> rfl
    rw [hrest, attribute?_visit, hfirst, List.flatMap_cons, Attribute.pairs_append,
      Dictionary.lastValue?_append]
    by_cases hkey : key = ownerKey <;> simp [hkey, Option.or_assoc]

/-- An attribute of a node in the network of a document: the last node statement that gives it
counts, and the owner is the first that there is. -/
theorem attribute?_ofGraph (g : Graph) (name key : Text) :
    (ofGraph g).attribute? name key =
      (Dictionary.lastValue? (Attribute.pairs (g.attributesOf name)) key).or
        (if key = ownerKey then g.occurrences.findSome? (Occurrence.ownerOf? name) else none) := by
  have hunlinked : (ofGraph g).attribute? name key = (ofGraph g).unlinked.attribute? name key :=
    rfl
  have hstart : (start g).attribute? name key = none := rfl
  rw [hunlinked, unlinked_ofGraph, attribute?_visitAll, hstart, Option.none_or,
    Graph.attributesOf_eq]

lemma get?_eq_attribute? {n : Network} {name : Text} {attrs : Dictionary Text}
    (h : n.nodes.get? name = some attrs) (key : Text) :
    attrs.get? key = n.attribute? name key := by
  rw [attribute?, h, Option.bind_some]

end Network

/-! ## The subgraph of a node -/

lemma Occurrence.find?_bind_nearest? (os : List Occurrence) (name : Text) :
    (os.find? fun o => o.refersTo name && o.isGrouped).bind Occurrence.nearest? =
      os.findSome? (Occurrence.ownerOf? name) := by
  induction os with
  | nil => rfl
  | cons o rest ih =>
    have hgrouped := o.isSome_nearest?
    rw [List.find?_cons, List.findSome?_cons, Occurrence.ownerOf?]
    cases o.refersTo name with
    | false => simpa using ih
    | true =>
      cases hnearest : o.nearest? with
      | none =>
        rw [hnearest] at hgrouped
        simpa [← hgrouped] using ih
      | some owner =>
        rw [hnearest] at hgrouped
        simp [← hgrouped, hnearest]

lemma Occurrence.isSome_findSome?_ownerOf? (os : List Occurrence) (name : Text) :
    (os.findSome? (Occurrence.ownerOf? name)).isSome ↔
      ∃ o ∈ os, o.refersTo name ∧ o.isGrouped := by
  rw [List.isSome_findSome?, List.any_eq_true]
  refine exists_congr fun o => and_congr_right fun _ => ?_
  rw [Occurrence.ownerOf?, ← o.isSome_nearest?]
  cases o.refersTo name <;> simp

namespace Network

/-- Where no node statement gives the attribute `subgraph`, a node has it exactly if a reference
to it stands inside a named subgraph.  It is then the name of the nearest one around the first
such reference; subgraphs without a name are looked through. -/
theorem owner_ofGraph {g : Graph}
    (hfree : ∀ s ∈ g.nodeStatements, ∀ a ∈ s.attrs, a.key.text ≠ "subgraph".toList)
    {name : Text} (hname : name ∈ (ofGraph g).nodeNames) :
    ∃ attrs, (ofGraph g).nodes.get? name = some attrs ∧
      (attrs.contains "subgraph".toList ↔
        ∃ o ∈ g.occurrences, o.refersTo name ∧ o.isGrouped) ∧
      attrs.get? "subgraph".toList =
        (g.occurrences.find? fun o => o.refersTo name && o.isGrouped).bind
          Occurrence.nearest? := by
  obtain ⟨attrs, hattrs⟩ := exists_get?_of_mem hname
  -- no statement for this node can replace the default
  have hpairs : ∀ pair ∈ Attribute.pairs (g.attributesOf name), pair.1 ≠ ownerKey := by
    intro pair hpair
    obtain ⟨a, ha, rfl⟩ := List.mem_map.mp hpair
    obtain ⟨s, hs, ha⟩ := List.mem_flatMap.mp ha
    exact hfree s (List.mem_filter.mp hs).1 a ha
  have howner : attrs.get? "subgraph".toList =
      g.occurrences.findSome? (Occurrence.ownerOf? name) := by
    rw [get?_eq_attribute? hattrs, attribute?_ofGraph]
    show (Dictionary.lastValue? _ ownerKey).or (if ownerKey = ownerKey then _ else _) = _
    rw [Dictionary.lastValue?_eq_none hpairs, Option.none_or, if_pos rfl]
  refine ⟨attrs, hattrs, ?_, ?_⟩
  · rw [Dictionary.contains, howner, Occurrence.isSome_findSome?_ownerOf?]
  · rw [howner, Occurrence.find?_bind_nearest?]

/-- A node that is mentioned at the top, then in a subgraph without a name that is a vertex inside
`s`, and last in `t`. -/
theorem owner_ofGraph_looked_through :
    ∃ g attrs, Graph.parse
        "graph \x7ba subgraph s \x7bb--\x7ba\x7d\x7d subgraph t \x7ba\x7d\x7d".toList = .ok g ∧
      (∀ s ∈ g.nodeStatements, ∀ a ∈ s.attrs, a.key.text ≠ "subgraph".toList) ∧
      ['a'] ∈ (ofGraph g).nodeNames ∧ (ofGraph g).nodes.get? ['a'] = some attrs ∧
      attrs.get? "subgraph".toList = some ['s'] := by
  have hcomputed : (Graph.parse
      "graph \x7ba subgraph s \x7bb--\x7ba\x7d\x7d subgraph t \x7ba\x7d\x7d".toList).toOption.any
        (fun g => (∀ s ∈ g.nodeStatements, ∀ a ∈ s.attrs, a.key.text ≠ "subgraph".toList) ∧
          ['a'] ∈ (ofGraph g).nodeNames ∧
          (g.occurrences.find? fun o => o.refersTo ['a'] && o.isGrouped).bind
            Occurrence.nearest? = some ['s']) = true := by
    decide +kernel
  obtain ⟨g, hread, hg⟩ := Graph.exists_parse_of_any hcomputed
  obtain ⟨hfree, hname, hfirst⟩ := of_decide_eq_true hg
  obtain ⟨attrs, hattrs, -, howner⟩ := owner_ofGraph hfree hname
  exact ⟨g, attrs, hread, hfree, hname, hattrs, howner.trans hfirst⟩

/-! ## Merges of a document -/

/-- A dictionary in which each item sets pairs is the merge of all these pairs, behind those with
which it starts. -/
lemma merges_ofGraph {field : Network → Dictionary Text} {f : Occurrence → List (Text × Text)}
    (hstep : ∀ n o, field (n.visit o) = (field n).setAll (f o))
    (hunlinked : ∀ n, field n.unlinked = field n) {g : Graph} (first : List (Text × Text))
    (hstart : field (start g) = .ofList first) :
    (field (ofGraph g)).Merges (first ++ g.occurrences.flatMap f) := by
  have hall : field (ofGraph g) = .ofList (first ++ g.occurrences.flatMap f) := by
    rw [← hunlinked, unlinked_ofGraph, setAll_visitAll hstep, hstart, Dictionary.ofList,
      Dictionary.ofList, Dictionary.setAll_append]
  rw [hall]
  exact Dictionary.merges_ofList _

/-- Attributes are merges in which the last value of a key counts.  Those of a node come from the
node statements for it at any depth, those of the graph from its name and its own statements,
and the default attributes from the statements for their target at any depth. -/
theorem attributes_ofGraph (g : Graph) :
    (∀ name ∈ (ofGraph g).nodeNames, ∃ attrs, (ofGraph g).nodes.get? name = some attrs ∧
      ∀ key, key ≠ "subgraph".toList →
        attrs.get? key = Dictionary.lastValue? (Attribute.pairs (g.attributesOf name)) key) ∧
    (ofGraph g).attributes.Merges g.settings ∧
    (ofGraph g).nodeDefaults.Merges (g.defaults .node) ∧
    (ofGraph g).edgeDefaults.Merges (g.defaults .edge) := by
  refine ⟨fun name hname => ?_, ?_, ?_, ?_⟩
  · obtain ⟨attrs, hattrs⟩ := exists_get?_of_mem hname
    refine ⟨attrs, hattrs, fun key hkey => ?_⟩
    have hother : key ≠ ownerKey := hkey
    rw [get?_eq_attribute? hattrs, attribute?_ofGraph, if_neg hother, Option.or_none]
  · rw [Graph.settings, ← Statement.settings_occurrencesAll]
    exact merges_ofGraph (fun n o => congrArg attributes (visit_eq n o)) (fun _ => rfl) _ rfl
  · exact merges_ofGraph (fun n o => congrArg nodeDefaults (visit_eq n o)) (fun _ => rfl) [] rfl
  · exact merges_ofGraph (fun n o => congrArg edgeDefaults (visit_eq n o)) (fun _ => rfl) [] rfl

/-- A later value in a subgraph counts for a node and for default attributes, but not for the
graph. -/
theorem attributes_ofGraph_two_depths :
    ∃ g attrs, Graph.parse
        "graph \x7b c=1 a[x=1] node[k=5] \x7ba[x=2] c=2 node[k=3]\x7d \x7d".toList = .ok g ∧
      ['a'] ∈ (ofGraph g).nodeNames ∧ (ofGraph g).nodes.get? ['a'] = some attrs ∧
      attrs.get? ['x'] = some ['2'] ∧ (ofGraph g).attributes.get? ['c'] = some ['1'] ∧
      (ofGraph g).nodeDefaults.get? ['k'] = some ['3'] := by
  have hcomputed : (Graph.parse
      "graph \x7b c=1 a[x=1] node[k=5] \x7ba[x=2] c=2 node[k=3]\x7d \x7d".toList).toOption.any
        (fun g => ['a'] ∈ (ofGraph g).nodeNames ∧
          Dictionary.lastValue? (Attribute.pairs (g.attributesOf ['a'])) ['x'] = some ['2'] ∧
          Dictionary.lastValue? g.settings ['c'] = some ['1'] ∧
          Dictionary.lastValue? (g.defaults .node) ['k'] = some ['3']) = true := by
    decide +kernel
  obtain ⟨g, hread, hg⟩ := Graph.exists_parse_of_any hcomputed
  obtain ⟨hname, hx, hc, hk⟩ := of_decide_eq_true hg
  obtain ⟨hnodes, hgraph, hdefaults, -⟩ := attributes_ofGraph g
  obtain ⟨attrs, hattrs, hkeys⟩ := hnodes ['a'] hname
  exact ⟨g, attrs, hread, hname, hattrs, (hkeys ['x'] (by decide)).trans hx,
    (hgraph.get?_eq ['c']).trans hc, (hdefaults.get?_eq ['k']).trans hk⟩

end Network

end DotNotation
