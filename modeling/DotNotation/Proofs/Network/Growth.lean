/-
# Networks grow

An event adds to a network and takes nothing away: nodes, links and named subgraphs go to the
ends of their lists, and a node that is mentioned or given attributes keeps those that it has,
with new values perhaps.  `Network.Grows` says this of two networks; it holds across one event
(`Network.grows_apply`) and so across any number of them.

The events of a document with further statements at its end begin with those of the document.
So its network has grown from that of the document (`Network.ofGraph_extended`).
-/
import DotNotation.Proofs.Network.Attributes
import DotNotation.Proofs.Network.Degrees

namespace DotNotation

/-! ## Keys are kept -/

namespace Dictionary

variable {α : Type}

lemma keys_set_prefix (d : Dictionary α) (key : Text) (value : α) :
    d.keys <+: (d.set key value).keys := by
  rw [keys_set]
  split
  · exact List.prefix_rfl
  · exact List.prefix_append _ _

lemma keys_setAll_prefix (d : Dictionary α) (pairs : List (Text × α)) :
    d.keys <+: (d.setAll pairs).keys := by
  induction pairs generalizing d with
  | nil => exact List.prefix_rfl
  | cons pair rest ih => exact (d.keys_set_prefix pair.1 pair.2).trans (ih _)

lemma keys_setDefault_prefix (d : Dictionary α) (key : Text) (value : α) :
    d.keys <+: (d.setDefault key value).keys := by
  rw [keys_setDefault]
  split
  · exact List.prefix_rfl
  · exact List.prefix_append _ _

lemma keys_setDefault?_prefix (d : Dictionary Text) (key : Text) (value : Option Text) :
    d.keys <+: (d.setDefault? key value).keys := by
  cases value with
  | none => exact List.prefix_rfl
  | some value => exact d.keys_setDefault_prefix key value

/-- A change of a value that keeps its keys keeps the keys of all values. -/
lemma keys_modify_prefix {d : Dictionary (Dictionary α)} {f : Dictionary α → Dictionary α}
    (hf : ∀ a, a.keys <+: (f a).keys) (key : Text) {name : Text} {attrs : Dictionary α}
    (h : d.get? name = some attrs) :
    ∃ others, (d.modify key f).get? name = some others ∧ attrs.keys <+: others.keys := by
  rw [get?_modify]
  by_cases hname : name = key
  · subst hname
    exact ⟨f attrs, by simp [h], hf attrs⟩
  · exact ⟨attrs, by simp [hname, h], List.prefix_rfl⟩

end Dictionary

/-! ## Growth -/

namespace Network

/-- The second network has all that the first one has, in the same places, and perhaps more. -/
structure Grows (n m : Network) : Prop where
  directed : m.directed = n.directed
  nodeNames : n.nodeNames <+: m.nodeNames
  links : n.links <+: m.links
  groups : n.groups <+: m.groups
  attributeNames : ∀ {name attrs}, n.nodes.get? name = some attrs →
    ∃ others, m.nodes.get? name = some others ∧ attrs.keys <+: others.keys

variable {n m k : Network} {u v : Text}

lemma Grows.refl (n : Network) : n.Grows n :=
  ⟨rfl, List.prefix_rfl, List.prefix_rfl, List.prefix_rfl, fun h => ⟨_, h, List.prefix_rfl⟩⟩

lemma Grows.trans (h : n.Grows m) (h' : m.Grows k) : n.Grows k := by
  refine ⟨h'.directed.trans h.directed, h.nodeNames.trans h'.nodeNames, h.links.trans h'.links,
    h.groups.trans h'.groups, fun hattrs => ?_⟩
  obtain ⟨others, hothers, hkeys⟩ := h.attributeNames hattrs
  obtain ⟨last, hlast, hkeys'⟩ := h'.attributeNames hothers
  exact ⟨last, hlast, hkeys.trans hkeys'⟩

lemma nodeNames_apply_prefix (n : Network) (e : Event) :
    n.nodeNames <+: (n.apply e).nodeNames := by
  cases e with
  | node name owner =>
    show n.nodes.keys <+: ((n.nodes.setDefault name .empty).modify name (mention owner)).keys
    rw [Dictionary.keys_modify]
    exact n.nodes.keys_setDefault_prefix name _
  | nodeAttributes name pairs =>
    show n.nodes.keys <+: (n.nodes.modify name fun attrs => attrs.setAll pairs).keys
    rw [Dictionary.keys_modify]
  | link l =>
    exact (n.nodes.keys_setDefault_prefix l.tail _).trans
      (Dictionary.keys_setDefault_prefix _ l.head _)
  | _ => exact List.prefix_rfl

/-- A node keeps the names of its attributes across an event. -/
lemma attributeNames_apply (n : Network) (e : Event) {name : Text} {attrs : Dictionary Text}
    (h : n.nodes.get? name = some attrs) :
    ∃ others, (n.apply e).nodes.get? name = some others ∧ attrs.keys <+: others.keys := by
  cases e with
  | node mentioned owner =>
    -- a node that is there is no new entry
    have hthere : (n.nodes.setDefault mentioned .empty).get? name = some attrs := by
      rw [Dictionary.get?_setDefault, h, Option.some_or]
    exact Dictionary.keys_modify_prefix (fun a => a.keys_setDefault?_prefix ownerKey owner)
      mentioned hthere
  | nodeAttributes changed pairs =>
    exact Dictionary.keys_modify_prefix (fun a => a.keys_setAll_prefix pairs) changed h
  | link l =>
    refine ⟨attrs, ?_, List.prefix_rfl⟩
    show ((n.nodes.setDefault l.tail .empty).setDefault l.head .empty).get? name = some attrs
    rw [Dictionary.get?_setDefault, Dictionary.get?_setDefault, h, Option.some_or, Option.some_or]
  | _ => exact ⟨attrs, h, List.prefix_rfl⟩

/-- A network grows with every event. -/
lemma grows_apply (n : Network) (e : Event) : n.Grows (n.apply e) where
  directed := directed_apply n e
  nodeNames := nodeNames_apply_prefix n e
  links := by
    rw [links_apply]
    exact List.prefix_append _ _
  groups := by
    cases e with
    | close name members => exact List.prefix_append _ _
    | _ => exact List.prefix_rfl
  attributeNames := attributeNames_apply n e

theorem grows_applyAll (n : Network) (events : List Event) : n.Grows (n.applyAll events) := by
  induction events generalizing n with
  | nil => exact Grows.refl n
  | cons e rest ih => exact (grows_apply n e).trans (ih (n.apply e))

/-! ## What growth keeps of links -/

lemma Grows.degree_le (h : n.Grows m) (hn : n.Closed) (hm : m.Closed) (name : Text) :
    n.degree name ≤ m.degree name := by
  obtain ⟨more, hmore⟩ := h.links
  rw [hn.degree_eq_count, hm.degree_eq_count, ends, ends, ← hmore, List.flatMap_append,
    List.count_append]
  exact Nat.le_add_right _ _

lemma Grows.between (h : n.Grows m) (u v : Text) : n.between u v <+: m.between u v := by
  rw [Network.between, Network.between, h.directed]
  exact h.links.filter _

/-- The nodes that are there keep their places. -/
lemma Grows.idxOf_eq (h : n.Grows m) (hu : u ∈ n.nodeNames) :
    m.nodeNames.idxOf u = n.nodeNames.idxOf u := by
  obtain ⟨more, hmore⟩ := h.nodeNames
  rw [← hmore, List.idxOf_append_of_mem hu]

end Network

/-- Two listed links have the same ends, in either order without directions, and the same
number.  This is by what a link is known. -/
def ListedLink.Same (directed : Bool) (s t : ListedLink) : Prop :=
  t.link.joins directed s.tail s.head ∧ t.key = s.key

namespace Network

variable {n m : Network} {s t : ListedLink}

/-- A link that was there keeps its number among the parallel links, and its data. -/
lemma Grows.data_between (h : n.Grows m) (hn : n.Closed) (hs : s ∈ n.listing) :
    ((m.between s.tail s.head).map Link.data)[s.key]? = some s.data := by
  have hself : s.link.joins n.directed s.tail s.head := Link.joins_iff.mpr (.inl ⟨rfl, rfl⟩)
  have hold := (exists_listed_iff hn).mp ⟨s, hs, hself, rfl, rfl⟩
  obtain ⟨more, hmore⟩ := (h.between s.tail s.head).map Link.data
  rw [← hmore, List.getElem?_append_left (List.getElem?_eq_some_iff.mp hold).1, hold]

lemma Grows.data_eq (h : n.Grows m) (hn : n.Closed) (hm : m.Closed) (hs : s ∈ n.listing)
    (ht : t ∈ m.listing) (hsame : s.Same n.directed t) : t.data = s.data := by
  have hjoins : t.link.joins m.directed s.tail s.head := h.directed ▸ hsame.1
  have hnew := (exists_listed_iff hm).mp ⟨t, ht, hjoins, rfl, hsame.2⟩
  exact Option.some.inj (hnew.symm.trans (h.data_between hn hs))

/-- A link that was there is listed from the same end, since the nodes keep their places. -/
lemma Grows.ends_eq (h : n.Grows m) (hn : n.Closed) (hs : s ∈ n.listing) (ht : t ∈ m.listing)
    (hsame : s.Same n.directed t) : t.tail = s.tail ∧ t.head = s.head := by
  rcases Link.joins_iff.mp hsame.1 with hends | ⟨hdirected, htail, hhead⟩
  · exact hends
  · have htail : t.tail = s.head := htail
    have hhead : t.head = s.tail := hhead
    have hstail : s.tail ∈ n.nodeNames := (mem_listFrom hs).1
    have hshead : s.head ∈ n.nodeNames := hn.head_mem_of_listing hs
    have hfirst := idxOf_tail_le hdirected hs
    have hsecond := idxOf_tail_le (h.directed.trans hdirected) ht
    rw [htail, hhead, h.idxOf_eq hshead, h.idxOf_eq hstail] at hsecond
    have hloop : s.tail = s.head := (List.idxOf_inj hstail).mp (Nat.le_antisymm hfirst hsecond)
    rw [htail, hhead]
    exact ⟨hloop.symm, hloop⟩

/-- A link that was there is still listed as it was, and it is the only one with its ends and its
number. -/
theorem Grows.mem_listing (h : n.Grows m) (hn : n.Closed) (hm : m.Closed) (hs : s ∈ n.listing) :
    s ∈ m.listing ∧ ∀ t ∈ m.listing, s.Same n.directed t → t = s := by
  have honly : ∀ t ∈ m.listing, s.Same n.directed t → t = s := by
    intro t ht hsame
    obtain ⟨htail, hhead⟩ := h.ends_eq hn hs ht hsame
    have hdata := h.data_eq hn hm hs ht hsame
    obtain ⟨tail, head, key, data⟩ := t
    obtain ⟨rfl, rfl, rfl, rfl⟩ : _ ∧ _ ∧ _ ∧ _ := ⟨htail, hhead, hsame.2, hdata⟩
    rfl
  refine ⟨?_, honly⟩
  obtain ⟨t, ht, hjoins, -, hkey⟩ := (exists_listed_iff hm).mpr (h.data_between hn hs)
  exact honly t ht ⟨h.directed ▸ hjoins, hkey⟩ ▸ ht

end Network

/-! ## Further statements -/

lemma Statement.eventsAll_append (owner : Option Text) (top : Bool)
    (body more : List Statement) :
    Statement.eventsAll owner top (body ++ more) =
      Statement.eventsAll owner top body ++ Statement.eventsAll owner top more := by
  induction body with
  | nil => rfl
  | cons s rest ih =>
    rw [List.cons_append, Statement.eventsAll, Statement.eventsAll, ih, List.append_assoc]

lemma Statement.occurrencesAll_append (body more : List Statement) :
    Statement.occurrencesAll (body ++ more) =
      Statement.occurrencesAll body ++ Statement.occurrencesAll more := by
  induction body with
  | nil => rfl
  | cons s rest ih =>
    rw [List.cons_append, Statement.occurrencesAll, Statement.occurrencesAll, ih,
      List.append_assoc]

/-- Node statements that give no attribute of a name leave no value of it. -/
lemma Graph.lastValue?_attributesOf {g : Graph} {key : Text}
    (hfree : ∀ s ∈ g.nodeStatements, ∀ a ∈ s.attrs, a.key.text ≠ key) (name : Text) :
    Dictionary.lastValue? (Attribute.pairs (g.attributesOf name)) key = none := by
  refine Dictionary.lastValue?_eq_none fun pair hpair => ?_
  obtain ⟨a, ha, rfl⟩ := List.mem_map.mp hpair
  obtain ⟨s, hs, ha⟩ := List.mem_flatMap.mp ha
  exact hfree s (List.mem_filter.mp hs).1 a ha

namespace Network

/-- Further statements go on from the network of the document. -/
theorem ofGraph_extended (g : Graph) (more : List Statement) :
    ofGraph (g.extended more) = (ofGraph g).applyAll (Statement.eventsAll none true more) := by
  have hevents : (g.extended more).events = g.events ++ Statement.eventsAll none true more := by
    rw [Graph.events, Graph.events, List.append_assoc, ← Statement.eventsAll_append]
    rfl
  rw [ofGraph, hevents, applyAll, List.foldl_append]
  rfl

lemma grows_extended (g : Graph) (more : List Statement) :
    (ofGraph g).Grows (ofGraph (g.extended more)) := by
  rw [ofGraph_extended]
  exact grows_applyAll _ _

/-- An attribute of a node after further statements: what they set counts before what was there,
and their subgraphs are no more than a default. -/
lemma attribute?_extended (g : Graph) (more : List Statement) (name key : Text) :
    (ofGraph (g.extended more)).attribute? name key =
      (Dictionary.lastValue?
        (Attribute.pairs (Graph.attributesOf { body := more } name)) key).or
        (((ofGraph g).attribute? name key).or
          (if key = ownerKey then
            (Statement.occurrencesAll more).findSome? (Occurrence.ownerOf? name)
          else none)) := by
  have hoccurrences : (g.extended more).occurrences =
      g.occurrences ++ Statement.occurrencesAll more := Statement.occurrencesAll_append _ _
  have hunlinked : (ofGraph (g.extended more)).unlinked =
      (ofGraph g).unlinked.visitAll (Statement.occurrencesAll more) := by
    rw [unlinked_ofGraph, unlinked_ofGraph, hoccurrences, visitAll, List.foldl_append]
    rfl
  have hattribute : (ofGraph (g.extended more)).attribute? name key =
      (ofGraph (g.extended more)).unlinked.attribute? name key := rfl
  rw [hattribute, hunlinked, attribute?_visitAll, Graph.attributesOf_eq]
  rfl

/-- Where the further statements give no attribute `subgraph`, a node that has it keeps its
value. -/
lemma owner_extended {g : Graph} {more : List Statement}
    (hfree : ∀ s ∈ Graph.nodeStatements { body := more }, ∀ a ∈ s.attrs,
      a.key.text ≠ "subgraph".toList) {name owner : Text}
    (howner : (ofGraph g).attribute? name "subgraph".toList = some owner) :
    (ofGraph (g.extended more)).attribute? name "subgraph".toList = some owner := by
  rw [attribute?_extended, Graph.lastValue?_attributesOf hfree, howner, Option.none_or,
    Option.some_or]

/-- Statements at the end of a document only add to its network.  The nodes and the named
subgraphs of the document come first and in their order.  Each link is listed as before, and it
is the only one with its ends and its number.  Each node keeps the names of its attributes, in
their order, and keeps its subgraph unless one of the added node statements gives another.
No degree goes down. -/
theorem extended_ofGraph (g : Graph) (more : List Statement) :
    (ofGraph g).nodeNames <+: (ofGraph (g.extended more)).nodeNames ∧
    (ofGraph g).groups <+: (ofGraph (g.extended more)).groups ∧
    (∀ s ∈ (ofGraph g).listing, s ∈ (ofGraph (g.extended more)).listing ∧
      ∀ t ∈ (ofGraph (g.extended more)).listing, s.Same g.directed t → t = s) ∧
    (∀ name attrs, (ofGraph g).nodes.get? name = some attrs →
      ∃ others, (ofGraph (g.extended more)).nodes.get? name = some others ∧
        attrs.keys <+: others.keys ∧
        ((∀ s ∈ Graph.nodeStatements { body := more }, ∀ a ∈ s.attrs,
            a.key.text ≠ "subgraph".toList) →
          ∀ owner, attrs.get? "subgraph".toList = some owner →
            others.get? "subgraph".toList = some owner)) ∧
    ∀ name, (ofGraph g).degree name ≤ (ofGraph (g.extended more)).degree name := by
  have hgrows := grows_extended g more
  have hclosed := closed_ofGraph g
  have hclosed' := closed_ofGraph (g.extended more)
  refine ⟨hgrows.nodeNames, hgrows.groups, fun s hs => ?_, fun name attrs hattrs => ?_,
    hgrows.degree_le hclosed hclosed'⟩
  · simpa using hgrows.mem_listing hclosed hclosed' hs
  · obtain ⟨others, hothers, hkeys⟩ := hgrows.attributeNames hattrs
    refine ⟨others, hothers, hkeys, fun hfree owner howner => ?_⟩
    rw [get?_eq_attribute? hattrs] at howner
    rw [get?_eq_attribute? hothers]
    exact owner_extended hfree howner

/-- A further statement that names another subgraph for a node, gives it an attribute and links it
once more to the same node. -/
theorem extended_ofGraph_linked_again :
    ∃ g h others, Graph.parse "graph \x7bsubgraph s \x7ba\x7d b--a\x7d".toList = .ok g ∧
      Graph.parse "graph \x7bsubgraph t \x7ba[x=1] a:n--b\x7d\x7d".toList = .ok h ∧
      (∀ s ∈ Graph.nodeStatements { body := h.body }, ∀ a ∈ s.attrs,
        a.key.text ≠ "subgraph".toList) ∧
      (⟨['a'], ['b'], 0, .empty⟩ : ListedLink) ∈ (ofGraph g).listing ∧
      (⟨['a'], ['b'], 0, .empty⟩ : ListedLink) ∈ (ofGraph (g.extended h.body)).listing ∧
      (ofGraph (g.extended h.body)).nodes.get? ['a'] = some others ∧
      others.get? "subgraph".toList = some ['s'] := by
  have hfirst : (Graph.parse "graph \x7bsubgraph s \x7ba\x7d b--a\x7d".toList).toOption.any
      (fun g => (⟨['a'], ['b'], 0, .empty⟩ : ListedLink) ∈ (ofGraph g).listing ∧
        (ofGraph g).nodes.get? ['a'] = some (.ofList [("subgraph".toList, ['s'])])) = true := by
    decide +kernel
  have hsecond : (Graph.parse
      "graph \x7bsubgraph t \x7ba[x=1] a:n--b\x7d\x7d".toList).toOption.any
        (fun h : Graph => decide (∀ s ∈ Graph.nodeStatements { body := h.body }, ∀ a ∈ s.attrs,
          a.key.text ≠ "subgraph".toList)) = true := by
    decide +kernel
  obtain ⟨g, hread, hg⟩ := Graph.exists_parse_of_any hfirst
  obtain ⟨h, hread', hh⟩ := Graph.exists_parse_of_any hsecond
  obtain ⟨hlisted, hattrs⟩ := of_decide_eq_true hg
  have hfree := of_decide_eq_true hh
  obtain ⟨-, -, hlinks, hnodes, -⟩ := extended_ofGraph g h.body
  obtain ⟨others, hothers, -, howner⟩ := hnodes ['a'] _ hattrs
  exact ⟨g, h, others, hread, hread', hfree, hlisted, (hlinks _ hlisted).1, hothers,
    howner hfree ['s'] (by decide)⟩

end Network

end DotNotation
