/-
# Nodes and members in the order of first mention

A node is there from its first mention on, in a statement or in a chain, at any depth and under
any spelling of its name.  `Text.ListsOnce` says what it is to list a sequence of mentions once
each and in this order; there is one such list (`Text.ListsOnce.unique`).  The nodes of a network
list the references of its document (`Network.nodeNames_ofGraph`), and the members of a named
subgraph list the references inside it (`Network.groups_ofGraph`).
-/
import DotNotation.Parsing.Document
import DotNotation.Proofs.Network.Occurrences
import Mathlib.Data.List.Nodup

namespace DotNotation

/-! ## Lists in the order of first occurrence -/

namespace Text

/-- The list `once` has the members of `all`, each once and in the order of first occurrence. -/
structure ListsOnce (once all : List Text) : Prop where
  nodup : once.Nodup
  mem_iff : ∀ t, t ∈ once ↔ t ∈ all
  ordered : once.Pairwise fun t u => all.idxOf t < all.idxOf u

variable {once other all : List Text}

/-- The members and their order leave no choice. -/
theorem ListsOnce.unique (h : ListsOnce once all) (h' : ListsOnce other all) : once = other := by
  have hmem : ∀ t, t ∈ once ↔ t ∈ other := fun t => (h.mem_iff t).trans (h'.mem_iff t).symm
  have hperm : once.Perm other := (List.perm_ext_iff_of_nodup h.nodup h'.nodup).mpr hmem
  refine hperm.eq_of_pairwise ?_ h.ordered h'.ordered
  intro t u _ _ htu hut
  exact absurd hut (Nat.lt_asymm htu)

lemma listsOnce_nil : ListsOnce [] [] := ⟨List.nodup_nil, fun _ => Iff.rfl, .nil⟩

/-- One more occurrence is listed at the end, unless the member is listed already. -/
lemma ListsOnce.concat (h : ListsOnce once all) (t : Text) :
    ListsOnce (if t ∈ once then once else once ++ [t]) (all ++ [t]) := by
  -- an occurrence at the end moves no first occurrence
  have hkept : ∀ u ∈ once, (all ++ [t]).idxOf u = all.idxOf u := fun u hu =>
    List.idxOf_append_of_mem ((h.mem_iff u).mp hu)
  have hordered : once.Pairwise fun u v => (all ++ [t]).idxOf u < (all ++ [t]).idxOf v := by
    refine h.ordered.imp_of_mem ?_
    intro u v hu hv huv
    rwa [hkept u hu, hkept v hv]
  by_cases ht : t ∈ once
  · rw [if_pos ht]
    refine ⟨h.nodup, fun u => ?_, hordered⟩
    have hold : u = t → u ∈ all := fun heq => (h.mem_iff u).mp (heq ▸ ht)
    simpa [h.mem_iff] using hold
  · rw [if_neg ht]
    refine ⟨by simpa using h.nodup.concat ht, fun u => by simp [h.mem_iff], ?_⟩
    rw [List.pairwise_append]
    refine ⟨hordered, List.pairwise_singleton _ _, ?_⟩
    intro u hu v hv
    have hnew : t ∉ all := fun hmem => ht ((h.mem_iff t).mpr hmem)
    rw [List.mem_singleton.mp hv, hkept u hu, List.idxOf_append_of_notMem hnew]
    have hlt : all.idxOf u < all.length := List.idxOf_lt_length_of_mem ((h.mem_iff u).mp hu)
    omega

lemma listsOnce_distinct (ts : List Text) : ListsOnce (Text.distinct ts) ts := by
  refine ⟨Text.nodup_distinct ts, fun t => Text.mem_distinct, ?_⟩
  induction ts with
  | nil => exact .nil
  | cons t ts ih =>
    -- the others are different from `t` and stand one place further back
    have hback : ∀ u ∈ (Text.distinct ts).filter (· ≠ t),
        (t :: ts).idxOf u = ts.idxOf u + 1 := by
      intro u hu
      have hne : u ≠ t := by simpa using (List.mem_filter.mp hu).2
      exact List.idxOf_cons_ne ts hne.symm
    rw [Text.distinct, List.pairwise_cons]
    refine ⟨fun u hu => ?_, (ih.filter _).imp_of_mem ?_⟩
    · rw [hback u hu, List.idxOf_cons_self]
      omega
    · intro u v hu hv huv
      rw [hback u hu, hback v hv]
      omega

end Text

/-! ## Mentions are references -/

lemma Occurrence.node?_events (owner : Option Text) (top : Bool) (o : Occurrence) :
    (o.events owner top).filterMap Event.node? = (o.reference?.map (·.id.text)).toList := by
  obtain ⟨item, around⟩ := o
  cases item with
  | node s => rfl
  | vertex id => rfl
  | assign a => cases top <;> cases around <;> rfl
  | defaults target attrs => cases target <;> cases top <;> cases around <;> rfl
  | subgraph group =>
    cases group with
    | mk id body => exact Event.node?_closing id _

/-- The nodes that a body mentions are the texts of the references in it. -/
lemma Statement.mentionsAll_eq (body : List Statement) :
    Statement.mentionsAll body =
      ((Statement.occurrencesAll body).filterMap Occurrence.reference?).map (·.id.text) := by
  have hunlinked : ∀ events : List Event,
      (events.filter Event.isUnlinked).filterMap Event.node? = events.filterMap Event.node? := by
    intro events
    rw [List.filterMap_filter]
    congr 1
    funext e
    cases e <;> rfl
  rw [← Statement.nodes_eventsAll none false body, ← hunlinked,
    Statement.unlinked_eventsAll none false body, List.filterMap_flatMap]
  simp only [Occurrence.node?_events, List.map_filterMap]
  exact (List.filterMap_eq_flatMap_toList _ _).symm

/-- The references inside a subgraph are those in its body. -/
lemma Subgraph.references_mk (id : Option Id) (body : List Statement) :
    (Subgraph.mk id body).references =
      (Statement.occurrencesAll body).filterMap Occurrence.reference? := by
  rw [Subgraph.references, Subgraph.occurrences, List.filterMap_append, List.filterMap_map]
  exact List.append_nil _

lemma Graph.exists_parse_of_any {source : Text} {p : Graph → Bool}
    (h : (Graph.parse source).toOption.any p = true) :
    ∃ g, Graph.parse source = .ok g ∧ p g = true := by
  cases hread : Graph.parse source with
  | error e => simp [hread, Except.toOption] at h
  | ok g => exact ⟨g, rfl, by simpa [hread, Except.toOption] using h⟩

/-! ## Nodes -/

namespace Network

/-- The nodes list what was mentioned so far, also after one more event. -/
lemma listsOnce_record {n : Network} {mentioned : List Text}
    (h : Text.ListsOnce n.nodeNames mentioned) (e : Event) :
    Text.ListsOnce (n.record e).nodeNames (mentioned ++ e.node?.toList) := by
  rw [nodeNames_record]
  cases e.node? with
  | none => simpa using h
  | some name => exact h.concat name

lemma listsOnce_recordAll {n : Network} {mentioned : List Text}
    (h : Text.ListsOnce n.nodeNames mentioned) (events : List Event) :
    Text.ListsOnce (n.recordAll events).nodeNames
      (mentioned ++ events.filterMap Event.node?) := by
  induction events generalizing n mentioned with
  | nil => simpa [recordAll] using h
  | cons e rest ih =>
    have hrest : Text.ListsOnce (n.recordAll (e :: rest)).nodeNames _ := ih (listsOnce_record h e)
    rw [List.append_assoc] at hrest
    cases hnode : e.node? with
    | none => simpa [hnode] using hrest
    | some name => simpa [hnode] using hrest

lemma listsOnce_nodeNames (g : Graph) :
    Text.ListsOnce (ofGraph g).nodeNames (g.references.map (·.id.text)) := by
  have hstart : Text.ListsOnce (nodeNames { directed := g.directed, strict := g.strict }) [] :=
    Text.listsOnce_nil
  have hall := listsOnce_recordAll hstart g.events
  rw [← ofGraph_eq_recordAll, List.nil_append, g.filterMap_events fun _ => rfl,
    Statement.nodes_eventsAll, Statement.mentionsAll_eq] at hall
  exact hall

/-- The nodes of the network of a document are the texts of all references to nodes in it, each
once and in the order of first occurrence from left to right.  References of equal text lead to
one node, however they are spelled. -/
theorem nodeNames_ofGraph (g : Graph) :
    (∀ names, (ofGraph g).nodeNames = names ↔
      Text.ListsOnce names (g.references.map (·.id.text))) ∧
    ∀ a ∈ g.references, ∀ b ∈ g.references, a.id.text = b.id.text →
      (ofGraph g).nodeNames.filter (fun name => name = a.id.text ∨ name = b.id.text) =
        [a.id.text] := by
  have hlists := listsOnce_nodeNames g
  refine ⟨fun names => ⟨fun h => h ▸ hlists, fun h => hlists.unique h⟩, ?_⟩
  intro a ha b _ htext
  have hmem : a.id.text ∈ (ofGraph g).nodeNames :=
    (hlists.mem_iff _).mpr (List.mem_map_of_mem ha)
  simp only [← htext, or_self]
  rw [List.filter_eq, List.count_eq_one_of_mem hlists.nodup hmem]
  rfl

/-- Three spellings of one name, one of them broken by a continued line, and one node. -/
theorem nodeNames_ofGraph_spellings :
    ∃ g a b, Graph.parse "graph \x7b ab -- \"a\\\nb\" -- \x7b<ab>\x7d \x7d".toList = .ok g ∧
      a ∈ g.references ∧ b ∈ g.references ∧ a.id ≠ b.id ∧ a.id.text = b.id.text ∧
      (ofGraph g).nodeNames = ["ab".toList] ∧
      (ofGraph g).nodeNames.filter (fun name => name = a.id.text ∨ name = b.id.text) =
        ["ab".toList] := by
  have hcomputed : (Graph.parse
      "graph \x7b ab -- \"a\\\nb\" -- \x7b<ab>\x7d \x7d".toList).toOption.any
        (fun g => g.references = [⟨⟨.plain, "ab".toList⟩, none⟩, ⟨⟨.quoted, "a\\\nb".toList⟩, none⟩,
          ⟨⟨.html, "ab".toList⟩, none⟩]) = true := by
    decide +kernel
  obtain ⟨g, hread, hrefs⟩ := Graph.exists_parse_of_any hcomputed
  have hrefs := of_decide_eq_true hrefs
  have htexts : g.references.map (·.id.text) = ["ab".toList, "ab".toList, "ab".toList] := by
    rw [hrefs]
    decide
  obtain ⟨hnames, hone⟩ := nodeNames_ofGraph g
  refine ⟨g, ⟨⟨.plain, "ab".toList⟩, none⟩, ⟨⟨.quoted, "a\\\nb".toList⟩, none⟩, hread,
    by simp [hrefs], by simp [hrefs], by decide, by decide, ?_, ?_⟩
  · rw [hnames, htexts]
    exact ⟨by decide, by simp, by decide⟩
  · exact hone _ (by simp [hrefs]) _ (by simp [hrefs]) (by decide)

end Network

/-! ## Members of subgraphs -/

/-- The entry of a subgraph among the named subgraphs of a network: its name and the references
inside it, each once and in the order of first occurrence. -/
structure Subgraph.ListedAs (group : Subgraph) (entry : Text × List Text) : Prop where
  name : group.id.map Id.text = some entry.1
  members : Text.ListsOnce entry.2 (group.references.map (·.id.text))

lemma Subgraph.listedAs_entry (group : Subgraph) {entry : Text × List Text}
    (h : group.entry? = some entry) : group.ListedAs entry := by
  obtain ⟨name, hname, rfl⟩ := Option.map_eq_some_iff.mp h
  cases group with
  | mk id body =>
    refine ⟨by rw [hname]; rfl, ?_⟩
    rw [Subgraph.references_mk, ← Statement.mentionsAll_eq, Subgraph.collected_eq]
    exact Text.listsOnce_distinct _

/-- Of the subgraphs those with a name make entries. -/
lemma Subgraph.forall₂_entries (groups : List Subgraph) :
    List.Forall₂ Subgraph.ListedAs (groups.filter (·.id.isSome))
      (groups.filterMap Subgraph.entry?) := by
  induction groups with
  | nil => exact .nil
  | cons group rest ih =>
    cases hid : group.id with
    | none =>
      have hentry : group.entry? = none := by rw [Subgraph.entry?, hid, Option.map_none]
      rw [List.filter_cons_of_neg (by simp [hid]), List.filterMap_cons_none hentry]
      exact ih
    | some name =>
      have hentry : group.entry? = some (name.text, group.collected) := by
        rw [Subgraph.entry?, hid, Option.map_some]
      rw [List.filter_cons_of_pos (by simp [hid]), List.filterMap_cons_some hentry]
      exact .cons (Subgraph.listedAs_entry group hentry) ih

namespace Network

/-- The named subgraphs of the network of a document are those of the document, as often as they
occur, in statements and in chains, and in the order in which they end.  The members of each are
the texts of the references inside it, each once and in the order of first occurrence. -/
theorem groups_ofGraph (g : Graph) :
    List.Forall₂ Subgraph.ListedAs (g.subgraphs.filter (·.id.isSome)) (ofGraph g).groups := by
  have hgroups : (ofGraph g).groups = g.subgraphs.filterMap Subgraph.entry? := by
    calc (ofGraph g).groups
        = (ofGraph g).unlinked.groups := rfl
      _ = ((start g).visitAll g.occurrences).groups := by rw [unlinked_ofGraph]
      _ = g.occurrences.filterMap Occurrence.entry? := groups_visitAll (start g) g.occurrences
      _ = g.subgraphs.filterMap Subgraph.entry? := by
          rw [Graph.subgraphs, List.filterMap_filterMap]
          rfl
  rw [hgroups]
  exact Subgraph.forall₂_entries g.subgraphs

example :
    (Graph.parse
        "graph \x7bsubgraph s \x7bb--\x7ba subgraph t \x7ba b\x7d\x7d\x7d\x7d".toList).toOption.map
      (fun g => (ofGraph g).groups) =
    some [(['t'], [['a'], ['b']]), (['s'], [['b'], ['a']])] := by
  decide +kernel

end Network

end DotNotation
