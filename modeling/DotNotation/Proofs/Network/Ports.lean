/-
# Ports of listed links

A hop that starts or ends at a node with a port hands the port to its links, under `tailport`
for the node where it starts and under `headport` for the node where it ends.  A listing shows a
link together with these data, but without directions it shows the link at the end that comes
first among the nodes, and this may be the end of the hop.  Then the ports have changed places:
what stands under `tailport` is the port of the node that is listed as the head.

`Network.keepsPorts_iff` says exactly when the ports of a listed link are still with their ends,
and `Network.ports_change_ends` is a document where they are not.
-/
import DotNotation.Proofs.Network.Mentions
import DotNotation.Proofs.Network.Pairs
import DotNotation.Syntax.Equality

namespace DotNotation

/-! ## Ports of a hop -/

/-- The attributes of the hop leave the ports to its ends. -/
def Hop.LeavesPorts (h : Hop) : Prop :=
  ∀ a ∈ h.attrs, a.key.text ≠ "tailport".toList ∧ a.key.text ≠ "headport".toList

/-- The hop refers to the node of the given name, with a port of the given meaning. -/
def Hop.PutsPort (h : Hop) (name port : Text) : Prop :=
  ∃ id : NodeId, (h.tail = .node id ∨ h.head = .node id) ∧ id.id.text = name ∧
    id.port.map Port.text = some port

/-- The ports of a listed link are those of the hop at the nodes at which they are listed. -/
structure ListedLink.KeepsPorts (h : Hop) (s : ListedLink) : Prop where
  tailport : ∀ port, s.data.get? "tailport".toList = some port → h.PutsPort s.tail port
  headport : ∀ port, s.data.get? "headport".toList = some port → h.PutsPort s.head port

lemma Hop.find?_eq_none {h : Hop} {key : Text} (hfree : ∀ a ∈ h.attrs, a.key.text ≠ key) :
    h.attrs.reverse.find? (·.key.text == key) = none := by
  rw [List.find?_eq_none]
  intro a ha
  simpa using hfree a (List.mem_reverse.mp ha)

lemma Hop.LeavesPorts.value_tailport {h : Hop} (hfree : h.LeavesPorts) :
    h.value "tailport".toList = h.tail.portText := by
  rw [Hop.value, Hop.find?_eq_none fun a ha => (hfree a ha).1, if_pos rfl]
  rfl

lemma Hop.LeavesPorts.value_headport {h : Hop} (hfree : h.LeavesPorts) :
    h.value "headport".toList = h.head.portText := by
  rw [Hop.value, Hop.find?_eq_none fun a ha => (hfree a ha).2, if_neg (by decide), if_pos rfl]
  rfl

lemma Vertex.portText_eq_some_iff {v : Vertex} {port : Text} :
    v.portText = some port ↔ ∃ id, v = .node id ∧ id.port.map Port.text = some port := by
  cases v with
  | node id => simp [Vertex.portText]
  | subgraph group => simp [Vertex.portText]

/-! ## The two ends of a crossing -/

lemma Graph.mem_mentions_of_crossings {g : Graph} {c : Crossing} (hc : c ∈ g.crossings) :
    c.tail ∈ c.hop.tail.mentions ∧ c.head ∈ c.hop.head.mentions := by
  obtain ⟨h, -, hc⟩ := List.mem_flatMap.mp hc
  obtain ⟨⟨u, v⟩, huv, rfl⟩ := List.mem_map.mp hc
  obtain ⟨hu, hv⟩ := List.mem_product.mp huv
  exact ⟨List.mem_dedup.mp hu, List.mem_dedup.mp hv⟩

/-- Of two vertices that stand for different nodes, a reference to the node of the first is the
first. -/
lemma Vertex.exists_port_iff {v w : Vertex} {name other port : Text} (hv : name ∈ v.mentions)
    (hw : other ∈ w.mentions) (hne : name ≠ other) :
    (∃ id : NodeId, (v = .node id ∨ w = .node id) ∧ id.id.text = name ∧
      id.port.map Port.text = some port) ↔ v.portText = some port := by
  rw [Vertex.portText_eq_some_iff]
  constructor
  · rintro ⟨id, rfl | rfl, rfl, hport⟩
    · exact ⟨id, rfl, hport⟩
    · have hother : other = id.id.text := by simpa [Vertex.mentions] using hw
      exact absurd hother.symm hne
  · rintro ⟨id, rfl, hport⟩
    have hname : name = id.id.text := by simpa [Vertex.mentions] using hv
    exact ⟨id, .inl rfl, hname.symm, hport⟩

section Crossing

variable {g : Graph} {c : Crossing} (hc : c ∈ g.crossings) (hne : c.tail ≠ c.head)
include hc hne

/-- Between two nodes, the port that a hop puts at the first is the port of its tail. -/
lemma Crossing.putsPort_tail_iff {port : Text} :
    c.hop.PutsPort c.tail port ↔ c.hop.tail.portText = some port := by
  obtain ⟨htail, hhead⟩ := Graph.mem_mentions_of_crossings hc
  exact Vertex.exists_port_iff htail hhead hne

lemma Crossing.putsPort_head_iff {port : Text} :
    c.hop.PutsPort c.head port ↔ c.hop.head.portText = some port := by
  obtain ⟨htail, hhead⟩ := Graph.mem_mentions_of_crossings hc
  rw [← Vertex.exists_port_iff hhead htail hne.symm]
  simp only [Hop.PutsPort, or_comm]

variable {s : ListedLink} {directed : Bool} (hshown : c.Shown directed s)
  (hfree : c.hop.LeavesPorts)
include hshown hfree

/-- A link that is listed in the direction of its hop keeps its ports. -/
lemma Crossing.keepsPorts_of_along (htail : s.tail = c.tail) (hhead : s.head = c.head) :
    s.KeepsPorts c.hop := by
  refine ⟨fun port hport => ?_, fun port hport => ?_⟩
  · rw [hshown.get?_eq, hfree.value_tailport] at hport
    rwa [htail, Crossing.putsPort_tail_iff hc hne]
  · rw [hshown.get?_eq, hfree.value_headport] at hport
    rwa [hhead, Crossing.putsPort_head_iff hc hne]

/-- A link that is listed against the direction of its hop keeps its ports only if they are
alike. -/
lemma Crossing.keepsPorts_of_against (htail : s.tail = c.head) (hhead : s.head = c.tail) :
    s.KeepsPorts c.hop ↔ c.hop.tail.portText = c.hop.head.portText := by
  constructor
  · intro hkeeps
    refine Option.ext fun port => ⟨fun hport => ?_, fun hport => ?_⟩
    · rw [← hfree.value_tailport, ← hshown.get?_eq] at hport
      have hputs := hkeeps.tailport port hport
      rwa [htail, Crossing.putsPort_head_iff hc hne] at hputs
    · rw [← hfree.value_headport, ← hshown.get?_eq] at hport
      have hputs := hkeeps.headport port hport
      rwa [hhead, Crossing.putsPort_tail_iff hc hne] at hputs
  · intro hports
    refine ⟨fun port hport => ?_, fun port hport => ?_⟩
    · rw [hshown.get?_eq, hfree.value_tailport, hports] at hport
      rwa [htail, Crossing.putsPort_head_iff hc hne]
    · rw [hshown.get?_eq, hfree.value_headport, ← hports] at hport
      rwa [hhead, Crossing.putsPort_tail_iff hc hne]

end Crossing

/-! ## Listed links -/

namespace Network

/-- The ports of a listed link between two nodes are with their ends exactly if links have
directions, or the hop that asks for the link leads from the earlier node to the later one, or
its two ports are alike. -/
theorem keepsPorts_iff {g : Graph} {s : ListedLink} (hs : s ∈ (ofGraph g).listing)
    (hloop : s.tail ≠ s.head) {c : Crossing} (hc : c ∈ g.crossings)
    (hshown : c.Shown g.directed s) (hfree : c.hop.LeavesPorts) :
    s.KeepsPorts c.hop ↔
      g.directed = true ∨
      (ofGraph g).nodeNames.idxOf c.tail < (ofGraph g).nodeNames.idxOf c.head ∨
      c.hop.tail.portText = c.hop.head.portText := by
  have hmem : s.tail ∈ (ofGraph g).nodeNames := (mem_listFrom hs).1
  have hplaces : (ofGraph g).nodeNames.idxOf s.tail ≠ (ofGraph g).nodeNames.idxOf s.head :=
    fun h => hloop ((List.idxOf_inj hmem).mp h)
  rcases hshown.ends with ⟨htail, hhead⟩ | ⟨hdirected, htail, hhead⟩
  · have hne : c.tail ≠ c.head := by rwa [← htail, ← hhead]
    refine iff_of_true (Crossing.keepsPorts_of_along hc hne hshown hfree htail hhead) ?_
    cases hdirected : g.directed with
    | true => exact .inl rfl
    | false =>
      have hle := idxOf_tail_le ((directed_ofGraph g).trans hdirected) hs
      rw [htail, hhead] at hle hplaces
      exact .inr (.inl (lt_of_le_of_ne hle hplaces))
  · have hne : c.tail ≠ c.head := by
      rw [← htail, ← hhead]
      exact hloop.symm
    have hle := idxOf_tail_le ((directed_ofGraph g).trans hdirected) hs
    rw [htail, hhead] at hle
    rw [Crossing.keepsPorts_of_against hc hne hshown hfree htail hhead, hdirected,
      or_iff_right (by simp), or_iff_right (Nat.not_lt.mpr hle)]

/-- A link that is listed in the direction of its hop. -/
theorem keepsPorts_iff_earlier :
    ∃ g s c, Graph.parse "graph \x7ba:n--b:s\x7d".toList = .ok g ∧ s ∈ (ofGraph g).listing ∧
      s.tail ≠ s.head ∧ c ∈ g.crossings ∧ c.Shown g.directed s ∧ c.hop.LeavesPorts ∧
      s.data.get? "headport".toList = some ['s'] ∧ s.KeepsPorts c.hop := by
  let tail : Vertex := .node ⟨⟨.plain, ['a']⟩, some ⟨none, some .north⟩⟩
  let head : Vertex := .node ⟨⟨.plain, ['b']⟩, some ⟨none, some .south⟩⟩
  let c : Crossing := ⟨⟨[], tail, head⟩, ['a'], ['b']⟩
  let s : ListedLink := ⟨['a'], ['b'], 0, Link.dataOf [] tail head⟩
  have hcomputed : (Graph.parse "graph \x7ba:n--b:s\x7d".toList).toOption.any
      (fun g => g = ⟨false, false, none, [.edge [tail, head] []]⟩) = true := by
    decide +kernel
  obtain ⟨g, hread, hg⟩ := Graph.exists_parse_of_any hcomputed
  obtain rfl := of_decide_eq_true hg
  have hs : s ∈ (ofGraph ⟨false, false, none, [.edge [tail, head] []]⟩).listing := by decide
  have hc : c ∈ Graph.crossings ⟨false, false, none, [.edge [tail, head] []]⟩ :=
    List.mem_singleton.mpr rfl
  have hshown : c.Shown false s := Crossing.shown_of_shows ⟨rfl, rfl⟩
  have hfree : c.hop.LeavesPorts := by simp [Hop.LeavesPorts, c]
  have hloop : s.tail ≠ s.head := by decide
  exact ⟨_, s, c, hread, hs, hloop, hc, hshown, hfree, rfl,
    (keepsPorts_iff hs hloop hc hshown hfree).mpr (.inr (.inl (by decide)))⟩

/-- The hop leads from the later node to the earlier one, and the port of the node `a` is listed
as that of `b`. -/
theorem ports_change_ends :
    ∃ g s c, Graph.parse "graph \x7bb a:n--b\x7d".toList = .ok g ∧
      (ofGraph g).listing = [s] ∧ s.tail ≠ s.head ∧ g.crossings = [c] ∧
      c.Shown g.directed s ∧ c.hop.LeavesPorts ∧ ¬ s.KeepsPorts c.hop := by
  let tail : Vertex := .node ⟨⟨.plain, ['a']⟩, some ⟨none, some .north⟩⟩
  let head : Vertex := .node ⟨⟨.plain, ['b']⟩, none⟩
  let c : Crossing := ⟨⟨[], tail, head⟩, ['a'], ['b']⟩
  let s : ListedLink := ⟨['b'], ['a'], 0, Link.dataOf [] tail head⟩
  have hcomputed : (Graph.parse "graph \x7bb a:n--b\x7d".toList).toOption.any
      (fun g => g = ⟨false, false, none,
        [.node ⟨⟨.plain, ['b']⟩, none⟩ [], .edge [tail, head] []]⟩) = true := by
    decide +kernel
  obtain ⟨g, hread, hg⟩ := Graph.exists_parse_of_any hcomputed
  obtain rfl := of_decide_eq_true hg
  refine ⟨_, s, c, hread, by decide, by decide, rfl, Crossing.shown_of_shows ⟨rfl, rfl⟩,
    by simp [Hop.LeavesPorts, c], fun hkeeps => ?_⟩
  -- under `tailport` stands the port of `a`, but the tail is `b`, which has none
  obtain ⟨id, hid | hid, hname, hport⟩ := hkeeps.tailport ['n'] rfl
  · cases hid
    exact absurd hname (by decide)
  · cases hid
    cases hport

/-- Documents with the port at different nodes have the same listing. -/
example :
    (Graph.parse "graph \x7bb a a:n--b\x7d".toList).toOption.map
        (fun g => ((ofGraph g).nodes, (ofGraph g).listing)) =
      (Graph.parse "graph \x7bb a b:n--a\x7d".toList).toOption.map
        (fun g => ((ofGraph g).nodes, (ofGraph g).listing)) := by
  decide +kernel

end Network

end DotNotation
