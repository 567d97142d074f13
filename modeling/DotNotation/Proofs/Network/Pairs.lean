/-
# Every link is listed once

A listing goes through the nodes and, for each, through its neighbours.  Without directions
either end of a link has the other one for a neighbour, and the link is passed over at the end
that comes second.  `Network.filter_listing` says what the listing holds for one pair of nodes:
their parallel links in the order in which they arose, numbered from zero.  A link belongs to
one pair alone, so the whole listing shows every link once (`Network.rel_listing`).

With the links of a document counted by its hops this gives `Network.listing_ofGraph`.
-/
import DotNotation.Proofs.Network.Ends
import Mathlib.Data.Finset.Insert
import Mathlib.Data.Multiset.Filter
import Mathlib.Data.Sym.Sym2

namespace DotNotation

/-! ## Pairs of nodes -/

namespace Link

lemma joins_true_iff {u v : Text} {l : Link} :
    l.joins true u v ↔ (l.tail, l.head) = (u, v) := by
  simp [joins_iff]

lemma joins_false_iff {u v : Text} {l : Link} :
    l.joins false u v ↔ s(l.tail, l.head) = s(u, v) := by
  simp [joins_iff]

lemma joins_comm (u v : Text) : joins false u v = joins false v u := by
  funext l
  have hswap : s(u, v) = s(v, u) := Sym2.eq_swap
  rw [Bool.eq_iff_iff, joins_false_iff, joins_false_iff, hswap]

lemma joins_congr {directed : Bool} {u v : Text} {m : Link} (hm : m.joins directed u v)
    (l : Link) : l.joins directed m.tail m.head ↔ l.joins directed u v := by
  cases directed with
  | true => rw [joins_true_iff, joins_true_iff, joins_true_iff.mp hm]
  | false => rw [joins_false_iff, joins_false_iff, joins_false_iff.mp hm]

end Link

/-- A listed link as a link. -/
def ListedLink.link (s : ListedLink) : Link := ⟨s.tail, s.head, s.data⟩

/-- The data of a listed link with its number. -/
def ListedLink.numbered (s : ListedLink) : Dictionary Text × Nat := (s.data, s.key)

/-! ## One node -/

namespace Network

variable {n : Network} {u v : Text}

lemma mem_neighbours : v ∈ n.neighbours u ↔ ∃ l ∈ n.links, l.joins n.directed u v := by
  rw [neighbours, Text.mem_distinct, List.mem_filterMap]
  simp only [Link.other?_eq_some_iff]

lemma between_eq_nil (h : v ∉ n.neighbours u) : n.between u v = [] := by
  rw [between, List.filter_eq_nil_iff]
  intro l hl hjoins
  exact h (mem_neighbours.mpr ⟨l, hl, hjoins⟩)

lemma mem_listBetween {s : ListedLink} (h : s ∈ n.listBetween u v) :
    s.tail = u ∧ s.head = v := by
  obtain ⟨⟨l, key⟩, -, rfl⟩ := List.mem_map.mp h
  exact ⟨rfl, rfl⟩

/-- Of lists that each hold one head alone, the elements with a given head come from one. -/
lemma filter_flatMap_heads {f : Text → List ListedLink} (hf : ∀ w, ∀ s ∈ f w, s.head = w)
    {ws : List Text} (hws : ws.Nodup) (v : Text) :
    (ws.flatMap f).filter (fun s => s.head = v) = if v ∈ ws then f v else [] := by
  induction ws with
  | nil => simp
  | cons w rest ih =>
    obtain ⟨hw, hrest⟩ := List.nodup_cons.mp hws
    rw [List.flatMap_cons, List.filter_append, ih hrest]
    by_cases h : v = w
    · have hfirst : (f w).filter (fun s => s.head = v) = f w := by
        rw [List.filter_eq_self]
        intro s hs
        simpa [h] using hf w s hs
      rw [hfirst, h, if_neg hw, if_pos (by simp), List.append_nil]
    · have hfirst : (f w).filter (fun s => s.head = v) = [] := by
        rw [List.filter_eq_nil_iff]
        intro s hs hv
        have hv' : s.head = v := by simpa using hv
        exact h (hv'.symm.trans (hf w s hs))
      simp [hfirst, h]

/-- The listing at one node, after the nodes in `seen`. -/
def row (n : Network) (u : Text) (seen : List Text) : List ListedLink :=
  ((n.neighbours u).filter fun v => n.directed || !seen.contains v).flatMap (n.listBetween u)

lemma listFrom_cons (seen rest : List Text) :
    n.listFrom seen (u :: rest) = n.row u seen ++ n.listFrom (u :: seen) rest := rfl

lemma mem_row {seen : List Text} {s : ListedLink} (h : s ∈ n.row u seen) :
    s.tail = u ∧ s.head ∈ n.neighbours u ∧ (n.directed = true ∨ s.head ∉ seen) := by
  obtain ⟨w, hw, hs⟩ := List.mem_flatMap.mp h
  obtain ⟨hnear, hvisible⟩ := List.mem_filter.mp hw
  obtain ⟨htail, hhead⟩ := mem_listBetween hs
  rw [hhead]
  exact ⟨htail, hnear, by simpa using hvisible⟩

/-- A node lists its links to any node that it may still see. -/
lemma filter_row {seen : List Text} (hseen : n.directed = true ∨ v ∉ seen) :
    (n.row u seen).filter (fun s => s.head = v) = n.listBetween u v := by
  have hheads : ∀ w, ∀ s ∈ n.listBetween u w, s.head = w := fun w s hs => (mem_listBetween hs).2
  have hnodup : (n.neighbours u).Nodup := Text.nodup_distinct _
  rw [row, filter_flatMap_heads hheads (hnodup.filter _)]
  by_cases hnear : v ∈ n.neighbours u
  · exact if_pos (List.mem_filter.mpr ⟨hnear, by simpa using hseen⟩)
  · rw [if_neg fun h => hnear (List.mem_filter.mp h).1, listBetween, between_eq_nil hnear]
    rfl

/-! ## One pair -/

lemma mem_listFrom {seen us : List Text} {s : ListedLink} (h : s ∈ n.listFrom seen us) :
    s.tail ∈ us ∧ s.head ∈ n.neighbours s.tail ∧ (n.directed = true ∨ s.head ∉ seen) := by
  induction us generalizing seen with
  | nil => simp [listFrom] at h
  | cons u rest ih =>
    rw [listFrom_cons, List.mem_append] at h
    rcases h with h | h
    · obtain ⟨htail, hnear, hseen⟩ := mem_row h
      exact ⟨by simp [htail], htail ▸ hnear, hseen⟩
    · obtain ⟨htail, hnear, hseen⟩ := ih h
      refine ⟨List.mem_cons_of_mem u htail, hnear, ?_⟩
      exact hseen.imp_right fun hhead hmem => hhead (List.mem_cons_of_mem u hmem)

lemma listFrom_append (seen first rest : List Text) :
    n.listFrom seen (first ++ rest) =
      n.listFrom seen first ++ n.listFrom (first.reverse ++ seen) rest := by
  induction first generalizing seen with
  | nil => rfl
  | cons u first ih =>
    rw [List.cons_append, listFrom_cons, listFrom_cons, ih, List.reverse_cons,
      List.append_assoc, List.append_assoc]
    rfl

/-- The links of a pair are listed at the node of the pair that comes first, and nowhere
else. -/
lemma filter_listFrom {first rest : List Text} (hnodup : (first ++ u :: rest).Nodup)
    (hv : n.directed = true ∨ v ∉ first) :
    (n.listFrom [] (first ++ u :: rest)).filter (fun s => s.link.joins n.directed u v) =
      n.listBetween u v := by
  obtain ⟨-, hrest, hdisjoint⟩ := List.nodup_append.mp hnodup
  have hufirst : u ∉ first := fun h => hdisjoint u h u (by simp) rfl
  have hurest : u ∉ rest := (List.nodup_cons.mp hrest).1
  -- before `u`: neither end of the pair was visited
  have hbefore : (n.listFrom [] first).filter (fun s => s.link.joins n.directed u v) = [] := by
    rw [List.filter_eq_nil_iff]
    intro s hs hjoins
    obtain ⟨htail, -, -⟩ := mem_listFrom hs
    rcases Link.joins_iff.mp hjoins with ⟨hu, -⟩ | ⟨hundirected, htailv, -⟩
    · exact hufirst (hu ▸ htail)
    · rcases hv with hv | hv
      · exact absurd hv (by simp [hundirected])
      · exact hv (htailv ▸ htail)
  have hat : (n.row u first.reverse).filter (fun s => s.link.joins n.directed u v) =
      n.listBetween u v := by
    rw [← filter_row (hv.imp_right fun h hmem => h (List.mem_reverse.mp hmem))]
    refine List.filter_congr fun s hs => ?_
    have htail : s.link.tail = u := (mem_row hs).1
    have hhead : s.link.head = s.head := rfl
    rw [Bool.eq_iff_iff, Link.joins_iff, htail, hhead, decide_eq_true_iff]
    constructor
    · rintro (⟨-, hv⟩ | ⟨-, huv, hu⟩)
      · exact hv
      · exact hu.trans huv
    · exact fun hv => .inl ⟨rfl, hv⟩
  -- behind `u`: the other end passes over `u`, which it has seen
  have hafter : (n.listFrom (u :: first.reverse) rest).filter
      (fun s => s.link.joins n.directed u v) = [] := by
    rw [List.filter_eq_nil_iff]
    intro s hs hjoins
    obtain ⟨htail, -, hseen⟩ := mem_listFrom hs
    rcases Link.joins_iff.mp hjoins with ⟨hu, -⟩ | ⟨hundirected, -, hhead⟩
    · exact hurest (hu ▸ htail)
    · rcases hseen with hseen | hseen
      · exact absurd hseen (by simp [hundirected])
      · have hheadu : s.head = u := hhead
        exact hseen (by simp [hheadu])
  rw [listFrom_append, listFrom_cons, List.append_nil, List.filter_append, List.filter_append,
    hbefore, hat, hafter, List.nil_append, List.append_nil]

lemma map_numbered_listBetween (u v : Text) :
    (n.listBetween u v).map ListedLink.numbered = ((n.between u v).map Link.data).zipIdx := by
  rw [listBetween, List.map_map, List.zipIdx_map]
  rfl

lemma Closed.mem_of_between (hn : n.Closed) (h : n.between u v ≠ []) : u ∈ n.nodeNames := by
  obtain ⟨l, hbetween⟩ := List.exists_mem_of_ne_nil _ h
  obtain ⟨hl, hjoins⟩ := List.mem_filter.mp hbetween
  rcases Link.joins_iff.mp hjoins with ⟨rfl, rfl⟩ | ⟨-, rfl, rfl⟩
  · exact hn.tail_mem l hl
  · exact hn.head_mem l hl

/-- A member of a list comes before a given element or behind it. -/
lemma exists_first {ws : List Text} (hu : u ∈ ws) (v : Text) :
    (∃ first rest, ws = first ++ u :: rest ∧ v ∉ first) ∨
      ∃ first rest, ws = first ++ v :: rest ∧ u ∉ first := by
  obtain ⟨first, rest, hws, hfirst⟩ := List.eq_append_cons_of_mem hu
  by_cases hbefore : v ∈ first
  · obtain ⟨first', rest', rfl⟩ := List.append_of_mem hbefore
    refine .inr ⟨first', rest' ++ u :: rest, by simp [hws], ?_⟩
    exact fun h => hfirst (List.mem_append_left _ h)
  · exact .inl ⟨first, rest, hws, hbefore⟩

/-- The listing of a pair: its links in the order in which they arose, numbered from zero. -/
theorem filter_listing (hn : n.Closed) (u v : Text) :
    (n.listing.filter (fun s => s.link.joins n.directed u v)).map ListedLink.numbered =
      ((n.between u v).map Link.data).zipIdx := by
  by_cases hnone : n.between u v = []
  · -- no link, no neighbour, nothing listed
    have hempty : n.listing.filter (fun s => s.link.joins n.directed u v) = [] := by
      rw [List.filter_eq_nil_iff]
      intro s hs hjoins
      obtain ⟨-, hnear, -⟩ := mem_listFrom hs
      obtain ⟨l, hl, hls⟩ := mem_neighbours.mp hnear
      have hljoins := (Link.joins_congr hjoins l).mp hls
      have hlinks : l ∈ n.between u v := List.mem_filter.mpr ⟨hl, hljoins⟩
      simp [hnone] at hlinks
    rw [hempty, hnone]
    rfl
  · have hu := hn.mem_of_between hnone
    rw [← map_numbered_listBetween]
    cases hdirected : n.directed with
    | true =>
      obtain ⟨first, rest, hnames⟩ := List.append_of_mem hu
      rw [← hdirected, listing, hnames, filter_listFrom (hnames ▸ hn.nodup) (.inl hdirected)]
    | false =>
      rw [listing]
      rcases exists_first hu v with ⟨first, rest, hnames, hfirst⟩ | ⟨first, rest, hnames, hfirst⟩
      · rw [← hdirected, hnames, filter_listFrom (hnames ▸ hn.nodup) (.inr hfirst)]
      · -- `v` comes first, and the pair is listed from there
        have hswap : n.between u v = n.between v u := by
          rw [between, between, hdirected, Link.joins_comm]
        rw [Link.joins_comm, ← hdirected, hnames,
          filter_listFrom (hnames ▸ hn.nodup) (.inr hfirst), map_numbered_listBetween,
          map_numbered_listBetween, hswap]

/-- What the listing has for a pair under a number. -/
lemma exists_listed_iff (hn : n.Closed) {d : Dictionary Text} {k : Nat} :
    (∃ s ∈ n.listing, s.link.joins n.directed u v ∧ s.data = d ∧ s.key = k) ↔
      ((n.between u v).map Link.data)[k]? = some d := by
  rw [← List.mk_mem_zipIdx_iff_getElem?, ← filter_listing hn u v]
  simp [ListedLink.numbered, and_assoc]

/-- Without directions a link is listed at the end that comes first among the nodes. -/
lemma idxOf_tail_le (hdirected : n.directed = false) {s : ListedLink} (hs : s ∈ n.listing) :
    n.nodeNames.idxOf s.tail ≤ n.nodeNames.idxOf s.head := by
  obtain ⟨first, rest, hnames, hfirst⟩ := List.eq_append_cons_of_mem (mem_listFrom hs).1
  have hhead : s.head ∉ first := by
    rw [listing, hnames, listFrom_append, List.mem_append] at hs
    rcases hs with hs | hs
    · exact absurd (mem_listFrom hs).1 hfirst
    · simpa [hdirected] using (mem_listFrom hs).2.2
  rw [hnames, List.idxOf_append_of_notMem hfirst, List.idxOf_append_of_notMem hhead,
    List.idxOf_cons_self]
  omega

lemma Closed.head_mem_of_listing (hn : n.Closed) {s : ListedLink} (hs : s ∈ n.listing) :
    s.head ∈ n.nodeNames := by
  obtain ⟨l, hl, hjoins⟩ := mem_neighbours.mp (mem_listFrom hs).2.1
  rcases Link.joins_iff.mp hjoins with ⟨-, hhead⟩ | ⟨-, hhead, -⟩
  · exact hhead ▸ hn.head_mem l hl
  · exact hhead ▸ hn.tail_mem l hl

end Network

/-! ## All pairs -/

lemma filter_coe_of_iff {α : Type} {p : α → Prop} [DecidablePred p] {q : α → Bool}
    (h : ∀ a, q a ↔ p a) (as : List α) : Multiset.filter p ↑as = ↑(as.filter q) := by
  rw [Multiset.filter_coe]
  congr 1
  refine List.filter_congr fun a _ => ?_
  rw [Bool.eq_iff_iff, decide_eq_true_iff, h]

section Fibers

variable {α β γ : Type} [DecidableEq γ] {f : α → γ} {g : β → γ}

lemma filter_mem_insert {c : γ} {classes : Finset γ} (hc : c ∉ classes) (s : Multiset α) :
    s.filter (f · ∈ insert c classes) = s.filter (f · = c) + s.filter (f · ∈ classes) := by
  have hdisjoint : s.filter (fun a => f a = c ∧ f a ∈ classes) = 0 := by
    rw [Multiset.filter_eq_nil]
    rintro a - ⟨rfl, hmem⟩
    exact hc hmem
  rw [Multiset.filter_add_filter, hdisjoint, add_zero]
  simp only [Finset.mem_insert]

/-- Collections whose members with the same value correspond to each other correspond as a
whole. -/
lemma rel_of_fibers {R : α → β → Prop} {s : Multiset α} {t : Multiset β}
    (h : ∀ c, Multiset.Rel R (s.filter (f · = c)) (t.filter (g · = c))) :
    Multiset.Rel R s t := by
  -- by induction on the values taken so far; in the end these are all that occur
  have hclasses : ∀ classes : Finset γ,
      Multiset.Rel R (s.filter (f · ∈ classes)) (t.filter (g · ∈ classes)) := by
    intro classes
    induction classes using Finset.induction_on with
    | empty => simp
    | insert c classes hc ih =>
      rw [filter_mem_insert hc, filter_mem_insert hc]
      exact (h c).add ih
  have hall := hclasses ((s.map f).toFinset ∪ (t.map g).toFinset)
  have hs : s.filter (f · ∈ (s.map f).toFinset ∪ (t.map g).toFinset) = s := by
    rw [Multiset.filter_eq_self]
    intro a ha
    simpa using .inl ⟨a, ha, rfl⟩
  have ht : t.filter (g · ∈ (s.map f).toFinset ∪ (t.map g).toFinset) = t := by
    rw [Multiset.filter_eq_self]
    intro b hb
    simpa using .inr ⟨b, hb, rfl⟩
  rwa [hs, ht] at hall

end Fibers

/-- A listed link shows a link: it has its data and its ends, in either order when the link has
no direction. -/
def ListedLink.Shows (directed : Bool) (l : Link) (s : ListedLink) : Prop :=
  s.data = l.data ∧ l.joins directed s.tail s.head

namespace Network

variable {n : Network}

lemma rel_pair {directed : Bool} {u v : Text} {links : List Link} {shown : List ListedLink}
    (h : (links.filter (fun l => l.joins directed u v)).map Link.data =
      (shown.filter (fun s => s.link.joins directed u v)).map ListedLink.data) :
    Multiset.Rel (ListedLink.Shows directed) ↑(links.filter (fun l => l.joins directed u v))
      ↑(shown.filter (fun s => s.link.joins directed u v)) := by
  have hdata : Multiset.Rel (fun l s => l.data = s.data)
      (↑(links.filter (fun l => l.joins directed u v)) : Multiset Link)
      (↑(shown.filter (fun s => s.link.joins directed u v)) : Multiset ListedLink) := by
    rw [← Multiset.rel_map, Multiset.rel_eq, Multiset.map_coe, Multiset.map_coe, h]
  refine hdata.mono fun l hl s hs heq => ⟨heq.symm, ?_⟩
  have hljoins := (List.mem_filter.mp hl).2
  have hsjoins := (List.mem_filter.mp hs).2
  exact (Link.joins_congr hsjoins l).mpr hljoins

/-- The listing shows every link once. -/
theorem rel_listing (hn : n.Closed) :
    Multiset.Rel (ListedLink.Shows n.directed) ↑n.links ↑n.listing := by
  have hpair : ∀ u v, Multiset.Rel (ListedLink.Shows n.directed)
      ↑(n.links.filter (fun l => l.joins n.directed u v))
      ↑(n.listing.filter (fun s => s.link.joins n.directed u v)) := by
    intro u v
    have hnumbered := congrArg (List.map Prod.fst) (filter_listing hn u v)
    rw [List.map_map, List.zipIdx_map_fst] at hnumbered
    exact rel_pair hnumbered.symm
  cases hdirected : n.directed with
  | true =>
    rw [hdirected] at hpair
    refine rel_of_fibers (f := fun l => (l.tail, l.head))
      (g := fun s => (s.link.tail, s.link.head)) ?_
    rintro ⟨u, v⟩
    rw [filter_coe_of_iff fun l => Link.joins_true_iff,
      filter_coe_of_iff fun s : ListedLink => Link.joins_true_iff (l := s.link)]
    exact hpair u v
  | false =>
    rw [hdirected] at hpair
    refine rel_of_fibers (f := fun l => s(l.tail, l.head))
      (g := fun s => s(s.link.tail, s.link.head)) ?_
    refine Sym2.ind fun u v => ?_
    rw [filter_coe_of_iff fun l => Link.joins_false_iff,
      filter_coe_of_iff fun s : ListedLink => Link.joins_false_iff (l := s.link)]
    exact hpair u v

end Network

/-! ## The listing of a document -/

/-- A listed link shows a link that a hop asks for: it has the same ends, in either order when
links have no direction, and it holds under each key what the hop says. -/
structure Crossing.Shown (directed : Bool) (c : Crossing) (s : ListedLink) : Prop where
  ends : (s.tail = c.tail ∧ s.head = c.head) ∨
    (directed = false ∧ s.tail = c.head ∧ s.head = c.tail)
  nodup_keys : s.data.keys.Nodup
  get?_eq : ∀ key, s.data.get? key = c.hop.value key

lemma Crossing.shown_of_shows {directed : Bool} {c : Crossing} {s : ListedLink}
    (h : s.Shows directed c.link) : c.Shown directed s := by
  obtain ⟨hdata, hjoins⟩ := h
  have hends : (c.tail = s.tail ∧ c.head = s.head) ∨
      (directed = false ∧ c.tail = s.head ∧ c.head = s.tail) := Link.joins_iff.mp hjoins
  refine ⟨?_, hdata ▸ Link.nodup_keys_dataOf _ _ _, fun key => ?_⟩
  · rcases hends with ⟨htail, hhead⟩ | ⟨hundirected, htail, hhead⟩
    · exact .inl ⟨htail.symm, hhead.symm⟩
    · exact .inr ⟨hundirected, hhead.symm, htail.symm⟩
  · rw [hdata]
    exact Link.get?_dataOf c.hop key

lemma Hop.length_links (h : Hop) :
    h.links.length = h.tail.mentions.dedup.length * h.head.mentions.dedup.length := by
  rw [← (Text.distinct_perm_dedup h.tail.mentions).length_eq,
    ← (Text.distinct_perm_dedup h.head.mentions).length_eq]
  simp [Hop.links, Link.step, Vertex.endpoints_eq, Vertex.members, List.length_flatMap]

/-- No hop of a document is lost, doubled or led astray.  The listing of its network shows each
link that a hop asks for once, and nothing else.  So the number of links is the sum over the
hops of the products of the numbers of nodes at their ends, and for each pair of nodes the
listing has the links in the order in which they arose, numbered from zero. -/
theorem Network.listing_ofGraph (g : Graph) :
    Multiset.Rel (Crossing.Shown g.directed) ↑g.crossings ↑(Network.ofGraph g).listing ∧
    (Network.ofGraph g).linkCount = (Network.ofGraph g).listing.length ∧
    (Network.ofGraph g).linkCount =
      (g.hops.map fun h => h.tail.mentions.dedup.length * h.head.mentions.dedup.length).sum ∧
    ∀ u v,
      ((Network.ofGraph g).listing.filter fun s => s.link.joins g.directed u v).map
          ListedLink.numbered =
        (((g.events.filterMap Event.link?).filter fun l => l.joins g.directed u v).map
          Link.data).zipIdx := by
  have hclosed := Network.closed_ofGraph g
  have hrel := Network.rel_listing hclosed
  rw [Network.directed_ofGraph] at hrel
  refine ⟨?_, ?_, ?_, fun u v => ?_⟩
  · have hlinks : (↑(Network.ofGraph g).links : Multiset Link) =
        Multiset.map Crossing.link ↑g.crossings := by
      rw [Multiset.map_coe, Multiset.coe_eq_coe]
      exact g.links_perm.trans g.crossings_perm.symm
    rw [hlinks, Multiset.rel_map_left] at hrel
    exact hrel.mono fun c _ s _ hshows => Crossing.shown_of_shows hshows
  · rw [hclosed.linkCount_eq]
    simpa using Multiset.card_eq_card_of_rel hrel
  · rw [hclosed.linkCount_eq, g.links_perm.length_eq, List.length_flatMap]
    simp only [Hop.length_links]
  · have hpair := Network.filter_listing hclosed u v
    rw [Network.directed_ofGraph, Network.between, Network.links_ofGraph,
      Network.directed_ofGraph] at hpair
    exact hpair

end DotNotation
