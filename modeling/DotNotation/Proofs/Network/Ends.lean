/-
# Ends of links

Every link has two ends, and in a network each of them is at a node.  The degree of a node is
counted along its row, where it has its neighbours and for each of them the parallel links.
Without directions a link stands in the rows of both its ends, and a loop stands once in the one
row that it has; with directions a link stands in the row of its tail, and the rows are searched
for the links to its head.

`Network.Closed.degree_eq_count` says that this is the number of ends at the node.  So the degrees
sum to twice the number of links, and half the sum is that number
(`Network.Closed.linkCount_eq`).
-/
import DotNotation.Proofs.Network.Hops
import Mathlib.Algebra.Ring.Nat

namespace DotNotation

/-! ## Ends -/

namespace Link

lemma joins_iff {directed : Bool} {u v : Text} {l : Link} :
    l.joins directed u v ↔
      (l.tail = u ∧ l.head = v) ∨ (directed = false ∧ l.tail = v ∧ l.head = u) := by
  simp [joins, and_assoc]

/-- A link leads from a node to another exactly if it joins the two. -/
lemma other?_eq_some_iff {directed : Bool} {u v : Text} {l : Link} :
    l.other? directed u = some v ↔ l.joins directed u v := by
  rw [joins_iff, other?]
  by_cases htail : l.tail = u
  · have hloop : l.head = u → l.tail = v → l.head = v := by
      intro hhead hv
      rw [hhead, ← htail, hv]
    simp only [htail, beq_self_eq_true, if_true, Option.some.injEq, true_and]
    constructor
    · exact .inl
    · rintro (hv | ⟨-, hv, hhead⟩)
      · exact hv
      · exact hloop hhead (htail.trans hv)
  · by_cases hhead : l.head = u
    · cases directed <;> simp [htail, hhead]
    · simp [htail, hhead]

/-- The two ends of a link. -/
def ends (l : Link) : List Text := [l.tail, l.head]

end Link

/-- Counting the members of a list one value at a time. -/
lemma Text.sum_count {ws ts : List Text} (hnodup : ws.Nodup) (hmem : ∀ t ∈ ts, t ∈ ws) :
    (ws.map fun w => ts.count w).sum = ts.length := by
  induction ws generalizing ts with
  | nil =>
    have hts : ts = [] := List.eq_nil_iff_forall_not_mem.mpr fun t ht => by simpa using hmem t ht
    rw [hts]
    rfl
  | cons w ws ih =>
    obtain ⟨hw, hws⟩ := List.nodup_cons.mp hnodup
    have hothers : ∀ t ∈ ts.filter (· ≠ w), t ∈ ws := by
      intro t ht
      obtain ⟨ht, hne⟩ := List.mem_filter.mp ht
      exact (List.mem_cons.mp (hmem t ht)).resolve_left (by simpa using hne)
    have hsame : ∀ v ∈ ws, (ts.filter (· ≠ w)).count v = ts.count v := by
      intro v hv
      have hne : v ≠ w := fun h => hw (h ▸ hv)
      exact List.count_filter (by simpa using hne)
    have hsplit : ts.length = ts.count w + (ts.filter (· ≠ w)).length := by
      simpa [List.count_eq_countP, List.countP_eq_length_filter] using
        List.length_eq_countP_add_countP (· == w) (l := ts)
    rw [List.map_cons, List.sum_cons, ← List.map_congr_left hsame, ih hws hothers, hsplit]

namespace Network

variable {n : Network}

lemma total_eq_sum (count : Text → ℕ) (ts : List Text) : total count ts = (ts.map count).sum := by
  rw [total, List.sum_eq_foldr, List.foldr_map]

/-- The ends of all links. -/
def ends (n : Network) : List Text := n.links.flatMap Link.ends

lemma length_ends (n : Network) : n.ends.length = 2 * n.links.length := by
  rw [ends, List.length_flatMap]
  simp [Link.ends, mul_comm]

lemma Closed.mem_of_ends (hn : n.Closed) {name : Text} (h : name ∈ n.ends) :
    name ∈ n.nodeNames := by
  obtain ⟨l, hl, hname⟩ := List.mem_flatMap.mp h
  rcases List.mem_pair.mp hname with rfl | rfl
  · exact hn.tail_mem l hl
  · exact hn.head_mem l hl

lemma count_ends_eq_countP (n : Network) {name : Text} {p q : Link → Bool}
    (h : ∀ l : Link, l.ends.count name = (if p l then 1 else 0) + if q l then 1 else 0) :
    n.ends.count name = n.links.countP p + n.links.countP q := by
  rw [ends]
  induction n.links with
  | nil => rfl
  | cons l rest ih =>
    rw [List.flatMap_cons, List.count_append, ih, h, List.countP_cons, List.countP_cons]
    omega

/-! ## Ends in the rows -/

lemma length_between (n : Network) (u v : Text) :
    (n.between u v).length = (n.links.filterMap (Link.other? n.directed u)).count v := by
  rw [between, ← List.countP_eq_length_filter, List.count_filterMap]
  refine List.countP_congr fun l _ => ?_
  rw [beq_iff_eq, Link.other?_eq_some_iff]

/-- The row of a node has the links that lead from it. -/
lemma sum_row (n : Network) (u : Text) :
    ((n.neighbours u).map fun v => (n.between u v).length).sum =
      n.links.countP fun l => (l.other? n.directed u).isSome := by
  simp only [length_between]
  rw [neighbours, Text.sum_count (Text.nodup_distinct _) fun t ht => Text.mem_distinct.mpr ht,
    List.length_filterMap_eq_countP]

/-- With directions all rows together have each link to a node once. -/
lemma Closed.sum_column (hn : n.Closed) (hdirected : n.directed = true) (u : Text) :
    (n.nodeNames.map fun w => (n.between w u).length).sum =
      n.links.countP fun l => l.head == u := by
  have hlength : ∀ w, (n.between w u).length =
      ((n.links.filter fun l => l.head == u).map Link.tail).count w := by
    intro w
    rw [between, List.count_eq_countP, List.countP_map, List.countP_filter,
      ← List.countP_eq_length_filter]
    refine List.countP_congr fun l _ => ?_
    simp [hdirected, Link.joins_iff]
  have htails : ∀ t ∈ (n.links.filter fun l => l.head == u).map Link.tail, t ∈ n.nodeNames := by
    intro t ht
    obtain ⟨l, hl, rfl⟩ := List.mem_map.mp ht
    exact hn.tail_mem l (List.mem_filter.mp hl).1
  simp only [hlength]
  rw [Text.sum_count hn.nodup htails, List.length_map, ← List.countP_eq_length_filter]

/-- The row of a node gives the number of ends at it. -/
theorem Closed.rowDegree_eq_count (hn : n.Closed) (u : Text) :
    n.rowDegree u = n.ends.count u := by
  rw [rowDegree, total_eq_sum, total_eq_sum, sum_row]
  cases hdirected : n.directed with
  | true =>
    rw [if_pos rfl, hn.sum_column hdirected]
    refine (count_ends_eq_countP n fun l => ?_).symm
    by_cases htail : l.tail = u <;> by_cases hhead : l.head = u <;>
      simp [Link.ends, Link.other?, htail, hhead]
  | false =>
    -- a loop stands once in its row and has two ends there
    have hloops : (n.between u u).length = n.links.countP (Link.joins false u u) := by
      rw [between, hdirected, List.countP_eq_length_filter]
    rw [if_neg (by simp), hloops]
    refine (count_ends_eq_countP n fun l => ?_).symm
    by_cases htail : l.tail = u <;> by_cases hhead : l.head = u <;>
      simp [Link.ends, Link.other?, Link.joins, htail, hhead]

/-! ## Degrees and the number of links -/

lemma degree_of_not_mem {name : Text} (h : name ∉ n.nodeNames) : n.degree name = 0 :=
  if_neg (mt (n.nodes.contains_iff_mem_keys name).mp h)

/-- The degree of a node is the number of ends at it, and where there is no node there are no
ends. -/
theorem Closed.degree_eq_count (hn : n.Closed) (name : Text) :
    n.degree name = n.ends.count name := by
  by_cases hname : name ∈ n.nodeNames
  · have hthere : n.nodes.contains name = true := (n.nodes.contains_iff_mem_keys name).mpr hname
    rw [degree, if_pos hthere, hn.rowDegree_eq_count]
  · rw [degree_of_not_mem hname, List.count_eq_zero.mpr fun hends => hname (hn.mem_of_ends hends)]

/-- Every end of a link is at one node. -/
lemma Closed.sum_degree (hn : n.Closed) :
    (n.nodeNames.map n.degree).sum = 2 * n.links.length := by
  have hdegree : n.degree = fun name => n.ends.count name := funext hn.degree_eq_count
  rw [hdegree, Text.sum_count hn.nodup fun t ht => hn.mem_of_ends ht, length_ends]

/-- The number of links that the degrees give is that of the links. -/
theorem Closed.linkCount_eq (hn : n.Closed) : n.linkCount = n.links.length := by
  rw [linkCount, total_eq_sum, hn.sum_degree]
  omega

end Network

end DotNotation
