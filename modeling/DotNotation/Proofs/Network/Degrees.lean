/-
# Degrees

Links can be looked at in three ways: as they arose, in the rows of the nodes, from which the
degrees are taken, and in the listing.  Without directions a link stands in the rows of both its
ends but only once in the listing.  `Network.degree_ofGraph` says that nevertheless the degree of
a node is the number of ends that the listing has at it, and that the degrees sum to twice the
number of links.
-/
import DotNotation.Proofs.Network.Mentions
import DotNotation.Proofs.Network.Pairs
import Mathlib.Data.Multiset.Bind

namespace DotNotation

/-! ## Ends of listed links -/

/-- The two ends of a listed link. -/
def ListedLink.ends (s : ListedLink) : List Text := [s.tail, s.head]

/-- A listed link may be turned round, but it has the ends of the link that it shows. -/
lemma ListedLink.Shows.ends_perm {directed : Bool} {l : Link} {s : ListedLink}
    (h : s.Shows directed l) : l.ends.Perm s.ends := by
  rcases Link.joins_iff.mp h.2 with ⟨htail, hhead⟩ | ⟨-, htail, hhead⟩
  · rw [Link.ends, ListedLink.ends, htail, hhead]
  · rw [Link.ends, ListedLink.ends, htail, hhead]
    exact List.Perm.swap _ _ _

namespace Network

variable {n : Network}

/-- The listing shows every link with its ends. -/
theorem ends_perm (hn : n.Closed) : n.ends.Perm (n.listing.flatMap ListedLink.ends) := by
  have hends : Multiset.Rel (fun (l : Link) (s : ListedLink) => (l.ends : Multiset Text) = s.ends)
      ↑n.links ↑n.listing :=
    (rel_listing hn).mono fun l _ s _ hshows => Multiset.coe_eq_coe.mpr hshows.ends_perm
  rw [← Multiset.rel_map, Multiset.rel_eq] at hends
  rw [← Multiset.coe_eq_coe, ends, ← Multiset.coe_bind, ← Multiset.coe_bind, Multiset.bind,
    Multiset.bind, hends]

/-! ## The network of a document -/

/-- The degree of a node in the network of a document is the number of ends that the listed links
have at it, two for a loop, and also what the rows of the network give.  A text that names no
node has no ends.  Over all nodes the degrees sum to twice the number of links, which is the
length of the listing. -/
theorem degree_ofGraph (g : Graph) :
    (∀ name, (ofGraph g).degree name =
      ((ofGraph g).listing.flatMap ListedLink.ends).count name) ∧
    (∀ name, (ofGraph g).degree name = (ofGraph g).rowDegree name) ∧
    (∀ name, name ∉ (ofGraph g).nodeNames → (ofGraph g).degree name = 0) ∧
    ((ofGraph g).nodeNames.map (ofGraph g).degree).sum = 2 * (ofGraph g).linkCount ∧
    (ofGraph g).linkCount = (ofGraph g).listing.length := by
  have hclosed := closed_ofGraph g
  refine ⟨fun name => ?_, fun name => ?_, fun name => degree_of_not_mem, ?_, ?_⟩
  · rw [hclosed.degree_eq_count, (ends_perm hclosed).count_eq]
  · rw [hclosed.degree_eq_count, hclosed.rowDegree_eq_count]
  · rw [hclosed.sum_degree, hclosed.linkCount_eq]
  · rw [hclosed.linkCount_eq]
    simpa using Multiset.card_eq_card_of_rel (rel_listing hclosed)

/-- A loop counts twice at its node, and a link that is listed from its other end counts at
both. -/
theorem degree_ofGraph_loop :
    ∃ g, Graph.parse "graph \x7bb a--b a--a\x7d".toList = .ok g ∧
      (ofGraph g).listing.map ListedLink.ends = [[['b'], ['a']], [['a'], ['a']]] ∧
      (ofGraph g).degree ['a'] = 3 ∧
      ['c'] ∉ (ofGraph g).nodeNames ∧ (ofGraph g).degree ['c'] = 0 := by
  have hcomputed : (Graph.parse "graph \x7bb a--b a--a\x7d".toList).toOption.any
      (fun g => (ofGraph g).listing.map ListedLink.ends = [[['b'], ['a']], [['a'], ['a']]] ∧
        ['c'] ∉ (ofGraph g).nodeNames) = true := by
    decide +kernel
  obtain ⟨g, hread, hg⟩ := Graph.exists_parse_of_any hcomputed
  obtain ⟨hlisting, hname⟩ := of_decide_eq_true hg
  obtain ⟨hdegree, -, hnone, -, -⟩ := degree_ofGraph g
  refine ⟨g, hread, hlisting, ?_, hname, hnone ['c'] hname⟩
  rw [hdegree, List.flatMap_def, hlisting]
  decide

end Network

end DotNotation
