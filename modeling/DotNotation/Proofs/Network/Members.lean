/-
# The nodes that a vertex stands for

The list of a subgraph grows while its body is read.  A statement hands its own list on, and the
nodes of it that are missing are added at the end; the list of an edge statement grows in the same
way from vertex to vertex.  So a node passes through many lists, and in each of them it may be
there already.

What comes out does not depend on this.  `Subgraph.collected_eq` and `Vertex.endpoints_eq` say that
the lists are the mentions inside, at any depth and from left to right, each once and in the order
of first occurrence.
-/
import DotNotation.Network.Listing
import Mathlib.Data.List.Dedup
import Mathlib.Data.List.Perm.Basic

namespace DotNotation

/-! ## Mentions -/

mutual

/-- The nodes mentioned in a subgraph, in order and with repetition. -/
def Subgraph.mentions : Subgraph → List Text
  | .mk _ body => Statement.mentionsAll body

/-- The nodes mentioned in a statement, in order and with repetition. -/
def Statement.mentions : Statement → List Text
  | .node id _ => [id.id.text]
  | .edge chain _ => Vertex.mentionsAll chain
  | .subgraph group => group.mentions
  | .assign _ => []
  | .defaults _ _ => []

/-- The nodes mentioned in a body, in order and with repetition. -/
def Statement.mentionsAll : List Statement → List Text
  | [] => []
  | s :: rest => s.mentions ++ Statement.mentionsAll rest

/-- The nodes mentioned in a vertex, in order and with repetition. -/
def Vertex.mentions : Vertex → List Text
  | .node id => [id.id.text]
  | .subgraph group => group.mentions

/-- The nodes mentioned in a chain, in order and with repetition. -/
def Vertex.mentionsAll : List Vertex → List Text
  | [] => []
  | v :: rest => v.mentions ++ Vertex.mentionsAll rest

end

/-- The nodes mentioned in a subgraph, each once. -/
def Subgraph.members (group : Subgraph) : List Text := Text.distinct group.mentions

/-- The nodes mentioned in a vertex, each once. -/
def Vertex.members (v : Vertex) : List Text := Text.distinct v.mentions

/-! ## Lists without repetition -/

namespace Text

lemma mem_distinct {t : Text} {ts : List Text} : t ∈ distinct ts ↔ t ∈ ts := by
  induction ts with
  | nil => simp [distinct]
  | cons first rest ih =>
    by_cases h : t = first
    · simp [distinct, h]
    · simp [distinct, h, ih]

lemma nodup_distinct (ts : List Text) : (distinct ts).Nodup := by
  induction ts with
  | nil => exact List.nodup_nil
  | cons first rest ih =>
    rw [distinct, List.nodup_cons]
    exact ⟨by simp, ih.filter _⟩

lemma distinct_perm_dedup (ts : List Text) : (distinct ts).Perm ts.dedup := by
  rw [List.perm_ext_iff_of_nodup (nodup_distinct ts) ts.nodup_dedup]
  intro t
  rw [mem_distinct, List.mem_dedup]

lemma distinct_eq_self {ts : List Text} (h : ts.Nodup) : distinct ts = ts := by
  induction ts with
  | nil => rfl
  | cons t ts ih =>
    obtain ⟨ht, hts⟩ := List.nodup_cons.mp h
    have hkept : ∀ u ∈ ts, decide (u ≠ t) = true := by
      intro u hu
      simpa using fun heq : u = t => ht (heq ▸ hu)
    rw [distinct, ih hts, List.filter_eq_self.mpr hkept]

/-- Of two lists in a row the second one keeps what the first one does not have. -/
lemma distinct_append (ts us : List Text) :
    distinct (ts ++ us) = distinct ts ++ (distinct us).filter (· ∉ ts) := by
  induction ts with
  | nil => simp [distinct]
  | cons t ts ih =>
    rw [List.cons_append, distinct, distinct, ih, List.filter_append, List.filter_filter,
      List.cons_append]
    congr 3
    funext u
    simp [not_or]

/-- Adding what is missing one by one is adding all of it at once. -/
lemma addMissing_eq (known ts : List Text) :
    addMissing known ts = known ++ (distinct ts).filter (· ∉ known) := by
  induction ts generalizing known with
  | nil => simp [addMissing, distinct]
  | cons t ts ih =>
    rw [addMissing, ih, distinct]
    by_cases ht : t ∈ known
    · -- no node that is missing is equal to `t`
      have hne : ∀ u ∈ distinct ts,
          (decide (u ∉ known) && decide (u ≠ t)) = decide (u ∉ known) := by
        intro u _
        by_cases hu : u ∈ known
        · simp [hu]
        · have hut : u ≠ t := fun heq => hu (heq ▸ ht)
          simp [hut]
      rw [if_pos ht, List.filter_cons_of_neg (by simpa using ht), List.filter_filter,
        List.filter_congr hne]
    · rw [if_neg ht, List.filter_cons_of_pos (by simpa using ht), List.filter_filter,
        List.append_assoc, List.singleton_append]
      congr 3
      funext u
      simp [not_or]

/-- Lists without repetition are merged as the lists behind them follow each other. -/
lemma addMissing_distinct (seen ts : List Text) :
    addMissing (distinct seen) (distinct ts) = distinct (seen ++ ts) := by
  rw [addMissing_eq, distinct_eq_self (nodup_distinct ts), distinct_append]
  simp only [mem_distinct]

end Text

/-! ## Lists of bodies and chains -/

mutual

/-- The list of a subgraph has the nodes mentioned in it, each once. -/
theorem Subgraph.collected_eq : ∀ group : Subgraph, group.collected = group.members
  | .mk id body => by
    rw [Subgraph.collected, Subgraph.members, Subgraph.mentions]
    exact Statement.collect_distinct [] body

lemma Statement.collected_eq : ∀ s : Statement, s.collected = Text.distinct s.mentions
  | .node id attrs => by
    rw [Statement.collected, Statement.mentions]
    rfl
  | .edge [] attrs => rfl
  | .edge (first :: rest) attrs => by
    rw [Statement.collected, Statement.mentions, Vertex.mentionsAll, Vertex.endpoints_eq first]
    exact Vertex.collect_distinct first.mentions rest
  | .subgraph group => by
    rw [Statement.collected, Statement.mentions]
    exact Subgraph.collected_eq group
  | .assign a => rfl
  | .defaults target attrs => rfl

/-- A list that has what was mentioned so far, each once, goes on to have all of it. -/
lemma Statement.collect_distinct (seen : List Text) : ∀ body : List Statement,
    Statement.collect (Text.distinct seen) body =
      Text.distinct (seen ++ Statement.mentionsAll body)
  | [] => by rw [Statement.collect, Statement.mentionsAll, List.append_nil]
  | s :: rest => by
    rw [Statement.collect, Statement.mentionsAll, Statement.collected_eq s,
      Text.addMissing_distinct, Statement.collect_distinct (seen ++ s.mentions) rest,
      List.append_assoc]

/-- A vertex stands for the nodes mentioned in it, each once. -/
theorem Vertex.endpoints_eq : ∀ v : Vertex, v.endpoints = v.members
  | .node id => by
    rw [Vertex.endpoints, Vertex.members, Vertex.mentions]
    rfl
  | .subgraph group => by
    rw [Vertex.endpoints, Vertex.members, Vertex.mentions]
    exact Subgraph.collected_eq group

lemma Vertex.collect_distinct (seen : List Text) : ∀ chain : List Vertex,
    Vertex.collect (Text.distinct seen) chain =
      Text.distinct (seen ++ Vertex.mentionsAll chain)
  | [] => by rw [Vertex.collect, Vertex.mentionsAll, List.append_nil]
  | v :: rest => by
    rw [Vertex.collect, Vertex.mentionsAll, Vertex.endpoints_eq v, Vertex.members,
      Text.addMissing_distinct, Vertex.collect_distinct (seen ++ v.mentions) rest,
      List.append_assoc]

end

end DotNotation
