/-
# What can be read

A graph is the result of reading some text when its parts are well formed, its ports are clear
and it nests within the limit; such a graph is read back from the text that is written for it.
Conversely reading gives nothing else, and for the limit this is shown here: a body inside
which some number of further bodies may be opened yields statements that nest no deeper.

The constructors check everything but the ports.  They accept a port that has only a name which
is the word of a compass point, and no text is read as such a port.  The main results are

* `Grammar.yields_body`: the bound on open bodies bounds the nesting of what is read;
* `Graph.exists_parse_iff`: which graphs can be read;
* `Graph.never_reads_compass_name`: a graph that the constructors accept and that cannot be
  read;
* `Id.eval_term_iff_parse_render`: which identifiers can be read, where the check of the
  constructor is exact.
-/
import DotNotation.Proofs.Construct.Acceptance
import DotNotation.Proofs.Printing.RoundTrip
import DotNotation.Proofs.Parsing.Fragment
import DotNotation.Proofs.Parsing.Soundness

namespace DotNotation

lemma Statement.nestingAll_le_iff {body : List Statement} {n : Nat} :
    Statement.nestingAll body ≤ n ↔ ∀ s ∈ body, s.nesting ≤ n := by
  induction body with
  | nil => simp [Statement.nestingAll]
  | cons s body ih => rw [Statement.nestingAll, Nat.max_le, ih, List.forall_mem_cons]

lemma Vertex.nestingAll_le_iff {chain : List Vertex} {n : Nat} :
    Vertex.nestingAll chain ≤ n ↔ ∀ v ∈ chain, v.nesting ≤ n := by
  induction chain with
  | nil => simp [Vertex.nestingAll]
  | cons v chain ih => rw [Vertex.nestingAll, Nat.max_le, ih, List.forall_mem_cons]

/-! ## Properties of what is found -/

namespace Parser

variable {α β : Type}

/-- Whatever the parser finds has the property. -/
def Yields (p : Parser α) (P : α → Prop) : Prop :=
  ∀ (why : Stop) (w : List Token) (a : α) (rest : List Token),
    p.answer why w = .found a rest → P a

section Yields

variable {p q : Parser α} {f : α → Parser β} {P : α → Prop} {Q : β → Prop}

lemma yields_any : p.Yields fun _ => True := fun _ _ _ _ _ => trivial

lemma yields_pure {a : α} (h : P a) : (pure a : Parser α).Yields P := by
  intro why w b rest hw
  rw [answer_pure] at hw
  cases hw
  exact h

lemma yields_gaveUp (cause : Abort) : (gaveUp cause : Parser α).Yields P := by
  intro why w a rest hw
  cases hw

lemma yields_build {part : Except Defect α} (h : ∀ a, part = .ok a → P a) :
    (build part).Yields P := by
  cases part with
  | ok a => exact yields_pure (h a rfl)
  | error defect => exact yields_gaveUp _

lemma yields_bind [Uniform p] [∀ a, Uniform (f a)] (hp : p.Yields P)
    (hf : ∀ a, P a → (f a).Yields Q) : (p >>= f).Yields Q := by
  intro why w b rest h
  rw [answer_bind] at h
  cases hw : p.answer why w with
  | found a mid =>
    rw [hw] at h
    exact hf a (hp why w a mid hw) why mid b rest h
  | missing => simp [hw] at h
  | gaveUp cause => simp [hw] at h

lemma yields_orElse [Uniform p] [Uniform q] (hp : p.Yields P) (hq : q.Yields P) :
    (orElse p q).Yields P := by
  intro why w a rest h
  rw [answer_orElse] at h
  cases hw : p.answer why w with
  | found b mid =>
    rw [hw] at h
    cases h
    exact hp why w _ _ hw
  | missing =>
    rw [hw] at h
    exact hq why w a rest h
  | gaveUp cause => simp [hw] at h

lemma yields_within [Uniform p] (rule : Rule) (hp : p.Yields P) : (within rule p).Yields P := by
  intro why w a rest h
  rw [answer_within] at h
  exact hp why w a rest h

lemma yields_many [Uniform p] (htakes : p.Takes 1) (hp : p.Yields P) :
    (many p).Yields fun as => ∀ a ∈ as, P a := by
  intro why w
  induction hn : w.length using Nat.strong_induction_on generalizing w with
  | _ n ih =>
    intro as rest h
    rw [answer_many htakes] at h
    cases hw : p.answer why w with
    | found a mid =>
      have hlt := htakes.length_lt hw
      rw [hw] at h
      simp only [answer_bind] at h
      cases hmid : (many p).answer why mid with
      | found bs last =>
        rw [hmid] at h
        simp only [answer_pure] at h
        cases h
        exact List.forall_mem_cons.2
          ⟨hp why w a mid hw, ih mid.length (hn ▸ hlt) mid rfl bs _ hmid⟩
      | missing => simp [hmid] at h
      | gaveUp cause => simp [hmid] at h
    | missing =>
      rw [hw] at h
      cases h
      simp
    | gaveUp cause => simp [hw] at h

end Yields

end Parser

/-! ## The nesting of what is read -/

namespace Grammar

open DotNotation.Parser

lemma yields_defaults : defaults.Yields fun s => s.nesting = 0 := by
  have hfor : ∀ target, (defaultsFor target).Yields fun s => s.nesting = 0 := by
    intro target
    refine yields_bind yields_any fun _ _ => yields_bind yields_any fun attrs _ => ?_
    exact yields_pure (by simp [Statement.nesting])
  rw [defaults_eq]
  refine yields_within .defaults ?_
  refine yields_orElse (hfor .graph) (yields_orElse (hfor .node) (yields_orElse (hfor .edge) ?_))
  intro why w s rest h
  cases h

lemma yields_nodeOrAttribute (name : NodeId) :
    (nodeOrAttribute name).Yields fun s => s.nesting = 0 := by
  rw [nodeOrAttribute_eq]
  refine yields_bind yields_any fun assigned _ => ?_
  cases assigned with
  | none =>
    refine yields_bind yields_any fun attrs _ => yields_build fun s hs => ?_
    -- whatever passes the check is the node that was asked for
    obtain rfl : .node name attrs = s := by
      unfold Statement.makeNode at hs
      split at hs
      · exact Except.ok.inj hs
      · split at hs
        · cases hs
        · exact Except.ok.inj hs
    simp [Statement.nesting]
  | some _ =>
    refine yields_bind yields_any fun value _ => yields_pure ?_
    simp [Statement.nesting]

section Statements

variable {body : Parser (List Statement)} [Uniform body] {room : Nat}

lemma yields_subgraph (hbody : body.Yields fun ss => Statement.nestingAll ss + 1 ≤ room) :
    (subgraph body).Yields fun group => group.nesting ≤ room := by
  rw [subgraph_eq]
  refine yields_within .subgraph (yields_bind yields_any fun marked _ => ?_)
  refine yields_bind yields_any fun name _ => yields_bind hbody fun ss hss => yields_pure ?_
  rwa [Subgraph.nesting]

lemma yields_vertex (hbody : body.Yields fun ss => Statement.nestingAll ss + 1 ≤ room) :
    (vertex body).Yields fun v => v.nesting ≤ room := by
  refine yields_within .vertex (yields_orElse ?_ (yields_orElse ?_ (yields_orElse ?_ ?_)))
  · refine yields_bind (yields_subgraph hbody) fun group hgroup => yields_pure ?_
    rwa [Vertex.nesting]
  · refine yields_bind yields_any fun name _ => yields_pure ?_
    rw [Vertex.nesting]
    exact Nat.zero_le room
  · intro why w v rest h
    cases h
  · intro why w v rest h
    cases h

lemma yields_hops (htakes : body.Takes 1)
    (hbody : body.Yields fun ss => Statement.nestingAll ss + 1 ≤ room) :
    (hops body).Yields fun chain => ∀ v ∈ chain, v.nesting ≤ room :=
  yields_within .edge (yields_many (takes_hop htakes)
    (yields_bind yields_any fun _ _ => yields_vertex hbody))

lemma yields_afterChain {head : Vertex} {more : List Vertex} (hhead : head.nesting ≤ room)
    (hmore : ∀ v ∈ more, v.nesting ≤ room) :
    (afterChain head more).Yields fun s => s.nesting ≤ room := by
  cases more with
  | nil =>
    cases head with
    | subgraph group =>
      refine yields_pure ?_
      rwa [Vertex.nesting] at hhead
    | node name =>
      intro why w s rest h
      rw [yields_nodeOrAttribute name why w s rest h]
      exact Nat.zero_le room
  | cons next more =>
    refine yields_bind yields_any fun attrs _ => yields_build fun s hs => ?_
    obtain rfl : .edge (head :: next :: more) attrs = s := by
      rw [Statement.makeEdge, if_pos (by simp)] at hs
      exact Except.ok.inj hs
    rw [Statement.nesting, Vertex.nestingAll_le_iff]
    exact List.forall_mem_cons.2 ⟨hhead, hmore⟩

lemma yields_terminated (htakes : body.Takes 1)
    (hbody : body.Yields fun ss => Statement.nestingAll ss + 1 ≤ room) :
    (terminated body).Yields fun s => s.nesting ≤ room := by
  have hdefaults : defaults.Yields fun s => s.nesting ≤ room := by
    intro why w s rest h
    rw [yields_defaults why w s rest h]
    exact Nat.zero_le room
  have hvertex : (vertexStatement body).Yields fun s => s.nesting ≤ room := by
    rw [vertexStatement_eq]
    exact yields_bind (yields_vertex hbody) fun head hhead =>
      yields_bind (yields_hops htakes hbody) fun more hmore => yields_afterChain hhead hmore
  refine yields_bind (yields_within .statement (yields_orElse hdefaults hvertex)) fun s hs => ?_
  exact yields_bind yields_any fun _ _ => yields_pure hs

end Statements

/-- The bound on the bodies that may be open at once bounds the nesting of what is read. -/
theorem yields_body (room : Nat) :
    (body room).Yields fun ss => Statement.nestingAll ss + 1 ≤ room := by
  induction room with
  | zero => exact yields_within .body (yields_bind yields_any fun _ _ => yields_gaveUp _)
  | succ room ih =>
    have htakes := takes_body room
    refine yields_within .body (yields_bind yields_any fun _ _ => ?_)
    refine yields_bind (yields_many (takes_terminated htakes) (yields_terminated htakes ih))
      fun ss hss => ?_
    refine yields_bind yields_any fun _ _ => yields_pure ?_
    exact Nat.succ_le_succ (Statement.nestingAll_le_iff.2 hss)

lemma yields_file : file.Yields fun g => g.nesting ≤ maxNesting := by
  have hgraph : graph.Yields fun g => g.nesting ≤ maxNesting := by
    rw [graph_eq]
    refine yields_within .graph (yields_bind yields_any fun strict _ => ?_)
    refine yields_bind yields_any fun directed _ => yields_bind yields_any fun name _ => ?_
    exact yields_bind (yields_body maxNesting) fun ss hss => yields_pure hss
  exact yields_within .file
    (yields_bind hgraph fun g hg => yields_bind yields_any fun _ _ => yields_pure hg)

end Grammar

/-! ## Graphs that can be read -/

lemma Graph.shape_of_parse {source : Text} {g : Graph} (h : Graph.parse source = .ok g) :
    g.isValid = true ∧ g.isClear = true ∧ g.nesting ≤ Grammar.maxNesting := by
  obtain ⟨rest, hans⟩ := Grammar.file.result_eq_ok_iff.1 h
  have hsound := Grammar.keeps_file (Tokens.ofText source).why _ (Tokens.areValid_ofText source)
  rw [hans] at hsound
  exact ⟨hsound.1.1, hsound.1.2, Grammar.yields_file _ _ _ _ hans⟩

/-- The text that is written for a graph in the usual layout is read as the graph. -/
lemma Graph.parse_default_print {g : Graph} (hvalid : g.isValid = true)
    (hclear : g.isClear = true) (hroom : g.nesting ≤ Grammar.maxNesting) :
    Graph.parse (g.print {}) = .ok g := by
  have hsep : Settings.Separates {} := ⟨by decide, by decide⟩
  obtain ⟨htokens, hend⟩ := splits_iff.1 (Graph.splits_print hsep hvalid)
  rw [Graph.parse, Parser.result_eq_ok_iff, htokens, hend]
  exact ⟨[], Graph.answer_tokens _ hvalid hclear hroom⟩

lemma Graph.eval_term_iff (g : Graph) :
    g.term.eval .empty = .ok g.toValue ↔ g.isValid = true :=
  ⟨fun h => (g.builds_term .empty).exists_ok_iff.1 ⟨_, h⟩, (g.builds_term .empty).ok⟩

/-- A graph can be read from some text exactly when the constructors accept it, no port in it is
written like a lone compass point without being one, and it nests within the limit. -/
theorem Graph.exists_parse_iff (g : Graph) :
    (∃ source, Graph.parse source = .ok g) ↔
      g.term.eval .empty = .ok g.toValue ∧ g.isClear = true ∧
        g.nesting ≤ Grammar.maxNesting := by
  rw [Graph.eval_term_iff]
  constructor
  · rintro ⟨source, h⟩
    exact Graph.shape_of_parse h
  · rintro ⟨hvalid, hclear, hroom⟩
    exact ⟨_, Graph.parse_default_print hvalid hclear hroom⟩

/-- The constructors accept a port that has only the name `n`, but every text that is written
like it is read as the compass point of that name. -/
theorem Graph.never_reads_compass_name :
    ∃ g : Graph, g.term.eval .empty = .ok g.toValue ∧ g.nesting ≤ Grammar.maxNesting ∧
      ∀ source, Graph.parse source ≠ .ok g := by
  refine ⟨⟨false, false, none, [.node ⟨⟨.plain, ['a']⟩, some ⟨some ⟨.plain, ['n']⟩, none⟩⟩ []]⟩,
    (Graph.eval_term_iff _).2 (by decide +kernel), by decide +kernel, ?_⟩
  intro source h
  exact absurd (Graph.shape_of_parse h).2.1 (by decide +kernel)

/-! ## Identifiers that can be read -/

lemma Statement.isValid_of_parse {source : Text} {s : Statement}
    (h : Statement.parse source = .ok s) : s.isValid = true := by
  obtain ⟨rest, hans⟩ := Grammar.fragment.result_eq_ok_iff.1 h
  have hsound := Grammar.keeps_fragment (Tokens.ofText source).why _ (Tokens.areValid_ofText source)
  rw [hans] at hsound
  exact hsound.1.1

/-- What is written for an identifier splits into this identifier alone. -/
lemma Id.splits_render {name : Id} (h : name.isValid = true) : Splits name.render [.id name] := by
  have hstands : (Token.id name).StandsBefore [] := Token.standsBefore_of_breaks h rfl
  have hsplits := Splits.token hstands .nil
  rwa [List.append_nil] at hsplits

/-- An identifier that stands alone is a node without port and attributes, also where it is the word
of a keyword. -/
lemma Id.parse_render {name : Id} (h : name.isValid = true) :
    Statement.parse name.render = .ok (.node ⟨name, none⟩ []) := by
  obtain ⟨hlist, hend⟩ := splits_iff.1 (Id.splits_render h)
  have hvalid : (Statement.node ⟨name, none⟩ []).isValid = true := by
    simp [Statement.isValid, NodeId.isValid, h]
  have hlast : (Statement.node ⟨name, none⟩ []).CanPrecede [] := by
    rintro tok ⟨⟩
  have hnode : (Grammar.statement (Grammar.body Grammar.maxNesting)).answer .endOfInput [.id name] =
      .found (.node ⟨name, none⟩ []) [] :=
    Statement.answer_node ⟨false, false⟩ Grammar.maxNesting hvalid rfl hlast
  have hsemicolon : (Parser.optional (Parser.punct .semicolon)).answer .endOfInput [] =
      .found none [] := Parser.answer_optional_missing rfl
  rw [Statement.parse_eq_ok_iff, hlist, hend]
  refine ⟨?_, rfl⟩
  unfold Grammar.terminated
  rw [Parser.answer_bind_found hnode, Parser.answer_bind_found hsemicolon, Parser.answer_pure]

/-- The constructor of identifiers and the scanner agree, for every way of writing and every text:
the one accepts the text exactly if the other reads back what is written for it. -/
theorem Id.eval_term_iff_parse_render (bindings : Bindings) (kind : IdKind) (v : Text) :
    (∃ value, (Id.term ⟨kind, v⟩).eval bindings = .ok value) ↔
      Statement.parse (Id.render ⟨kind, v⟩) = .ok (.node ⟨⟨kind, v⟩, none⟩ []) := by
  rw [(Id.builds_term bindings ⟨kind, v⟩).exists_ok_iff]
  constructor
  · exact Id.parse_render
  · intro h
    have hvalid := Statement.isValid_of_parse h
    simpa [Statement.isValid, NodeId.isValid] using hvalid

end DotNotation
