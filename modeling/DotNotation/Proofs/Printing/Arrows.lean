/-
# The signs between vertices

A document may join the vertices of its chains by either sign, whatever kind of graph it
declares.  The tree does not keep the signs, and the printer chooses them anew: it writes the
sign of the declared kind, once for each step of each chain.  Chains stand at any depth, also
inside the vertices of other chains, and an edge may be laid out several times before its form
is settled; the count is over the edge statements of the tree, each taken once.

* `Statement.draws_tokens`: the signs among the tokens of a statement, by induction on the tree;
* `Graph.declares_of_parse`: the word in the source from which the kind of the graph is taken;
* `Graph.draws_reformat`: the signs of a reformatted document.
-/
import DotNotation.Printing.Reformat
import DotNotation.Proofs.Network.Hops
import DotNotation.Proofs.Parsing.Image
import DotNotation.Proofs.Parsing.Spans
import DotNotation.Proofs.Printing.Tokens
import Mathlib.Algebra.GroupWithZero.Nat

namespace DotNotation

/-- Is the token a sign between two vertices? -/
def Token.isArrow : Token → Bool
  | .punct .arrow => true
  | .punct .line => true
  | _ => false

/-- The number of steps along the chains of edge statements. -/
def EdgeStatement.steps (es : List EdgeStatement) : Nat :=
  (es.map fun e => e.chain.length - 1).sum

@[simp] lemma EdgeStatement.steps_cons (e : EdgeStatement) (es : List EdgeStatement) :
    steps (e :: es) = (e.chain.length - 1) + steps es := by
  simp [steps]

@[simp] lemma EdgeStatement.steps_append (es fs : List EdgeStatement) :
    steps (es ++ fs) = steps es + steps fs := by
  simp [steps]

namespace Signs

variable {signs : Signs} {m n : Nat} {u v : List Token}

/-- The list of tokens has `n` signs between vertices, and all of them are the chosen one. -/
def Draws (signs : Signs) (n : Nat) (w : List Token) : Prop :=
  w.filter Token.isArrow = List.replicate n signs.arrow

lemma Draws.append (hu : signs.Draws m u) (hv : signs.Draws n v) :
    signs.Draws (m + n) (u ++ v) := by
  rw [Draws] at hu hv ⊢
  rw [List.filter_append, hu, hv, List.replicate_append_replicate]

/-- A list without signs. -/
lemma draws_zero (h : ∀ tok ∈ u, tok.isArrow = false) : signs.Draws 0 u := by
  rw [Draws, List.replicate_zero, List.filter_eq_nil_iff]
  intro tok htok
  simp [h tok htok]

lemma draws_nil : signs.Draws 0 [] := rfl

/-- A token that is no sign does not count. -/
lemma Draws.cons {tok : Token} (hu : signs.Draws n u) (h : tok.isArrow = false) :
    signs.Draws n (tok :: u) := by
  rw [Draws] at hu ⊢
  rw [List.filter_cons_of_neg (by simp [h]), hu]

/-- The chosen sign counts once. -/
lemma draws_arrow_cons (hu : signs.Draws n u) : signs.Draws (n + 1) (signs.arrow :: u) := by
  have harrow : signs.arrow.isArrow = true := by
    unfold arrow
    cases signs.directed <;> rfl
  rw [Draws] at hu ⊢
  rw [List.filter_cons_of_pos harrow, hu, List.replicate_succ]

/-! ## Parts without a chain -/

lemma isArrow_separator : signs.separator.isArrow = false := by
  unfold separator
  cases signs.semicolons <;> rfl

lemma draws_port (port : Port) : signs.Draws 0 port.tokens := by
  obtain ⟨name, compass⟩ := port
  cases name <;> cases compass <;> exact draws_nil

lemma draws_nodeId (node : NodeId) : signs.Draws 0 node.tokens := by
  obtain ⟨name, port⟩ := node
  cases port with
  | none => exact draws_nil
  | some port => exact (draws_port port).cons rfl

lemma draws_brackets (attrs : List Attribute) : signs.Draws 0 (signs.brackets attrs) := by
  have hattr : ∀ attr : Attribute, signs.Draws 0 attr.tokens := fun _ => draws_nil
  have hmore : ∀ others : List Attribute,
      signs.Draws 0 ((others.map Attribute.tokens).flatMap (signs.separator :: ·)) := by
    intro others
    induction others with
    | nil => exact draws_nil
    | cons attr others ih => exact ((hattr attr).cons isArrow_separator).append ih
  have hjoin : signs.Draws 0 (Token.join signs.separator (attrs.map Attribute.tokens)) := by
    cases attrs with
    | nil => exact draws_nil
    | cons attr attrs => exact (hattr attr).append (hmore attrs)
  exact (hjoin.cons rfl).append (draws_zero (by simp [Token.isArrow]))

lemma draws_attributes (attrs : List Attribute) : signs.Draws 0 (signs.attributes attrs) := by
  unfold attributes
  split
  · exact draws_nil
  · exact draws_brackets attrs

lemma Draws.terminate (hu : signs.Draws n u) (s : Statement) :
    signs.Draws n (signs.terminate s u) := by
  unfold Signs.terminate
  split
  · exact hu.append (draws_zero (by simp [Token.isArrow]))
  · exact hu

/-- The braces of a body are no signs. -/
lemma Draws.braces {ws : List (List Token)} (h : signs.Draws n ws.flatten) :
    signs.Draws n (Token.braces ws) :=
  (h.cons rfl).append (draws_zero (by simp [Token.isArrow]))

/-- The signs of two lists are told apart. -/
lemma Draws.of_append (h : signs.Draws n (u ++ v)) :
    ∃ i j, n = i + j ∧ signs.Draws i u ∧ signs.Draws j v := by
  rw [Draws, List.filter_append, List.append_eq_replicate_iff] at h
  exact ⟨_, _, h.1.symm, h.2.1, h.2.2⟩

/-- Vertices with a sign in front of each of them. -/
lemma Draws.steps {ws : List (List Token)} (h : signs.Draws n ws.flatten) :
    signs.Draws (ws.length + n) (ws.flatMap (signs.arrow :: ·)) := by
  induction ws generalizing n with
  | nil => simpa using h
  | cons w ws ih =>
    obtain ⟨i, j, rfl, hw, hws⟩ := Draws.of_append h
    have hall := (draws_arrow_cons hw).append (ih hws)
    rw [List.flatMap_cons, List.length_cons]
    convert hall using 1
    omega

/-- Between the vertices of a chain stands one sign for each step. -/
lemma Draws.join {ws : List (List Token)} (h : signs.Draws n ws.flatten) :
    signs.Draws ((ws.length - 1) + n) (Token.join signs.arrow ws) := by
  cases ws with
  | nil => simpa [Token.join] using h
  | cons w ws =>
    obtain ⟨i, j, rfl, hw, hws⟩ := Draws.of_append h
    have hall := hw.append hws.steps
    rw [Token.join, List.length_cons]
    convert hall using 1
    omega

end Signs

/-! ## Parts with a chain -/

lemma Vertex.length_tokensAll (signs : Signs) (chain : List Vertex) :
    (Vertex.tokensAll signs chain).length = chain.length := by
  induction chain with
  | nil => rfl
  | cons v chain ih => simp [Vertex.tokensAll, ih]

mutual

lemma Subgraph.draws_tokens (signs : Signs) :
    ∀ group : Subgraph, signs.Draws (EdgeStatement.steps group.edges) (group.tokens signs)
  | .mk name body => by
    have hname : signs.Draws 0 (.word Keyword.subgraph.word :: (name.map Token.id).toList) := by
      cases name <;> exact Signs.draws_nil
    have hbody := (Statement.draws_tokensAll signs body).braces
    rw [Subgraph.tokens, Subgraph.edges]
    simpa using hname.append hbody

lemma Statement.draws_tokens (signs : Signs) :
    ∀ s : Statement, signs.Draws (EdgeStatement.steps s.edges) (s.tokens signs)
  | .node node attrs => by
    rw [Statement.tokens, Statement.edges]
    exact (Signs.draws_nodeId node).append (Signs.draws_attributes attrs)
  | .edge chain attrs => by
    have hchain := (Vertex.draws_tokensAll signs chain).join
    rw [Vertex.length_tokensAll] at hchain
    rw [Statement.tokens, Statement.edges, EdgeStatement.steps_cons]
    exact hchain.append (Signs.draws_attributes attrs)
  | .subgraph group => by
    rw [Statement.tokens, Statement.edges]
    exact Subgraph.draws_tokens signs group
  | .assign attr => by
    rw [Statement.tokens, Statement.edges]
    exact Signs.draws_nil
  | .defaults target attrs => by
    rw [Statement.tokens, Statement.edges]
    exact (Signs.draws_brackets attrs).cons rfl

lemma Statement.draws_tokensAll (signs : Signs) :
    ∀ body : List Statement,
      signs.Draws (EdgeStatement.steps (Statement.edgesAll body))
        (Statement.tokensAll signs body).flatten
  | [] => Signs.draws_nil
  | s :: rest => by
    have hfirst := (Statement.draws_tokens signs s).terminate s
    rw [Statement.tokensAll, Statement.edgesAll, EdgeStatement.steps_append, List.flatten_cons]
    exact hfirst.append (Statement.draws_tokensAll signs rest)

lemma Vertex.draws_tokens (signs : Signs) :
    ∀ v : Vertex, signs.Draws (EdgeStatement.steps v.edges) (v.tokens signs)
  | .node node => by
    rw [Vertex.tokens, Vertex.edges]
    exact Signs.draws_nodeId node
  | .subgraph group => by
    rw [Vertex.tokens, Vertex.edges]
    exact Subgraph.draws_tokens signs group

lemma Vertex.draws_tokensAll (signs : Signs) :
    ∀ chain : List Vertex,
      signs.Draws (EdgeStatement.steps (Vertex.edgesAll chain))
        (Vertex.tokensAll signs chain).flatten
  | [] => Signs.draws_nil
  | v :: rest => by
    rw [Vertex.tokensAll, Vertex.edgesAll, EdgeStatement.steps_append, List.flatten_cons]
    exact (Vertex.draws_tokens signs v).append (Vertex.draws_tokensAll signs rest)

end

lemma Graph.draws_tokens (semicolons : Bool) (graph : Graph) :
    Signs.Draws ⟨graph.directed, semicolons⟩
      (EdgeStatement.steps (Statement.edgesAll graph.body)) (graph.tokens semicolons) := by
  have hstrict : Signs.Draws ⟨graph.directed, semicolons⟩ 0
      (if graph.strict then [.word Keyword.strict.word] else []) := by
    split <;> exact Signs.draws_nil
  have hkind : Signs.Draws ⟨graph.directed, semicolons⟩ 0
      (.word graph.kind.word :: (graph.id.map Token.id).toList) := by
    cases graph.id <;> exact Signs.draws_nil
  have hbody := (Statement.draws_tokensAll ⟨graph.directed, semicolons⟩ graph.body).braces
  rw [Graph.tokens, List.append_assoc]
  simpa using hstrict.append (hkind.append hbody)

/-! ## Documents -/

/-- The words with which a document declares a graph. -/
def Graph.declaration (graph : Graph) : List Token :=
  (if graph.strict then [.word Keyword.strict.word] else []) ++ [.word graph.kind.word]

lemma Grammar.spans_graph :
    Grammar.graph.Spans fun graph u => ∃ rest, u = graph.declaration ++ rest := by
  have hstrict : (Parser.optional (Parser.keyword .strict)).Spans fun o u =>
      u = if o.isSome then [.word Keyword.strict.word] else [] :=
    Parser.spans_optional (Parser.spans_keyword .strict) rfl fun _ _ hu => hu
  rw [graph_eq]
  refine Parser.spans_within .graph (Parser.spans_bind hstrict ?_)
  rintro strict _ rfl
  refine Parser.spans_bind spans_kind ?_
  rintro directed _ rfl
  refine Parser.spans_bind (Parser.Composed.optional composed_id).spans fun name u _ => ?_
  refine Parser.spans_bind (composed_body maxNesting).spans fun statements v _ => ?_
  refine Parser.spans_pure ⟨u ++ (v ++ []), ?_⟩
  simp [Graph.declaration, Graph.kind, kindKeyword]

/-- The kind of a graph that is read is the one that its document declares. -/
lemma Graph.declares_of_parse {source : Text} {graph : Graph}
    (h : Graph.parse source = .ok graph) :
    ∃ rest, (Tokens.ofText source).toList = graph.declaration ++ rest := by
  have hfile : Grammar.file.Spans fun graph u => ∃ rest, u = graph.declaration ++ rest := by
    refine Parser.spans_within .file (Parser.spans_bind Grammar.spans_graph ?_)
    rintro graph _ ⟨rest, rfl⟩
    refine Parser.spans_bind Parser.spans_finished ?_
    rintro _ _ rfl
    exact Parser.spans_pure ⟨rest, by simp⟩
  obtain ⟨_, last, htokens, rest, rfl⟩ := hfile.run h
  exact ⟨rest ++ last, by rw [htokens, List.append_assoc]⟩

/-- A document that is read can be reformatted.  Whatever signs it uses, the reformatted text
has only the sign of the kind of graph that the document declares, and one for each step of each
chain at any depth. -/
theorem Graph.draws_reformat {source : Text} {graph : Graph}
    (hread : Graph.parse source = .ok graph) {settings : Settings} (hsep : settings.Separates) :
    (∃ rest, (Tokens.ofText source).toList = graph.declaration ++ rest) ∧
    ∃ text toks, reformat settings source = .ok text ∧ Splits text toks ∧
      (∀ tok ∈ toks, tok.isArrow = true →
        tok = .punct (if graph.directed then .arrow else .line)) ∧
      toks.countP Token.isArrow =
        ((Statement.edgesAll graph.body).map fun e => e.chain.length - 1).sum := by
  have hvalid := (Graph.shape_of_parse hread).1
  have hdraws := graph.draws_tokens settings.useSemicolons
  refine ⟨Graph.declares_of_parse hread, graph.print settings, graph.tokens settings.useSemicolons,
    ?_, Graph.splits_print hsep hvalid, ?_, ?_⟩
  · rw [reformat, hread]
    rfl
  · intro tok htok harrow
    have hmem : tok ∈ (graph.tokens settings.useSemicolons).filter Token.isArrow :=
      List.mem_filter.2 ⟨htok, harrow⟩
    rw [hdraws] at hmem
    exact List.eq_of_mem_replicate hmem
  · rw [List.countP_eq_length_filter, hdraws, List.length_replicate]
    rfl

/-- A mixture of signs, chains inside the vertex of a chain, and identifiers that look like signs.
The outer edge does not fit on one line, so its inner chains are laid out twice. -/
theorem Graph.draws_reformat_nested_chains :
    ∃ text toks,
      reformat { inlineThreshold := 20 }
        "digraph \x7b a--b->\x7bc -- \"->\"; <-->--d->\x7be--f\x7d\x7d \x7d".toList = .ok text ∧
      Splits text toks ∧ (∀ tok ∈ toks, tok.isArrow = true → tok = .punct .arrow) ∧
      toks.countP Token.isArrow = 6 := by
  have hcomputed : ((Graph.parse
      "digraph \x7b a--b->\x7bc -- \"->\"; <-->--d->\x7be--f\x7d\x7d \x7d".toList).toOption.map
        fun g => (g.directed, ((Statement.edgesAll g.body).map fun e => e.chain.length - 1).sum)) =
      some (true, 6) := by
    decide +kernel
  cases hread : Graph.parse
      "digraph \x7b a--b->\x7bc -- \"->\"; <-->--d->\x7be--f\x7d\x7d \x7d".toList with
  | error e =>
    rw [hread] at hcomputed
    cases hcomputed
  | ok graph =>
    rw [hread] at hcomputed
    simp only [Except.toOption, Option.map_some, Option.some.injEq, Prod.mk.injEq] at hcomputed
    have hsep : Settings.Separates { inlineThreshold := 20 } := ⟨by decide, by decide⟩
    obtain ⟨-, text, toks, hok, hsplits, honly, hcount⟩ := Graph.draws_reformat hread hsep
    rw [hcomputed.1] at honly
    rw [hcomputed.2] at hcount
    exact ⟨text, toks, hok, hsplits, honly, hcount⟩

end DotNotation
