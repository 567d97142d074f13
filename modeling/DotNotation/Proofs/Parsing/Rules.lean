/-
# The rules of the grammar are uniform and take tokens

Every rule of the grammar is built from uniform parsers, so its reply is its answer; and what
it finds takes a piece off the front of the tokens.  Wherever a rule is repeated this piece
has at least one token.  The result for a whole text is `Parser.run_eq`.
-/
import DotNotation.Proofs.Parsing.Answer

namespace DotNotation.Grammar

open DotNotation.Parser

instance uniform_id : Uniform id := by
  unfold id
  infer_instance

instance uniform_port : Uniform port := by
  unfold port
  infer_instance

instance uniform_nodeId : Uniform nodeId := by
  unfold nodeId
  infer_instance

instance uniform_assignment : Uniform assignment := by
  unfold assignment
  infer_instance

instance uniform_attributeGroup : Uniform attributeGroup := by
  unfold attributeGroup
  infer_instance

instance uniform_attributeList : Uniform attributeList := by
  unfold attributeList
  infer_instance

instance uniform_attributes : Uniform attributes := by
  unfold attributes
  infer_instance

instance uniform_defaultsFor (target : Target) : Uniform (defaultsFor target) := by
  unfold defaultsFor
  infer_instance

lemma defaults_eq :
    defaults =
      within .defaults (firstOf [defaultsFor .graph, defaultsFor .node, defaultsFor .edge]) := rfl

instance uniform_defaults : Uniform defaults := by
  rw [defaults_eq]
  infer_instance

section Statements

variable (body : Parser (List Statement)) [Uniform body]

omit [Uniform body] in
lemma subgraph_eq :
    subgraph body = within .subgraph (optional (keyword .subgraph) >>= fun marked =>
      marked.elim (pure none) (fun _ => optional id) >>= fun name =>
        body >>= fun statements => pure (.mk name statements)) := by
  unfold subgraph
  congr 2
  funext marked
  cases marked <;> rfl

instance uniform_subgraph : Uniform (subgraph body) := by
  rw [subgraph_eq]
  infer_instance

instance uniform_vertex : Uniform (vertex body) := by
  unfold vertex
  infer_instance

instance uniform_hop : Uniform (hop body) := by
  unfold hop
  infer_instance

instance uniform_hops : Uniform (hops body) := by
  unfold hops
  infer_instance

end Statements

lemma nodeOrAttribute_eq (name : NodeId) :
    nodeOrAttribute name =
      (if name.port.isNone then optional (punct .equals) else pure none) >>= fun assigned =>
        assigned.elim
          (attributes >>= fun attrs => build (Statement.makeNode name attrs))
          (fun _ => id >>= fun value => pure (.assign ⟨name.id, value⟩)) := by
  unfold nodeOrAttribute
  dsimp only
  split
  all_goals
    congr 1
    funext assigned
    cases assigned <;> rfl

instance uniform_nodeOrAttribute (name : NodeId) : Uniform (nodeOrAttribute name) := by
  rw [nodeOrAttribute_eq]
  infer_instance

/-- What a first vertex and the further ones make of the rest of a statement. -/
def afterChain (head : Vertex) : List Vertex → Parser Statement
  | [] =>
    match head with
    | .subgraph group => pure (.subgraph group)
    | .node name => nodeOrAttribute name
  | next :: more =>
    attributes >>= fun attrs => build (Statement.makeEdge (head :: next :: more) attrs)

lemma vertexStatement_eq (body : Parser (List Statement)) :
    vertexStatement body =
      vertex body >>= fun head => hops body >>= fun more => afterChain head more := by
  unfold vertexStatement
  congr 1
  funext head
  congr 1
  funext more
  cases more <;> cases head <;> rfl

instance uniform_afterChain (head : Vertex) (more : List Vertex) :
    Uniform (afterChain head more) := by
  cases more with
  | nil =>
    cases head with
    | node name => exact uniform_nodeOrAttribute name
    | subgraph group => exact uniform_pure _
  | cons next more =>
    unfold afterChain
    infer_instance

instance uniform_vertexStatement (body : Parser (List Statement)) [Uniform body] :
    Uniform (vertexStatement body) := by
  rw [vertexStatement_eq]
  infer_instance

instance uniform_statement (body : Parser (List Statement)) [Uniform body] :
    Uniform (statement body) := by
  unfold statement
  infer_instance

instance uniform_terminated (body : Parser (List Statement)) [Uniform body] :
    Uniform (terminated body) := by
  unfold terminated
  infer_instance

instance uniform_body (room : Nat) : Uniform (body room) := by
  induction room with
  | zero =>
    unfold body
    infer_instance
  | succ room ih =>
    unfold body
    infer_instance

/-- The word for the kind of a graph: is it directed? -/
def kind : Parser Bool :=
  orElse (keyword .digraph >>= fun _ => pure true) (keyword .graph >>= fun _ => pure false)

instance uniform_kind : Uniform kind := by
  unfold kind
  infer_instance

lemma graph_eq :
    graph = within .graph (optional (keyword .strict) >>= fun strict => kind >>= fun directed =>
      optional id >>= fun name => body maxNesting >>= fun statements =>
        pure ⟨strict.isSome, directed, name, statements⟩) := rfl

instance uniform_graph : Uniform graph := by
  rw [graph_eq]
  infer_instance

instance uniform_file : Uniform file := by
  unfold file
  infer_instance

instance uniform_fragment : Uniform fragment := by
  unfold fragment
  infer_instance

/-! ## Progress -/

lemma takes_id : id.Takes 1 :=
  takes_within .id (takes_bind takes_anyId fun _ => takes_build _)

lemma takes_port : port.Takes 1 := by
  apply takes_within
  refine (takes_bind (takes_punct .colon) fun _ => takes_bind takes_id fun _ =>
    takes_bind (takes_optional (takes_bind (takes_punct .colon) fun _ =>
      takes_within .compass takes_compassPoint)) fun _ => takes_build _).mono ?_
  omega

lemma takes_nodeId : nodeId.Takes 1 :=
  takes_within .nodeId
    (takes_bind takes_id fun _ => takes_bind (takes_optional takes_port) fun _ => takes_pure _)

lemma takes_assignment : assignment.Takes 1 := by
  apply takes_within
  refine (takes_bind takes_id fun _ => takes_bind (takes_punct .equals) fun _ =>
    takes_bind takes_id fun _ => takes_pure _).mono ?_
  omega

/-- An attribute inside brackets, with the separator that may follow it. -/
def item : Parser Attribute := do
  let attr ← assignment
  let _ ← optional (orElse (punct .semicolon) (punct .comma))
  return attr

instance uniform_item : Uniform item := by
  unfold item
  infer_instance

lemma takes_item : item.Takes 1 :=
  takes_bind takes_assignment fun _ =>
    takes_bind (takes_optional (takes_orElse (takes_punct .semicolon) (takes_punct .comma)))
      fun _ => takes_pure _

lemma attributeGroup_eq :
    attributeGroup = punct .openBracket >>= fun _ => many item >>= fun attrs =>
      punct .closeBracket >>= fun _ => pure attrs := rfl

lemma takes_attributeGroup : attributeGroup.Takes 1 := by
  rw [attributeGroup_eq]
  refine (takes_bind (takes_punct .openBracket) fun _ => takes_bind (takes_many takes_item)
    fun _ => takes_bind (takes_punct .closeBracket) fun _ => takes_pure _).mono ?_
  omega

lemma takes_attributeList : attributeList.Takes 1 :=
  takes_within .attributeList (takes_bind takes_attributeGroup fun _ =>
    takes_bind (takes_many takes_attributeGroup) fun _ => takes_pure _)

lemma takes_attributes : attributes.Takes 0 :=
  takes_bind (takes_optional takes_attributeList) fun _ => takes_pure _

lemma takes_defaultsFor (target : Target) : (defaultsFor target).Takes 1 := by
  refine (takes_bind (takes_keyword target.keyword) fun _ => takes_bind takes_attributeList
    fun _ => takes_pure _).mono ?_
  omega

lemma takes_defaults : defaults.Takes 1 := by
  rw [defaults_eq]
  apply takes_within
  refine takes_orElse (takes_defaultsFor .graph) ?_
  refine takes_orElse (takes_defaultsFor .node) ?_
  refine takes_orElse (takes_defaultsFor .edge) ?_
  intro why w a rest h
  cases h

section Statements

variable {body : Parser (List Statement)} [Uniform body]

lemma takes_subgraph (hbody : body.Takes 1) : (subgraph body).Takes 1 := by
  rw [subgraph_eq]
  exact takes_within .subgraph (takes_bind (takes_optional (takes_keyword .subgraph)) fun marked =>
    takes_bind (takes_elim marked (takes_pure none) fun _ => takes_optional takes_id) fun _ =>
      takes_bind hbody fun _ => takes_pure _)

lemma takes_vertex (hbody : body.Takes 1) : (vertex body).Takes 1 := by
  apply takes_within
  refine takes_orElse (takes_bind (takes_subgraph hbody) fun _ => takes_pure _) ?_
  refine takes_orElse (takes_bind takes_nodeId fun _ => takes_pure _) ?_
  refine takes_orElse (takes_expected .vertex) ?_
  intro why w a rest h
  cases h

lemma takes_hop (hbody : body.Takes 1) : (hop body).Takes 1 := by
  have hsign := takes_orElse (takes_punct .arrow) (takes_punct .line)
  have hboth : (hop body).Takes (1 + 1) := takes_bind hsign fun _ => takes_vertex hbody
  exact hboth.mono (by omega)

lemma takes_hops (hbody : body.Takes 1) : (hops body).Takes 0 :=
  takes_within .edge (takes_many (takes_hop hbody))

lemma takes_nodeOrAttribute (name : NodeId) : (nodeOrAttribute name).Takes 0 := by
  rw [nodeOrAttribute_eq]
  refine takes_bind (m := 0) (n := 0) ?_ fun assigned => ?_
  · split
    · exact takes_optional (takes_punct .equals)
    · exact takes_pure none
  · refine takes_elim assigned ?_ fun _ => ?_
    · exact takes_bind takes_attributes fun _ => takes_build _
    · exact (takes_bind takes_id fun _ => takes_pure _).mono (Nat.zero_le _)

lemma takes_afterChain (head : Vertex) (more : List Vertex) : (afterChain head more).Takes 0 := by
  cases more with
  | nil =>
    cases head with
    | node name => exact takes_nodeOrAttribute name
    | subgraph group => exact takes_pure _
  | cons next more => exact takes_bind takes_attributes fun _ => takes_build _

lemma takes_vertexStatement (hbody : body.Takes 1) : (vertexStatement body).Takes 1 := by
  rw [vertexStatement_eq]
  exact takes_bind (takes_vertex hbody) fun head =>
    takes_bind (takes_hops hbody) fun more => takes_afterChain head more

lemma takes_statement (hbody : body.Takes 1) : (statement body).Takes 1 :=
  takes_within .statement (takes_orElse takes_defaults (takes_vertexStatement hbody))

lemma takes_terminated (hbody : body.Takes 1) : (terminated body).Takes 1 :=
  takes_bind (takes_statement hbody) fun _ =>
    takes_bind (takes_optional (takes_punct .semicolon)) fun _ => takes_pure _

end Statements

lemma takes_body (room : Nat) : (body room).Takes 1 := by
  induction room with
  | zero =>
    apply takes_within
    exact takes_bind takes_openBody fun _ => takes_gaveUp (n := 0) _
  | succ room ih =>
    apply takes_within
    refine (takes_bind takes_openBody fun _ => takes_bind (takes_many (takes_terminated ih))
      fun _ => takes_bind (takes_punct .closeBrace) fun _ => takes_pure _).mono ?_
    omega

/-! ## Identifiers -/

lemma answer_id_cons {why : Stop} {name : Id} (h : name.isValid = true) (w : List Token) :
    id.answer why (.id name :: w) = .found name w := by
  have hmake : Id.make name.kind name.value = .ok name := if_pos h
  unfold id
  rw [answer_within, answer_bind, answer_anyId]
  simp only [Answer.take, Token.id?, Option.elim_some, hmake, answer_build_ok]

lemma answer_id_missing {why : Stop} {w : List Token} (h : ∀ name, w.head? ≠ some (.id name)) :
    id.answer why w = .missing := by
  unfold id
  rw [answer_within, answer_bind, answer_anyId]
  rcases w with _ | ⟨p | name, w⟩
  · rfl
  · rfl
  · exact absurd rfl (h name)

/-! ## Where nothing is found -/

section Missing

variable {why : Stop} {rest : List Token}

lemma attributeGroup_missing (hrest : rest.head? ≠ some (.punct .openBracket)) :
    attributeGroup.answer why rest = .missing := by
  rw [attributeGroup_eq]
  exact answer_bind_missing (answer_punct_missing hrest)

lemma attributeList_missing (hrest : rest.head? ≠ some (.punct .openBracket)) :
    attributeList.answer why rest = .missing := by
  unfold attributeList
  rw [answer_within]
  exact answer_bind_missing (attributeGroup_missing hrest)

/-- Nothing is read as default attributes without the word of a target and a bracket. -/
lemma defaults_missing {w : List Token}
    (h : ∀ (target : Target) (next : List Token), w = .word target.word :: next →
      next.head? ≠ some (.punct .openBracket)) : defaults.answer why w = .missing := by
  have hfor : ∀ target, (defaultsFor target).answer why w = .missing := by
    intro target
    unfold defaultsFor
    by_cases hw : w.head? = some (.word target.keyword.word)
    · obtain ⟨next, rfl⟩ := List.head?_eq_some_iff.1 hw
      rw [answer_bind_found (answer_keyword_cons _)]
      exact answer_bind_missing (attributeList_missing (h target next rfl))
    · exact answer_bind_missing (answer_keyword_missing hw)
  rw [defaults_eq, answer_within, answer_firstOf_cons, hfor, answer_firstOf_cons, hfor,
    answer_firstOf_cons, hfor]
  rfl

/-- Behind the word of a target only the default attributes for this target can stand. -/
lemma answer_defaults_word (target : Target) (w : List Token) :
    defaults.answer why (.word target.word :: w) =
      (defaultsFor target).answer why (.word target.word :: w) := by
  have hother : ∀ other : Target, other.word ≠ target.word →
      (defaultsFor other).answer why (.word target.word :: w) = .missing := by
    intro other hne
    refine answer_bind_missing (answer_keyword_missing ?_)
    simpa [Token.word, Target.word] using hne.symm
  rw [defaults_eq, answer_within, answer_firstOf_cons, answer_firstOf_cons, answer_firstOf_cons,
    answer_firstOf_nil]
  cases target with
  | graph =>
    rw [hother .node (by decide), hother .edge (by decide)]
    cases (defaultsFor .graph).answer why (.word Target.graph.word :: w) <;> rfl
  | node =>
    rw [hother .graph (by decide), hother .edge (by decide)]
    cases (defaultsFor .node).answer why (.word Target.node.word :: w) <;> rfl
  | edge =>
    rw [hother .graph (by decide), hother .node (by decide)]
    cases (defaultsFor .edge).answer why (.word Target.edge.word :: w) <;> rfl

lemma port_missing (hrest : rest.head? ≠ some (.punct .colon)) :
    port.answer why rest = .missing := by
  unfold port
  rw [answer_within]
  exact answer_bind_missing (answer_punct_missing hrest)

lemma body_missing (room : Nat) {w : List Token} (h : w.head? ≠ some (.punct .openBrace)) :
    (body room).answer why w = .missing := by
  have hopen : openBody.answer why w = .missing := by
    rw [answer_openBody, take_only_missing h]
  cases room with
  | zero =>
    unfold body
    rw [answer_within, answer_bind_missing hopen]
  | succ room =>
    unfold body
    rw [answer_within, answer_bind_missing hopen]

/-- An identifier starts no subgraph, unless it is the word for one and a name or a body
follows. -/
lemma subgraph_missing (room : Nat) {name : Id} {w : List Token}
    (h : name = ⟨.plain, Keyword.subgraph.word⟩ →
      ∀ tok ∈ w.head?, tok ≠ .punct .openBrace ∧ ∀ other, tok ≠ .id other) :
    (subgraph (body room)).answer why (.id name :: w) = .missing := by
  rw [subgraph_eq, answer_within]
  by_cases hname : name = ⟨.plain, Keyword.subgraph.word⟩
  · have hkeyword : (keyword .subgraph).answer why (.id name :: w) = .found () w := by
      rw [hname]
      exact answer_keyword_cons .subgraph
    have hw := h hname
    have hnone : (optional id).answer why w = .found none w := by
      refine answer_optional_missing (answer_id_missing ?_)
      intro other hother
      exact (hw _ hother).2 other rfl
    rw [answer_bind_found (answer_optional_found hkeyword)]
    refine (answer_bind_found hnone).trans (answer_bind_missing (body_missing room ?_))
    intro hbrace
    exact (hw _ hbrace).1 rfl
  · have hkeyword : (keyword .subgraph).answer why (.id name :: w) = .missing :=
      answer_keyword_missing (by simpa [Token.word] using hname)
    rw [answer_bind_found (answer_optional_missing hkeyword)]
    exact (answer_bind_found (answer_pure none)).trans
      (answer_bind_missing (body_missing room (by simp)))

lemma hop_missing (room : Nat) (harrow : rest.head? ≠ some (.punct .arrow))
    (hline : rest.head? ≠ some (.punct .line)) :
    (hop (body room)).answer why rest = .missing := by
  unfold hop
  refine answer_bind_missing ?_
  exact (answer_orElse_missing (answer_punct_missing harrow)).trans (answer_punct_missing hline)

lemma answer_hops_nil (room : Nat) (harrow : rest.head? ≠ some (.punct .arrow))
    (hline : rest.head? ≠ some (.punct .line)) :
    (hops (body room)).answer why rest = .found [] rest := by
  unfold hops
  rw [answer_within]
  exact answer_many_missing (takes_hop (takes_body room)) (hop_missing room harrow hline)

/-- Without an identifier or a body no vertex is read. -/
lemma vertex_missing (room : Nat) (hid : ∀ name, rest.head? ≠ some (.id name))
    (hbrace : rest.head? ≠ some (.punct .openBrace)) :
    (vertex (body room)).answer why rest = .missing := by
  have hgroup : (subgraph (body room)).answer why rest = .missing := by
    rw [subgraph_eq, answer_within, answer_bind_found (answer_optional_missing
      (answer_keyword_missing (hid ⟨.plain, Keyword.subgraph.word⟩)))]
    exact (answer_bind_found (answer_pure none)).trans
      (answer_bind_missing (body_missing room hbrace))
  have hnode : nodeId.answer why rest = .missing := by
    unfold nodeId
    rw [answer_within]
    exact answer_bind_missing (answer_id_missing hid)
  unfold vertex
  rw [answer_within, answer_firstOf_cons, answer_bind_missing hgroup, answer_firstOf_cons,
    answer_bind_missing hnode, answer_firstOf_cons, answer_expected]
  rfl

/-- At a closing brace no statement is read. -/
lemma terminated_missing (room : Nat) :
    (terminated (body room)).answer why (.punct .closeBrace :: rest) = .missing := by
  have hdefaults : defaults.answer why (.punct .closeBrace :: rest) = .missing := by
    refine defaults_missing ?_
    intro target next hnext
    cases hnext
  unfold terminated statement
  refine answer_bind_missing ?_
  rw [answer_within, answer_orElse_missing hdefaults, vertexStatement_eq]
  exact answer_bind_missing (vertex_missing room (by simp) (by simp))

end Missing

/-! ## Names and statements -/

section Found

variable {why : Stop} {rest : List Token}

/-- A name that may be left out is read before anything but an identifier. -/
lemma answer_name {name : Option Id} (h : name.all Id.isValid = true)
    (hrest : ∀ other, rest.head? ≠ some (.id other)) :
    (optional id).answer why ((name.map Token.id).toList ++ rest) = .found name rest := by
  cases name with
  | none => exact answer_optional_missing (answer_id_missing hrest)
  | some name => exact answer_optional_found (answer_id_cons (by simpa using h) _)

/-- Where no default attributes stand, the vertices decide how a statement goes on. -/
lemma answer_statement {room : Nat} {w mid : List Token} {head : Vertex} {more : List Vertex}
    (hdefaults : defaults.answer why w = .missing)
    (hhead : (vertex (body room)).answer why w = .found head mid)
    (hmore : (hops (body room)).answer why mid = .found more rest) :
    (statement (body room)).answer why w = (afterChain head more).answer why rest := by
  unfold statement
  rw [answer_within, answer_orElse_missing hdefaults, vertexStatement_eq, answer_bind_found hhead,
    answer_bind_found hmore]

/-- Where no subgraph stands, a node reference is a vertex. -/
lemma answer_vertex_node {room : Nat} {w : List Token} {node : NodeId}
    (hgroup : (subgraph (body room)).answer why w = .missing)
    (hnode : nodeId.answer why w = .found node rest) :
    (vertex (body room)).answer why w = .found (.node node) rest := by
  unfold vertex
  rw [answer_within, answer_firstOf_cons, answer_bind_missing hgroup]
  simp only
  rw [answer_firstOf_cons, answer_bind_found hnode, answer_pure]

/-- An attribute of the enclosing graph; its key is first read as a node reference. -/
lemma answer_assign (room : Nat) {key value : Id} (hkey : key.isValid = true)
    (hvalue : value.isValid = true) :
    (statement (body room)).answer why (.id key :: .punct .equals :: .id value :: rest) =
      .found (.assign ⟨key, value⟩) rest := by
  have hdefaults : defaults.answer why (.id key :: .punct .equals :: .id value :: rest) =
      .missing := by
    refine defaults_missing ?_
    intro target next hnext
    obtain ⟨-, rfl⟩ := List.cons.inj hnext
    simp
  have hgroup : (subgraph (body room)).answer why (.id key :: .punct .equals :: .id value :: rest) =
      .missing := by
    refine subgraph_missing room ?_
    rintro - tok ⟨⟩
    exact ⟨by simp, by simp⟩
  have hnode : nodeId.answer why (.id key :: .punct .equals :: .id value :: rest) =
      .found ⟨key, none⟩ (.punct .equals :: .id value :: rest) := by
    unfold nodeId
    rw [answer_within, answer_bind_found (answer_id_cons hkey _),
      answer_bind_found (answer_optional_missing (port_missing (by simp))), answer_pure]
  rw [answer_statement hdefaults (answer_vertex_node hgroup hnode)
    (answer_hops_nil room (by simp) (by simp))]
  show (nodeOrAttribute ⟨key, none⟩).answer why _ = _
  rw [nodeOrAttribute_eq]
  refine (answer_bind_found (answer_optional_found (answer_punct_cons .equals))).trans ?_
  exact (answer_bind_found (answer_id_cons hvalue rest)).trans (answer_pure _)

/-- The keyword for a kind of graph. -/
def kindKeyword (directed : Bool) : Keyword := if directed then .digraph else .graph

lemma answer_kind (directed : Bool) (w : List Token) :
    kind.answer why (.word (kindKeyword directed).word :: w) = .found directed w := by
  unfold kind
  cases directed with
  | true =>
    exact answer_orElse_found ((answer_bind_found (answer_keyword_cons .digraph)).trans
      (answer_pure true))
  | false =>
    have hne : Keyword.graph.word ≠ Keyword.digraph.word := by decide
    have hother : (keyword .digraph).answer why (.word Keyword.graph.word :: w) = .missing :=
      answer_keyword_missing (by simpa [Token.word] using hne)
    exact (answer_orElse_missing (answer_bind_missing hother)).trans
      ((answer_bind_found (answer_keyword_cons .graph)).trans (answer_pure false))

lemma kind_missing (h : ∀ directed, rest.head? ≠ some (.word (kindKeyword directed).word)) :
    kind.answer why rest = .missing := by
  unfold kind
  refine (answer_orElse_missing (answer_bind_missing (answer_keyword_missing (h true)))).trans ?_
  exact answer_bind_missing (answer_keyword_missing (h false))

end Found

end DotNotation.Grammar

namespace DotNotation

/-- The result of reading a whole text is the answer to its tokens. -/
theorem Parser.run_eq {α : Type} (p : Parser α) [p.Uniform] (source : Text) :
    (p.run source).reply.Matches (Tokens.ofText source).why
      (p.answer (Tokens.ofText source).why (Tokens.ofText source).toList) :=
  Parser.reply_eq p _ _

/-- A whole text is read as a value when the answer to its tokens is this value. -/
lemma Parser.result_eq_ok_iff {α : Type} (p : Parser α) [p.Uniform] {source : Text} {a : α} :
    (p.run source).result = .ok a ↔
      ∃ rest, p.answer (Tokens.ofText source).why (Tokens.ofText source).toList =
        .found a rest := by
  have hmatch := p.run_eq source
  rw [Outcome.result]
  generalize (p.run source).reply = reply at hmatch
  generalize p.answer (Tokens.ofText source).why (Tokens.ofText source).toList = ans at hmatch
  cases hmatch with
  | found b rest _ => simp
  | missing => simp
  | gaveUp cause => simp

lemma Parser.result_of_missing {α : Type} (p : Parser α) [p.Uniform] {source : Text}
    (h : p.answer (Tokens.ofText source).why (Tokens.ofText source).toList = .missing) :
    ∃ failure, (p.run source).result = .error (.unexpected failure) := by
  have hmatch := p.run_eq source
  rw [h] at hmatch
  rw [Outcome.result]
  generalize (p.run source).reply = reply at hmatch
  cases hmatch
  exact ⟨_, rfl⟩

end DotNotation
