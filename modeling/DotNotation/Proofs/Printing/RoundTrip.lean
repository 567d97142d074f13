/-
# Reading what was written

The tokens of a tree are read back as the tree.  What stands behind a part decides where the
part ends, so every lemma is about the tokens of a part with further tokens behind them, and
says what these must not start with.  Behind a statement stand a semicolon, a closing brace or
the identifier with which the next statement starts; an identifier is excluded where the
statement ends in the bare word for a subgraph, since it would be read as a name.  The main
results are

* `Statement.answerAll_tokens`: the statements of a body are read back;
* `Graph.parse_print`: a written document is read back as its graph.
-/
import DotNotation.Proofs.Parsing.Rules
import DotNotation.Proofs.Printing.Tokens

namespace DotNotation

open DotNotation.Parser DotNotation.Grammar

variable {why : Stop} {rest : List Token}

/-! ## Parts without a body -/

lemma Port.answer_tokens {port : Port} (hvalid : port.isValid = true) (hclear : port.isClear = true)
    (hrest : rest.head? ≠ some (.punct .colon)) :
    Grammar.port.answer why (port.tokens ++ rest) = .found port rest := by
  obtain ⟨name, compass⟩ := port
  unfold Grammar.port
  rw [answer_within]
  have hnone : (optional (punct .colon >>= fun _ => within .compass compassPoint)).answer why rest =
      .found none rest :=
    answer_optional_missing (answer_bind_missing (answer_punct_missing hrest))
  have hpoint : ∀ c : Compass, (within .compass compassPoint).answer why (.word c.word :: rest) =
      .found c rest := by
    intro c
    rw [answer_within, answer_compassPoint]
    simp [Answer.take, Token.compass?, Token.word]
  cases name with
  | none =>
    cases compass with
    | none => exact absurd hvalid (by decide)
    | some c =>
      -- a lone compass point is first read as a name
      have hword : (⟨.plain, c.word⟩ : Id).isValid = true := isPlain_compass c
      have hport : portOf ⟨.plain, c.word⟩ none = .ok ⟨none, some c⟩ := by
        simp [portOf, Port.make, Port.isComplete]
      show Parser.answer _ why (.punct .colon :: .word c.word :: rest) = _
      rw [answer_bind_found (answer_punct_cons .colon), Token.word,
        answer_bind_found (answer_id_cons hword rest), answer_bind_found hnone, hport,
        answer_build_ok]
  | some name =>
    have hname : name.isValid = true := by simpa [Port.isValid, Port.isComplete] using hvalid
    cases compass with
    | none =>
      have hport : portOf name none = .ok ⟨some name, none⟩ := by
        -- a clear port is not taken for a compass point
        simp only [Port.isClear, Bool.not_eq_true', Bool.and_eq_false_iff] at hclear
        unfold portOf
        rcases hclear with hkind | hword
        · cases hk : name.kind with
          | plain => simp [hk] at hkind
          | quoted => simp [Port.make, Port.isComplete]
          | html => simp [Port.make, Port.isComplete]
        · rw [Option.isSome_eq_false_iff, Option.isNone_iff_eq_none] at hword
          simp [hword, Port.make, Port.isComplete]
      show Parser.answer _ why (.punct .colon :: .id name :: rest) = _
      rw [answer_bind_found (answer_punct_cons .colon),
        answer_bind_found (answer_id_cons hname rest), answer_bind_found hnone, hport,
        answer_build_ok]
    | some c =>
      have hsome : (optional (punct .colon >>= fun _ => within .compass compassPoint)).answer why
          (.punct .colon :: .word c.word :: rest) = .found (some c) rest :=
        answer_optional_found ((answer_bind_found (answer_punct_cons .colon)).trans (hpoint c))
      have hport : portOf name (some c) = .ok ⟨some name, some c⟩ := rfl
      show Parser.answer _ why
        (.punct .colon :: .id name :: .punct .colon :: .word c.word :: rest) = _
      rw [answer_bind_found (answer_punct_cons .colon),
        answer_bind_found (answer_id_cons hname _), answer_bind_found hsome, hport,
        answer_build_ok]

lemma NodeId.answer_tokens {node : NodeId} (hvalid : node.isValid = true)
    (hclear : node.isClear = true) (hrest : rest.head? ≠ some (.punct .colon)) :
    nodeId.answer why (node.tokens ++ rest) = .found node rest := by
  obtain ⟨name, port⟩ := node
  simp only [NodeId.isValid, NodeId.isClear, Bool.and_eq_true] at hvalid hclear
  unfold nodeId
  rw [answer_within, NodeId.tokens, List.cons_append, answer_bind_found (answer_id_cons hvalid.1 _)]
  cases port with
  | none =>
    show Parser.answer _ why rest = _
    rw [answer_bind_found (answer_optional_missing (port_missing hrest)), answer_pure]
  | some port =>
    have hport : Grammar.port.answer why (port.tokens ++ rest) = .found port rest :=
      Port.answer_tokens (by simpa using hvalid.2) (by simpa using hclear) hrest
    exact (answer_bind_found (answer_optional_found hport)).trans (answer_pure _)

lemma Attribute.answer_tokens {attr : Attribute} (hvalid : attr.isValid = true) :
    assignment.answer why (attr.tokens ++ rest) = .found attr rest := by
  simp only [Attribute.isValid, Bool.and_eq_true] at hvalid
  unfold assignment
  rw [answer_within]
  show Parser.answer _ why (.id attr.key :: .punct .equals :: .id attr.value :: rest) = _
  rw [answer_bind_found (answer_id_cons hvalid.1 _),
    answer_bind_found (answer_punct_cons .equals),
    answer_bind_found (answer_id_cons hvalid.2 _), answer_pure]

/-! ## Attribute lists -/

namespace Signs

variable (signs : Signs)

/-- The separator between two attributes is taken. -/
lemma answer_separator (w : List Token) :
    (optional (orElse (punct .semicolon) (punct .comma))).answer why (signs.separator :: w) =
      .found (some ()) w := by
  refine answer_optional_found ?_
  unfold separator
  cases signs.semicolons with
  | true => exact answer_orElse_found (answer_punct_cons _)
  | false =>
    exact (answer_orElse_missing (answer_punct_missing (by simp))).trans (answer_punct_cons _)

lemma answer_items {attrs : List Attribute} (h : ∀ attr ∈ attrs, attr.isValid = true) :
    (many item).answer why (Token.join signs.separator (attrs.map Attribute.tokens) ++
      .punct .closeBracket :: rest) = .found attrs (.punct .closeBracket :: rest) := by
  induction attrs with
  | nil =>
    refine answer_many_missing takes_item (answer_bind_missing ?_)
    unfold assignment
    rw [answer_within]
    exact answer_bind_missing (answer_id_missing (by simp [Token.join]))
  | cons attr attrs ih =>
    obtain ⟨hattr, hattrs⟩ := List.forall_mem_cons.1 h
    have hrest := ih hattrs
    rw [List.map_cons, Token.join, List.append_assoc]
    cases attrs with
    | nil =>
      -- behind the last attribute the separator is left out
      have hone : item.answer why (attr.tokens ++ .punct .closeBracket :: rest) =
          .found attr (.punct .closeBracket :: rest) := by
        unfold item
        rw [answer_bind_found (Attribute.answer_tokens hattr), answer_bind_found, answer_pure]
        refine answer_optional_missing ?_
        exact (answer_orElse_missing (answer_punct_missing (by simp))).trans
          (answer_punct_missing (by simp))
      exact answer_many_found takes_item hone hrest
    | cons next attrs =>
      have hone : ∀ w, item.answer why (attr.tokens ++ signs.separator :: w) = .found attr w := by
        intro w
        unfold item
        rw [answer_bind_found (Attribute.answer_tokens hattr),
          answer_bind_found (signs.answer_separator w), answer_pure]
      have htokens : (List.map Attribute.tokens (next :: attrs)).flatMap (signs.separator :: ·) =
          signs.separator ::
            Token.join signs.separator (List.map Attribute.tokens (next :: attrs)) := rfl
      rw [htokens, List.cons_append]
      exact answer_many_found takes_item (hone _) hrest

lemma answer_brackets {attrs : List Attribute} (h : ∀ attr ∈ attrs, attr.isValid = true)
    (hrest : rest.head? ≠ some (.punct .openBracket)) :
    attributeList.answer why (signs.brackets attrs ++ rest) = .found attrs rest := by
  have hgroup : attributeGroup.answer why (signs.brackets attrs ++ rest) = .found attrs rest := by
    rw [attributeGroup_eq, brackets, List.cons_append, List.cons_append,
      answer_bind_found (answer_punct_cons _), List.append_assoc, List.singleton_append,
      answer_bind_found (signs.answer_items h), answer_bind_found (answer_punct_cons _),
      answer_pure]
  unfold attributeList
  rw [answer_within, answer_bind_found hgroup,
    answer_bind_found (answer_many_missing takes_attributeGroup (attributeGroup_missing hrest)),
    answer_pure]
  simp

lemma answer_attributes {attrs : List Attribute} (h : ∀ attr ∈ attrs, attr.isValid = true)
    (hrest : rest.head? ≠ some (.punct .openBracket)) :
    Grammar.attributes.answer why (signs.attributes attrs ++ rest) = .found attrs rest := by
  unfold Grammar.attributes
  cases attrs with
  | nil =>
    exact (answer_bind_found (answer_optional_missing (attributeList_missing hrest))).trans
      (answer_pure _)
  | cons attr attrs =>
    have hlist : attributeList.answer why (signs.attributes (attr :: attrs) ++ rest) =
        .found (attr :: attrs) rest := signs.answer_brackets h hrest
    exact (answer_bind_found (answer_optional_found hlist)).trans (answer_pure _)

end Signs

/-! ## Default attributes -/

lemma Signs.answer_defaults (signs : Signs) (target : Target) {attrs : List Attribute}
    (h : ∀ attr ∈ attrs, attr.isValid = true)
    (hrest : rest.head? ≠ some (.punct .openBracket)) :
    defaults.answer why (.word target.word :: signs.brackets attrs ++ rest) =
      .found (.defaults target attrs) rest := by
  rw [List.cons_append, answer_defaults_word]
  unfold defaultsFor
  rw [Target.word, answer_bind_found (answer_keyword_cons _),
    answer_bind_found (signs.answer_brackets h hrest), answer_pure]

/-! ## Vertices -/

/-- Is the vertex a node named by the bare word for a subgraph? -/
def Vertex.isBareSubgraph : Vertex → Bool
  | .node ref => ref.isWord Keyword.subgraph.word
  | .subgraph _ => false

/-- The tokens do not go on with the vertex that stands before them. -/
def Vertex.CanPrecede (v : Vertex) (rest : List Token) : Prop :=
  ∀ tok ∈ rest.head?, tok ≠ .punct .colon ∧
    (v.isBareSubgraph = true → tok ≠ .punct .openBrace ∧ ∀ name, tok ≠ .id name)

lemma Vertex.canPrecede_punct (v : Vertex) {p : Punct} (hcolon : p ≠ .colon)
    (hbrace : p ≠ .openBrace) (w : List Token) : v.CanPrecede (.punct p :: w) := by
  rintro tok ⟨⟩
  exact ⟨by simpa using hcolon, fun _ => ⟨by simpa using hbrace, by simp⟩⟩

lemma Vertex.canPrecede_arrow (v : Vertex) (signs : Signs) (w : List Token) :
    v.CanPrecede (signs.arrow :: w) := by
  unfold Signs.arrow
  split
  · exact v.canPrecede_punct (by decide) (by decide) w
  · exact v.canPrecede_punct (by decide) (by decide) w

lemma Port.head_tokens {port : Port} (h : port.isValid = true) :
    ∃ w, port.tokens = .punct .colon :: w := by
  obtain ⟨name, compass⟩ := port
  cases name with
  | some name => exact ⟨_, rfl⟩
  | none =>
    cases compass with
    | some c => exact ⟨_, rfl⟩
    | none => exact absurd h (by decide)

lemma NodeId.answer_vertex (room : Nat) {node : NodeId} (hvalid : node.isValid = true)
    (hclear : node.isClear = true) (hrest : (Vertex.node node).CanPrecede rest) :
    (vertex (body room)).answer why (node.tokens ++ rest) = .found (.node node) rest := by
  have hcolon : rest.head? ≠ some (.punct .colon) := fun h => (hrest _ h).1 rfl
  have hgroup : (subgraph (body room)).answer why (node.tokens ++ rest) = .missing := by
    refine subgraph_missing room ?_
    intro hname tok htok
    obtain ⟨name, port⟩ := node
    cases port with
    | none =>
      refine (hrest tok htok).2 ?_
      simpa [Vertex.isBareSubgraph, NodeId.isWord, Id.isWord_iff] using hname
    | some port =>
      -- the colon of the port rules out a name and a body
      simp only [NodeId.isValid, Bool.and_eq_true, Option.all_some] at hvalid
      obtain ⟨w, hw⟩ := Port.head_tokens hvalid.2
      rw [Option.map_some, Option.getD_some, hw] at htok
      cases htok
      exact ⟨by simp, by simp⟩
  exact answer_vertex_node hgroup (NodeId.answer_tokens hvalid hclear hcolon)

lemma Signs.answer_hop (signs : Signs) (room : Nat) (w : List Token) :
    (hop (body room)).answer why (signs.arrow :: w) = (vertex (body room)).answer why w := by
  unfold hop Signs.arrow
  refine answer_bind_found (a := ()) ?_
  cases signs.directed with
  | true => exact answer_orElse_found (answer_punct_cons _)
  | false =>
    exact (answer_orElse_missing (answer_punct_missing (by simp))).trans (answer_punct_cons _)

lemma answer_braces {room : Nat} {ws : List (List Token)} {ss : List Statement}
    (h : (many (terminated (body room))).answer why (ws.flatten ++ .punct .closeBrace :: rest) =
      .found ss (.punct .closeBrace :: rest)) :
    (body (room + 1)).answer why (Token.braces ws ++ rest) = .found ss rest := by
  have hopen : openBody.answer why (.punct .openBrace :: (ws.flatten ++
      .punct .closeBrace :: rest)) = .found () (ws.flatten ++ .punct .closeBrace :: rest) := by
    rw [answer_openBody, take_only_cons]
  unfold body
  rw [answer_within, Token.braces, List.cons_append, List.cons_append, List.append_assoc,
    List.singleton_append, answer_bind_found hopen, answer_bind_found h,
    answer_bind_found (answer_punct_cons _), answer_pure]

/-! ## Statements -/

/-- The tokens start no further part of the statement that stands before them. -/
def Statement.CanPrecede (s : Statement) (rest : List Token) : Prop :=
  ∀ tok ∈ rest.head?, tok = .punct .semicolon ∨ tok = .punct .closeBrace ∨
    (∃ name, tok = .id name) ∧ s.endsInBareSubgraph = false

lemma Statement.CanPrecede.head_ne {s : Statement} (h : s.CanPrecede rest) {p : Punct}
    (hsemicolon : p ≠ .semicolon) (hbrace : p ≠ .closeBrace) : rest.head? ≠ some (.punct p) := by
  intro hhead
  rcases h _ hhead with hp | hp | ⟨⟨name, hp⟩, -⟩
  · exact hsemicolon (Token.punct.inj hp)
  · exact hbrace (Token.punct.inj hp)
  · cases hp

/-- Behind a statement stands nothing that goes on with its last vertex. -/
lemma Statement.CanPrecede.vertex {s : Statement} (h : s.CanPrecede rest) {v : Vertex}
    (hv : v.isBareSubgraph = true → s.endsInBareSubgraph = true) : v.CanPrecede rest := by
  intro tok htok
  refine ⟨fun hcolon => h.head_ne (p := .colon) (by decide) (by decide) (hcolon ▸ htok), ?_⟩
  intro hbare
  refine ⟨fun hbrace => h.head_ne (p := .openBrace) (by decide) (by decide) (hbrace ▸ htok), ?_⟩
  rintro name rfl
  rcases h _ htok with hp | hp | ⟨-, hp⟩
  · cases hp
  · cases hp
  · exact absurd (hv hbare) (by simp [hp])

/-- Attributes, or what follows a statement, go on with no vertex. -/
lemma Statement.CanPrecede.attributes {s : Statement} (h : s.CanPrecede rest) (signs : Signs)
    {v : Vertex} {attrs : List Attribute}
    (hv : attrs = [] → v.isBareSubgraph = true → s.endsInBareSubgraph = true) :
    v.CanPrecede (signs.attributes attrs ++ rest) := by
  cases attrs with
  | nil => exact h.vertex (hv rfl)
  | cons attr attrs => exact v.canPrecede_punct (by decide) (by decide) _

lemma Statement.CanPrecede.attributes_head_ne {s : Statement} (h : s.CanPrecede rest)
    (signs : Signs) (attrs : List Attribute) {p : Punct} (hsemicolon : p ≠ .semicolon)
    (hbrace : p ≠ .closeBrace) (hbracket : p ≠ .openBracket) :
    (signs.attributes attrs ++ rest).head? ≠ some (.punct p) := by
  cases attrs with
  | nil => exact h.head_ne hsemicolon hbrace
  | cons attr attrs =>
    intro hhead
    exact hbracket (Token.punct.inj (Option.some.inj hhead)).symm

lemma NodeId.defaults_missing {node : NodeId} (hvalid : node.isValid = true) {w : List Token}
    (h : node.targetWord? ≠ none → w.head? ≠ some (.punct .openBracket)) :
    defaults.answer why (node.tokens ++ w) = .missing := by
  obtain ⟨name, port⟩ := node
  refine Grammar.defaults_missing ?_
  intro target next hnext
  rw [NodeId.tokens, List.cons_append, List.cons.injEq, Token.word, Token.id.injEq] at hnext
  obtain ⟨hname, rfl⟩ := hnext
  cases port with
  | none =>
    refine h ?_
    rw [NodeId.targetWord?, ne_eq, List.find?_eq_none]
    intro hall
    refine hall target (by cases target <;> decide) ?_
    simpa [NodeId.isWord, Id.isWord_iff] using hname
  | some port =>
    simp only [NodeId.isValid, Bool.and_eq_true, Option.all_some] at hvalid
    obtain ⟨w', hw'⟩ := Port.head_tokens hvalid.2
    simp [hw']

lemma Subgraph.defaults_missing (signs : Signs) (group : Subgraph) (w : List Token) :
    defaults.answer why (group.tokens signs ++ w) = .missing := by
  obtain ⟨name, body⟩ := group
  refine Grammar.defaults_missing ?_
  intro target next hnext
  rw [Subgraph.tokens, List.cons_append, List.cons_append, List.cons.injEq] at hnext
  have hword : Keyword.subgraph.word = target.word := by simpa [Token.word] using hnext.1
  cases target <;> exact absurd hword (by decide)

/-- A node statement is read back. -/
lemma Statement.answer_node (signs : Signs) (room : Nat) {node : NodeId} {attrs : List Attribute}
    (hvalid : (Statement.node node attrs).isValid = true)
    (hclear : (Statement.node node attrs).isClear = true)
    (hrest : (Statement.node node attrs).CanPrecede rest) :
    (statement (body room)).answer why ((Statement.node node attrs).tokens signs ++ rest) =
      .found (.node node attrs) rest := by
  simp only [Statement.isValid, Bool.and_eq_true, List.all_eq_true, Bool.or_eq_true,
    List.isEmpty_iff, Option.isNone_iff_eq_none] at hvalid
  obtain ⟨⟨hnode, hattrs⟩, htarget⟩ := hvalid
  rw [Statement.isClear] at hclear
  have hbracket := hrest.head_ne (p := .openBracket) (by decide) (by decide)
  rw [Statement.tokens, List.append_assoc]
  have hdefaults : Grammar.defaults.answer why (node.tokens ++ (signs.attributes attrs ++ rest)) =
      .missing := by
    refine NodeId.defaults_missing hnode ?_
    intro hword
    -- the word of a target is valid as a node only without attributes
    obtain rfl := htarget.resolve_right hword
    exact hbracket
  have hhead : (vertex (body room)).answer why (node.tokens ++ (signs.attributes attrs ++ rest)) =
      .found (.node node) (signs.attributes attrs ++ rest) := by
    refine NodeId.answer_vertex room hnode hclear (hrest.attributes signs ?_)
    rintro rfl hbare
    simpa [Statement.endsInBareSubgraph, Vertex.isBareSubgraph] using hbare
  have hmore : (hops (body room)).answer why (signs.attributes attrs ++ rest) =
      .found [] (signs.attributes attrs ++ rest) :=
    answer_hops_nil room
      (hrest.attributes_head_ne signs attrs (by decide) (by decide) (by decide))
      (hrest.attributes_head_ne signs attrs (by decide) (by decide) (by decide))
  have hequals :=
    hrest.attributes_head_ne signs attrs (p := .equals) (by decide) (by decide) (by decide)
  have hassigned : (if node.port.isNone then optional (punct .equals) else pure none).answer why
      (signs.attributes attrs ++ rest) = .found none (signs.attributes attrs ++ rest) := by
    split
    · exact answer_optional_missing (answer_punct_missing hequals)
    · exact answer_pure none
  have hmake : Statement.makeNode node attrs = .ok (.node node attrs) := by
    rcases htarget with rfl | hnone
    · rfl
    · simp [Statement.makeNode, hnone]
  rw [answer_statement hdefaults hhead hmore]
  show (nodeOrAttribute node).answer why _ = _
  rw [nodeOrAttribute_eq, answer_bind_found hassigned]
  exact (answer_bind_found (signs.answer_attributes hattrs hbracket)).trans (by
    rw [hmake, answer_build_ok])

/-- An attribute of the enclosing graph is read back. -/
lemma Statement.answer_assign (room : Nat) {attr : Attribute} (hvalid : attr.isValid = true) :
    (statement (body room)).answer why (attr.tokens ++ rest) = .found (.assign attr) rest := by
  simp only [Attribute.isValid, Bool.and_eq_true] at hvalid
  exact Grammar.answer_assign room hvalid.1 hvalid.2

/-- The first token of a statement is an identifier. -/
lemma Statement.head_tokens (signs : Signs) {s : Statement} (hvalid : s.isValid = true) :
    ∃ name w, s.tokens signs = .id name :: w := by
  cases s with
  | node ref attrs => exact ⟨_, _, rfl⟩
  | edge chain attrs =>
    cases chain with
    | nil => simp [Statement.isValid] at hvalid
    | cons v chain =>
      rw [Statement.tokens, Vertex.tokensAll, Token.join]
      rcases v with ref | ⟨name, body⟩
      · exact ⟨_, _, rfl⟩
      · exact ⟨_, _, rfl⟩
  | subgraph group =>
    obtain ⟨name, body⟩ := group
    exact ⟨_, _, rfl⟩
  | assign attr => exact ⟨_, _, rfl⟩
  | defaults target attrs => exact ⟨_, _, rfl⟩

/-- Behind the statements of a body that are still to be read stands the closing brace; before
it stands the first identifier of the next statement. -/
lemma Statement.head_tokensAll (signs : Signs) {body : List Statement}
    (hvalid : Statement.areValid body = true) (w : List Token) :
    ∀ tok ∈ ((Statement.tokensAll signs body).flatten ++ .punct .closeBrace :: w).head?,
      tok = .punct .closeBrace ∨ ∃ name, tok = .id name := by
  cases body with
  | nil =>
    rintro tok ⟨⟩
    exact Or.inl rfl
  | cons s body =>
    simp only [Statement.areValid, Bool.and_eq_true] at hvalid
    obtain ⟨name, u, hu⟩ := Statement.head_tokens signs hvalid.1
    intro tok htok
    rw [Statement.tokensAll, Signs.terminate, hu] at htok
    split at htok
    · cases htok
      exact Or.inr ⟨name, rfl⟩
    · cases htok
      exact Or.inr ⟨name, rfl⟩

lemma Statement.answer_terminated (signs : Signs) {room : Nat} {s : Statement}
    (h : ∀ w, s.CanPrecede w →
      (statement (body room)).answer why (s.tokens signs ++ w) = .found s w)
    (hrest : ∀ tok ∈ rest.head?, tok = .punct .closeBrace ∨ ∃ name, tok = .id name) :
    (terminated (body room)).answer why (signs.terminate s (s.tokens signs) ++ rest) =
      .found s rest := by
  unfold terminated Signs.terminate
  split
  · -- the semicolon is taken
    have hs : s.CanPrecede (.punct .semicolon :: rest) := by
      rintro tok ⟨⟩
      exact Or.inl rfl
    rw [List.append_assoc, List.singleton_append, answer_bind_found (h _ hs),
      answer_bind_found (answer_optional_found (answer_punct_cons _)), answer_pure]
  · rename_i hsign
    simp only [Bool.or_eq_true, not_or, Bool.not_eq_true] at hsign
    have hs : s.CanPrecede rest := by
      intro tok htok
      rcases hrest tok htok with hbrace | hname
      · exact Or.inr (Or.inl hbrace)
      · exact Or.inr (Or.inr ⟨hname, hsign.2⟩)
    -- without a semicolon the statement does not end in the bare word for a subgraph
    have hsemicolon : rest.head? ≠ some (.punct .semicolon) := by
      intro hhead
      rcases hrest _ hhead with hbrace | ⟨name, hname⟩
      · cases hbrace
      · cases hname
    rw [answer_bind_found (h rest hs),
      answer_bind_found (answer_optional_missing (answer_punct_missing hsemicolon)), answer_pure]

/-- The first vertex of a chain is not read as default attributes. -/
lemma Vertex.defaults_missing (signs : Signs) {v : Vertex} (hvalid : v.isValid = true)
    (w : List Token) : defaults.answer why (v.tokens signs ++ signs.arrow :: w) = .missing := by
  cases v with
  | node ref =>
    rw [Vertex.isValid] at hvalid
    rw [Vertex.tokens]
    refine NodeId.defaults_missing hvalid fun _ => ?_
    unfold Signs.arrow
    split <;> simp
  | subgraph group =>
    rw [Vertex.tokens]
    exact Subgraph.defaults_missing signs group _

lemma Statement.endsInBareSubgraph_edge {chain : List Vertex} {v : Vertex}
    (hlast : chain.getLast? = some v) :
    (Statement.edge chain []).endsInBareSubgraph = v.isBareSubgraph := by
  rw [Statement.endsInBareSubgraph, hlast]
  cases v <;> rfl

/-- An edge statement is read back, once its vertices are. -/
lemma Statement.answer_edge (signs : Signs) {room : Nat} {v next : Vertex} {more : List Vertex}
    {attrs : List Attribute} {w : List Token} (hv : v.isValid = true)
    (hattrs : ∀ attr ∈ attrs, attr.isValid = true)
    (hrest : rest.head? ≠ some (.punct .openBracket))
    (hhead : (vertex (body room)).answer why (v.tokens signs ++ signs.arrow :: w) =
      .found v (signs.arrow :: w))
    (hhops : (hops (body room)).answer why (signs.arrow :: w) =
      .found (next :: more) (signs.attributes attrs ++ rest)) :
    (statement (body room)).answer why (v.tokens signs ++ signs.arrow :: w) =
      .found (.edge (v :: next :: more) attrs) rest := by
  have hmake : Statement.makeEdge (v :: next :: more) attrs =
      .ok (.edge (v :: next :: more) attrs) := if_pos (by simp)
  rw [answer_statement (Vertex.defaults_missing signs hv w) hhead hhops]
  unfold afterChain
  rw [answer_bind_found (signs.answer_attributes hattrs hrest), hmake, answer_build_ok]

/-! ## Parts with a body -/

mutual

lemma Subgraph.answer_tokens (signs : Signs) :
    ∀ {group : Subgraph} {room : Nat} {rest : List Token},
    group.isValid = true → group.isClear = true → group.nesting ≤ room →
      (subgraph (body room)).answer why (group.tokens signs ++ rest) = .found group rest
  | .mk name ss, room, rest, hvalid, hclear, hroom => by
    simp only [Subgraph.isValid, Bool.and_eq_true] at hvalid
    rw [Subgraph.isClear] at hclear
    rw [Subgraph.nesting] at hroom
    -- there is room for one more body, since the subgraph has one
    obtain ⟨room, rfl⟩ : ∃ r, room = r + 1 := ⟨room - 1, by omega⟩
    have hbody : (body (room + 1)).answer why
        (Token.braces (Statement.tokensAll signs ss) ++ rest) = .found ss rest :=
      answer_braces (Statement.answerAll_tokens signs hvalid.2 hclear (by omega))
    have hname : (optional Grammar.id).answer why ((name.map Token.id).toList ++
        (Token.braces (Statement.tokensAll signs ss) ++ rest)) =
          .found name (Token.braces (Statement.tokensAll signs ss) ++ rest) :=
      answer_name hvalid.1 (by simp [Token.braces])
    rw [Subgraph.tokens, List.cons_append, List.cons_append, List.append_assoc, subgraph_eq,
      answer_within, answer_bind_found (answer_optional_found (answer_keyword_cons .subgraph))]
    refine (answer_bind_found hname).trans ?_
    rw [answer_bind_found hbody, answer_pure]

lemma Statement.answer_tokens (signs : Signs) : ∀ {s : Statement} {room : Nat} {rest : List Token},
    s.isValid = true → s.isClear = true → s.nesting ≤ room → s.CanPrecede rest →
      (statement (body room)).answer why (s.tokens signs ++ rest) = .found s rest
  | .node ref attrs, room, rest, hvalid, hclear, _, hrest =>
    Statement.answer_node signs room hvalid hclear hrest
  | .edge [] attrs, _, _, hvalid, _, _, _ => by simp [Statement.isValid] at hvalid
  | .edge (v :: chain) attrs, room, rest, hvalid, hclear, hroom, hrest => by
    simp only [Statement.isValid, Vertex.areValid, Bool.and_eq_true, decide_eq_true_eq,
      List.all_eq_true] at hvalid
    obtain ⟨⟨hlength, hv, hchain⟩, hattrs⟩ := hvalid
    simp only [Statement.isClear, Vertex.areClear, Bool.and_eq_true] at hclear
    rw [Statement.nesting, Vertex.nestingAll] at hroom
    obtain ⟨next, more, rfl⟩ : ∃ next more, chain = next :: more := by
      cases chain with
      | nil => simp at hlength
      | cons next more => exact ⟨next, more, rfl⟩
    -- only the last vertex touches what stands behind the statement
    have hlast : ∀ u ∈ (next :: more).getLast?,
        u.CanPrecede (signs.attributes attrs ++ rest) := by
      intro u hu
      refine hrest.attributes signs ?_
      rintro rfl hbare
      rwa [Statement.endsInBareSubgraph_edge (v := u) (by simpa using hu)]
    have hhops : (hops (body room)).answer why
        ((Vertex.tokensAll signs (next :: more)).flatMap (signs.arrow :: ·) ++
          (signs.attributes attrs ++ rest)) =
          .found (next :: more) (signs.attributes attrs ++ rest) := by
      unfold hops
      rw [answer_within]
      exact Vertex.answerAll_tokens signs hchain hclear.2 (by omega) hlast
        (hrest.attributes_head_ne signs attrs (by decide) (by decide) (by decide))
        (hrest.attributes_head_ne signs attrs (by decide) (by decide) (by decide))
    rw [Vertex.tokensAll, List.flatMap_cons, List.cons_append, List.cons_append] at hhops
    rw [Statement.tokens, Vertex.tokensAll, Vertex.tokensAll, Token.join, List.append_assoc,
      List.append_assoc, List.flatMap_cons, List.cons_append, List.cons_append]
    exact Statement.answer_edge signs hv hattrs (hrest.head_ne (by decide) (by decide))
      (Vertex.answer_tokens signs hv hclear.1 (by omega) (v.canPrecede_arrow signs _)) hhops
  | .subgraph group, room, rest, hvalid, hclear, hroom, hrest => by
    rw [Statement.isValid] at hvalid
    rw [Statement.isClear] at hclear
    rw [Statement.nesting] at hroom
    have hvertex : (vertex (body room)).answer why (group.tokens signs ++ rest) =
        .found (.subgraph group) rest := by
      unfold vertex
      rw [answer_within, answer_firstOf_cons,
        answer_bind_found (Subgraph.answer_tokens signs hvalid hclear hroom), answer_pure]
    rw [Statement.tokens, answer_statement (Subgraph.defaults_missing signs group rest) hvertex
      (answer_hops_nil room (hrest.head_ne (by decide) (by decide))
        (hrest.head_ne (by decide) (by decide)))]
    exact answer_pure _
  | .assign attr, room, rest, hvalid, _, _, _ => by
    rw [Statement.isValid] at hvalid
    rw [Statement.tokens]
    exact Statement.answer_assign room hvalid
  | .defaults target attrs, room, rest, hvalid, _, _, hrest => by
    simp only [Statement.isValid, List.all_eq_true] at hvalid
    rw [Statement.tokens]
    unfold statement
    rw [answer_within]
    exact answer_orElse_found (signs.answer_defaults target hvalid
      (hrest.head_ne (by decide) (by decide)))

lemma Statement.answerAll_tokens (signs : Signs) :
    ∀ {ss : List Statement} {room : Nat} {rest : List Token},
      Statement.areValid ss = true → Statement.areClear ss = true →
      Statement.nestingAll ss ≤ room →
        (many (terminated (body room))).answer why
          ((Statement.tokensAll signs ss).flatten ++ .punct .closeBrace :: rest) =
            .found ss (.punct .closeBrace :: rest)
  | [], room, rest, _, _, _ =>
    answer_many_missing (takes_terminated (takes_body room)) (terminated_missing room)
  | s :: ss, room, rest, hvalid, hclear, hroom => by
    simp only [Statement.areValid, Statement.areClear, Bool.and_eq_true] at hvalid hclear
    rw [Statement.nestingAll] at hroom
    have hs : ∀ w, s.CanPrecede w →
        (statement (body room)).answer why (s.tokens signs ++ w) = .found s w :=
      fun w hw => Statement.answer_tokens signs hvalid.1 hclear.1 (by omega) hw
    have hone := Statement.answer_terminated signs hs (Statement.head_tokensAll signs hvalid.2 rest)
    rw [Statement.tokensAll, List.flatten_cons, List.append_assoc]
    exact answer_many_found (takes_terminated (takes_body room)) hone
      (Statement.answerAll_tokens signs hvalid.2 hclear.2 (by omega))

lemma Vertex.answer_tokens (signs : Signs) : ∀ {v : Vertex} {room : Nat} {rest : List Token},
    v.isValid = true → v.isClear = true → v.nesting ≤ room → v.CanPrecede rest →
      (vertex (body room)).answer why (v.tokens signs ++ rest) = .found v rest
  | .node ref, room, rest, hvalid, hclear, _, hrest => by
    rw [Vertex.isValid] at hvalid
    rw [Vertex.isClear] at hclear
    rw [Vertex.tokens]
    exact NodeId.answer_vertex room hvalid hclear hrest
  | .subgraph group, room, rest, hvalid, hclear, hroom, _ => by
    rw [Vertex.isValid] at hvalid
    rw [Vertex.isClear] at hclear
    rw [Vertex.nesting] at hroom
    rw [Vertex.tokens]
    unfold vertex
    rw [answer_within, answer_firstOf_cons,
      answer_bind_found (Subgraph.answer_tokens signs hvalid hclear hroom), answer_pure]

lemma Vertex.answerAll_tokens (signs : Signs) :
    ∀ {chain : List Vertex} {room : Nat} {rest : List Token},
      Vertex.areValid chain = true → Vertex.areClear chain = true →
      Vertex.nestingAll chain ≤ room → (∀ v ∈ chain.getLast?, v.CanPrecede rest) →
      rest.head? ≠ some (.punct .arrow) → rest.head? ≠ some (.punct .line) →
        (many (hop (body room))).answer why
          ((Vertex.tokensAll signs chain).flatMap (signs.arrow :: ·) ++ rest) = .found chain rest
  | [], room, rest, _, _, _, _, harrow, hline =>
    answer_many_missing (takes_hop (takes_body room)) (hop_missing room harrow hline)
  | v :: chain, room, rest, hvalid, hclear, hroom, hlast, harrow, hline => by
    simp only [Vertex.areValid, Vertex.areClear, Bool.and_eq_true] at hvalid hclear
    rw [Vertex.nestingAll] at hroom
    -- an arrow follows every vertex but the last
    have hprecede : v.CanPrecede
        ((Vertex.tokensAll signs chain).flatMap (signs.arrow :: ·) ++ rest) := by
      cases chain with
      | nil => exact hlast v rfl
      | cons next chain => exact v.canPrecede_arrow signs _
    have hmore : ∀ u ∈ chain.getLast?, u.CanPrecede rest := by
      cases chain with
      | nil => simp
      | cons next chain => simpa using hlast
    have hone : (hop (body room)).answer why (signs.arrow :: v.tokens signs ++
        ((Vertex.tokensAll signs chain).flatMap (signs.arrow :: ·) ++ rest)) =
          .found v ((Vertex.tokensAll signs chain).flatMap (signs.arrow :: ·) ++ rest) := by
      rw [List.cons_append, signs.answer_hop]
      exact Vertex.answer_tokens signs hvalid.1 hclear.1 (by omega) hprecede
    rw [Vertex.tokensAll, List.flatMap_cons, List.append_assoc]
    exact answer_many_found (takes_hop (takes_body room)) hone
      (Vertex.answerAll_tokens signs hvalid.2 hclear.2 (by omega) hmore harrow hline)

end

/-! ## Whole documents -/

lemma Graph.answer_strict (graph : Graph) (w : List Token) :
    (optional (keyword .strict)).answer why
      ((if graph.strict then [.word Keyword.strict.word] else []) ++ .word graph.kind.word :: w) =
        .found (if graph.strict then some () else none) (.word graph.kind.word :: w) := by
  cases graph.strict with
  | true => exact answer_optional_found (answer_keyword_cons .strict)
  | false =>
    have hne : graph.kind.word ≠ Keyword.strict.word := by
      unfold Graph.kind
      split <;> decide
    exact answer_optional_missing (answer_keyword_missing (by simpa [Token.word] using hne))

/-- The tokens of a graph are read back as the graph. -/
lemma Graph.answer_tokens (semicolons : Bool) {graph : Graph} (hvalid : graph.isValid = true)
    (hclear : graph.isClear = true) (hroom : graph.nesting ≤ maxNesting) :
    file.answer .endOfInput (graph.tokens semicolons) = .found graph [] := by
  simp only [Graph.isValid, Bool.and_eq_true] at hvalid
  rw [Graph.isClear] at hclear
  rw [Graph.nesting] at hroom
  obtain ⟨room, hmax⟩ : ∃ room, maxNesting = room + 1 := ⟨119, rfl⟩
  let ws := Statement.tokensAll ⟨graph.directed, semicolons⟩ graph.body
  have hbody : (Grammar.body maxNesting).answer .endOfInput (Token.braces ws ++ []) =
      .found graph.body [] := by
    rw [hmax]
    exact answer_braces (Statement.answerAll_tokens _ hvalid.2 hclear (by omega))
  have hname : (optional Grammar.id).answer .endOfInput ((graph.id.map Token.id).toList ++
      (Token.braces ws ++ [])) = .found graph.id (Token.braces ws ++ []) :=
    answer_name hvalid.1 (by simp [Token.braces])
  have hgraph : Grammar.graph.answer .endOfInput (graph.tokens semicolons ++ []) =
      .found graph [] := by
    have hkind : ∀ w, Grammar.kind.answer .endOfInput (.word graph.kind.word :: w) =
        .found graph.directed w := Grammar.answer_kind graph.directed
    rw [Grammar.graph_eq, answer_within, Graph.tokens, List.append_assoc, List.append_assoc,
      List.cons_append, answer_bind_found (graph.answer_strict _), answer_bind_found (hkind _),
      answer_bind_found hname, answer_bind_found hbody, answer_pure]
    have hstrict : (if graph.strict then some () else none).isSome = graph.strict := by
      cases graph.strict <;> rfl
    rw [hstrict]
  have hend : finished.answer .endOfInput [] = .found () [] := by simp
  rw [List.append_nil] at hgraph
  unfold file
  rw [answer_within, answer_bind_found hgraph, answer_bind_found hend, answer_pure]

/-- Printing a graph and reading the text again gives the graph, in every layout that separates
lines by blanks. -/
theorem Graph.parse_print {settings : Settings} {graph : Graph} (hsep : settings.Separates)
    (hvalid : graph.isValid = true) (hclear : graph.isClear = true)
    (hroom : graph.nesting ≤ Grammar.maxNesting) :
    Graph.parse (graph.print settings) = .ok graph := by
  obtain ⟨htokens, hend⟩ := splits_iff.1 (Graph.splits_print hsep hvalid)
  rw [Graph.parse, Parser.result_eq_ok_iff, htokens, hend]
  exact ⟨[], Graph.answer_tokens settings.useSemicolons hvalid hclear hroom⟩

/-- Statements that would run together without the care of the printer: a node named by the word
for a subgraph before a subgraph and before an identifier, a negative number behind a name, a
compass point, and the words of targets. -/
theorem Graph.parse_print_close_statements :
    Graph.parse (Graph.print ⟨-1, 3, ['\r', '\n', '\t'], false, false, 0⟩
      ⟨true, true, some ⟨.quoted, ['g']⟩, [
        .node ⟨⟨.plain, Keyword.subgraph.word⟩, none⟩ [],
        .subgraph (.mk none [.defaults .node [],
          .edge [.node ⟨⟨.plain, ['a']⟩, some ⟨none, some .north⟩⟩,
            .node ⟨⟨.plain, Keyword.subgraph.word⟩, none⟩] []]),
        .node ⟨⟨.plain, Keyword.node.word⟩, none⟩ [],
        .node ⟨⟨.plain, ['-', '1']⟩, none⟩ []]⟩) =
      .ok ⟨true, true, some ⟨.quoted, ['g']⟩, [
        .node ⟨⟨.plain, Keyword.subgraph.word⟩, none⟩ [],
        .subgraph (.mk none [.defaults .node [],
          .edge [.node ⟨⟨.plain, ['a']⟩, some ⟨none, some .north⟩⟩,
            .node ⟨⟨.plain, Keyword.subgraph.word⟩, none⟩] []]),
        .node ⟨⟨.plain, Keyword.node.word⟩, none⟩ [],
        .node ⟨⟨.plain, ['-', '1']⟩, none⟩ []]⟩ :=
  Graph.parse_print ⟨by decide, by decide⟩ (by decide +kernel) (by decide +kernel)
    (by decide +kernel)

end DotNotation
