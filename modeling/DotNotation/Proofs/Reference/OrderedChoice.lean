/-
# The parser follows the grammar with ordered choice

Each rule of the parser is compared with the rule of the grammar, read with ordered choice.
Most rules agree by their form.

A statement does not.  The grammar tries its five forms one after the other from the start of
the statement, while the parser reads the first vertex once.  And where an equals sign has no
value behind it the parser finds nothing, while the grammar falls back on a node and stops
before the equals sign.  Such a node cannot be followed by anything that ends a body, so
the difference disappears with the body.  The main results are

* `completes_statement`: statements agree, except for a node before an equals sign;
* `agrees_body`: bodies agree, at every depth that the parser has room for;
* `Graph.parse_eq_ok_iff_parses`: documents agree.
-/
import DotNotation.Proofs.Reference.Agreement

namespace DotNotation

open DotNotation.Parser

namespace Reference

/-! ## Rules without bodies -/

section Rules

open DotNotation.Grammar

variable {t : Text}

/-- Ports are read as the grammar means them. -/
lemma portOf_eq (first : Id) (compass : Option Compass) :
    ∃ port, portOf first compass = .ok port ∧
      Nonterminal.port.act (.id first :: (compass.map Value.compass).toList) = [.port port] := by
  obtain ⟨kind, value⟩ := first
  cases compass with
  | some c => exact ⟨_, rfl, by cases kind <;> rfl⟩
  | none =>
    cases kind with
    | plain =>
      -- only a plain name can be a compass point
      cases hc : Compass.ofWord? value with
      | some c =>
        exact ⟨⟨none, some c⟩, by simp [portOf, hc, Port.make, Port.isComplete],
          by simp [Nonterminal.act, hc]⟩
      | none =>
        exact ⟨⟨some ⟨.plain, value⟩, none⟩, by simp [portOf, hc, Port.make, Port.isComplete],
          by simp [Nonterminal.act, hc]⟩
    | quoted => exact ⟨_, rfl, rfl⟩
    | html => exact ⟨_, rfl, rfl⟩

lemma agrees_port : Agrees t Grammar.port (.rule .port) fun port vs => vs = [.port port] := by
  refine agrees_rule (agrees_within (agrees_bind (agrees_punct .colon) ?_))
  rintro _ _ mid rfl
  refine agrees_bind agrees_id ?_
  rintro first _ mid rfl
  have hcompass : Agrees mid (punct .colon >>= fun _ => within .compass compassPoint)
      (.sequence [.punct .colon, .rule .compass]) fun c vs => vs = [.compass c] := by
    refine agrees_bind (agrees_punct .colon) ?_
    rintro _ _ last rfl
    exact agrees_last agrees_compass
  refine agrees_bind (agrees_opt hcompass) ?_
  rintro compass vs mid hvs
  obtain ⟨port, hport, hact⟩ := portOf_eq first compass
  rw [hport]
  refine agrees_pure ?_
  have hvalues : vs = (compass.map Value.compass).toList := by
    cases compass with
    | none => exact hvs
    | some c => exact hvs
  rw [hvalues]
  simpa using hact

lemma agrees_nodeId : Agrees t nodeId (.rule .nodeId) fun ref vs => vs = [.nodeId ref] := by
  refine agrees_rule (agrees_within (agrees_bind agrees_id ?_))
  rintro name _ mid rfl
  refine agrees_bind (agrees_opt agrees_port) ?_
  rintro port vs mid hvs
  refine agrees_pure ?_
  cases port with
  | none =>
    obtain rfl := hvs
    rfl
  | some port =>
    obtain rfl := hvs
    rfl

lemma agrees_assignment :
    Agrees t assignment (.rule .assign) fun attr vs => vs = [.assign attr] := by
  refine agrees_rule (agrees_within (agrees_bind agrees_id ?_))
  rintro key _ mid rfl
  refine agrees_bind (agrees_punct .equals) ?_
  rintro _ _ mid rfl
  refine agrees_bind agrees_id ?_
  rintro value _ mid rfl
  exact agrees_pure rfl

lemma agrees_item : Agrees t item itemExpr fun attr vs => vs = [.assign attr] := by
  refine agrees_bind agrees_assignment ?_
  rintro attr _ mid rfl
  have hseparator : Agrees mid (orElse (punct .semicolon) (punct .comma))
      (.firstOf [.punct .semicolon, .punct .comma]) fun _ vs => vs = [] :=
    agrees_choice (agrees_punct .semicolon) (agrees_last_choice (agrees_punct .comma))
  refine agrees_bind (agrees_opt hseparator) ?_
  rintro o vs mid hvs
  refine agrees_pure ?_
  cases o with
  | none =>
    obtain rfl := hvs
    rfl
  | some _ =>
    obtain rfl := hvs
    rfl

lemma agrees_attributeGroup :
    Agrees t attributeGroup groupExpr fun attrs vs => vs.filterMap Value.assign? = attrs := by
  rw [attributeGroup_eq]
  refine agrees_bind (agrees_punct .openBracket) ?_
  rintro _ _ mid rfl
  refine agrees_bind (agrees_many takes_item (fun _ => agrees_item) mid) ?_
  rintro attrs vs mid hvs
  refine agrees_bind (agrees_punct .closeBracket) ?_
  rintro _ _ last rfl
  refine agrees_pure ?_
  have hattrs := hvs.filterMap (f := Value.assign?) (g := fun attr => [attr])
    fun attr us hus => by rw [hus]; rfl
  simpa using hattrs

lemma agrees_attributeList :
    Agrees t attributeList (.rule .attributeList) fun attrs vs => vs = [.attributes attrs] := by
  refine agrees_rule (agrees_within (agrees_bind agrees_attributeGroup ?_))
  rintro first vs mid rfl
  refine agrees_map (agrees_many takes_attributeGroup (fun _ => agrees_attributeGroup) mid) ?_
  intro others us hus
  have hothers := hus.filterMap (f := Value.assign?) (g := id) fun _ _ h => h
  show [Value.attributes ((vs ++ us).filterMap Value.assign?)] = _
  rw [List.filterMap_append, hothers, List.flatMap_id]

/-- The values of an attribute list that may be left out. -/
def AttributesOf (attrs : List Attribute) (vs : List Value) : Prop :=
  vs = [] ∧ attrs = [] ∨ vs = [.attributes attrs]

lemma agrees_attributes :
    Agrees t attributes (.opt (.rule .attributeList)) AttributesOf := by
  refine agrees_map (agrees_opt agrees_attributeList) ?_
  rintro (_ | attrs) vs hvs
  · exact Or.inl ⟨hvs, rfl⟩
  · exact Or.inr hvs

/-- The keywords of the targets, in the order of the grammar. -/
lemma parses_target {target : Target} {rest : Text} (hheads : Heads t (.word target.word) rest) :
    Parses (.firstOf [.keyword .graph, .keyword .node, .keyword .edge]) t
      (some ([.keyword target.keyword], rest)) := by
  have hmem : target.keyword ∈ [Keyword.graph, .node, .edge] := by
    cases target <;> simp [Target.keyword]
  exact parses_keywords hheads hmem

lemma agrees_defaults :
    Agrees t Grammar.defaults (.rule .defaults) fun s vs => vs = [.statement s] := by
  refine agrees_rule ?_
  by_cases hword : ∃ target w, (Tokens.ofText t).toList = .word (Target.word target) :: w
  · obtain ⟨target, w, htokens⟩ := hword
    obtain ⟨mid, hheads, hmid⟩ := exists_heads htokens
    have hfor : Agrees t (defaultsFor target) Nonterminal.defaults.expr
        fun s vs => Nonterminal.defaults.act vs = [.statement s] := by
      have hkeyword : Agrees t (keyword target.keyword)
          (.firstOf [.keyword .graph, .keyword .node, .keyword .edge])
          fun _ vs => vs = [.keyword target.keyword] := by
        refine agrees_of_found (a := ()) (w := w) ?_ ⟨hmid, hheads.alike.2.symm⟩
          (parses_target hheads) rfl
        rw [onText, htokens]
        exact answer_keyword_cons target.keyword
      refine agrees_bind hkeyword ?_
      rintro _ _ last rfl
      refine agrees_last (agrees_map agrees_attributeList ?_)
      rintro attrs _ rfl
      cases target <;> rfl
    -- of the three keywords at most one stands here, so their order is of no account
    have hsame : Grammar.defaults.onText t = (defaultsFor target).onText t := by
      rw [onText, onText, htokens, answer_defaults_word]
    rw [Agrees, hsame]
    exact hfor
  · have hmissing : Grammar.defaults.onText t = .missing := by
      refine defaults_missing ?_
      intro target w hw
      exact absurd ⟨target, w, hw⟩ hword
    have hnone : Parses (.firstOf ([.graph, .node, .edge].map Expr.keyword)) t none := by
      refine parses_no_keyword ?_
      intro k hk rest hheads
      simp only [List.mem_cons, List.not_mem_nil, or_false] at hk
      rcases hk with rfl | rfl | rfl
      · exact hword ⟨.graph, _, hheads.alike.1⟩
      · exact hword ⟨.node, _, hheads.alike.1⟩
      · exact hword ⟨.edge, _, hheads.alike.1⟩
    exact agrees_of_missing hmissing (.no_first hnone)

/-! ## Rules around a body -/

/-- The parser for bodies agrees with their rule on every text. -/
def AgreesOnBodies (body : Parser (List Statement)) : Prop :=
  ∀ t, Agrees t body (.rule .body) fun ss vs => vs = [.body ss]

section Bodies

variable {body : Parser (List Statement)} [Uniform body]

/-- The keyword for a subgraph with a name that may be left out, itself left out or not. -/
lemma onText_mark (t : Text) :
    (optional (keyword .subgraph) >>= fun marked =>
      marked.elim (pure none) fun _ => optional Grammar.id).onText t =
    (optional (keyword .subgraph >>= fun _ => optional Grammar.id) >>= fun name =>
      pure name.join).onText t := by
  rw [onText, onText, answer_bind, answer_bind, answer_optional, answer_optional, answer_bind]
  cases (keyword .subgraph).answer (Tokens.ofText t).why (Tokens.ofText t).toList with
  | found a w =>
    simp only [Option.elim_some]
    rw [answer_optional]
    cases Grammar.id.answer (Tokens.ofText t).why w <;> simp
  | missing => simp
  | gaveUp cause => rfl

/-- The mark of a subgraph goes with the name and any body to the right subgraph. -/
lemma agrees_mark (t : Text) :
    Agrees t (optional (keyword .subgraph) >>= fun marked =>
      marked.elim (pure none) fun _ => optional Grammar.id)
      (.opt (.sequence [.keyword .subgraph, .opt .id])) fun name vs =>
        ∀ ss, Nonterminal.subgraph.act (vs ++ [.body ss]) = [.subgraph (.mk name ss)] := by
  have hmark : Agrees t (keyword .subgraph >>= fun _ => optional Grammar.id)
      (.sequence [.keyword .subgraph, .opt .id]) fun name vs =>
        vs = .keyword .subgraph :: (name.map Value.id).toList := by
    refine agrees_bind (agrees_keyword .subgraph) ?_
    rintro _ _ mid rfl
    refine agrees_last ((agrees_opt agrees_id).mono ?_)
    rintro (_ | name) vs hvs
    · obtain rfl := hvs
      rfl
    · obtain rfl := hvs
      rfl
  rw [Agrees, onText_mark]
  refine agrees_map (agrees_opt hmark) ?_
  rintro (_ | _ | name) vs hvs ss
  · obtain rfl := hvs
    rfl
  · obtain rfl := hvs
    rfl
  · obtain rfl := hvs
    rfl

lemma agrees_subgraph (hbody : AgreesOnBodies body) (t : Text) :
    Agrees t (Grammar.subgraph body) (.rule .subgraph) fun group vs => vs = [.subgraph group] := by
  refine agrees_rule ?_
  rw [subgraph_eq]
  refine agrees_within ?_
  -- the grammar groups the keyword with the name, so the parser is grouped alike
  rw [Agrees, onText, ← answer_bind_assoc]
  refine agrees_bind (agrees_mark t) ?_
  intro name vs mid hvs
  refine agrees_bind (hbody mid) ?_
  rintro ss _ rest rfl
  exact agrees_pure (hvs ss)

lemma agrees_vertex (hbody : AgreesOnBodies body) (t : Text) :
    Agrees t (Grammar.vertex body) (.rule .vertex) fun v vs => vs = [.vertex v] := by
  refine agrees_rule (agrees_within (agrees_choice ?_ (agrees_choice ?_ ?_)))
  · refine agrees_map (agrees_subgraph hbody t) ?_
    rintro group _ rfl
    rfl
  · refine agrees_map agrees_nodeId ?_
    rintro ref _ rfl
    rfl
  · exact agrees_of_missing rfl .fail

lemma agrees_hop (hbody : AgreesOnBodies body) (t : Text) :
    Agrees t (hop body) hopExpr fun v vs => vs = [.vertex v] := by
  have harrow : Agrees t (orElse (punct .arrow) (punct .line)) (.rule .arrow)
      fun _ vs => vs = [] := by
    refine agrees_rule (agrees_choice ?_ (agrees_last_choice ?_))
    · refine (agrees_punct .arrow).mono ?_
      rintro _ _ rfl
      rfl
    · refine (agrees_punct .line).mono ?_
      rintro _ _ rfl
      rfl
  refine agrees_bind harrow ?_
  rintro _ _ mid rfl
  exact agrees_last (agrees_vertex hbody mid)

lemma agrees_hops (htakes : body.Takes 1) (hbody : AgreesOnBodies body) (t : Text) :
    Agrees t (hops body) (.star hopExpr)
      (ListOf fun v vs => vs = [.vertex v]) :=
  agrees_within (agrees_many (takes_hop htakes) (fun t => agrees_hop hbody t) t)

end Bodies

/-! ## Statements -/

/-- From a text that starts with an identifier the grammar reads something, and an equals sign
follows. -/
def StopsShort (e : Expr) (t : Text) : Prop :=
  ∃ vs rest, Parses e t (some (vs, rest)) ∧
    (Tokens.ofText rest).toList.head? = some (.punct .equals) ∧
    ∃ name, (Tokens.ofText t).toList.head? = some (.id name)

/-- At some place inside a statement the parser finds the statement that the grammar reads from
its start, or neither finds one, or the grammar stops short. -/
def Completes (e : Expr) (t mid : Text) (p : Parser Statement) : Prop :=
  match p.onText mid with
  | .found s w => ∃ rest, Leaves mid w rest ∧ Parses e t (some ([.statement s], rest))
  | .missing => Parses e t none ∨ StopsShort e t
  | .gaveUp _ => True

section Completes

variable {e : Expr} {mid rest : Text} {p : Parser Statement}

lemma completes_of_found {s : Statement} {w : List Token} (hans : p.onText mid = .found s w)
    (hrest : Leaves mid w rest) (h : Parses e t (some ([.statement s], rest))) :
    Completes e t mid p := by
  rw [Completes, hans]
  exact ⟨rest, hrest, h⟩

lemma completes_of_missing (hans : p.onText mid = .missing)
    (h : Parses e t none ∨ StopsShort e t) : Completes e t mid p := by
  rw [Completes, hans]
  exact h

lemma completes_of_gaveUp {cause : Abort} (hans : p.onText mid = .gaveUp cause) :
    Completes e t mid p := by
  rw [Completes, hans]
  trivial

lemma Completes.found {s : Statement} {w : List Token} (h : Completes e t mid p)
    (hans : p.onText mid = .found s w) :
    ∃ rest, Leaves mid w rest ∧ Parses e t (some ([.statement s], rest)) := by
  rw [Completes, hans] at h
  exact h

lemma Completes.missing (h : Completes e t mid p) (hans : p.onText mid = .missing) :
    Parses e t none ∨ StopsShort e t := by
  rw [Completes, hans] at h
  exact h

lemma completes_bind {α : Type} {q : Parser α} [Uniform q] {f : α → Parser Statement}
    [∀ a, Uniform (f a)] {a : α} {w : List Token} (hans : q.onText mid = .found a w)
    (hrest : Leaves mid w rest) (h : Completes e t rest (f a)) : Completes e t mid (q >>= f) := by
  have hbind := onText_bind_found (f := f) hans hrest
  cases hans' : (f a).onText rest with
  | found s w' =>
    obtain ⟨last, hlast, hparses⟩ := h.found hans'
    exact completes_of_found (hbind.trans hans') (hrest.trans hlast) hparses
  | missing => exact completes_of_missing (hbind.trans hans') (h.missing hans')
  | gaveUp cause => exact completes_of_gaveUp (hbind.trans hans')

end Completes

/-! ### The alternatives of a statement -/

/-- A rule whose parts are read contributes what its action makes of them. -/
lemma parses_rule {r : Nonterminal} {rest : Text} {vs us : List Value}
    (h : Parses r.expr t (some (vs, rest))) (hact : r.act vs = us) :
    Parses (.rule r) t (some (us, rest)) :=
  hact ▸ .rule h

section Alternatives

variable {rest : Text} {s : Statement}

lemma parses_statement_defaults (h : Parses (.rule .defaults) t (some ([.statement s], rest))) :
    Parses (.rule .statement) t (some ([.statement s], rest)) :=
  parses_rule (.choice h) rfl

lemma parses_statement_edge (hdefaults : Parses (.rule .defaults) t none)
    (h : Parses (.rule .edge) t (some ([.statement s], rest))) :
    Parses (.rule .statement) t (some ([.statement s], rest)) :=
  parses_rule (.otherwise hdefaults (.choice h)) rfl

lemma parses_statement_subgraph {group : Subgraph} (hdefaults : Parses (.rule .defaults) t none)
    (hedge : Parses (.rule .edge) t none)
    (h : Parses (.rule .subgraph) t (some ([.subgraph group], rest))) :
    Parses (.rule .statement) t (some ([.statement (.subgraph group)], rest)) :=
  parses_rule (.otherwise hdefaults (.otherwise hedge (.choice h))) rfl

lemma parses_statement_assign {attr : Attribute} (hdefaults : Parses (.rule .defaults) t none)
    (hedge : Parses (.rule .edge) t none) (hgroup : Parses (.rule .subgraph) t none)
    (h : Parses (.rule .assign) t (some ([.assign attr], rest))) :
    Parses (.rule .statement) t (some ([.statement (.assign attr)], rest)) :=
  parses_rule (.otherwise hdefaults (.otherwise hedge (.otherwise hgroup (.choice h)))) rfl

lemma parses_statement_node (hdefaults : Parses (.rule .defaults) t none)
    (hedge : Parses (.rule .edge) t none) (hgroup : Parses (.rule .subgraph) t none)
    (hassign : Parses (.rule .assign) t none)
    (h : Parses (.rule .node) t (some ([.statement s], rest))) :
    Parses (.rule .statement) t (some ([.statement s], rest)) :=
  parses_rule (.otherwise hdefaults (.otherwise hedge (.otherwise hgroup
    (.otherwise hassign (.choice h))))) rfl

lemma parses_statement_none (hdefaults : Parses (.rule .defaults) t none)
    (hedge : Parses (.rule .edge) t none) (hgroup : Parses (.rule .subgraph) t none)
    (hassign : Parses (.rule .assign) t none) (hnode : Parses (.rule .node) t none) :
    Parses (.rule .statement) t none :=
  .no_rule (.otherwise hdefaults (.otherwise hedge (.otherwise hgroup
    (.otherwise hassign (.otherwise hnode .fail)))))

end Alternatives

/-! ### Behind the first vertex -/

/-- A node reference is an identifier, with a port behind it or not. -/
lemma exists_id_of_nodeId {ref : NodeId} {w : List Token} (hans : nodeId.onText t = .found ref w) :
    ∃ mid, Parses .id t (some ([.id ref.id], mid)) ∧
      (optional port).onText mid = .found ref.port w := by
  rw [onText, nodeId, answer_within] at hans
  -- undo the two steps of the rule; every answer but the last contradicts what was found
  cases hid : Grammar.id.onText t with
  | found name w' =>
    obtain ⟨mid, _, hmid, hparses, rfl⟩ := agrees_id.found hid
    have hport := onText_bind_found (f := fun name => optional port >>= fun port =>
      (pure ⟨name, port⟩ : Parser NodeId)) hid hmid
    rw [onText, hans, onText] at hport
    cases hmid' : (optional port).onText mid with
    | found port last =>
      rw [answer_bind_found hmid', answer_pure] at hport
      cases hport
      exact ⟨mid, hparses, hmid'⟩
    | missing =>
      rw [answer_bind_missing hmid'] at hport
      cases hport
    | gaveUp cause =>
      rw [answer_bind_gaveUp hmid'] at hport
      cases hport
  | missing =>
    rw [answer_bind_missing hid] at hans
    cases hans
  | gaveUp cause =>
    rw [answer_bind_gaveUp hid] at hans
    cases hans

lemma head_of_parses_id {name : Id} {rest : Text} (h : Parses .id t (some ([.id name], rest))) :
    (Tokens.ofText t).toList.head? = some (.id name) := by
  generalize hr : some ([Value.id name], rest) = r at h
  cases h with
  | terminal hreads =>
    cases hr
    obtain ⟨tok, hheads, other, rfl, hother⟩ := (Terminal.reads_iff (by simp)).1 hreads
    cases hother
    rw [hheads.alike.1]
    rfl
  | no_terminal _ => cases hr

lemma parses_no_punct {p : Punct} (h : (Tokens.ofText t).toList.head? ≠ some (.punct p)) :
    Parses (.punct p) t none :=
  (agrees_punct p).missing (answer_punct_missing h)

lemma head_of_port {p : Port} {w : List Token} (hans : port.onText t = .found p w) :
    (Tokens.ofText t).toList.head? = some (.punct .colon) := by
  by_contra hhead
  rw [onText, port, answer_within, answer_bind_missing (answer_punct_missing hhead)] at hans
  cases hans

lemma head_of_punct {p : Punct} {w : List Token} (hans : (punct p).onText t = .found () w) :
    (Tokens.ofText t).toList.head? = some (.punct p) := by
  by_contra hhead
  rw [onText, answer_punct_missing hhead] at hans
  cases hans

/-- Without an equals sign behind the name no attribute is assigned. -/
lemma parses_assign_none {name : Id} {mid : Text} (hid : Parses .id t (some ([.id name], mid)))
    (h : Parses (.punct .equals) mid none) : Parses (.rule .assign) t none :=
  .no_rule (.no_second hid (.no_first h))

section Node

variable {ref : NodeId} {w : List Token} {mid : Text}

/-- The alternatives before a node are all ruled out. -/
structure OnlyNode (t : Text) : Prop where
  defaults : Parses (.rule .defaults) t none
  edge : Parses (.rule .edge) t none
  group : Parses (.rule .subgraph) t none

lemma completes_node (h : OnlyNode t) (hassign : Parses (.rule .assign) t none)
    (hnode : Parses (.rule .nodeId) t (some ([.nodeId ref], mid))) :
    Completes (.rule .statement) t mid
      (attributes >>= fun attrs => build (Statement.makeNode ref attrs)) := by
  cases hans : attributes.onText mid with
  | found attrs w =>
    obtain ⟨rest, vs, hrest, hparses, hvs⟩ := agrees_attributes.found hans
    refine completes_bind hans hrest ?_
    cases hmake : Statement.makeNode ref attrs with
    | ok s =>
      have hs : s = .node ref attrs := by
        rw [Statement.makeNode] at hmake
        split at hmake
        · cases hmake
          rfl
        · split at hmake <;> cases hmake
          rfl
      have hread : Parses (.rule .node) t (some ([.statement s], rest)) := by
        refine parses_rule (.seq hnode (.seq hparses .empty)) ?_
        rcases hvs with ⟨rfl, rfl⟩ | rfl
        · rw [hs]
          rfl
        · rw [hs]
          rfl
      exact completes_of_found (answer_build_ok s) (leaves_refl rest)
        (parses_statement_node h.defaults h.edge h.group hassign hread)
    | error defect => exact completes_of_gaveUp (answer_build_error defect)
  | missing =>
    cases hopt : agrees_attributes.missing hans -- an option never fails
  | gaveUp cause => exact completes_of_gaveUp (answer_bind_gaveUp hans)

/-- A node reference with an equals sign and no value behind it is a node for the grammar. -/
lemma stopsShort_of_equals (h : OnlyNode t) (hassign : Parses (.rule .assign) t none)
    (hid : Parses .id t (some ([.id ref.id], mid)))
    (hnode : Parses (.rule .nodeId) t (some ([.nodeId ref], mid)))
    (hequals : (Tokens.ofText mid).toList.head? = some (.punct .equals)) :
    StopsShort (.rule .statement) t := by
  have hattrs : Parses (.rule .attributeList) mid none := by
    refine agrees_attributeList.missing (attributeList_missing ?_)
    simp [hequals]
  have hread : Parses (.rule .node) t (some ([.statement (.node ref [])], mid)) :=
    parses_rule (.seq hnode (.seq (.no_opt hattrs) .empty)) rfl
  exact ⟨_, mid, parses_statement_node h.defaults h.edge h.group hassign hread, hequals, ref.id,
    head_of_parses_id hid⟩

lemma completes_nodeOrAttribute (h : OnlyNode t) (hans : nodeId.onText t = .found ref w)
    (hnode : Parses (.rule .nodeId) t (some ([.nodeId ref], mid))) :
    Completes (.rule .statement) t mid (nodeOrAttribute ref) := by
  rw [nodeOrAttribute_eq]
  obtain ⟨behind, hid, hport⟩ := exists_id_of_nodeId hans
  cases hp : ref.port with
  | some p =>
    -- a colon follows the name, so no equals sign does
    rw [hp] at hport
    have hcolon := head_of_port (found_of_optional_some hport)
    have hassign := parses_assign_none hid (parses_no_punct (by simp [hcolon]))
    have hskip : (pure none : Parser (Option Unit)).onText mid =
        .found none (Tokens.ofText mid).toList := answer_pure none
    exact completes_bind hskip (leaves_refl mid) (completes_node h hassign hnode)
  | none =>
    rw [hp] at hport
    have hno : Parses (.rule .port) behind none :=
      agrees_port.missing (missing_of_optional_none hport).1
    -- without a port the reference ends where its name does
    have hsame : Parses (.rule .nodeId) t (some ([.nodeId ref], behind)) := by
      refine parses_rule (.seq hid (.seq (.no_opt hno) .empty)) ?_
      obtain ⟨name, _⟩ := ref
      obtain rfl := hp
      rfl
    cases hnode.unique hsame
    cases hequals : (punct .equals).onText mid with
    | missing =>
      have hassign := parses_assign_none hid ((agrees_punct .equals).missing hequals)
      exact completes_bind (answer_optional_missing hequals) (leaves_refl mid)
        (completes_node h hassign hnode)
    | found _ w' =>
      obtain ⟨last, _, hlast, hsign, rfl⟩ := (agrees_punct .equals).found hequals
      refine completes_bind (answer_optional_found hequals) hlast ?_
      cases hvalue : Grammar.id.onText last with
      | found value w'' =>
        obtain ⟨rest, _, hrest, hread, rfl⟩ := agrees_id.found hvalue
        have hassign : Parses (.rule .assign) t (some ([.assign ⟨ref.id, value⟩], rest)) :=
          parses_rule (.seq hid (.seq hsign (.seq hread .empty))) rfl
        exact completes_bind hvalue hrest (completes_of_found (answer_pure _) (leaves_refl rest)
          (parses_statement_assign h.defaults h.edge h.group hassign))
      | missing =>
        -- the parser is past the equals sign, the grammar goes back to before it
        have hassign : Parses (.rule .assign) t none :=
          .no_rule (.no_second hid (.no_second hsign (.no_first (agrees_id.missing hvalue))))
        exact completes_of_missing (answer_bind_missing hvalue)
          (Or.inr (stopsShort_of_equals h hassign hid hnode (head_of_punct hequals)))
      | gaveUp cause => exact completes_of_gaveUp (answer_bind_gaveUp hvalue)
    | gaveUp cause =>
      exact completes_of_gaveUp (answer_bind_gaveUp (answer_optional_gaveUp hequals))

end Node

/-- Where neither a subgraph nor a node reference stands, only default attributes can. -/
lemma parses_no_vertex (hdefaults : Parses (.rule .defaults) t none)
    (hgroup : Parses (.rule .subgraph) t none) (hnode : Parses (.rule .nodeId) t none) :
    Parses (.rule .statement) t none := by
  have hvertex : Parses (.rule .vertex) t none :=
    .no_rule (.otherwise hgroup (.otherwise hnode .fail))
  have hid : Parses .id t none := by
    cases hnode with
    | no_rule h =>
      cases h with
      | no_first h => exact h
      | no_second _ h =>
        cases h with
        | no_first h => cases h
        | no_second _ h => cases h
  exact parses_statement_none hdefaults (.no_rule (.no_first hvertex)) hgroup
    (.no_rule (.no_first hid)) (.no_rule (.no_first hnode))

section Statements

variable {body : Parser (List Statement)} [Uniform body]

/-- An edge goes along all its vertices and has the attributes that follow them. -/
lemma act_edge {head : Vertex} {chain : List Vertex} {attrs : List Attribute}
    {vs us : List Value} (hchain : vs.filterMap Value.vertex? = chain)
    (hnone : vs.filterMap Value.attributes? = []) (hus : AttributesOf attrs us) :
    Nonterminal.edge.act ([.vertex head] ++ (vs ++ (us ++ []))) =
      [.statement (.edge (head :: chain) attrs)] := by
  have hvertices : us.filterMap Value.vertex? = [] := by
    rcases hus with ⟨rfl, -⟩ | rfl <;> rfl
  have hattrs : (us.filterMap Value.attributes?).flatten = attrs := by
    rcases hus with ⟨rfl, rfl⟩ | rfl
    · rfl
    · exact List.append_nil attrs
  show [Value.statement (.edge (([Value.vertex head] ++ (vs ++ (us ++ []))).filterMap Value.vertex?)
    (([Value.vertex head] ++ (vs ++ (us ++ []))).filterMap Value.attributes?).flatten)] = _
  rw [List.append_nil, List.filterMap_append, List.filterMap_append, hchain, hvertices,
    List.filterMap_append, List.filterMap_append, hnone, List.append_nil]
  exact congrArg (fun attrs => [Value.statement (.edge (head :: chain) attrs)]) hattrs

/-- A longer chain is an edge. -/
lemma completes_edge {head next : Vertex} {more : List Vertex} {mid rest : Text}
    {vs : List Value} (hdefaults : Parses (.rule .defaults) t none)
    (hhead : Parses (.rule .vertex) t (some ([.vertex head], mid)))
    (hhops : Parses (.star hopExpr) mid (some (vs, rest)))
    (hvs : ListOf (fun v vs => vs = [.vertex v]) (next :: more) vs) :
    Completes (.rule .statement) t rest (afterChain head (next :: more)) := by
  have hchain : vs.filterMap Value.vertex? = next :: more := by
    have hflat := hvs.filterMap (f := Value.vertex?) (g := fun v => [v])
      fun v us hus => by rw [hus]; rfl
    rwa [List.flatMap_singleton'] at hflat
  -- the parser repeats from none on, the rule for edges asks for one
  have hplus : Parses (.plus hopExpr) mid (some (vs, rest)) := by
    cases hhops with
    | star hfirst hothers => exact .seq hfirst hothers
    | no_star _ => cases hchain
  show Completes (.rule .statement) t rest (attributes >>= fun attrs =>
    build (Statement.makeEdge (head :: next :: more) attrs))
  cases hans : attributes.onText rest with
  | found attrs w =>
    obtain ⟨last, us, hlast, hattrs, hus⟩ := agrees_attributes.found hans
    have hread : Parses (.rule .edge) t
        (some ([.statement (.edge (head :: next :: more) attrs)], last)) := by
      refine parses_rule (.seq hhead (.seq hplus (.seq hattrs .empty))) ?_
      have hnone : vs.filterMap Value.attributes? = [] := by
        have hflat := hvs.filterMap (f := Value.attributes?) (g := fun _ => [])
          fun v us hus => by rw [hus]; rfl
        rwa [List.flatMap_eq_nil_iff.2 fun _ _ => rfl] at hflat
      exact act_edge hchain hnone hus
    have hmake : Statement.makeEdge (head :: next :: more) attrs =
        .ok (.edge (head :: next :: more) attrs) := if_pos (by simp)
    refine completes_bind hans hlast ?_
    rw [hmake]
    exact completes_of_found (answer_build_ok _) (leaves_refl last)
      (parses_statement_edge hdefaults hread)
  | missing => cases agrees_attributes.missing hans -- an option never fails
  | gaveUp cause => exact completes_of_gaveUp (answer_bind_gaveUp hans)

/-- A statement that starts with a vertex, in the place of the last four alternatives. -/
lemma completes_vertexStatement (htakes : body.Takes 1) (hbody : AgreesOnBodies body)
    (hdefaults : Parses (.rule .defaults) t none) :
    Completes (.rule .statement) t t (vertexStatement body) := by
  rw [vertexStatement_eq]
  cases hvertex : (vertex body).onText t with
  | found head w =>
    obtain ⟨mid, _, hmid, hhead, rfl⟩ := (agrees_vertex hbody t).found hvertex
    refine completes_bind hvertex hmid ?_
    cases hhops : (hops body).onText mid with
    | found more w' =>
      obtain ⟨rest, vs, hrest, hread, hvs⟩ := (agrees_hops htakes hbody mid).found hhops
      refine completes_bind hhops hrest ?_
      cases more with
      | cons next more => exact completes_edge hdefaults hhead hread hvs
      | nil =>
        -- no step follows the vertex, so there is no edge
        rw [onText, hops, answer_within] at hhops
        obtain ⟨hhop, rfl⟩ := rest_eq_of_many_nil (takes_hop htakes) hhops
        have hedge : Parses (.rule .edge) t none :=
          .no_rule (.no_second hhead (.no_first (.no_first ((agrees_hop hbody mid).missing hhop))))
        cases hread.unique (.no_star ((agrees_hop hbody mid).missing hhop))
        -- the vertex that was read serves the remaining alternatives
        obtain ⟨group, rfl, hgroup⟩ | ⟨ref, rfl, hgroup, hnode⟩ := found_of_vertex hvertex
        · obtain ⟨mid', _, -, hread', rfl⟩ := (agrees_subgraph hbody t).found hgroup
          cases hhead.unique (.rule (.choice hread'))
          exact completes_of_found (answer_pure _) (leaves_refl mid)
            (parses_statement_subgraph hdefaults hedge hread')
        · have hnone := (agrees_subgraph hbody t).missing hgroup
          obtain ⟨mid', _, -, hread', rfl⟩ := agrees_nodeId.found hnode
          cases hhead.unique (.rule (.otherwise hnone (.choice hread')))
          exact completes_nodeOrAttribute ⟨hdefaults, hedge, hnone⟩ hnode hread'
    | missing => cases (agrees_hops htakes hbody mid).missing hhops -- repetition never fails
    | gaveUp cause => exact completes_of_gaveUp (answer_bind_gaveUp hhops)
  | missing =>
    refine completes_of_missing (answer_bind_missing hvertex) (Or.inl ?_)
    obtain ⟨hgroup, hnode⟩ := missing_of_vertex hvertex
    exact parses_no_vertex hdefaults ((agrees_subgraph hbody t).missing hgroup)
      (agrees_nodeId.missing hnode)
  | gaveUp cause => exact completes_of_gaveUp (answer_bind_gaveUp hvertex)

/-- Default attributes come first, for the parser as for the grammar. -/
theorem completes_statement (htakes : body.Takes 1) (hbody : AgreesOnBodies body) (t : Text) :
    Completes (.rule .statement) t t (statement body) := by
  have hstatement : (statement body).onText t =
      (orElse defaults (vertexStatement body)).onText t := answer_within _
  cases hdefaults : defaults.onText t with
  | found s w =>
    obtain ⟨rest, _, hrest, hread, rfl⟩ := agrees_defaults.found hdefaults
    exact completes_of_found (hstatement.trans (answer_orElse_found hdefaults)) hrest
      (parses_statement_defaults hread)
  | missing =>
    have hsecond := hstatement.trans (answer_orElse_missing hdefaults)
    have hvertex := completes_vertexStatement htakes hbody (agrees_defaults.missing hdefaults)
    rw [Completes, show (statement body).onText t = (vertexStatement body).onText t from hsecond]
    exact hvertex
  | gaveUp cause => exact completes_of_gaveUp (hstatement.trans (answer_orElse_gaveUp hdefaults))

lemma completes_terminated (htakes : body.Takes 1) (hbody : AgreesOnBodies body) (t : Text) :
    Completes terminatedExpr t t (terminated body) := by
  have hstatement := completes_statement htakes hbody t
  cases hans : (statement body).onText t with
  | found s w =>
    obtain ⟨mid, hmid, hread⟩ := hstatement.found hans
    refine completes_bind hans hmid ?_
    cases hsign : (optional (punct .semicolon)).onText mid with
    | found o w' =>
      obtain ⟨rest, vs, hrest, hopt, hvs⟩ := (agrees_opt (agrees_punct .semicolon)).found hsign
      have hnil : vs = [] := by cases o <;> exact hvs
      subst hnil
      exact completes_bind hsign hrest (completes_of_found (answer_pure s) (leaves_refl rest)
        (.seq hread (.seq hopt .empty)))
    | missing => cases (agrees_opt (agrees_punct .semicolon)).missing hsign
    | gaveUp cause => exact completes_of_gaveUp (answer_bind_gaveUp hsign)
  | missing =>
    refine completes_of_missing (answer_bind_missing hans) ?_
    rcases hstatement.missing hans with hnone | ⟨vs, rest, hread, hequals, hid⟩
    · exact Or.inl (.no_first hnone)
    -- no semicolon hides the equals sign
    · have hopt : Parses (.opt (.punct .semicolon)) rest (some ([], rest)) :=
        .no_opt (parses_no_punct (by simp [hequals]))
      exact Or.inr ⟨_, rest, .seq hread (.seq hopt .empty), hequals, hid⟩
  | gaveUp cause => exact completes_of_gaveUp (answer_bind_gaveUp hans)

/-- No statement starts with an equals sign. -/
lemma parses_equals_none (h : (Tokens.ofText t).toList.head? = some (.punct .equals)) :
    Parses terminatedExpr t none := by
  have hdefaults : Parses (.rule .defaults) t none := by
    refine agrees_defaults.missing (defaults_missing ?_)
    intro target next htokens
    rw [htokens] at h
    cases h
  have hkeyword : Parses (.keyword .subgraph) t none :=
    (agrees_keyword .subgraph).missing (answer_keyword_missing (by simp [h, Token.word]))
  have hbody : Parses (.rule .body) t none := .no_rule (.no_first (parses_no_punct (by simp [h])))
  have hgroup : Parses (.rule .subgraph) t none :=
    .no_rule (.no_second (.no_opt (.no_first hkeyword)) (.no_first hbody))
  have hid : Parses .id t none := agrees_id.missing (answer_id_missing (by simp [h]))
  exact .no_first (parses_no_vertex hdefaults hgroup (.no_rule (.no_first hid)))

/-- The parser cannot go on before an identifier, the grammar cannot before an equals sign. -/
def Stuck (w : List Token) (t : Text) : Prop :=
  (∃ name, w.head? = some (.id name)) ∧ ∃ vs rest,
    Parses (.star terminatedExpr) t (some (vs, rest)) ∧
      (Tokens.ofText rest).toList.head? = some (.punct .equals)

/-- The statements of a body are the same up to the first one that is not complete. -/
lemma agrees_or_stuck (htakes : body.Takes 1) (hbody : AgreesOnBodies body) (t : Text) :
    Agrees t (many (terminated body)) (.star terminatedExpr)
        (ListOf fun s vs => vs = [.statement s]) ∨
      ∃ ss w, (many (terminated body)).onText t = .found ss w ∧ Stuck w t := by
  have hone := takes_terminated htakes
  -- on the number of tokens that are left, which a statement makes smaller
  induction hn : (Tokens.ofText t).toList.length using Nat.strong_induction_on generalizing t with
  | _ n ih =>
    have hcompletes := completes_terminated htakes hbody t
    cases hans : (terminated body).onText t with
    | found s w =>
      obtain ⟨mid, hmid, hread⟩ := hcompletes.found hans
      have hlt : (Tokens.ofText mid).toList.length < n := by
        rw [hmid.1, ← hn]
        exact hone.length_lt hans
      have hmany : (many (terminated body)).onText t =
          (many (terminated body) >>= fun ss => pure (s :: ss)).onText mid := by
        rw [onText, answer_many hone, show (terminated body).answer _ _ = _ from hans]
        exact hmid.answer
      obtain hrest | ⟨ss, w', hans', hid, vs, rest, hstar, hequals⟩ := ih _ hlt mid rfl
      · left
        cases hans' : (many (terminated body)).onText mid with
        | found ss w' =>
          obtain ⟨rest, us, hrest', hstar, hus⟩ := hrest.found hans'
          refine agrees_of_found (a := s :: ss) (hmany.trans ?_) (hmid.trans hrest')
            (.star hread hstar) (.cons rfl hus)
          exact (answer_bind_found hans').trans (answer_pure _)
        | missing => cases hrest.missing hans'
        | gaveUp cause => exact agrees_of_gaveUp (hmany.trans (answer_bind_gaveUp hans'))
      · right
        refine ⟨s :: ss, w', hmany.trans ?_, hid, _, rest, .star hread hstar, hequals⟩
        exact (answer_bind_found hans').trans (answer_pure _)
    | missing =>
      have hmany : (many (terminated body)).onText t = .found [] (Tokens.ofText t).toList :=
        answer_many_missing hone hans
      obtain hnone | ⟨vs, rest, hread, hequals, hid⟩ := hcompletes.missing hans
      · exact Or.inl (agrees_of_found hmany (leaves_refl t) (.no_star hnone) .nil)
      · exact Or.inr ⟨[], _, hmany, hid, _, rest,
          .star hread (.no_star (parses_equals_none hequals)), hequals⟩
    | gaveUp cause => exact Or.inl (agrees_of_gaveUp (answer_many_gaveUp hone hans))

/-- Between braces the difference disappears: both find no closing brace. -/
lemma agrees_braced (htakes : body.Takes 1) (hbody : AgreesOnBodies body) (t : Text) :
    Agrees t (openBody >>= fun _ => many (terminated body) >>= fun ss =>
      punct .closeBrace >>= fun _ => pure ss) Nonterminal.body.expr
      fun ss vs => vs.filterMap Value.statement? = ss := by
  refine agrees_bind agrees_openBody ?_
  rintro _ _ mid rfl
  obtain hagrees | ⟨ss, w, hans, ⟨name, hid⟩, vs, rest, hstar, hequals⟩ :=
    agrees_or_stuck htakes hbody mid
  · refine agrees_bind hagrees ?_
    intro ss vs rest hvs
    refine agrees_bind (agrees_punct .closeBrace) ?_
    rintro _ _ last rfl
    refine agrees_pure ?_
    have hstatements := hvs.filterMap (f := Value.statement?) (g := fun s => [s])
      fun s us hus => by rw [hus]; rfl
    simpa using hstatements
  -- an identifier is left to the parser, an equals sign to the grammar
  · have hclose : (punct .closeBrace >>= fun _ => (pure ss : Parser (List Statement))).answer
        (Tokens.ofText mid).why w = .missing :=
      answer_bind_missing (answer_punct_missing (by simp [hid]))
    exact agrees_of_missing ((answer_bind_found hans).trans hclose)
      (.no_second hstar (.no_first (parses_no_punct (by simp [hequals]))))

end Statements

/-! ## Bodies and documents -/

/-- Bodies agree, at every depth that the parser has room for. -/
theorem agrees_body (room : Nat) (t : Text) :
    Agrees t (Grammar.body room) (.rule .body) fun ss vs => vs = [.body ss] := by
  induction room generalizing t with
  -- a body that finds no room is given up, which says nothing about the grammar
  | zero =>
    refine agrees_rule (agrees_within ?_)
    cases hans : openBody.onText t with
    | found _ w => exact agrees_of_gaveUp (answer_bind_found hans)
    | missing =>
      exact agrees_of_missing (answer_bind_missing hans)
        (.no_first (agrees_openBody.missing hans))
    | gaveUp cause => exact agrees_of_gaveUp (answer_bind_gaveUp hans)
  | succ room ih =>
    refine agrees_rule (agrees_within ((agrees_braced (takes_body room) ih t).mono ?_))
    rintro ss vs rfl
    rfl

/-- The two kinds of graphs exclude each other, so it does not matter which is tried first. -/
lemma agrees_kind :
    Agrees t kind (.firstOf [.keyword .graph, .keyword .digraph])
      fun directed vs => vs = [.keyword (kindKeyword directed)] := by
  by_cases hword : ∃ directed w,
      (Tokens.ofText t).toList = .word (kindKeyword directed).word :: w
  · obtain ⟨directed, w, htokens⟩ := hword
    obtain ⟨rest, hheads, hrest⟩ := exists_heads htokens
    have hans : kind.onText t = .found directed w := by
      rw [onText, htokens]
      exact answer_kind directed w
    have hmem : kindKeyword directed ∈ [Keyword.graph, .digraph] := by
      cases directed <;> simp [kindKeyword]
    exact agrees_of_found hans ⟨hrest, hheads.alike.2.symm⟩ (parses_keywords hheads hmem) rfl
  · have hmissing : kind.onText t = .missing := by
      refine kind_missing ?_
      intro directed hhead
      obtain ⟨w, htokens⟩ := List.head?_eq_some_iff.1 hhead
      exact hword ⟨directed, w, htokens⟩
    have hnone : Parses (.firstOf ([.graph, .digraph].map Expr.keyword)) t none := by
      refine parses_no_keyword ?_
      intro k hk rest hheads
      simp only [List.mem_cons, List.not_mem_nil, or_false] at hk
      rcases hk with rfl | rfl
      · exact hword ⟨false, _, hheads.alike.1⟩
      · exact hword ⟨true, _, hheads.alike.1⟩
    exact agrees_of_missing hmissing hnone

lemma agrees_graph : Agrees t graph (.rule .graph) fun g vs => vs = [.graph g] := by
  rw [graph_eq]
  refine agrees_rule (agrees_within (agrees_bind (agrees_opt (agrees_keyword .strict)) ?_))
  rintro strict vs mid hvs
  refine agrees_bind agrees_kind ?_
  rintro directed _ mid rfl
  refine agrees_bind (agrees_opt agrees_id) ?_
  rintro name us mid hus
  refine agrees_bind (agrees_body maxNesting mid) ?_
  rintro ss _ rest rfl
  refine agrees_pure ?_
  cases strict with
  | none =>
    obtain rfl := hvs
    cases name with
    | none =>
      obtain rfl := hus
      cases directed <;> rfl
    | some name =>
      obtain rfl := hus
      cases directed <;> rfl
  | some _ =>
    obtain rfl := hvs
    cases name with
    | none =>
      obtain rfl := hus
      cases directed <;> rfl
    | some name =>
      obtain rfl := hus
      cases directed <;> rfl

lemma agrees_file : Agrees t file (.rule .file) fun g vs => vs = [.graph g] := by
  refine agrees_rule (agrees_within (agrees_bind agrees_graph ?_))
  rintro g _ mid rfl
  refine agrees_bind agrees_finished ?_
  rintro _ _ rest rfl
  exact agrees_pure rfl

/-- A document goes to the end of the text. -/
lemma rest_eq_nil_of_file {vs : List Value} {rest : Text}
    (h : Parses (.rule .file) t (some (vs, rest))) : rest = [] := by
  generalize hr : some (vs, rest) = r at h
  cases h with
  | no_rule _ => cases hr
  | rule h =>
    cases hr
    cases h with
    | seq _ h =>
      cases h with
      | seq hend h =>
        cases h
        cases hend with
        | terminal hreads => exact (Terminal.reads_endOfInput_iff.1 hreads).2.1

end Rules

end Reference

/-- Within the limit for nesting the parser does not give up. -/
lemma Graph.file_ne_gaveUp {source : Text} (h : source.nesting ≤ Grammar.maxNesting)
    (cause : Abort) : Grammar.file.onText source ≠ .gaveUp cause := by
  intro hans
  have hsound := Grammar.keeps_file (Tokens.ofText source).why _ (Tokens.areValid_ofText source)
  rw [onText] at hans
  rw [hans] at hsound
  exact absurd hsound.2 (Nat.not_lt.2 h)

/-- Within the limit for nesting, a text is read as the grammar with ordered choice reads it: to
the same tree, or both reject it. -/
theorem Graph.parse_eq_ok_iff_parses {source : Text} (h : source.nesting ≤ Grammar.maxNesting) :
    (∀ g, Graph.parse source = .ok g ↔
      Reference.Parses (.rule .file) source (some ([.graph g], []))) ∧
    ((∃ failure, Graph.parse source = .error (.unexpected failure)) ↔
      Reference.Parses (.rule .file) source none) := by
  cases hans : Grammar.file.onText source with
  | found g w =>
    obtain ⟨rest, _, -, hread, rfl⟩ := Reference.agrees_file.found hans
    obtain rfl := Reference.rest_eq_nil_of_file hread
    have hparse : Graph.parse source = .ok g := Grammar.file.result_eq_ok_iff.2 ⟨w, hans⟩
    constructor
    · intro g'
      constructor
      · intro hg'
        rw [hparse] at hg'
        cases hg'
        exact hread
      · intro hread'
        cases hread.unique hread'
        exact hparse
    · constructor
      · rintro ⟨failure, hfailure⟩
        rw [hparse] at hfailure
        cases hfailure
      · intro hnone
        cases hread.unique hnone
  | missing =>
    have hnone := Reference.agrees_file.missing hans
    obtain ⟨failure, hparse⟩ := Grammar.file.result_of_missing hans
    constructor
    · intro g
      constructor
      · intro hg
        rw [Graph.parse, hparse] at hg
        cases hg
      · intro hread
        cases hnone.unique hread
    · exact ⟨fun _ => hnone, fun _ => ⟨failure, hparse⟩⟩
  | gaveUp cause => exact absurd hans (file_ne_gaveUp h cause)

/-- An attribute with a value is read as one; without the value the document is rejected. -/
theorem Graph.parse_eq_ok_iff_parses_equals :
    (∃ g, Reference.Parses (.rule .file) "graph \x7b \x7ba\x7d -- b:c; d = e \x7d".toList
      (some ([.graph g], []))) ∧
    Reference.Parses (.rule .file) "graph \x7b \x7ba\x7d -- b:c; d = \x7d".toList none := by
  constructor
  · obtain ⟨g, hg⟩ := Graph.exists_of_isOk (by decide +kernel :
      (Graph.parse "graph \x7b \x7ba\x7d -- b:c; d = e \x7d".toList).isOk = true)
    exact ⟨g, ((parse_eq_ok_iff_parses (by decide +kernel)).1 g).1 hg⟩
  · have herror : (match Graph.parse "graph \x7b \x7ba\x7d -- b:c; d = \x7d".toList with
        | .error (.unexpected _) => true
        | _ => false) = true := by
      decide +kernel
    refine (parse_eq_ok_iff_parses (by decide +kernel)).2.1 ?_
    split at herror
    · rename_i failure hparse
      exact ⟨failure, hparse⟩
    · cases herror

end DotNotation
