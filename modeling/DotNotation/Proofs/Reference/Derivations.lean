/-
# Whatever can be derived is read

The grammar without an order on its alternatives derives a list of tokens in more than one way.
The parser follows one way only and never returns to a choice, but it finds every document that
can be derived: behind each vertex it stands at a place from which the rest of the body can
still be derived.  `Succeeds` says that a parser finds something and what it leaves; nothing is
said about the value, nor about parsers that give up.  The main results are

* `consumes_body`: a derivable body is read, and nothing behind it is;
* `Graph.parse_isOk_iff_generates`: a text is a document when its tokens can be derived.
-/
import DotNotation.Proofs.Reference.Continuation

namespace DotNotation

open DotNotation.Parser DotNotation.Grammar DotNotation.Reference

namespace Parser

variable {α β : Type}

/-- The parser finds something and leaves tokens as required, or it gives up. -/
def Succeeds (p : Parser α) (why : Stop) (w : List Token) (P : α → List Token → Prop) : Prop :=
  Token.areValid w → match p.answer why w with
    | .found a rest => Token.areValid rest ∧ P a rest
    | .missing => False
    | .gaveUp _ => True

/-- The parser takes the first list of tokens and leaves the second one. -/
def Consumes (p : Parser α) (why : Stop) (u rest : List Token) : Prop :=
  p.Succeeds why (u ++ rest) fun _ r => r = rest

/-! ## Combinators -/

section Combinators

variable {p q : Parser α} {f : α → Parser β} {why : Stop} {u v w rest : List Token}
  {P : α → List Token → Prop} {Q : β → List Token → Prop}

lemma succeeds_of_found {a : α} (hans : Token.areValid w → p.answer why w = .found a rest)
    (hsuffix : rest <:+ w) (h : P a rest) : p.Succeeds why w P := by
  intro hvalid
  rw [hans hvalid]
  exact ⟨hvalid.of_suffix hsuffix, h⟩

lemma Succeeds.mono {P' : α → List Token → Prop} (hp : p.Succeeds why w P)
    (h : ∀ a rest, P a rest → P' a rest) : p.Succeeds why w P' := by
  intro hvalid
  have hw := hp hvalid
  cases hans : p.answer why w with
  | found a rest =>
    rw [hans] at hw
    exact ⟨hw.1, h a rest hw.2⟩
  | missing =>
    rw [hans] at hw
    exact hw
  | gaveUp cause => trivial

lemma succeeds_pure {a : α} (h : P a w) : (pure a : Parser α).Succeeds why w P :=
  succeeds_of_found (fun _ => answer_pure a) List.suffix_rfl h

lemma succeeds_build {part : Except Defect α} (h : ∀ a, part = .ok a → P a w) :
    (build part).Succeeds why w P := by
  cases part with
  | ok a => exact succeeds_pure (h a rfl)
  | error defect =>
    intro _
    rw [answer_build_error]
    trivial

lemma succeeds_bind [Uniform p] [∀ a, Uniform (f a)] (hp : p.Succeeds why w P)
    (hf : ∀ a mid, P a mid → (f a).Succeeds why mid Q) : (p >>= f).Succeeds why w Q := by
  intro hvalid
  have hw := hp hvalid
  rw [answer_bind]
  cases hans : p.answer why w with
  | found a mid =>
    rw [hans] at hw
    exact hf a mid hw.2 hw.1
  | missing =>
    rw [hans] at hw
    exact hw
  | gaveUp cause => trivial

lemma succeeds_within [Uniform p] {rule : Rule} (h : p.Succeeds why w P) :
    (within rule p).Succeeds why w P := by
  intro hvalid
  rw [answer_within]
  exact h hvalid

lemma succeeds_first [Uniform p] [Uniform q] (hp : p.Succeeds why w P) :
    (orElse p q).Succeeds why w P := by
  intro hvalid
  have hw := hp hvalid
  rw [answer_orElse]
  cases hans : p.answer why w with
  | found a rest =>
    rw [hans] at hw
    exact hw
  | missing =>
    rw [hans] at hw
    exact False.elim hw
  | gaveUp cause => trivial

lemma succeeds_second [Uniform p] [Uniform q] (hp : Token.areValid w → p.answer why w = .missing)
    (hq : q.Succeeds why w P) : (orElse p q).Succeeds why w P := by
  intro hvalid
  rw [answer_orElse_missing (hp hvalid)]
  exact hq hvalid

lemma succeeds_some [Uniform p] {P : Option α → List Token → Prop}
    (hp : p.Succeeds why w fun a rest => P (some a) rest) : (optional p).Succeeds why w P := by
  intro hvalid
  have hw := hp hvalid
  rw [answer_optional]
  cases hans : p.answer why w with
  | found a rest =>
    rw [hans] at hw
    exact hw
  | missing =>
    rw [hans] at hw
    exact False.elim hw
  | gaveUp cause => trivial

lemma succeeds_none [Uniform p] {P : Option α → List Token → Prop}
    (hp : p.answer why w = .missing) (h : P none w) : (optional p).Succeeds why w P :=
  succeeds_of_found (fun _ => answer_optional_missing hp) List.suffix_rfl h

lemma Consumes.bind [Uniform p] [∀ a, Uniform (f a)] (hp : p.Consumes why u (v ++ rest))
    (hf : ∀ a, (f a).Consumes why v rest) : (p >>= f).Consumes why (u ++ v) rest := by
  have hp' : p.Succeeds why (u ++ v ++ rest) fun _ r => r = v ++ rest := by
    rw [List.append_assoc]
    exact hp
  refine succeeds_bind hp' ?_
  rintro a _ rfl
  exact hf a

/-- What is made of a result takes no further tokens. -/
lemma Consumes.last [Uniform p] [∀ a, Uniform (f a)] (hp : p.Consumes why u rest)
    (hf : ∀ a, (f a).Consumes why [] rest) : (p >>= f).Consumes why u rest := by
  refine succeeds_bind hp ?_
  rintro a _ rfl
  exact hf a

/-- A sequence whose first part finds a given value. -/
lemma consumes_bind_found [Uniform p] [∀ a, Uniform (f a)] {a : α}
    (hans : p.answer why (u ++ (v ++ rest)) = .found a (v ++ rest))
    (hf : (f a).Consumes why v rest) : (p >>= f).Consumes why (u ++ v) rest := by
  intro hvalid
  rw [List.append_assoc] at hvalid ⊢
  rw [answer_bind_found hans]
  exact hf (hvalid.of_suffix (List.suffix_append u _))

lemma consumes_pure (a : α) : (pure a : Parser α).Consumes why [] rest :=
  succeeds_pure rfl

lemma consumes_build (part : Except Defect α) : (build part).Consumes why [] rest :=
  succeeds_build fun _ _ => rfl

/-- A part that may be left out is taken, or it is missing. -/
lemma consumes_optional [Uniform p] (h : u = [] ∧ p.answer why rest = .missing ∨
    p.Consumes why u rest) : (optional p).Consumes why u rest := by
  rcases h with ⟨rfl, hp⟩ | hp
  · exact succeeds_none hp rfl
  · exact succeeds_some hp

/-- Repetition succeeds if its first part does and it succeeds again behind that. -/
lemma succeeds_many [Uniform p] (htakes : p.Takes 1) {P : List α → List Token → Prop}
    (h : p.Succeeds why w fun a mid => mid.length < w.length →
      (many p).Succeeds why mid fun as r => P (a :: as) r) : (many p).Succeeds why w P := by
  intro hvalid
  have hw := h hvalid
  rw [answer_many htakes]
  cases hans : p.answer why w with
  | found a mid =>
    rw [hans] at hw
    obtain ⟨hmid, hmany⟩ := hw
    exact succeeds_bind (hmany (htakes.length_lt hans)) (fun as r hr => succeeds_pure hr) hmid
  | missing =>
    rw [hans] at hw
    exact False.elim hw
  | gaveUp cause => trivial

/-- Repeated parts are taken one after the other, if each can be followed by the next ones. -/
lemma consumes_many [Uniform p] (htakes : p.Takes 1) {e : Expr}
    (hpart : ∀ u v, Generates e u → Generates (.star e) v → p.Consumes why u (v ++ rest))
    (hend : p.answer why rest = .missing) (hu : Generates (.star e) u) :
    (many p).Consumes why u rest := by
  refine hu.star_induction (P := fun u => (many p).Consumes why u rest) ?_ ?_
  · exact succeeds_of_found (fun _ => answer_many_missing htakes hend) List.suffix_rfl rfl
  · intro first others hfirst hothers ih
    rw [Consumes, List.append_assoc]
    refine succeeds_many htakes ((hpart first others hfirst hothers).mono ?_)
    rintro a _ rfl -
    exact ih

lemma consumes_punct (p : Punct) : (punct p).Consumes why [.punct p] rest :=
  succeeds_of_found (fun _ => answer_punct_cons p) (List.suffix_cons _ _) rfl

lemma consumes_keyword (k : Keyword) : (keyword k).Consumes why [.word k.word] rest :=
  succeeds_of_found (fun _ => answer_keyword_cons k) (List.suffix_cons _ _) rfl

lemma consumes_openBody : openBody.Consumes why [.punct .openBrace] rest :=
  succeeds_of_found (fun _ => by rw [answer_openBody]; exact take_only_cons _)
    (List.suffix_cons _ _) rfl

lemma consumes_id (name : Id) : Grammar.id.Consumes why [.id name] rest :=
  succeeds_of_found (fun hvalid => answer_id_cons (hvalid (.id name) List.mem_cons_self) rest)
    (List.suffix_cons _ _) rfl

lemma consumes_compass (c : Compass) :
    (within .compass compassPoint).Consumes why [.word c.word] rest := by
  refine succeeds_within (succeeds_of_found (a := c) (fun _ => ?_) (List.suffix_cons _ _) rfl)
  rw [answer_compassPoint]
  simp [Answer.take, Token.compass?, Token.word]

end Combinators

end Parser

/-- Is the vertex a node reference? -/
def Vertex.isNode : Vertex → Bool
  | .node _ => true
  | .subgraph _ => false

/-! ## Rules without bodies -/

namespace Grammar

variable {why : Stop} {u rest : List Token}

lemma consumes_port (hu : Generates (.rule .port) u) (hrest : rest.head? ≠ some (.punct .colon)) :
    port.Consumes why u rest := by
  refine succeeds_within ?_
  obtain ⟨name, rfl | ⟨c, rfl⟩⟩ := hu.port
  · refine (consumes_punct .colon).bind fun _ => (consumes_id name).bind fun first => ?_
    refine (consumes_optional (Or.inl ⟨rfl, ?_⟩)).last fun compass => consumes_build _
    exact answer_bind_missing (answer_punct_missing hrest)
  · refine (consumes_punct .colon).bind fun _ => (consumes_id name).bind fun first => ?_
    have hcompass : (punct .colon >>= fun _ => within .compass compassPoint).Consumes why
        [.punct .colon, .word c.word] rest :=
      (consumes_punct .colon).bind fun _ => consumes_compass c
    exact (consumes_optional (Or.inr hcompass)).last fun compass => consumes_build _

lemma consumes_nodeId (hu : Generates (.rule .nodeId) u)
    (hrest : rest.head? ≠ some (.punct .colon)) : nodeId.Consumes why u rest := by
  obtain ⟨name, port, hport, rfl⟩ := hu.nodeId
  refine succeeds_within ((consumes_id name).bind fun first => ?_)
  have hoptional : (optional Grammar.port).Consumes why port rest := by
    refine consumes_optional ?_
    rcases hport with rfl | hport
    · exact Or.inl ⟨rfl, port_missing hrest⟩
    · exact Or.inr (consumes_port hport hrest)
  exact hoptional.last fun port => consumes_pure _

lemma consumes_assignment (key value : Id) :
    assignment.Consumes why [.id key, .punct .equals, .id value] rest :=
  succeeds_within ((consumes_id key).bind fun _ => (consumes_punct .equals).bind fun _ =>
    (consumes_id value).last fun _ => consumes_pure _)

/-- Behind an attribute stands the next one or the closing bracket, so every separator is its
own. -/
lemma consumes_item (hu : Generates itemExpr u)
    (hrest : ∀ p ∈ [Punct.semicolon, .comma], rest.head? ≠ some (.punct p)) :
    item.Consumes why u rest := by
  obtain ⟨key, value, separator, hseparator, rfl⟩ := hu.item
  refine (consumes_assignment key value).bind fun attr => ?_
  refine (consumes_optional ?_).last fun _ => consumes_pure attr
  rcases hseparator with rfl | rfl | rfl
  · left
    have hsemicolon : (punct .semicolon).answer why rest = .missing :=
      answer_punct_missing (hrest .semicolon (by simp))
    have hcomma : (punct .comma).answer why rest = .missing :=
      answer_punct_missing (hrest .comma (by simp))
    exact ⟨rfl, (answer_orElse_missing hsemicolon).trans hcomma⟩
  · exact Or.inr (succeeds_first (consumes_punct .semicolon))
  · have hsemicolon : (punct .semicolon).answer why (.punct .comma :: rest) = .missing :=
      answer_punct_missing (by simp)
    exact Or.inr (succeeds_second (fun _ => hsemicolon) (consumes_punct .comma))

lemma head_items {w : List Token} (hw : Generates (.star itemExpr) w) :
    ∀ p ∈ [Punct.semicolon, .comma],
      (w ++ .punct .closeBracket :: rest).head? ≠ some (.punct p) := by
  intro p hp
  refine hw.star_induction
    (P := fun w => (w ++ .punct .closeBracket :: rest).head? ≠ some (.punct p)) ?_ ?_
  · rintro ⟨⟩
    simp at hp
  · intro first others hfirst _ _
    obtain ⟨key, value, separator, -, rfl⟩ := hfirst.item
    simp

lemma consumes_attributeGroup (hu : Generates groupExpr u) :
    attributeGroup.Consumes why u rest := by
  obtain ⟨items, hitems, rfl⟩ := hu.group
  rw [attributeGroup_eq]
  have hend : item.answer why (.punct .closeBracket :: rest) = .missing := by
    refine answer_bind_missing ?_
    unfold assignment
    rw [answer_within]
    exact answer_bind_missing (answer_id_missing (by simp))
  have hmany : (many item).Consumes why items (.punct .closeBracket :: rest) :=
    consumes_many takes_item (fun u v hu hv => consumes_item hu (head_items hv)) hend hitems
  exact (consumes_punct .openBracket).bind fun _ => hmany.bind fun attrs =>
    (consumes_punct .closeBracket).last fun _ => consumes_pure attrs

lemma consumes_attributeList (hu : Generates (.rule .attributeList) u)
    (hrest : rest.head? ≠ some (.punct .openBracket)) : attributeList.Consumes why u rest := by
  obtain ⟨first, others, hfirst, hothers, rfl⟩ := hu.attributeList
  refine succeeds_within ((consumes_attributeGroup hfirst).bind fun _ => ?_)
  have hmany : (many attributeGroup).Consumes why others rest :=
    consumes_many takes_attributeGroup (fun u v hu _ => consumes_attributeGroup hu)
      (attributeGroup_missing hrest) hothers
  exact hmany.last fun _ => consumes_pure _

lemma consumes_attributes (hu : u = [] ∨ Generates (.rule .attributeList) u)
    (hrest : rest.head? ≠ some (.punct .openBracket)) : attributes.Consumes why u rest := by
  have hoptional : (optional attributeList).Consumes why u rest := by
    refine consumes_optional ?_
    rcases hu with rfl | hu
    · exact Or.inl ⟨rfl, attributeList_missing hrest⟩
    · exact Or.inr (consumes_attributeList hu hrest)
  exact hoptional.last fun _ => consumes_pure _

lemma consumes_defaults {target : Target} (hu : Generates (.rule .attributeList) u)
    (hrest : rest.head? ≠ some (.punct .openBracket)) :
    defaults.Consumes why (.word target.word :: u) rest := by
  have hfor : (defaultsFor target).Consumes why (.word target.word :: u) rest :=
    (consumes_keyword target.keyword).bind fun _ =>
      (consumes_attributeList hu hrest).last fun _ => consumes_pure _
  intro hvalid
  rw [List.cons_append, answer_defaults_word]
  exact hfor hvalid

/-! ## Vertices -/

/-- The tokens stand at the place, in a body with the given tokens behind its closing brace. -/
inductive StandsAt (p : Place) (rest : List Token) : List Token → Prop
  | mk {w : List Token} (h : Continues p w) : StandsAt p rest (w ++ .punct .closeBrace :: rest)

section Bodies

variable {room : Nat} {w : List Token}

/-- Every body that can be derived is read, and nothing behind it is. -/
def ReadsBodies (why : Stop) (room : Nat) : Prop :=
  ∀ b rest, Generates (.rule .body) b → (body room).Consumes why b rest

/-- The body of a subgraph is read, behind any mark. -/
lemma consumes_subgraph (hbody : ReadsBodies why room) {mark b : List Token} (hmark : IsMark mark)
    (hb : Generates (.rule .body) b) : (subgraph (body room)).Consumes why (mark ++ b) rest := by
  rw [subgraph_eq]
  refine succeeds_within ?_
  have hrest : ∀ name : Option Id, (body room >>= fun ss =>
      (pure (.mk name ss) : Parser Subgraph)).Consumes why b rest :=
    fun name => (hbody b rest hb).last fun _ => consumes_pure _
  obtain ⟨w, rfl⟩ := hb.head_body
  have hnone : Grammar.id.answer why (.punct .openBrace :: w ++ rest) = .missing :=
    answer_id_missing (by simp)
  cases hmark with
  | none =>
    have hkeyword : (keyword .subgraph).answer why (.punct .openBrace :: w ++ rest) = .missing :=
      answer_keyword_missing (by simp [Token.word])
    exact consumes_bind_found (u := []) (answer_optional_missing hkeyword)
      (consumes_bind_found (u := []) (answer_pure none) (hrest none))
  | bare =>
    exact consumes_bind_found (answer_optional_found (answer_keyword_cons .subgraph))
      (consumes_bind_found (u := []) (answer_optional_missing hnone) (hrest none))
  | named name =>
    refine consumes_bind_found (u := [_]) (answer_optional_found (answer_keyword_cons .subgraph)) ?_
    exact (consumes_optional (Or.inr (consumes_id name))).bind fun name => hrest name

/-- The word for a subgraph starts none if no body follows, with a name before it or not. -/
lemma subgraph_missing_of_not_opens {name : Id} (hvalid : Token.areValid w)
    (h : name = ⟨.plain, Keyword.subgraph.word⟩ → ¬ OpensBody w) :
    (subgraph (body room)).answer why (.id name :: w) = .missing := by
  by_cases hname : name = ⟨.plain, Keyword.subgraph.word⟩
  · subst hname
    have hopens := h rfl
    rcases w with _ | ⟨p | other, w⟩
    · exact subgraph_missing room (by simp)
    · refine subgraph_missing room ?_
      rintro - tok ⟨⟩
      refine ⟨?_, by simp⟩
      rintro ⟨⟩
      exact hopens ⟨none, w, rfl⟩
    · -- the identifier is read as a name, but there is no body behind it
      have hother : other.isValid = true := hvalid (.id other) List.mem_cons_self
      have hbrace : w.head? ≠ some (.punct .openBrace) := by
        intro hhead
        obtain ⟨next, rfl⟩ := List.head?_eq_some_iff.1 hhead
        exact hopens ⟨some other, next, rfl⟩
      rw [subgraph_eq, answer_within]
      refine (answer_bind_found (answer_optional_found (answer_keyword_cons .subgraph))).trans ?_
      exact (answer_bind_found (answer_optional_found (answer_id_cons hother w))).trans
        (answer_bind_missing (body_missing room hbrace))
  · exact subgraph_missing room fun hword => absurd hword hname

/-- A subgraph is read as a vertex, and nothing behind it is. -/
lemma succeeds_vertex_subgraph (hbody : ReadsBodies why room) {mark b : List Token}
    (hmark : IsMark mark) (hb : Generates (.rule .body) b) :
    (vertex (body room)).Succeeds why (mark ++ b ++ rest) fun v r =>
      v.isNode = false ∧ r = rest := by
  refine succeeds_within (succeeds_first (succeeds_bind (consumes_subgraph hbody hmark hb) ?_))
  rintro group _ rfl
  exact succeeds_pure ⟨rfl, rfl⟩

/-- A node reference is read as a vertex.  Where it is the word for a subgraph and a body
follows, that body is read along with it, and what is left continues the subgraph. -/
lemma succeeds_vertex_node (hbody : ReadsBodies why room) (hu : Generates (.rule .nodeId) u)
    (hw : Continues (.chain true) w) :
    (vertex (body room)).Succeeds why (u ++ (w ++ .punct .closeBrace :: rest))
      fun v => StandsAt (.chain v.isNode) rest := by
  obtain ⟨name, port, hport, rfl⟩ := hu.nodeId
  by_cases hopens : (name = ⟨.plain, Keyword.subgraph.word⟩ ∧ port = []) ∧
      OpensBody (w ++ .punct .closeBrace :: rest)
  · obtain ⟨⟨rfl, rfl⟩, hopens⟩ := hopens
    -- the derivation has a node here, the parser reads a subgraph
    obtain ⟨other, b, w', hb, hw', rfl⟩ := hw.opens hopens
    have hmark : IsMark (.word Keyword.subgraph.word :: (other.map Token.id).toList) := by
      cases other with
      | none => exact .bare
      | some other => exact .named other
    have htokens : [.word Keyword.subgraph.word] ++ ((other.map Token.id).toList ++ b ++ w' ++
        .punct .closeBrace :: rest) = .word Keyword.subgraph.word :: (other.map Token.id).toList ++
          b ++ (w' ++ .punct .closeBrace :: rest) := by simp
    show (vertex (body room)).Succeeds why ([.word Keyword.subgraph.word] ++ _) _
    rw [htokens]
    refine (succeeds_vertex_subgraph hbody hmark hb).mono ?_
    rintro v r ⟨hv, rfl⟩
    exact ⟨hv ▸ hw'⟩
  · have hgroup : Token.areValid (.id name :: port ++ (w ++ .punct .closeBrace :: rest)) →
        (subgraph (body room)).answer why (.id name :: port ++ (w ++ .punct .closeBrace :: rest)) =
          .missing := by
      intro hvalid
      refine subgraph_missing_of_not_opens (hvalid.of_suffix (List.suffix_cons _ _)) ?_
      intro hname hopens'
      rcases hport with rfl | hport
      · exact hopens ⟨⟨hname, rfl⟩, hopens'⟩
      · -- a colon stands behind the word
        obtain ⟨other, next, hnext⟩ := hopens'
        obtain ⟨_, rfl | ⟨c, rfl⟩⟩ := hport.port <;> cases other <;> simp at hnext
    refine succeeds_within (succeeds_second ?_ (succeeds_first ?_))
    · exact fun hvalid => answer_bind_missing (hgroup hvalid)
    · refine succeeds_bind (consumes_nodeId hu (hw.head_ne (by decide))) ?_
      rintro ref _ rfl
      exact succeeds_pure ⟨hw⟩

/-! ## Chains -/

/-- The vertex behind an arrow is read, and what is left continues the chain. -/
lemma succeeds_hop (hbody : ReadsBodies why room) {sign : Punct}
    (hsign : sign = .arrow ∨ sign = .line) (hu : Generates (.rule .vertex) u)
    (hw : Continues (.chain true) w) :
    (hop (body room)).Succeeds why (.punct sign :: (u ++ (w ++ .punct .closeBrace :: rest)))
      fun _ => StandsAt (.chain true) rest := by
  have harrow : (orElse (punct .arrow) (punct .line)).Consumes why [.punct sign]
      (u ++ (w ++ .punct .closeBrace :: rest)) := by
    rcases hsign with rfl | rfl
    · exact succeeds_first (consumes_punct .arrow)
    · exact succeeds_second (fun _ => answer_punct_missing (by simp)) (consumes_punct .line)
  refine succeeds_bind harrow ?_
  rintro _ _ rfl
  rcases hu.vertex with hgroup | href
  · obtain ⟨mark, b, hmark, hb, rfl⟩ := hgroup.subgraph
    refine (succeeds_vertex_subgraph hbody hmark hb).mono ?_
    rintro v r ⟨-, rfl⟩
    exact ⟨hw⟩
  · refine (succeeds_vertex_node hbody href hw).mono ?_
    rintro v r ⟨hw'⟩
    refine ⟨?_⟩
    cases v with
    | node ref => exact hw'
    -- less can follow a subgraph than a node
    | subgraph group => exact hw'.weaken

/-- The chain is followed to its end: by induction on the number of tokens that are left. -/
lemma succeeds_hops (hbody : ReadsBodies why room) {b : Bool} (hw : Continues (.chain b) w) :
    (many (hop (body room))).Succeeds why (w ++ .punct .closeBrace :: rest) fun vs r =>
      ∃ w', Continues (.chain (b || !vs.isEmpty)) w' ∧ r = w' ++ .punct .closeBrace :: rest ∧
        ∀ q ∈ [Punct.arrow, .line],
          (w' ++ .punct .closeBrace :: rest).head? ≠ some (.punct q) := by
  have htakes := takes_hop (takes_body room)
  induction hn : w.length using Nat.strong_induction_on generalizing b w with
  | _ n ih =>
    by_cases hsigns : ∀ q ∈ [Punct.arrow, .line],
        (w ++ .punct .closeBrace :: rest).head? ≠ some (.punct q)
    · have hmissing : (hop (body room)).answer why (w ++ .punct .closeBrace :: rest) = .missing :=
        hop_missing room (hsigns .arrow (by simp)) (hsigns .line (by simp))
      refine succeeds_of_found (fun _ => answer_many_missing htakes hmissing) List.suffix_rfl ?_
      exact ⟨w, by simpa using hw, rfl, hsigns⟩
    · cases hw with
      | @hop _ sign v w' hsign hv hw' =>
        have htokens : .punct sign :: v ++ w' ++ .punct .closeBrace :: rest =
            .punct sign :: (v ++ (w' ++ .punct .closeBrace :: rest)) := by simp
        rw [htokens]
        refine succeeds_many htakes ((succeeds_hop hbody hsign hv hw').mono ?_)
        -- the vertex may have taken more than was derived from it, but the rest is shorter
        rintro _ _ @⟨last, hlast⟩ hlt
        rw [← htokens, List.length_append, List.length_append] at hlt
        refine (ih last.length (by omega) hlast rfl).mono ?_
        rintro vs r ⟨w'', hw'', rfl, hsigns''⟩
        exact ⟨w'', by simpa using hw'', rfl, hsigns''⟩
      | attributes hattrs _ =>
        obtain ⟨w', rfl⟩ := hattrs.head_attributeList
        simp at hsigns
      | statement hfinish =>
        refine absurd ?_ hsigns
        intro q hq
        refine hfinish.head_ne ?_
        simp only [List.mem_cons, List.not_mem_nil, or_false] at hq
        rcases hq with rfl | rfl <;> decide

/-- Attributes are read wherever they may stand. -/
lemma succeeds_attributes {b : Bool} (hw : Continues (.chain b) w)
    (hsigns : ∀ q ∈ [Punct.arrow, .line],
      (w ++ .punct .closeBrace :: rest).head? ≠ some (.punct q)) :
    attributes.Succeeds why (w ++ .punct .closeBrace :: rest) fun _ => StandsAt .finish rest := by
  obtain hfinish | ⟨-, attrs, w', hattrs, hfinish, rfl⟩ := hw.cases_of_no_hop hsigns
  · refine (consumes_attributes (Or.inl rfl) (hfinish.head_ne (by decide))).mono ?_
    rintro _ _ rfl
    exact ⟨hfinish⟩
  · rw [List.append_assoc]
    refine (consumes_attributes (Or.inr hattrs) (hfinish.head_ne (by decide))).mono ?_
    rintro _ _ rfl
    exact ⟨hfinish⟩

/-- Behind its vertices a statement is brought to its end. -/
lemma succeeds_afterChain {head : Vertex} {more : List Vertex}
    (hw : Continues (.chain (head.isNode || !more.isEmpty)) w)
    (hsigns : ∀ q ∈ [Punct.arrow, .line],
      (w ++ .punct .closeBrace :: rest).head? ≠ some (.punct q)) :
    (afterChain head more).Succeeds why (w ++ .punct .closeBrace :: rest)
      fun _ => StandsAt .finish rest := by
  cases more with
  | cons next more =>
    exact succeeds_bind (succeeds_attributes hw hsigns) fun attrs r hr =>
      succeeds_build fun _ _ => hr
  | nil =>
    cases head with
    | subgraph group =>
      -- no attributes may stand behind a lone subgraph
      obtain hfinish | ⟨hb, -⟩ := hw.cases_of_no_hop hsigns
      · exact succeeds_pure ⟨hfinish⟩
      · cases hb
    | node ref =>
      -- an equals sign would have made the statement an assignment
      have hequals : (w ++ .punct .closeBrace :: rest).head? ≠ some (.punct .equals) :=
        Continues.head_ne (p := .chain true) hw (by decide)
      have hassigned : (if ref.port.isNone then optional (punct .equals) else pure none).Succeeds
          why (w ++ .punct .closeBrace :: rest) fun assigned r =>
            assigned = none ∧ r = w ++ .punct .closeBrace :: rest := by
        split
        · exact succeeds_none (answer_punct_missing hequals) ⟨rfl, rfl⟩
        · exact succeeds_pure ⟨rfl, rfl⟩
      show (nodeOrAttribute ref).Succeeds why _ _
      rw [nodeOrAttribute_eq]
      refine succeeds_bind hassigned ?_
      rintro _ _ ⟨rfl, rfl⟩
      exact succeeds_bind (succeeds_attributes hw hsigns) fun attrs r hr =>
        succeeds_build fun _ _ => hr

/-- A statement that starts with a vertex is read, if the vertex is. -/
lemma succeeds_vertexStatement (hbody : ReadsBodies why room)
    (hvertex : (vertex (body room)).Succeeds why w fun v => StandsAt (.chain v.isNode) rest) :
    (vertexStatement (body room)).Succeeds why w fun _ => StandsAt .finish rest := by
  rw [vertexStatement_eq]
  refine succeeds_bind hvertex ?_
  rintro v _ ⟨hw'⟩
  refine succeeds_bind (succeeds_within (succeeds_hops hbody hw')) ?_
  rintro more _ ⟨w'', hw'', rfl, hsigns⟩
  exact succeeds_afterChain hw'' hsigns

/-! ## Statements -/

/-- No subgraph starts like default attributes. -/
lemma defaults_missing_of_mark {mark b : List Token} (hmark : IsMark mark)
    (hb : Generates (.rule .body) b) : defaults.answer why (mark ++ b ++ rest) = .missing := by
  have hword : ∀ target : Target, target.word ≠ Keyword.subgraph.word := by
    intro target
    cases target <;> decide
  refine defaults_missing ?_
  intro target next hnext
  obtain ⟨b', rfl⟩ := hb.head_body
  cases hmark with
  | none => cases hnext
  | bare => exact absurd (by simpa [Token.word] using (List.cons.inj hnext).1.symm) (hword target)
  | named name =>
    exact absurd (by simpa [Token.word] using (List.cons.inj hnext).1.symm) (hword target)

/-- A node reference starts default attributes only if it is the word of a target and attributes
follow; then these are read as its own. -/
lemma succeeds_defaults_or_missing (hu : Generates (.rule .nodeId) u)
    (hw : Continues (.chain true) w) :
    (defaults.Succeeds why (u ++ (w ++ .punct .closeBrace :: rest))
      fun _ => StandsAt .finish rest) ∨
    defaults.answer why (u ++ (w ++ .punct .closeBrace :: rest)) = .missing := by
  obtain ⟨name, port, hport, rfl⟩ := hu.nodeId
  by_cases hdefaults : ∃ (target : Target) (next : List Token),
      .id name :: port ++ (w ++ .punct .closeBrace :: rest) = .word target.word :: next ∧
        next.head? = some (.punct .openBracket)
  · left
    obtain ⟨target, next, hnext, hbracket⟩ := hdefaults
    rw [List.cons_append, List.cons.injEq] at hnext
    obtain ⟨hname, rfl⟩ := hnext
    rcases hport with rfl | hport
    · rw [List.nil_append] at hbracket
      have hsigns : ∀ q ∈ [Punct.arrow, .line],
          (w ++ .punct .closeBrace :: rest).head? ≠ some (.punct q) := by
        -- a bracket follows, so no arrow does
        rw [hbracket]
        decide
      obtain hfinish | ⟨-, attrs, w', hattrs, hfinish, rfl⟩ := hw.cases_of_no_hop hsigns
      · exact absurd hbracket (hfinish.head_ne (by decide))
      · have hread : defaults.Consumes why (.word target.word :: attrs)
            (w' ++ .punct .closeBrace :: rest) :=
          consumes_defaults hattrs (hfinish.head_ne (by decide))
        rw [hname, List.append_assoc]
        refine hread.mono ?_
        rintro _ _ rfl
        exact ⟨hfinish⟩
    · obtain ⟨_, rfl | ⟨c, rfl⟩⟩ := hport.port
      · cases hbracket
      · cases hbracket
  · right
    refine defaults_missing ?_
    intro target next hnext hbracket
    exact hdefaults ⟨target, next, hnext, hbracket⟩

/-- What stands at the start of a statement is read as a statement. -/
lemma succeeds_statement (hbody : ReadsBodies why room) (hw : Continues .start w) (hne : w ≠ []) :
    (statement (body room)).Succeeds why (w ++ .punct .closeBrace :: rest)
      fun _ => StandsAt .finish rest := by
  cases hw with
  | nil => exact absurd rfl hne
  | @defaults target attrs w' hattrs h =>
    have hread : Grammar.defaults.Consumes why (.word target.word :: attrs)
        (w' ++ .punct .closeBrace :: rest) :=
      consumes_defaults hattrs (h.head_ne (by decide))
    rw [List.append_assoc]
    refine succeeds_within (succeeds_first (hread.mono ?_))
    rintro _ _ rfl
    exact ⟨h⟩
  | @assign key value w' h =>
    -- the values of the identifiers are checked again when the statement is built
    intro hvalid
    have hkey : key.isValid = true := hvalid (.id key) (by simp)
    have hvalue : value.isValid = true := hvalid (.id value) (by simp)
    exact succeeds_of_found (fun _ => answer_assign room hkey hvalue)
      ((List.suffix_cons _ _).trans ((List.suffix_cons _ _).trans (List.suffix_cons _ _)))
      ⟨h⟩ hvalid
  | @node ref w' href h =>
    rw [List.append_assoc]
    refine succeeds_within ?_
    -- the derivation has a node, but the parser prefers default attributes
    rcases succeeds_defaults_or_missing href h with hdefaults | hdefaults
    · exact succeeds_first hdefaults
    · exact succeeds_second (fun _ => hdefaults)
        (succeeds_vertexStatement hbody (succeeds_vertex_node hbody href h))
  | @subgraph group w' hgroup h =>
    obtain ⟨mark, b, hmark, hb, rfl⟩ := hgroup.subgraph
    rw [List.append_assoc]
    refine succeeds_within (succeeds_second (fun _ => defaults_missing_of_mark hmark hb) ?_)
    refine succeeds_vertexStatement hbody ((succeeds_vertex_subgraph hbody hmark hb).mono ?_)
    rintro v r ⟨hv, rfl⟩
    exact ⟨hv ▸ h⟩

/-- A semicolon behind a statement is read along with it. -/
lemma succeeds_terminated (hbody : ReadsBodies why room) (hw : Continues .start w)
    (hne : w ≠ []) :
    (terminated (body room)).Succeeds why (w ++ .punct .closeBrace :: rest)
      fun _ => StandsAt .start rest := by
  refine succeeds_bind (succeeds_statement hbody hw hne) ?_
  rintro s _ @⟨w', hw'⟩
  cases hw' with
  | @semicolon w' h =>
    have hsemicolon : (optional (punct .semicolon)).Consumes why [.punct .semicolon]
        (w' ++ .punct .closeBrace :: rest) := consumes_optional (Or.inr (consumes_punct .semicolon))
    refine succeeds_bind hsemicolon ?_
    rintro _ _ rfl
    exact succeeds_pure ⟨h⟩
  | next h =>
    have hsemicolon : (optional (punct .semicolon)).Consumes why []
        (w' ++ .punct .closeBrace :: rest) :=
      consumes_optional (Or.inl ⟨rfl, answer_punct_missing (h.head_ne (by decide))⟩)
    refine succeeds_bind hsemicolon ?_
    rintro _ _ rfl
    exact succeeds_pure ⟨h⟩

/-- The statements of a body are read up to its closing brace: by induction on the number of
tokens that are left. -/
lemma consumes_statements (hbody : ReadsBodies why room) (hw : Continues .start w) :
    (many (terminated (body room))).Consumes why w (.punct .closeBrace :: rest) := by
  have htakes := takes_terminated (takes_body room)
  induction hn : w.length using Nat.strong_induction_on generalizing w with
  | _ n ih =>
    by_cases hne : w = []
    · subst hne
      exact succeeds_of_found (fun _ => answer_many_missing htakes (terminated_missing room))
        List.suffix_rfl rfl
    · refine succeeds_many htakes ((succeeds_terminated hbody hw hne).mono ?_)
      rintro s _ @⟨w', hw'⟩ hlt
      rw [List.length_append, List.length_append] at hlt
      exact ih w'.length (by omega) hw' rfl

end Bodies

/-! ## Bodies and documents -/

/-- A derivable body is read, and nothing behind it is. -/
theorem consumes_body (why : Stop) (room : Nat) : ReadsBodies why room := by
  induction room with
  | zero =>
    -- without room the parser gives up, which counts as a success
    intro b rest hb
    obtain ⟨w, rfl⟩ := hb.head_body
    refine succeeds_within (succeeds_bind consumes_openBody ?_)
    rintro _ _ rfl _
    trivial
  | succ room ih =>
    intro b rest hb
    obtain ⟨w, hw, rfl⟩ := hb.body
    refine succeeds_within ?_
    exact consumes_openBody.bind fun _ =>
      (consumes_statements ih (continues_of_star hw)).bind fun ss =>
        (consumes_punct .closeBrace).last fun _ => consumes_pure ss

lemma consumes_graph (hu : Generates (.rule .graph) u) : graph.Consumes why u rest := by
  simp only [generates_rule_iff (r := .graph), Nonterminal.expr, Expr.sequence, Expr.firstOf,
    generates_seq_iff, generates_opt_iff, generates_choice_iff, generates_fail_iff,
    generates_keyword_iff, generates_id_iff, generates_empty_iff, or_false] at hu
  obtain ⟨strict, _, hstrict, ⟨kind, _, hkind, ⟨name, _, hname, ⟨b, _, hb, rfl, rfl⟩, rfl⟩, rfl⟩,
    rfl⟩ := hu
  obtain ⟨directed, rfl⟩ : ∃ directed, kind = [.word (kindKeyword directed).word] := by
    rcases hkind with rfl | rfl
    · exact ⟨false, rfl⟩
    · exact ⟨true, rfl⟩
  rw [List.append_nil, graph_eq]
  have hmark : (optional (keyword .strict)).Consumes why strict
      ([.word (kindKeyword directed).word] ++ (name ++ b) ++ rest) := by
    refine consumes_optional ?_
    rcases hstrict with rfl | rfl
    · refine Or.inl ⟨rfl, answer_keyword_missing ?_⟩
      rw [List.append_assoc, List.singleton_append, List.head?_cons]
      cases directed <;> decide
    · exact Or.inr (consumes_keyword .strict)
  have hkind : Grammar.kind.Consumes why [.word (kindKeyword directed).word] (name ++ b ++ rest) :=
    succeeds_of_found (fun _ => answer_kind directed _) (List.suffix_cons _ _) rfl
  have hid : (optional Grammar.id).Consumes why name (b ++ rest) := by
    refine consumes_optional ?_
    rcases hname with rfl | ⟨other, rfl⟩
    · obtain ⟨b', rfl⟩ := hb.head_body
      exact Or.inl ⟨rfl, answer_id_missing (by simp)⟩
    · exact Or.inr (consumes_id other)
  exact succeeds_within (hmark.bind fun _ => hkind.bind fun _ => hid.bind fun _ =>
    (consumes_body why maxNesting b rest hb).last fun _ => consumes_pure _)

/-- A derivable document is read to the end of the text. -/
lemma consumes_file (hu : Generates (.rule .file) u) : file.Consumes .endOfInput u [] := by
  simp only [generates_rule_iff (r := .file), Nonterminal.expr, Expr.sequence, generates_seq_iff,
    generates_terminal_iff, generates_empty_iff] at hu
  obtain ⟨g, _, hg, ⟨_, _, rfl, rfl, rfl⟩, rfl⟩ := hu
  have hfinished : finished.Consumes .endOfInput [] [] :=
    succeeds_of_found (fun _ => answer_finished) List.suffix_rfl rfl
  exact succeeds_within ((consumes_graph hg).bind fun _ => hfinished.last fun _ => consumes_pure _)

end Grammar

/-- Within the limit for nesting, a text is a document exactly when it splits into tokens that
can be derived from the grammar, whatever the order of its alternatives. -/
theorem Graph.parse_isOk_iff_generates {source : Text}
    (h : source.nesting ≤ Grammar.maxNesting) :
    (∃ g, Graph.parse source = .ok g) ↔
      ∃ toks, Splits source toks ∧ Generates (.rule .file) toks := by
  constructor
  · rintro ⟨g, hg⟩
    obtain ⟨w, hans⟩ := Grammar.file.result_eq_ok_iff.1 hg
    obtain ⟨rest, _, -, hread, -⟩ := agrees_file.found hans
    obtain rfl := rest_eq_nil_of_file hread
    obtain ⟨toks, htoks, hlist, hwhy⟩ := hread.generates _ _ rfl
    refine ⟨toks, splits_iff.2 ⟨?_, hwhy⟩, htoks⟩
    rw [hlist]
    exact List.append_nil toks
  · rintro ⟨toks, hsplits, htoks⟩
    obtain ⟨rfl, hwhy⟩ := splits_iff.1 hsplits
    have hfile := Grammar.consumes_file htoks
    rw [Consumes, Succeeds, List.append_nil, ← hwhy] at hfile
    have hfound := hfile (Tokens.areValid_ofText source)
    cases hans : Grammar.file.onText source with
    | found g rest => exact ⟨g, Grammar.file.result_eq_ok_iff.2 ⟨rest, hans⟩⟩
    | missing =>
      rw [onText] at hans
      rw [hans] at hfound
      exact False.elim hfound
    | gaveUp cause => exact absurd hans (file_ne_gaveUp h cause)

/-- The word for a subgraph as the name of one, and a document that no derivation leads to. -/
theorem Graph.parse_isOk_iff_generates_subgraph :
    (∃ toks, Splits "graph \x7b subgraph subgraph \x7ba\x7d -- b \x7d".toList toks ∧
      Generates (.rule .file) toks) ∧
    ¬ ∃ toks, Splits "graph \x7b subgraph subgraph a \x7b\x7d [b=c] \x7d".toList toks ∧
      Generates (.rule .file) toks := by
  constructor
  · exact (parse_isOk_iff_generates (by decide +kernel)).1
      (Graph.exists_of_isOk (by decide +kernel))
  · intro hex
    have herror : (Graph.parse
        "graph \x7b subgraph subgraph a \x7b\x7d [b=c] \x7d".toList).isOk = false := by
      decide +kernel
    obtain ⟨g, hg⟩ := (parse_isOk_iff_generates (by decide +kernel)).2 hex
    rw [hg] at herror
    cases herror

end DotNotation
