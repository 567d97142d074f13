/-
# What is read is well formed

Every part is checked as it is built, and a part with a defect would end the parse.  This
never happens: what the parser passes to the checks has passed them in another form before.
Tokens are written as they are meant, a chain is built only from two vertices or more, and
attributes behind the bare word of a target have already been read as default attributes.

The same induction over the rules bounds the nesting.  A parser gives up only when more bodies
are open at once in its tokens than it has room for.  The main results are

* `Grammar.keeps_body`: what is read as a body is well formed, its ports are clear, and giving
  up means that the tokens nest too deeply;
* `reads_only_valid`: so it is with whole documents and single statements.
-/
import DotNotation.Proofs.Parsing.Rules
import DotNotation.Proofs.Syntax.Shape

namespace DotNotation

/-! ## Nesting of tokens -/

/-- The number of bodies that are open at once in a list of tokens, those left out that were
open before it. -/
def Token.nesting : List Token → Nat
  | [] => 0
  | .punct .openBrace :: w => nesting w + 1
  | .punct .closeBrace :: w => nesting w - 1
  | _ :: w => nesting w

/-- The number of bodies that are open at once in a text. -/
def Text.nesting (source : Text) : Nat := Token.nesting (Tokens.ofText source).toList

lemma Token.nesting_le_cons {tok : Token} (h : tok ≠ .punct .closeBrace) (w : List Token) :
    nesting w ≤ nesting (tok :: w) := by
  rcases tok with p | name
  · cases p <;> simp_all [nesting]
  · rfl

/-! ## Sound answers -/

/-- What is found has a property and leaves no deeper nesting, and giving up means that the
tokens nest too deeply. -/
def Answer.Sound {α : Type} (room : Nat) (w : List Token) (P : α → Prop) : Answer α → Prop
  | found a rest => P a ∧ rest <:+ w ∧ Token.nesting rest ≤ Token.nesting w
  | missing => True
  | gaveUp cause => cause = .tooDeep ∧ room < Token.nesting w

/-- Tokens that are written as they are meant. -/
def Token.areValid (w : List Token) : Prop := ∀ tok ∈ w, tok.isValid = true

lemma Token.areValid.of_suffix {w rest : List Token} (h : areValid w) (hsuffix : rest <:+ w) :
    areValid rest :=
  fun tok htok => h tok (hsuffix.subset htok)

/-- A sound answer to what is left behind a first part is sound for the whole. -/
lemma Answer.Sound.of_suffix {α : Type} {room : Nat} {w rest : List Token} {P : α → Prop}
    {a : Answer α} (h : a.Sound room rest P) (hsuffix : rest <:+ w)
    (hnest : Token.nesting rest ≤ Token.nesting w) : a.Sound room w P := by
  cases a with
  | found b last => exact ⟨h.1, h.2.1.trans hsuffix, h.2.2.trans hnest⟩
  | missing => trivial
  | gaveUp cause => exact ⟨h.1, h.2.trans_le hnest⟩

namespace Parser

variable {α β : Type} {room : Nat} {P : α → Prop} {Q : β → Prop}

/-- The parser answers soundly whenever the tokens are written as they are meant. -/
def Keeps (room : Nat) (p : Parser α) (P : α → Prop) : Prop :=
  ∀ (why : Stop) (w : List Token), Token.areValid w → (p.answer why w).Sound room w P

section Combinators

variable {p q : Parser α} {f : α → Parser β}

/-- In one place a sequence answers soundly if its second part does so behind the first. -/
lemma sound_bind [Uniform p] [∀ a, Uniform (f a)] {why : Stop} {w : List Token}
    (hp : (p.answer why w).Sound room w P)
    (hf : ∀ a rest, p.answer why w = .found a rest → P a → rest <:+ w →
      ((f a).answer why rest).Sound room rest Q) :
    ((p >>= f).answer why w).Sound room w Q := by
  rw [answer_bind]
  cases hw : p.answer why w with
  | found a rest =>
    rw [hw] at hp
    obtain ⟨ha, hsuffix, hnest⟩ := hp
    exact (hf a rest hw ha hsuffix).of_suffix hsuffix hnest
  | missing => trivial
  | gaveUp cause =>
    rw [hw] at hp
    exact hp

lemma Keeps.mono {P' : α → Prop} (hp : p.Keeps room P) (h : ∀ a, P a → P' a) :
    p.Keeps room P' := by
  intro why w hvalid
  have hw := hp why w hvalid
  cases hr : p.answer why w with
  | found a rest =>
    rw [hr] at hw
    exact ⟨h a hw.1, hw.2⟩
  | missing => trivial
  | gaveUp cause =>
    rw [hr] at hw
    exact hw

lemma keeps_bind [Uniform p] [∀ a, Uniform (f a)] (hp : p.Keeps room P)
    (hf : ∀ a, P a → (f a).Keeps room Q) : (p >>= f).Keeps room Q := by
  intro why w hvalid
  refine sound_bind (hp why w hvalid) ?_
  intro a rest _ ha hsuffix
  exact hf a ha why rest (hvalid.of_suffix hsuffix)

lemma sound_pure {a : α} (h : P a) (why : Stop) (w : List Token) :
    ((pure a : Parser α).answer why w).Sound room w P := by
  rw [answer_pure]
  exact ⟨h, List.suffix_rfl, le_refl _⟩

lemma keeps_pure {a : α} (h : P a) : (pure a : Parser α).Keeps room P :=
  fun why w _ => sound_pure h why w

lemma keeps_expected (e : Expectation) : (expected e : Parser α).Keeps room P :=
  fun _ _ _ => trivial

lemma keeps_build {part : Except Defect α} {a : α} (hpart : part = .ok a) (h : P a) :
    (build part).Keeps room P := by
  rw [hpart]
  exact keeps_pure h

lemma keeps_orElse [Uniform p] [Uniform q] (hp : p.Keeps room P) (hq : q.Keeps room P) :
    (orElse p q).Keeps room P := by
  intro why w hvalid
  have hw := hp why w hvalid
  rw [answer_orElse]
  cases hr : p.answer why w with
  | missing => exact hq why w hvalid
  | found a rest =>
    rw [hr] at hw
    exact hw
  | gaveUp cause =>
    rw [hr] at hw
    exact hw

lemma keeps_optional [Uniform p] (hp : p.Keeps room P) :
    (optional p).Keeps room fun o => ∀ a ∈ o, P a := by
  intro why w hvalid
  have hw := hp why w hvalid
  rw [answer_optional]
  cases hr : p.answer why w with
  | missing => exact ⟨by simp, List.suffix_rfl, le_refl _⟩
  | found a rest =>
    rw [hr] at hw
    refine ⟨?_, hw.2⟩
    rintro b ⟨⟩
    exact hw.1
  | gaveUp cause =>
    rw [hr] at hw
    exact hw

lemma keeps_within [Uniform p] (rule : Rule) (hp : p.Keeps room P) :
    (within rule p).Keeps room P := by
  intro why w hvalid
  rw [answer_within]
  exact hp why w hvalid

lemma keeps_firstOf_nil : (firstOf [] : Parser α).Keeps room P := fun _ _ _ => trivial

lemma keeps_elim {o : Option β} {g : β → Parser α} (hnone : o = none → p.Keeps room P)
    (hsome : ∀ b, o = some b → (g b).Keeps room P) : (o.elim p g).Keeps room P := by
  cases o with
  | none => exact hnone rfl
  | some b => exact hsome b rfl

lemma keeps_many [Uniform p] (htakes : p.Takes 1) (hp : p.Keeps room P) :
    (many p).Keeps room fun as => ∀ a ∈ as, P a := by
  intro why w
  induction hn : w.length using Nat.strong_induction_on generalizing w with
  | _ n ih =>
    intro hvalid
    have hw := hp why w hvalid
    rw [answer_many htakes]
    cases hr : p.answer why w with
    | found a rest =>
      rw [hr] at hw
      obtain ⟨ha, hsuffix, hnest⟩ := hw
      have hlt := htakes.length_lt hr
      have hrest := ih rest.length (hn ▸ hlt) rest rfl (hvalid.of_suffix hsuffix)
      refine Answer.Sound.of_suffix (sound_bind hrest ?_) hsuffix hnest
      intro as last _ has _
      exact sound_pure (List.forall_mem_cons.2 ⟨ha, has⟩) why last
    | missing => exact ⟨by simp, List.suffix_rfl, le_refl _⟩
    | gaveUp cause =>
      rw [hr] at hw
      exact hw

/-- A parser of single tokens that takes no closing brace. -/
lemma keeps_of_take {select : Token → Option α}
    (h : ∀ why w, p.answer why w = Answer.take select w)
    (hselect : ∀ tok a, select tok = some a → tok.isValid = true →
      tok ≠ .punct .closeBrace ∧ P a) : p.Keeps room P := by
  intro why w hvalid
  rw [h]
  cases w with
  | nil => trivial
  | cons tok w =>
    cases hs : select tok with
    | none => simp [Answer.take, hs, Answer.Sound]
    | some a =>
      obtain ⟨hne, ha⟩ := hselect tok a hs (hvalid tok List.mem_cons_self)
      simp only [Answer.take, hs, Option.elim_some]
      exact ⟨ha, List.suffix_cons tok w, Token.nesting_le_cons hne w⟩

lemma keeps_only {p : Parser Unit} {tok : Token} (htok : tok ≠ .punct .closeBrace)
    (h : ∀ why w, p.answer why w = Answer.take (Token.only tok) w) :
    p.Keeps room fun _ => True := by
  refine keeps_of_take h ?_
  intro other a hs _
  refine ⟨?_, trivial⟩
  rintro rfl
  rw [Token.only_of_ne htok.symm] at hs
  cases hs

lemma keeps_punct {p : Punct} (h : p ≠ .closeBrace) : (punct p).Keeps room fun _ => True :=
  keeps_only (by simpa using h) fun _ _ => answer_punct p

lemma keeps_keyword (k : Keyword) : (keyword k).Keeps room fun _ => True :=
  keeps_only (by simp [Token.word]) fun _ _ => answer_keyword k

lemma keeps_anyId : anyId.Keeps room fun name => name.isValid = true := by
  refine keeps_of_take (fun _ _ => answer_anyId) ?_
  rintro (p | name) a hs hvalid
  · cases hs
  · cases hs
    exact ⟨by simp, hvalid⟩

lemma keeps_compassPoint : compassPoint.Keeps room fun _ => True := by
  refine keeps_of_take (fun _ _ => answer_compassPoint) ?_
  rintro (p | name) a hs _
  · cases hs
  · exact ⟨by simp, trivial⟩

end Combinators

end Parser

/-! ## The rules that open no body -/

namespace Grammar

open DotNotation.Parser

variable {room : Nat}

lemma keeps_id : id.Keeps room fun name => name.isValid = true := by
  refine keeps_within .id (keeps_bind keeps_anyId ?_)
  intro name hname
  exact keeps_build (a := ⟨name.kind, name.value⟩) (if_pos hname) hname

/-- The parts of a port never have a defect, and a lone word for a compass point is taken as
that compass point. -/
lemma exists_portOf {first : Id} (hfirst : first.isValid = true) (compass : Option Compass) :
    ∃ port, portOf first compass = .ok port ∧ port.isValid = true ∧ port.isClear = true := by
  cases compass with
  | some c => exact ⟨⟨some first, some c⟩, rfl, by simpa [Port.isValid, Port.isComplete], rfl⟩
  | none =>
    cases hc : Compass.ofWord? first.value with
    | none =>
      refine ⟨⟨some first, none⟩, ?_, by simpa [Port.isValid, Port.isComplete], ?_⟩
      · simp [portOf, hc, Port.make, Port.isComplete]
      · simp [Port.isClear, hc]
    | some c =>
      cases hk : first.kind with
      | plain =>
        refine ⟨⟨none, some c⟩, ?_, rfl, rfl⟩
        simp [portOf, hc, hk, Port.make, Port.isComplete]
      | quoted | html =>
        refine ⟨⟨some first, none⟩, ?_, by simpa [Port.isValid, Port.isComplete], ?_⟩
        · simp [portOf, hk, Port.make, Port.isComplete]
        · simp [Port.isClear, hk]

lemma keeps_port : port.Keeps room fun port => port.isValid = true ∧ port.isClear = true := by
  refine keeps_within .port (keeps_bind (keeps_punct (by decide)) fun _ _ => ?_)
  refine keeps_bind keeps_id fun first hfirst => ?_
  refine keeps_bind (keeps_optional (P := fun _ => True) ?_) fun compass _ => ?_
  · exact keeps_bind (keeps_punct (by decide)) fun _ _ => keeps_within .compass keeps_compassPoint
  · obtain ⟨port, hok, hport⟩ := exists_portOf hfirst compass
    exact keeps_build hok hport

lemma keeps_nodeId : nodeId.Keeps room fun node => node.isValid = true ∧ node.isClear = true := by
  refine keeps_within .nodeId (keeps_bind keeps_id fun name hname => ?_)
  refine keeps_bind (keeps_optional keeps_port) fun port hport => keeps_pure ?_
  cases port with
  | none => simpa [NodeId.isValid, NodeId.isClear] using hname
  | some port =>
    obtain ⟨hvalid, hclear⟩ := hport port rfl
    simp [NodeId.isValid, NodeId.isClear, hname, hvalid, hclear]

lemma keeps_assignment : assignment.Keeps room fun attr => attr.isValid = true := by
  refine keeps_within .assign (keeps_bind keeps_id fun key hkey => ?_)
  refine keeps_bind (keeps_punct (by decide)) fun _ _ => ?_
  refine keeps_bind keeps_id fun value hvalue => keeps_pure ?_
  simp [Attribute.isValid, hkey, hvalue]

lemma keeps_item : item.Keeps room fun attr => attr.isValid = true := by
  refine keeps_bind keeps_assignment fun attr hattr => ?_
  refine keeps_bind (keeps_optional (P := fun _ => True) ?_) fun _ _ => keeps_pure hattr
  exact keeps_orElse (keeps_punct (by decide)) (keeps_punct (by decide))

lemma keeps_attributeGroup :
    attributeGroup.Keeps room fun attrs => ∀ attr ∈ attrs, attr.isValid = true := by
  rw [attributeGroup_eq]
  refine keeps_bind (keeps_punct (by decide)) fun _ _ => ?_
  refine keeps_bind (keeps_many takes_item keeps_item) fun attrs hattrs => ?_
  exact keeps_bind (keeps_punct (by decide)) fun _ _ => keeps_pure hattrs

lemma keeps_attributeList :
    attributeList.Keeps room fun attrs => ∀ attr ∈ attrs, attr.isValid = true := by
  refine keeps_within .attributeList (keeps_bind keeps_attributeGroup fun first hfirst => ?_)
  refine keeps_bind (keeps_many takes_attributeGroup keeps_attributeGroup) fun others hothers => ?_
  refine keeps_pure ?_
  intro attr hattr
  rcases List.mem_append.1 hattr with h | h
  · exact hfirst attr h
  · obtain ⟨group, hgroup, h⟩ := List.mem_flatten.1 h
    exact hothers group hgroup attr h

lemma keeps_attributes :
    attributes.Keeps room fun attrs => ∀ attr ∈ attrs, attr.isValid = true := by
  refine keeps_bind (keeps_optional keeps_attributeList) fun attrs hattrs => keeps_pure ?_
  cases attrs with
  | none => simp
  | some attrs => exact hattrs attrs rfl

lemma keeps_defaultsFor (target : Target) :
    (defaultsFor target).Keeps room fun s => s.isValid = true ∧ s.isClear = true := by
  refine keeps_bind (keeps_keyword _) fun _ _ => ?_
  refine keeps_bind keeps_attributeList fun attrs hattrs => keeps_pure ?_
  exact ⟨by simpa [Statement.isValid] using hattrs, by simp [Statement.isClear]⟩

lemma keeps_defaults : defaults.Keeps room fun s => s.isValid = true ∧ s.isClear = true := by
  rw [defaults_eq]
  refine keeps_within .defaults (keeps_orElse (keeps_defaultsFor _) ?_)
  refine keeps_orElse (keeps_defaultsFor _) (keeps_orElse (keeps_defaultsFor _) ?_)
  exact keeps_firstOf_nil

/-! ## Attributes behind the word of a target -/

/-- A node reference without a port is a single token. -/
lemma eq_of_nodeId {why : Stop} {w rest : List Token} {name : Id} (hvalid : Token.areValid w)
    (h : nodeId.answer why w = .found ⟨name, none⟩ rest) : w = .id name :: rest := by
  unfold nodeId at h
  rw [answer_within] at h
  rcases w with _ | ⟨p | first, w⟩
  · rw [answer_bind_missing (answer_id_missing (by simp))] at h
    cases h
  · rw [answer_bind_missing (answer_id_missing (by simp))] at h
    cases h
  · have hfirst : first.isValid = true := hvalid (.id first) List.mem_cons_self
    rw [answer_bind_found (answer_id_cons hfirst w), answer_bind, answer_optional] at h
    cases hport : port.answer why w with
    | found port last => simp [hport] at h
    | missing =>
      simp only [hport, answer_pure, Answer.found.injEq, NodeId.mk.injEq, and_true] at h
      rw [h.1, h.2]
    | gaveUp cause => simp [hport] at h

/-- A vertex is a subgraph, or a node reference where no subgraph stands. -/
lemma found_of_vertex {body : Parser (List Statement)} [Uniform body] {why : Stop}
    {w rest : List Token} {v : Vertex} (h : (vertex body).answer why w = .found v rest) :
    (∃ group, v = .subgraph group ∧ (subgraph body).answer why w = .found group rest) ∨
      ∃ node, v = .node node ∧ (subgraph body).answer why w = .missing ∧
        nodeId.answer why w = .found node rest := by
  unfold vertex at h
  rw [answer_within, answer_firstOf_cons, answer_bind, answer_firstOf_cons, answer_bind] at h
  cases hgroup : (subgraph body).answer why w with
  | found group last =>
    simp only [hgroup, answer_pure, Answer.found.injEq] at h
    obtain ⟨rfl, rfl⟩ := h
    exact Or.inl ⟨group, rfl, rfl⟩
  | gaveUp cause => simp [hgroup] at h
  | missing =>
    cases hnode : nodeId.answer why w with
    | found node last =>
      simp only [hgroup, hnode, answer_pure, Answer.found.injEq] at h
      obtain ⟨rfl, rfl⟩ := h
      exact Or.inr ⟨node, rfl, rfl, rfl⟩
    | missing => simp [hgroup, hnode, answer_firstOf_cons] at h
    | gaveUp cause => simp [hgroup, hnode] at h

lemma missing_of_vertex {body : Parser (List Statement)} [Uniform body] {why : Stop}
    {w : List Token} (h : (vertex body).answer why w = .missing) :
    (subgraph body).answer why w = .missing ∧ nodeId.answer why w = .missing := by
  unfold vertex at h
  rw [answer_within, answer_firstOf_cons, answer_bind, answer_firstOf_cons, answer_bind] at h
  cases hgroup : (subgraph body).answer why w with
  | found group last => simp [hgroup] at h
  | gaveUp cause => simp [hgroup] at h
  | missing =>
    cases hnode : nodeId.answer why w with
    | found node last => simp [hgroup, hnode] at h
    | missing => exact ⟨rfl, rfl⟩
    | gaveUp cause => simp [hgroup, hnode] at h

lemma missing_of_orElse {α : Type} {p q : Parser α} [Uniform p] [Uniform q] {why : Stop}
    {w : List Token} (h : (orElse p q).answer why w = .missing) :
    p.answer why w = .missing ∧ q.answer why w = .missing := by
  rw [answer_orElse] at h
  cases hp : p.answer why w with
  | found a rest => simp [hp] at h
  | missing => exact ⟨rfl, by simpa [hp] using h⟩
  | gaveUp cause => simp [hp] at h

lemma defaultsFor_missing {why : Stop} {w : List Token} (h : defaults.answer why w = .missing)
    (target : Target) : (defaultsFor target).answer why w = .missing := by
  rw [defaults_eq, answer_within] at h
  obtain ⟨hgraph, h⟩ := missing_of_orElse h
  obtain ⟨hnode, h⟩ := missing_of_orElse h
  obtain ⟨hedge, -⟩ := missing_of_orElse h
  cases target with
  | graph => exact hgraph
  | node => exact hnode
  | edge => exact hedge

/-- Where no default attributes are read, no attributes follow the bare word of a target. -/
lemma attributes_of_defaults_missing {why : Stop} {rest : List Token} {target : Target}
    (h : defaults.answer why (.word target.word :: rest) = .missing) :
    attributes.answer why rest = .found [] rest := by
  have hfor := defaultsFor_missing h target
  unfold defaultsFor at hfor
  have hword : Token.only (.word target.keyword.word) (.word target.word) = some () :=
    Token.only_self _
  simp only [answer_bind, answer_keyword, Answer.take, hword, Option.elim_some] at hfor
  unfold attributes
  rw [answer_bind, answer_optional]
  cases hlist : attributeList.answer why rest with
  | found attrs last => simp [hlist] at hfor
  | missing => simp
  | gaveUp cause => simp [hlist] at hfor

lemma eq_of_targetWord? {node : NodeId} {target : Target} (h : node.targetWord? = some target) :
    node = ⟨⟨.plain, target.word⟩, none⟩ := by
  have hword := List.find?_some h
  simp only [NodeId.isWord, Bool.and_eq_true, Option.isNone_iff_eq_none, Id.isWord_iff] at hword
  obtain ⟨name, port⟩ := node
  rw [NodeId.mk.injEq]
  exact ⟨hword.2, hword.1⟩

lemma rest_eq_of_many_nil {α : Type} {p : Parser α} [Uniform p] (hp : p.Takes 1) {why : Stop}
    {w rest : List Token} (h : (many p).answer why w = .found [] rest) :
    p.answer why w = .missing ∧ rest = w := by
  rw [answer_many hp] at h
  cases hw : p.answer why w with
  | found a mid =>
    simp only [hw, answer_bind] at h
    cases hmid : (many p).answer why mid with
    | found as last => simp [hmid] at h
    | missing => simp [hmid] at h
    | gaveUp cause => simp [hmid] at h
  | missing =>
    simp only [hw, Answer.found.injEq, true_and] at h
    exact ⟨rfl, h.symm⟩
  | gaveUp cause => simp [hw] at h

/-! ## Statements, given a parser for bodies -/

section Statements

/-- The parser for bodies finds well-formed statements only. -/
def KeepsBodies (room : Nat) (body : Parser (List Statement)) : Prop :=
  body.Keeps room fun ss => ∀ s ∈ ss, s.isValid = true ∧ s.isClear = true

variable {body : Parser (List Statement)} [Uniform body]

lemma keeps_subgraph (hbody : KeepsBodies room body) :
    (subgraph body).Keeps room fun group => group.isValid = true ∧ group.isClear = true := by
  rw [subgraph_eq]
  refine keeps_within .subgraph (keeps_bind (keeps_optional (keeps_keyword _)) fun marked _ => ?_)
  refine keeps_bind (P := fun name => ∀ n ∈ name, n.isValid = true) ?_ fun name hname => ?_
  · exact keeps_elim (fun _ => keeps_pure (by simp)) fun _ _ => keeps_optional keeps_id
  · refine keeps_bind hbody fun ss hss => keeps_pure ?_
    have hvalid := Statement.areValid_iff.2 fun s hs => (hss s hs).1
    have hclear := Statement.areClear_iff.2 fun s hs => (hss s hs).2
    cases name with
    | none => simp [Subgraph.isValid, Subgraph.isClear, hvalid, hclear]
    | some n => simp [Subgraph.isValid, Subgraph.isClear, hvalid, hclear, hname n rfl]

lemma keeps_vertex (hbody : KeepsBodies room body) :
    (vertex body).Keeps room fun v => v.isValid = true ∧ v.isClear = true := by
  refine keeps_within .vertex (keeps_orElse ?_ (keeps_orElse ?_ ?_))
  · refine keeps_bind (keeps_subgraph hbody) fun group hgroup => keeps_pure ?_
    simpa [Vertex.isValid, Vertex.isClear] using hgroup
  · refine keeps_bind keeps_nodeId fun node hnode => keeps_pure ?_
    simpa [Vertex.isValid, Vertex.isClear] using hnode
  · exact keeps_orElse (keeps_expected _) keeps_firstOf_nil

lemma keeps_hop (hbody : KeepsBodies room body) :
    (hop body).Keeps room fun v => v.isValid = true ∧ v.isClear = true := by
  refine keeps_bind (P := fun _ => True) ?_ fun _ _ => keeps_vertex hbody
  exact keeps_orElse (keeps_punct (by decide)) (keeps_punct (by decide))

lemma keeps_hops (htakes : body.Takes 1) (hbody : KeepsBodies room body) :
    (hops body).Keeps room fun vs => ∀ v ∈ vs, v.isValid = true ∧ v.isClear = true :=
  keeps_within .edge (keeps_many (takes_hop htakes) (keeps_hop hbody))

/-- A node reference becomes a node or an attribute.  Attributes are only an obstacle behind
the bare word of a target, and there are none. -/
lemma sound_nodeOrAttribute {why : Stop} {w : List Token} {node : NodeId}
    (hvalid : Token.areValid w) (hnode : node.isValid = true ∧ node.isClear = true)
    (hword : ∀ target, node.targetWord? = some target → attributes.answer why w = .found [] w) :
    ((nodeOrAttribute node).answer why w).Sound room w
      fun s => s.isValid = true ∧ s.isClear = true := by
  rw [nodeOrAttribute_eq]
  have hassigned : (if node.port.isNone then optional (punct .equals) else pure none).Keeps room
      fun _ => True := by
    split
    · exact (keeps_optional (keeps_punct (by decide))).mono fun _ _ => trivial
    · exact keeps_pure trivial
  refine sound_bind (hassigned why w hvalid) ?_
  intro assigned rest hrest _ hsuffix
  have hvalid' : Token.areValid rest := hvalid.of_suffix hsuffix
  cases assigned with
  | some _ =>
    refine keeps_bind keeps_id (fun value hvalue => keeps_pure ?_) why rest hvalid'
    have hkey : node.id.isValid = true := by
      have := hnode.1
      simp only [NodeId.isValid, Bool.and_eq_true] at this
      exact this.1
    simp [Statement.isValid, Statement.isClear, Attribute.isValid, hkey, hvalue]
  | none =>
    -- without an equals sign nothing was taken
    have hsame : rest = w := by
      split at hrest
      · rw [answer_optional] at hrest
        cases hw : (punct .equals).answer why w <;> simp [hw] at hrest
        exact hrest.symm
      · rw [answer_pure] at hrest
        cases hrest
        rfl
    refine sound_bind (keeps_attributes why rest hvalid') ?_
    intro attrs last hlast hattrs _
    have hok : Statement.makeNode node attrs = .ok (.node node attrs) ∧
        (attrs.isEmpty || node.targetWord?.isNone) = true := by
      cases ht : node.targetWord? with
      | none => simp [Statement.makeNode, ht]
      | some target =>
        -- the only obstacle for the node: the word of a target, but then without attributes
        rw [hsame, hword target ht] at hlast
        cases hlast
        exact ⟨rfl, rfl⟩
    rw [hok.1, answer_build_ok]
    refine ⟨⟨?_, ?_⟩, List.suffix_rfl, le_refl _⟩
    · simp [Statement.isValid, hnode.1, List.all_eq_true.2 hattrs, hok.2]
    · simpa [Statement.isClear] using hnode.2

/-- Where no default attributes stand, a statement that starts with a vertex is well formed. -/
lemma sound_vertexStatement (htakes : body.Takes 1) (hbody : KeepsBodies room body)
    {why : Stop} {w : List Token} (hvalid : Token.areValid w)
    (hdefaults : defaults.answer why w = .missing) :
    ((vertexStatement body).answer why w).Sound room w
      fun s => s.isValid = true ∧ s.isClear = true := by
  rw [vertexStatement_eq]
  refine sound_bind (keeps_vertex hbody why w hvalid) ?_
  intro head mid hmid hhead hsuffix
  have hvalid' : Token.areValid mid := hvalid.of_suffix hsuffix
  refine sound_bind (keeps_hops htakes hbody why mid hvalid') ?_
  intro more rest hrest hmore hsuffix'
  have hvalid'' : Token.areValid rest := hvalid'.of_suffix hsuffix'
  cases more with
  | nil =>
    cases head with
    | subgraph group =>
      refine sound_pure ?_ why rest
      simpa [Statement.isValid, Statement.isClear, Vertex.isValid, Vertex.isClear] using hhead
    | node node =>
      refine sound_nodeOrAttribute hvalid''
        (by simpa [Vertex.isValid, Vertex.isClear] using hhead) ?_
      intro target htarget
      obtain rfl := eq_of_targetWord? htarget
      rw [hops, answer_within] at hrest
      obtain ⟨-, rfl⟩ := rest_eq_of_many_nil (takes_hop htakes) hrest
      obtain ⟨group, hgroup, -⟩ | ⟨other, hother, -, hnode⟩ := found_of_vertex hmid
      · cases hgroup
      · cases hother
        -- default attributes were tried on the same word before and missed
        rw [eq_of_nodeId hvalid hnode] at hdefaults
        exact attributes_of_defaults_missing hdefaults
  | cons next more =>
    refine keeps_bind keeps_attributes (fun attrs hattrs => ?_) why rest hvalid''
    have hchain : ∀ v ∈ head :: next :: more, v.isValid = true ∧ v.isClear = true :=
      List.forall_mem_cons.2 ⟨hhead, hmore⟩
    refine keeps_build (a := .edge (head :: next :: more) attrs) (if_pos (by simp)) ⟨?_, ?_⟩
    · have hvalid := Vertex.areValid_iff.2 fun v hv => (hchain v hv).1
      simp [Statement.isValid, hvalid, List.all_eq_true.2 hattrs]
    · rw [Statement.isClear]
      exact Vertex.areClear_iff.2 fun v hv => (hchain v hv).2

lemma keeps_statement (htakes : body.Takes 1) (hbody : KeepsBodies room body) :
    (statement body).Keeps room fun s => s.isValid = true ∧ s.isClear = true := by
  refine keeps_within .statement ?_
  intro why w hvalid
  have hw := @keeps_defaults room why w hvalid
  rw [answer_orElse]
  cases hr : defaults.answer why w with
  | missing => exact sound_vertexStatement htakes hbody hvalid hr
  | found s rest =>
    rw [hr] at hw
    exact hw
  | gaveUp cause =>
    rw [hr] at hw
    exact hw

lemma keeps_terminated (htakes : body.Takes 1) (hbody : KeepsBodies room body) :
    (terminated body).Keeps room fun s => s.isValid = true ∧ s.isClear = true := by
  refine keeps_bind (keeps_statement htakes hbody) fun s hs => ?_
  exact keeps_bind (keeps_optional (keeps_punct (by decide))) fun _ _ => keeps_pure hs

end Statements

/-! ## Bodies and documents -/

/-- Between braces the nesting is one deeper. -/
lemma keeps_braced {α : Type} {P : α → Prop} {p : Parser α} [Uniform p] (hp : p.Keeps room P) :
    (openBody >>= fun _ => p >>= fun a => punct .closeBrace >>= fun _ => pure a).Keeps
      (room + 1) P := by
  intro why w hvalid
  rw [answer_bind, answer_openBody]
  rcases w with _ | ⟨tok, w⟩
  · trivial
  by_cases htok : tok = .punct .openBrace
  · subst htok
    have hw := hp why w (hvalid.of_suffix (List.suffix_cons _ w))
    simp only [Answer.take, Token.only_self, Option.elim_some, answer_bind]
    cases hr : p.answer why w with
    | missing => trivial
    | gaveUp cause =>
      rw [hr] at hw
      -- the opening brace makes up for the room that the inner parser lacks
      obtain ⟨hcause, hroom⟩ := hw
      refine ⟨hcause, ?_⟩
      simp only [Token.nesting]
      omega
    | found a mid =>
      rw [hr] at hw
      obtain ⟨ha, hsuffix, hnest⟩ := hw
      simp only [answer_punct, answer_pure]
      rcases mid with _ | ⟨close, rest⟩
      · trivial
      by_cases hclose : close = .punct .closeBrace
      · -- the closing brace gives back the level that the opening brace took
        subst hclose
        simp only [Answer.take, Token.only_self, Option.elim_some]
        refine ⟨ha, ((List.suffix_cons _ rest).trans hsuffix).trans (List.suffix_cons _ w), ?_⟩
        simp only [Token.nesting] at hnest ⊢
        omega
      · simp [Answer.take, Token.only_of_ne hclose, Answer.Sound]
  · simp [Answer.take, Token.only_of_ne htok, Answer.Sound]

/-- What is read as a body is well formed, and giving up means that the tokens nest too
deeply. -/
theorem keeps_body (room : Nat) : KeepsBodies room (body room) := by
  induction room with
  | zero =>
    refine keeps_within .body ?_
    intro why w _
    rw [answer_bind, answer_openBody]
    rcases w with _ | ⟨tok, w⟩
    · trivial
    by_cases htok : tok = .punct .openBrace
    · subst htok
      simp only [Answer.take, Token.only_self, Option.elim_some, answer_gaveUp]
      exact ⟨rfl, by simp [Token.nesting]⟩
    · simp [Answer.take, Token.only_of_ne htok, Answer.Sound]
  | succ room ih =>
    have htakes := takes_body room
    exact keeps_within .body
      (keeps_braced (keeps_many (takes_terminated htakes) (keeps_terminated htakes ih)))

lemma keeps_finished : finished.Keeps room fun _ => True := by
  intro why w _
  rw [answer_finished]
  split
  · rename_i h
    rw [h.1]
    exact ⟨trivial, List.suffix_rfl, le_refl _⟩
  · trivial

lemma keeps_graph :
    graph.Keeps maxNesting fun g => g.isValid = true ∧ g.isClear = true := by
  refine keeps_within .graph (keeps_bind (keeps_optional (keeps_keyword _)) fun strict _ => ?_)
  refine keeps_bind (P := fun _ => True) (keeps_orElse ?_ ?_) fun directed _ => ?_
  · exact keeps_bind (keeps_keyword _) fun _ _ => keeps_pure trivial
  · exact keeps_bind (keeps_keyword _) fun _ _ => keeps_pure trivial
  refine keeps_bind (keeps_optional keeps_id) fun name hname => ?_
  refine keeps_bind (keeps_body maxNesting) fun ss hss => keeps_pure ?_
  have hvalid := Statement.areValid_iff.2 fun s hs => (hss s hs).1
  have hclear := Statement.areClear_iff.2 fun s hs => (hss s hs).2
  cases name with
  | none => simp [Graph.isValid, Graph.isClear, hvalid, hclear]
  | some n => simp [Graph.isValid, Graph.isClear, hvalid, hclear, hname n rfl]

lemma keeps_file : file.Keeps maxNesting fun g => g.isValid = true ∧ g.isClear = true := by
  refine keeps_within .file (keeps_bind keeps_graph fun g hg => ?_)
  exact keeps_bind keeps_finished fun _ _ => keeps_pure hg

lemma keeps_fragment : fragment.Keeps maxNesting fun s => s.isValid = true ∧ s.isClear = true := by
  have hterminated := keeps_terminated (takes_body maxNesting) (keeps_body maxNesting)
  refine keeps_within .fragment (keeps_bind hterminated fun s hs => ?_)
  exact keeps_bind keeps_finished fun _ _ => keeps_pure hs

end Grammar

/-! ## Whole texts -/

/-- All tokens of a text are written as they are meant. -/
lemma Tokens.areValid_ofText (source : Text) : Token.areValid (ofText source).toList :=
  isValid_of_mem_scanFrom source 0

/-- Applied to a whole text, a parser that answers soundly finds something with the property,
or it misses, or the text nests too deeply. -/
lemma Parser.Keeps.run {α : Type} {p : Parser α} [p.Uniform] {room : Nat} {P : α → Prop}
    (hp : p.Keeps room P) (source : Text) :
    (∃ a rest, (p.run source).reply = .found a rest ∧ P a) ∨ (p.run source).reply = .missing ∨
      (p.run source).reply = .gaveUp .tooDeep ∧ room < source.nesting := by
  have hsound := hp (Tokens.ofText source).why _ (Tokens.areValid_ofText source)
  have hmatch := p.run_eq source
  generalize (p.run source).reply = reply at hmatch ⊢
  generalize p.answer (Tokens.ofText source).why (Tokens.ofText source).toList = a at hmatch hsound
  cases hmatch with
  | found a rest _ => exact Or.inl ⟨a, rest, rfl, hsound.1⟩
  | missing => exact Or.inr (Or.inl rfl)
  | gaveUp cause =>
    obtain ⟨rfl, hnest⟩ := hsound
    exact Or.inr (Or.inr ⟨rfl, hnest⟩)

/-- Reading a text never builds a part with a defect.  Either it ends with an error, or it gives
a tree that is well formed and in which every port is clear. -/
theorem reads_only_valid (source : Text) :
    (∀ defect, (Grammar.file.run source).reply ≠ .gaveUp (.invalid defect)) ∧
    (∀ defect, (Grammar.fragment.run source).reply ≠ .gaveUp (.invalid defect)) ∧
    (∀ g, Graph.parse source = .ok g → g.isValid = true ∧ g.isClear = true) ∧
    (∀ s, Statement.parse source = .ok s → s.isValid = true ∧ s.isClear = true) := by
  have hfile := Grammar.keeps_file.run source
  have hfragment := Grammar.keeps_fragment.run source
  refine ⟨?_, ?_, ?_, ?_⟩
  · intro defect h
    rw [h] at hfile
    rcases hfile with ⟨a, rest, hr, -⟩ | hr | ⟨hr, -⟩ <;> cases hr
  · intro defect h
    rw [h] at hfragment
    rcases hfragment with ⟨a, rest, hr, -⟩ | hr | ⟨hr, -⟩ <;> cases hr
  · intro g h
    rw [Graph.parse, Outcome.result] at h
    rcases hfile with ⟨a, rest, hr, ha⟩ | hr | ⟨hr, -⟩ <;> rw [hr] at h <;> cases h
    exact ha
  · intro s h
    rw [Statement.parse, Outcome.result] at h
    rcases hfragment with ⟨a, rest, hr, ha⟩ | hr | ⟨hr, -⟩ <;> rw [hr] at h <;> cases h
    exact ha

lemma Graph.exists_of_isOk {source : Text} (h : (Graph.parse source).isOk = true) :
    ∃ g, Graph.parse source = .ok g := by
  cases hparse : Graph.parse source with
  | ok g => exact ⟨g, rfl⟩
  | error e =>
    rw [hparse] at h
    cases h

/-- Words of targets as vertices, with ports and attributes behind them. -/
theorem reads_only_valid_target_words :
    ∃ g, Graph.parse
        "graph \x7b node:n -- edge:x:_ [a=\"b\"] node; node [c=<d>] \x7d".toList = .ok g ∧
      g.isValid = true ∧ g.isClear = true := by
  obtain ⟨g, hg⟩ := Graph.exists_of_isOk (by decide +kernel :
    (Graph.parse
      "graph \x7b node:n -- edge:x:_ [a=\"b\"] node; node [c=<d>] \x7d".toList).isOk = true)
  exact ⟨g, hg, (reads_only_valid _).2.2.1 g hg⟩

end DotNotation
