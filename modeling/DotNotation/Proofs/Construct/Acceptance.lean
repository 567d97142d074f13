/-
# What the constructors accept

Every tree can be written as a term that builds it from its leaves up, by one call of a
constructor for each part.  Each constructor looks only at the part that it builds, and a call
whose arguments fail fails with them.  The main result is

* `Graph.builds_term`: the term of a graph has the graph for its value when every part of the
  graph is well formed, and ends with a fault otherwise.
-/
import DotNotation.Construct.Term
import DotNotation.Proofs.Syntax.Shape

namespace DotNotation

/-! ## The terms of trees -/

namespace Term

/-- A call of a function with arguments by position. -/
def apply (f : Function) (args : List Term) : Term := call f args []

/-- The term of a part that may be absent. -/
def option {α : Type} (f : α → Term) : Option α → Term
  | some a => f a
  | none => value .absent

end Term

/-- The term of an identifier. -/
def Id.term (name : Id) : Term :=
  .apply .exactId [.value (.member name.kind.member), .value (.text name.value)]

/-- The term of a port. -/
def Port.term (p : Port) : Term :=
  .apply .exactPort [.option Id.term p.id, .option (fun c => .value (.member c.member)) p.compass]

/-- The term of a node reference. -/
def NodeId.term (n : NodeId) : Term :=
  .apply .exactNodeId [n.id.term, .option Port.term n.port]

/-- The term of an attribute. -/
def Attribute.term (a : Attribute) : Term := .apply .exactAttribute [a.key.term, a.value.term]

mutual

/-- The term of a subgraph. -/
def Subgraph.term : Subgraph → Term
  | .mk id body => .apply .exactSubgraph [.option Id.term id, .list (Statement.terms body)]

/-- The term of a statement. -/
def Statement.term : Statement → Term
  | .node ref attrs => .apply .exactNode [ref.term, .list (attrs.map Attribute.term)]
  | .edge chain attrs =>
    .apply .exactEdge [.list (Vertex.terms chain), .list (attrs.map Attribute.term)]
  | .subgraph group => group.term
  | .assign attr => attr.term
  | .defaults target attrs =>
    .apply .exactDefaults [.value (.member target.member), .list (attrs.map Attribute.term)]

/-- The terms of statements. -/
def Statement.terms : List Statement → List Term
  | [] => []
  | s :: rest => s.term :: Statement.terms rest

/-- The term of a vertex. -/
def Vertex.term : Vertex → Term
  | .node id => id.term
  | .subgraph group => group.term

/-- The terms of vertices. -/
def Vertex.terms : List Vertex → List Term
  | [] => []
  | v :: rest => v.term :: Vertex.terms rest

end

/-- The term of a graph. -/
def Graph.term (g : Graph) : Term :=
  .apply .exactGraph [.value (.bool g.strict), .value (.bool g.directed), .option Id.term g.id,
    .list (Statement.terms g.body)]

/-! ## Results that a check decides -/

/-- The result is the value if the check passes, and a fault otherwise. -/
structure Built.Decides {α : Type} (result : Built α) (check : Bool) (a : α) : Prop where
  /-- What holds if the check passes. -/
  ok : check = true → result = .ok a
  /-- What holds if it does not. -/
  fault : check = false → ∃ cause, result = .error cause

section Decides

variable {α β : Type} {result : Built α} {check other : Bool} {a : α}

lemma decides_ok (a : α) : Built.Decides (.ok a) true a := ⟨fun _ => rfl, nofun⟩

/-- A sequence passes both checks or ends with a fault. -/
lemma Built.Decides.bind {f : α → Built β} {b : β} (h : result.Decides check a)
    (hf : check = true → (f a).Decides other b) :
    Built.Decides (result >>= f) (check && other) b := by
  cases check with
  | true =>
    rw [h.ok rfl]
    exact hf rfl
  | false =>
    obtain ⟨cause, hcause⟩ := h.fault rfl
    rw [hcause]
    exact ⟨nofun, fun _ => ⟨cause, rfl⟩⟩

lemma Built.Decides.map {b : β} {f : α → β} (h : result.Decides check a) (hb : f a = b) :
    Built.Decides (result >>= fun a => pure (f a)) check b := by
  have hbind : Built.Decides (result >>= fun a => pure (f a)) (check && true) b := by
    refine h.bind fun _ => ?_
    rw [hb]
    exact decides_ok b
  rwa [Bool.and_true] at hbind

/-- There is a result exactly if the check passes. -/
lemma Built.Decides.exists_ok_iff (h : result.Decides check a) :
    (∃ b, result = .ok b) ↔ check = true := by
  cases check with
  | true => exact ⟨fun _ => rfl, fun _ => ⟨a, h.ok rfl⟩⟩
  | false =>
    obtain ⟨cause, hcause⟩ := h.fault rfl
    simp [hcause]

lemma Built.Decides.congr (h : result.Decides check a) (hcheck : check = other) :
    result.Decides other a := hcheck ▸ h

end Decides

namespace Term

variable {bindings : Bindings} {f : Function}

/-- The values of one term after another. -/
lemma decides_cons {t : Term} {ts : List Term} {check checks : Bool} {v : Value} {vs : List Value}
    (h : (t.eval bindings).Decides check v) (hs : (evalAll bindings ts).Decides checks vs) :
    (evalAll bindings (t :: ts)).Decides (check && checks) (v :: vs) := by
  rw [evalAll]
  exact h.bind fun _ => hs.map rfl

lemma decides_nil : (evalAll bindings []).Decides true [] := by
  rw [evalAll]
  exact decides_ok []

lemma decides_list {ts : List Term} {check : Bool} {vs : List Value}
    (h : (evalAll bindings ts).Decides check vs) :
    ((list ts).eval bindings).Decides check (.list vs) := by
  rw [eval]
  exact h.map rfl

lemma decides_value (v : Value) : ((value v).eval bindings).Decides true v := by
  rw [eval]
  exact decides_ok v

lemma decides_map {α : Type} {term : α → Term} {check : α → Bool} {v : α → Value}
    (h : ∀ a, ((term a).eval bindings).Decides (check a) (v a)) (as : List α) :
    (evalAll bindings (as.map term)).Decides (as.all check) (as.map v) := by
  induction as with
  | nil => exact decides_nil
  | cons a as ih => exact decides_cons (h a) ih

lemma decides_option {α : Type} {term : α → Term} {check : α → Bool} {v : α → Value}
    (h : ∀ a, ((term a).eval bindings).Decides (check a) (v a)) (o : Option α) :
    ((option term o).eval bindings).Decides (o.all check) (optionValue v o) := by
  cases o with
  | none => exact decides_value .absent
  | some a => exact h a

/-- A call passes the checks of its arguments and its own, or ends with a fault. -/
lemma decides_apply {args : List Term} {check other : Bool} {vs : List Value} {v : Value}
    (h : (evalAll bindings args).Decides check vs) (hf : (f.apply ⟨vs, []⟩).Decides other v) :
    ((apply f args).eval bindings).Decides (check && other) v := by
  rw [apply, eval]
  refine h.bind fun _ => ?_
  rw [evalNamed]
  exact hf

lemma decides_apply_two {first second : Term} {check check' other : Bool} {u u' v : Value}
    (h : (first.eval bindings).Decides check u) (h' : (second.eval bindings).Decides check' u')
    (hf : (f.apply ⟨[u, u'], []⟩).Decides other v) :
    ((apply f [first, second]).eval bindings).Decides (check && check' && other) v := by
  have hall := decides_apply (decides_cons h (decides_cons h' decides_nil)) hf
  rwa [Bool.and_true] at hall

end Term

/-! ## Parts without a body -/

section Parts

variable (bindings : Bindings)

lemma Id.builds_term (name : Id) :
    (name.term.eval bindings).Decides name.isValid name.toValue := by
  obtain ⟨kind, v⟩ := name
  -- the constructor makes the check for the way in which the identifier is written
  have happly : Function.exactId.apply ⟨[.member kind.member, .text v], []⟩ =
      Built.checked (Id.make kind v) >>= fun name => pure name.toValue := by
    cases kind <;> rfl
  have hmake : (Built.checked (Id.make kind v)).Decides (Id.isValid ⟨kind, v⟩) ⟨kind, v⟩ := by
    unfold Id.make
    by_cases hvalid : (⟨kind, v⟩ : Id).isValid = true
    · rw [if_pos hvalid, hvalid]
      exact decides_ok _
    · rw [if_neg hvalid, Bool.eq_false_iff.2 hvalid]
      refine ⟨nofun, fun _ => ?_⟩
      cases kind <;> exact ⟨_, rfl⟩
  refine Term.decides_apply_two (Term.decides_value _) (Term.decides_value _) ?_
  rw [happly]
  exact hmake.map rfl

lemma Port.builds_term (p : Port) : (p.term.eval bindings).Decides p.isValid p.toValue := by
  obtain ⟨name, compass⟩ := p
  have hcompass : ((Term.option (fun c : Compass => .value (.member c.member)) compass).eval
      bindings).Decides (compass.all fun _ => true)
        (optionValue (fun c => .member c.member) compass) :=
    Term.decides_option (fun c => Term.decides_value _) compass
  have hmake : (Function.exactPort.apply ⟨[optionValue Id.toValue name,
      optionValue (fun c => .member c.member) compass], []⟩).Decides
        (Port.isComplete ⟨name, compass⟩) (Port.toValue ⟨name, compass⟩) := by
    cases name <;> cases compass
    · exact ⟨nofun, fun _ => ⟨_, rfl⟩⟩
    · exact decides_ok _
    · exact decides_ok _
    · exact decides_ok _
  refine (Term.decides_apply_two (Term.decides_option (Id.builds_term bindings) name) hcompass
    hmake).congr ?_
  cases compass <;> simp [Port.isValid, Bool.and_comm]

lemma NodeId.builds_term (n : NodeId) : (n.term.eval bindings).Decides n.isValid n.toValue := by
  have hmake : (Function.exactNodeId.apply ⟨[n.id.toValue, optionValue Port.toValue n.port],
      []⟩).Decides true n.toValue := decides_ok _
  exact (Term.decides_apply_two (Id.builds_term bindings n.id)
    (Term.decides_option (Port.builds_term bindings) n.port) hmake).congr (Bool.and_true _)

lemma Attribute.builds_term (a : Attribute) :
    (a.term.eval bindings).Decides a.isValid a.toValue := by
  have hmake : (Function.exactAttribute.apply ⟨[a.key.toValue, a.value.toValue], []⟩).Decides
      true a.toValue := decides_ok _
  exact (Term.decides_apply_two (Id.builds_term bindings a.key)
    (Id.builds_term bindings a.value) hmake).congr (Bool.and_true _)

lemma Attribute.builds_terms (attrs : List Attribute) :
    ((Term.list (attrs.map Attribute.term)).eval bindings).Decides (attrs.all Attribute.isValid)
      (.list (attrs.map Attribute.toValue)) :=
  Term.decides_list (Term.decides_map (Attribute.builds_term bindings) attrs)

end Parts

/-! ## The checks of statements -/

namespace Value

lemma allOf_eq_ok {wanted : Wanted} {test : Value → Bool} {vs : List Value}
    (h : ∀ v ∈ vs, test v = true) : allOf wanted test vs = .ok vs := by
  have hnone : vs.find? (fun v => !test v) = none := by
    rw [List.find?_eq_none]
    intro v hv
    simp [h v hv]
  rw [allOf, hnone]

lemma attributes_toValue (attrs : List Attribute) :
    attributes (attrs.map Attribute.toValue) = .ok (attrs.map Attribute.toValue) := by
  refine allOf_eq_ok fun v hv => ?_
  obtain ⟨a, -, rfl⟩ := List.mem_map.1 hv
  rfl

end Value

lemma Statement.isStatement_toValue (s : Statement) : s.toValue.isStatement = true := by
  cases s with
  | subgraph group =>
    cases group
    simp [Statement.toValue, Subgraph.toValue, Value.isStatement]
  | _ => simp [Statement.toValue, Attribute.toValue, Value.isStatement]

lemma Statement.statements_toValues (body : List Statement) :
    Value.statements (Statement.toValues body) = .ok (Statement.toValues body) := by
  refine Value.allOf_eq_ok ?_
  induction body with
  | nil => simp [Statement.toValues]
  | cons s body ih =>
    rw [Statement.toValues]
    exact List.forall_mem_cons.2 ⟨s.isStatement_toValue, ih⟩

lemma Vertex.isVertex_toValues (chain : List Vertex) :
    ∀ v ∈ Vertex.toValues chain, v.isVertex = true := by
  induction chain with
  | nil => simp [Vertex.toValues]
  | cons v chain ih =>
    rw [Vertex.toValues]
    refine List.forall_mem_cons.2 ⟨?_, ih⟩
    cases v with
    | node ref => simp [Vertex.toValue, NodeId.toValue, Value.isVertex]
    | subgraph group =>
      cases group
      simp [Vertex.toValue, Subgraph.toValue, Value.isVertex]

lemma Vertex.length_toValues (chain : List Vertex) :
    (Vertex.toValues chain).length = chain.length := by
  induction chain with
  | nil => simp [Vertex.toValues]
  | cons v chain ih => simp [Vertex.toValues, ih]

/-- The word of a target that names a node is found where the tree says. -/
lemma NodeId.bareWord?_toValue (ref : NodeId) :
    ∃ word, ref.toValue.bareWord? = .ok word ∧
      (word.bind Target.ofWord?).isSome = ref.targetWord?.isSome := by
  obtain ⟨⟨kind, v⟩, port⟩ := ref
  have hnone : ∀ {p : Target → Bool}, (∀ t, p t = false) → (Target.all.find? p).isSome = false := by
    intro p hp
    simp [hp]
  cases port with
  | some place =>
    refine ⟨none, rfl, (hnone fun t => ?_).symm⟩
    simp [NodeId.isWord]
  | none =>
    cases kind with
    | plain =>
      refine ⟨some v, rfl, ?_⟩
      simp only [Option.bind_some, Target.ofWord?, NodeId.targetWord?]
      congr 2
      funext t
      simp [NodeId.isWord, Id.isWord, Bool.beq_comm]
    | quoted =>
      refine ⟨none, rfl, (hnone fun t => ?_).symm⟩
      simp [NodeId.isWord, Id.isWord]
    | html =>
      refine ⟨none, rfl, (hnone fun t => ?_).symm⟩
      simp [NodeId.isWord, Id.isWord]

lemma Statement.makeNode_toValue (ref : NodeId) (attrs : List Attribute) :
    (Value.makeNode ref.toValue (attrs.map Attribute.toValue)).Decides
      (attrs.isEmpty || ref.targetWord?.isNone)
      (.node ref.toValue (attrs.map Attribute.toValue)) := by
  obtain ⟨word, hword, hsome⟩ := ref.bareWord?_toValue
  rw [Value.makeNode, Value.attributes_toValue]
  cases attrs with
  | nil => exact decides_ok _
  | cons a attrs =>
    show Built.Decides (ref.toValue.bareWord? >>= _) _ _
    rw [hword]
    -- only the word of a target is an obstacle to attributes
    cases word with
    | none =>
      have hnone : ref.targetWord? = none := by simpa using hsome
      rw [hnone]
      exact decides_ok _
    | some w =>
      rw [Option.bind_some] at hsome
      show Built.Decides (if (Target.ofWord? w).isSome then _ else _) _ _
      rw [hsome]
      cases ref.targetWord? with
      | none => exact decides_ok _
      | some target => exact ⟨nofun, fun _ => ⟨_, rfl⟩⟩

lemma Statement.makeEdge_toValue (chain : List Vertex) (attrs : List Attribute) :
    (Value.makeEdge (Vertex.toValues chain) (.ok (attrs.map Attribute.toValue))).Decides
      (decide (2 ≤ chain.length))
      (.edge (Vertex.toValues chain) (attrs.map Attribute.toValue)) := by
  have hvertices : Value.allOf .vertex Value.isVertex (Vertex.toValues chain) =
      .ok (Vertex.toValues chain) := Value.allOf_eq_ok (Vertex.isVertex_toValues chain)
  unfold Value.makeEdge
  rw [hvertices, Vertex.length_toValues]
  by_cases hlength : 2 ≤ chain.length
  · rw [decide_eq_true hlength, if_neg (by omega)]
    show Built.Decides (Value.attributes _ >>= _) _ _
    rw [Value.attributes_toValue]
    exact decides_ok _
  · rw [decide_eq_false hlength, if_pos (by omega)]
    exact ⟨nofun, fun _ => ⟨_, rfl⟩⟩

/-! ## Parts with a body -/

section Bodies

variable (bindings : Bindings)

mutual

lemma Subgraph.builds_term : ∀ group : Subgraph,
    (group.term.eval bindings).Decides group.isValid group.toValue
  | .mk name body => by
    have hname := Term.decides_option (Id.builds_term bindings) name
    have hbody := Term.decides_list (Statement.builds_terms body)
    have hmake : (Function.exactSubgraph.apply ⟨[optionValue Id.toValue name,
        .list (Statement.toValues body)], []⟩).Decides true
          (.subgraph (optionValue Id.toValue name) (Statement.toValues body)) := by
      show Built.Decides (Value.statements _ >>= _) _ _
      rw [Statement.statements_toValues]
      exact decides_ok _
    rw [Subgraph.term, Subgraph.isValid, Subgraph.toValue]
    exact (Term.decides_apply_two hname hbody hmake).congr (Bool.and_true _)

lemma Statement.builds_term : ∀ s : Statement,
    (s.term.eval bindings).Decides s.isValid s.toValue
  | .node ref attrs => by
    have hmake : (Function.exactNode.apply ⟨[ref.toValue, .list (attrs.map Attribute.toValue)],
        []⟩).Decides (attrs.isEmpty || ref.targetWord?.isNone)
          (.node ref.toValue (attrs.map Attribute.toValue)) :=
      Statement.makeNode_toValue ref attrs
    rw [Statement.term, Statement.isValid, Statement.toValue]
    exact Term.decides_apply_two (ref.builds_term bindings)
      (Attribute.builds_terms bindings attrs) hmake
  | .edge chain attrs => by
    have hchain := Term.decides_list (Vertex.builds_terms chain)
    have hmake : (Function.exactEdge.apply ⟨[.list (Vertex.toValues chain),
        .list (attrs.map Attribute.toValue)], []⟩).Decides (decide (2 ≤ chain.length))
          (.edge (Vertex.toValues chain) (attrs.map Attribute.toValue)) :=
      Statement.makeEdge_toValue chain attrs
    rw [Statement.term, Statement.isValid, Statement.toValue]
    refine (Term.decides_apply_two hchain (Attribute.builds_terms bindings attrs) hmake).congr ?_
    rw [Bool.and_comm, Bool.and_assoc]
  | .subgraph group => by
    rw [Statement.term, Statement.isValid, Statement.toValue]
    exact Subgraph.builds_term group
  | .assign attr => by
    rw [Statement.term, Statement.isValid, Statement.toValue]
    exact attr.builds_term bindings
  | .defaults target attrs => by
    have hmake : (Function.exactDefaults.apply ⟨[.member target.member,
        .list (attrs.map Attribute.toValue)], []⟩).Decides true
          (.defaults (.member target.member) (attrs.map Attribute.toValue)) := by
      show Built.Decides (Value.attributes _ >>= _) _ _
      rw [Value.attributes_toValue]
      exact decides_ok _
    rw [Statement.term, Statement.isValid, Statement.toValue]
    exact (Term.decides_apply_two (Term.decides_value _) (Attribute.builds_terms bindings attrs)
      hmake).congr (by simp)

lemma Statement.builds_terms : ∀ body : List Statement,
    (Term.evalAll bindings (Statement.terms body)).Decides (Statement.areValid body)
      (Statement.toValues body)
  | [] => by
    rw [Statement.terms, Statement.areValid, Statement.toValues]
    exact Term.decides_nil
  | s :: rest => by
    rw [Statement.terms, Statement.areValid, Statement.toValues]
    exact Term.decides_cons (Statement.builds_term s) (Statement.builds_terms rest)

lemma Vertex.builds_term : ∀ v : Vertex, (v.term.eval bindings).Decides v.isValid v.toValue
  | .node ref => by
    rw [Vertex.term, Vertex.isValid, Vertex.toValue]
    exact ref.builds_term bindings
  | .subgraph group => by
    rw [Vertex.term, Vertex.isValid, Vertex.toValue]
    exact Subgraph.builds_term group

lemma Vertex.builds_terms : ∀ chain : List Vertex,
    (Term.evalAll bindings (Vertex.terms chain)).Decides (Vertex.areValid chain)
      (Vertex.toValues chain)
  | [] => by
    rw [Vertex.terms, Vertex.areValid, Vertex.toValues]
    exact Term.decides_nil
  | v :: rest => by
    rw [Vertex.terms, Vertex.areValid, Vertex.toValues]
    exact Term.decides_cons (Vertex.builds_term v) (Vertex.builds_terms rest)

end

/-- The constructors build a graph when every part of it is well formed, and only then. -/
theorem Graph.builds_term (g : Graph) :
    (g.term.eval bindings).Decides g.isValid g.toValue := by
  have hbody := Term.decides_list (Statement.builds_terms bindings g.body)
  have hnamed := Term.decides_cons (Term.decides_option (Id.builds_term bindings) g.id)
    (Term.decides_cons hbody Term.decides_nil)
  have hargs := Term.decides_cons (Term.decides_value (.bool g.strict))
    (Term.decides_cons (Term.decides_value (.bool g.directed)) hnamed)
  have hmake : (Function.exactGraph.apply ⟨[.bool g.strict, .bool g.directed,
      optionValue Id.toValue g.id, .list (Statement.toValues g.body)], []⟩).Decides true
        g.toValue := by
    show Built.Decides (Value.statements _ >>= _) _ _
    rw [Statement.statements_toValues]
    exact decides_ok _
  refine (Term.decides_apply hargs hmake).congr ?_
  simp [Graph.isValid]

end Bodies

end DotNotation
