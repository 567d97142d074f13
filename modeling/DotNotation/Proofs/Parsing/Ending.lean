/-
# How statements end before a body

The last tokens of a statement tell whether a body behind it is announced.  A statement that ends
with the word for a subgraph, where a vertex can stand, is not followed by a body or by a name and a
body: they would have been read as that subgraph.  `Token.Ends` is this property of the tokens of a
statement and those behind it, and `Token.Context` is what follows for the tokens in front of the
next statement.
-/
import DotNotation.Proofs.Parsing.Openings

namespace DotNotation

namespace Token

/-- A body, or a name and a body. -/
def StartsBlock (w : List Token) : Prop :=
  ∃ (name : Option Id) (inside : List Token), w = ofName name ++ .punct .openBrace :: inside

/-- How the tokens of a statement end before the tokens `w`. -/
inductive Ends (w : List Token) : List Token → Prop
  /-- with a bracket, a brace or a semicolon -/
  | punct (v : List Token) {p : Punct} (hequals : p ≠ .equals) (hcolon : p ≠ .colon) :
      Ends w (v ++ [.punct p])
  /-- with a value or a part of a port -/
  | part (v : List Token) {p : Punct} (hp : p = .equals ∨ p = .colon) (name : Id) :
      Ends w (v ++ [.punct p, .id name])
  /-- with the name of a node, which does not announce a body -/
  | node (v : List Token) (name : Id) (hv : ∀ other, v.getLast? ≠ some (.id other))
      (hname : Token.id name = .word Keyword.subgraph.word → ¬ StartsBlock w) :
      Ends w (v ++ [.id name])

/-- The tokens continue a statement in such a way that it ends before the tokens `w`. -/
def Extends (w u : List Token) : Prop := u = [] ∨ ∃ p u', u = .punct p :: u' ∧ Ends w u

/-- The tokens `c` stand in a body in front of a statement that starts with the tokens `w`.  If a
body comes first, then it is not announced. -/
structure Context (c w : List Token) : Prop where
  fits : FitsVertex c
  body : ∀ inside, w = .punct .openBrace :: inside → ¬ Announces c
  named : ∀ name inside, w = .id name :: .punct .openBrace :: inside → ¬ Marks c

section Ends

variable {u v w c : List Token} {p : Punct}

lemma startsBlock_body (inside : List Token) : StartsBlock (.punct .openBrace :: inside) :=
  ⟨none, inside, rfl⟩

lemma startsBlock_named (name : Id) (inside : List Token) :
    StartsBlock (.id name :: .punct .openBrace :: inside) := ⟨some name, inside, rfl⟩

lemma Ends.ne_nil (h : Ends w u) : u ≠ [] := by
  cases h <;> simp

/-- Only the last tokens count, as long as the first of them is punctuation. -/
lemma Ends.append_left (h : Ends w (.punct p :: u)) (v : List Token) :
    Ends w (v ++ .punct p :: u) := by
  generalize hwhole : Token.punct p :: u = whole at h
  cases h with
  | punct x hequals hcolon =>
    rw [← List.append_assoc]
    exact .punct (v ++ x) hequals hcolon
  | part x hp name =>
    rw [← List.append_assoc]
    exact .part (v ++ x) hp name
  | node x name hx hname =>
    rw [← List.append_assoc]
    refine .node (v ++ x) name ?_ hname
    cases x with
    | nil => simp at hwhole
    | cons tok x =>
      intro other
      rw [List.getLast?_append, List.getLast?_cons]
      rw [List.getLast?_cons] at hx
      exact hx other

lemma Ends.cons_punct (h : Ends w u) (p : Punct) : Ends w (.punct p :: u) := by
  cases h with
  | punct x hequals hcolon => exact .punct (.punct p :: x) hequals hcolon
  | part x hp name => exact .part (.punct p :: x) hp name
  | node x name hx hname =>
    refine .node (.punct p :: x) name (fun other => ?_) hname
    cases x with
    | nil => simp
    | cons tok x =>
      rw [List.getLast?_cons_cons]
      exact hx other

lemma Ends.append (h : Ends (v ++ w) u) (h' : Extends w v) : Ends w (u ++ v) := by
  rcases h' with rfl | ⟨p, v, rfl, hv⟩
  · rwa [List.append_nil]
  · exact hv.append_left u

lemma extends_nil (w : List Token) : Extends w [] := Or.inl rfl

lemma Extends.append (h : Extends (v ++ w) u) (h' : Extends w v) : Extends w (u ++ v) := by
  rcases h with rfl | ⟨p, u, rfl, hu⟩
  · exact h'
  · exact Or.inr ⟨p, u ++ v, rfl, hu.append h'⟩

lemma fitsVertex_openBrace : FitsVertex [.punct .openBrace] := by
  refine ⟨by simp, by simp, by simp⟩

lemma FitsVertex.concat (h : FitsVertex c) {tok : Token} (hequals : tok ≠ .punct .equals)
    (hcolon : tok ≠ .punct .colon) (v : List Token) : FitsVertex (c ++ (v ++ [tok])) := by
  refine ⟨List.mem_append_left _ h.inBody, ?_, ?_⟩
  · rwa [← List.append_assoc, List.getLast?_concat, ne_eq, Option.some.injEq]
  · rwa [← List.append_assoc, List.getLast?_concat, ne_eq, Option.some.injEq]

/-- Behind the opening brace of a body nothing is announced. -/
lemma context_openBrace (w : List Token) : Context [.punct .openBrace] w :=
  ⟨fitsVertex_openBrace, fun _ _ => not_announces_punct [] .openBrace,
    fun _ _ _ => not_marks_punct [] .openBrace⟩

lemma not_marks_part (hp : p = .equals ∨ p = .colon) (name : Id) :
    ¬ Marks (v ++ [.punct p, .id name]) := by
  rw [List.append_cons, marks_concat_iff]
  rintro ⟨⟨-, hvalue, hport⟩, -⟩
  rw [List.getLast?_concat] at hvalue hport
  rcases hp with rfl | rfl
  · exact hvalue rfl
  · exact hport rfl

lemma not_announces_part (hp : p = .equals ∨ p = .colon) (name : Id) :
    ¬ Announces (v ++ [.punct p, .id name]) := by
  have hmarks := not_marks_part (v := v) hp name
  rw [List.append_cons] at hmarks ⊢
  rw [announces_concat_iff]
  rintro (h | ⟨h, -⟩)
  · exact hmarks h
  · exact not_marks_punct v p h

/-- One statement after the other: what stands in front of the next one announces nothing. -/
lemma Context.append (h : Context c (u ++ w)) (hu : Ends w u) : Context (c ++ u) w := by
  cases hu with
  | @punct x p hequals hcolon =>
    refine ⟨h.fits.concat (by simpa using hequals) (by simpa using hcolon) x, ?_, ?_⟩
    · intro inside _
      rw [← List.append_assoc]
      exact not_announces_punct (c ++ x) p
    · intro name inside _
      rw [← List.append_assoc]
      exact not_marks_punct (c ++ x) p
  | @part x p hp name =>
    refine ⟨?_, ?_, ?_⟩
    · rw [List.append_cons]
      exact h.fits.concat (by simp) (by simp) _
    · intro inside _
      rw [← List.append_assoc]
      exact not_announces_part hp name
    · intro other inside _
      rw [← List.append_assoc]
      exact not_marks_part hp name
  | node x name hx hname =>
    have hmarks : StartsBlock w → ¬ Marks (c ++ (x ++ [.id name])) := by
      intro hblock
      rw [← List.append_assoc, marks_concat_iff]
      exact fun hmarks => hname hmarks.2 hblock
    refine ⟨h.fits.concat (by simp) (by simp) x, ?_, ?_⟩
    · rintro inside rfl
      have hbody := hmarks (startsBlock_body inside)
      rw [← List.append_assoc] at hbody ⊢
      rw [announces_concat_iff]
      rintro (hmark | ⟨hmark, -⟩)
      · exact hbody hmark
      · -- the word and the name stand in one statement, or the name is a statement of its own
        rcases List.eq_nil_or_concat' x with rfl | ⟨x, tok, rfl⟩
        · rw [List.append_nil] at hmark
          exact h.named name inside rfl hmark
        · rw [← List.append_assoc, marks_concat_iff] at hmark
          rw [List.getLast?_concat] at hx
          exact hx _ (congrArg some hmark.2)
    · rintro other inside rfl
      exact hmarks (startsBlock_named other inside)

end Ends

end Token

/-! ## The tokens of the rules -/

namespace Grammar

open DotNotation.Parser

lemma spans_build {α : Type} (part : Except Defect α) : (build part).Spans fun _ u => u = [] := by
  cases part with
  | ok a => exact spans_pure rfl
  | error defect => exact spans_gaveUp _

lemma spans_punct (p : Punct) : (punct p).Spans fun _ u => u = [.punct p] :=
  spans_only (looks_punct p)

lemma spans_id : id.Spans fun _ u => ∃ name, u = [.id name] := by
  refine spans_within .id (spans_bind looks_anyId.spans ?_)
  rintro _ _ ⟨p | name, htok, rfl⟩
  · cases htok
  · refine (spans_build _).mono ?_
    rintro _ _ rfl
    exact ⟨name, rfl⟩

lemma spans_compassPoint : compassPoint.Spans fun _ u => ∃ name, u = [.id name] := by
  refine looks_compassPoint.spans.mono ?_
  rintro _ _ ⟨p | name, htok, rfl⟩
  · cases htok
  · exact ⟨name, rfl⟩

lemma spans_port : port.Spans fun _ u => ∃ v name, u = v ++ [.punct .colon, .id name] := by
  refine spans_within .port (spans_bind (spans_punct .colon) ?_)
  rintro _ _ rfl
  refine spans_bind spans_id ?_
  rintro first _ ⟨name, rfl⟩
  have hcompass : (punct .colon >>= fun _ => within .compass compassPoint).Spans
      fun _ u => ∃ name, u = [.punct .colon, .id name] := by
    refine spans_bind (spans_punct .colon) ?_
    rintro _ _ rfl
    refine (spans_within .compass spans_compassPoint).mono ?_
    rintro _ _ ⟨name, rfl⟩
    exact ⟨name, rfl⟩
  refine spans_bind (P := fun _ u => u = [] ∨ ∃ name, u = [.punct .colon, .id name])
    (spans_optional hcompass (Or.inl rfl) fun _ _ hu => Or.inr hu) ?_
  rintro compass u hu
  refine (spans_build _).mono ?_
  rintro _ _ rfl
  rcases hu with rfl | ⟨other, rfl⟩
  · exact ⟨[], name, rfl⟩
  · exact ⟨[.punct .colon, .id name], other, rfl⟩

/-- A node reference is a name, or it ends with a part of a port. -/
lemma spans_nodeId : nodeId.Spans fun _ u =>
    (∃ name, u = [.id name]) ∨ ∃ v name, u = v ++ [.punct .colon, .id name] := by
  refine spans_within .nodeId (spans_bind spans_id ?_)
  rintro _ _ ⟨name, rfl⟩
  refine spans_bind (P := fun _ u => u = [] ∨ ∃ v name, u = v ++ [.punct .colon, .id name])
    (spans_optional spans_port (Or.inl rfl) fun _ _ hu => Or.inr hu) ?_
  rintro port _ (rfl | ⟨v, other, rfl⟩)
  · exact spans_pure (Or.inl ⟨name, rfl⟩)
  · exact spans_pure (Or.inr ⟨.id name :: v, other, by simp⟩)

lemma spans_attributeGroup : attributeGroup.Spans fun _ u =>
    ∃ v, u = .punct .openBracket :: (v ++ [.punct .closeBracket]) := by
  rw [attributeGroup_eq]
  refine spans_bind (spans_punct .openBracket) ?_
  rintro _ _ rfl
  refine spans_bind (spans_of_flat (many item)) ?_
  rintro attrs u -
  refine spans_bind (spans_punct .closeBracket) ?_
  rintro _ _ rfl
  exact spans_pure ⟨u, by simp⟩

lemma spans_attributeList : attributeList.Spans fun _ u =>
    ∃ v, u = .punct .openBracket :: (v ++ [.punct .closeBracket]) := by
  refine spans_within .attributeList (spans_bind spans_attributeGroup ?_)
  rintro _ _ ⟨v, rfl⟩
  have hothers : (many attributeGroup).Spans fun _ u =>
      u = [] ∨ ∃ v, u = v ++ [.punct .closeBracket] := by
    refine spans_many spans_attributeGroup (Or.inl rfl) ?_
    rintro _ u ⟨v, rfl⟩ (rfl | ⟨u, rfl⟩)
    · exact Or.inr ⟨.punct .openBracket :: v, by simp⟩
    · exact Or.inr ⟨.punct .openBracket :: (v ++ .punct .closeBracket :: u), by simp⟩
  refine spans_bind hothers ?_
  rintro _ _ (rfl | ⟨u, rfl⟩)
  · exact spans_pure ⟨v, by simp⟩
  · exact spans_pure ⟨v ++ .punct .closeBracket :: u, by simp⟩

lemma extends_brackets (w v : List Token) :
    Token.Extends w (.punct .openBracket :: (v ++ [.punct .closeBracket])) :=
  Or.inr ⟨_, _, rfl, .punct (.punct .openBracket :: v) (by simp) (by simp)⟩

lemma spans_attributes : attributes.Spans fun _ u => ∀ w, Token.Extends w u := by
  refine spans_bind (P := fun _ u => ∀ w, Token.Extends w u)
    (spans_optional spans_attributeList Token.extends_nil ?_) ?_
  · rintro _ _ ⟨v, rfl⟩ w
    exact extends_brackets w v
  · intro attrs u hu
    refine spans_pure ?_
    rwa [List.append_nil]

lemma spans_nodeOrAttribute (name : NodeId) :
    (nodeOrAttribute name).Spans fun _ u => ∀ w, Token.Extends w u := by
  rw [nodeOrAttribute_eq]
  have hassigned : (if name.port.isNone then optional (punct .equals) else pure none).Spans
      fun assigned u => u = assigned.elim [] fun _ => [.punct .equals] := by
    split
    · exact spans_optional (spans_punct .equals) rfl fun _ _ hu => hu
    · exact spans_pure rfl
  refine spans_bind hassigned ?_
  rintro (_ | _) _ rfl
  · refine spans_bind spans_attributes fun attrs u hu => (spans_build _).mono ?_
    rintro _ _ rfl
    simpa using hu
  · refine spans_bind spans_id ?_
    rintro value _ ⟨name, rfl⟩
    exact spans_pure fun w => Or.inr ⟨.equals, [.id name], rfl, .part [] (Or.inl rfl) name⟩

lemma spans_afterChain (head : Vertex) (more : List Vertex) :
    (afterChain head more).Spans fun _ u => ∀ w, Token.Extends w u := by
  cases more with
  | nil =>
    cases head with
    | node name => exact spans_nodeOrAttribute name
    | subgraph group => exact spans_pure Token.extends_nil
  | cons next more =>
    refine spans_bind spans_attributes fun attrs u hu => (spans_build _).mono ?_
    rintro _ _ rfl
    rwa [List.append_nil]

lemma spans_defaultsFor (target : Target) :
    (defaultsFor target).Spans fun _ u => ∀ w, Token.Ends w u := by
  refine spans_bind (spans_keyword target.keyword) ?_
  rintro _ _ rfl
  refine spans_bind spans_attributeList ?_
  rintro attrs _ ⟨v, rfl⟩
  refine spans_pure fun w => ?_
  rw [List.append_nil]
  exact .punct (_ :: .punct .openBracket :: v) (by simp) (by simp)

lemma spans_defaults : defaults.Spans fun _ u => ∀ w, Token.Ends w u := by
  rw [defaults_eq_orElse]
  exact spans_within .defaults (spans_orElse (spans_defaultsFor .graph)
    (spans_orElse (spans_defaultsFor .node) (spans_defaultsFor .edge)))

end Grammar

end DotNotation
