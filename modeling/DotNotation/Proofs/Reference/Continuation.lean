/-
# What is left of a body

A derivation cuts the tokens of a body into statements, and the cut is not unique: behind the
word for a subgraph, used as the name of a node, a body can stand that is a statement of its
own, or belongs to the subgraph that the word announces.  `Continues` describes the same tokens
from left to right.  It says what can stand between a place in a body and its closing brace.
The main results are

* `continues_of_star`: derivable statements continue the start of a body;
* `Continues.opens`: wherever a body follows the word for a subgraph, the body can be taken for
  that of a subgraph, and what is left continues the vertex.
-/
import DotNotation.Proofs.Reference.OrderedChoice

namespace DotNotation.Reference

/-! ## Derivations taken apart -/

section Generates

variable {e f : Expr} {w : List Token}

lemma generates_rule_iff {r : Nonterminal} : Generates (.rule r) w ↔ Generates r.expr w := by
  constructor
  · rintro ⟨⟩
    assumption
  · exact .rule

lemma generates_terminal_iff {k : Terminal} : Generates (.terminal k) w ↔ k.Accepts w := by
  constructor
  · rintro ⟨⟩
    assumption
  · exact .terminal

@[simp] lemma generates_empty_iff : Generates .empty w ↔ w = [] := by
  constructor
  · rintro ⟨⟩
    rfl
  · rintro rfl
    exact .empty

@[simp] lemma generates_fail_iff : ¬ Generates .fail w := by
  rintro ⟨⟩

@[simp] lemma generates_seq_iff :
    Generates (.seq e f) w ↔ ∃ u v, Generates e u ∧ Generates f v ∧ w = u ++ v := by
  constructor
  · rintro ⟨⟩
    exact ⟨_, _, ‹_›, ‹_›, rfl⟩
  · rintro ⟨u, v, he, hf, rfl⟩
    exact .seq he hf

@[simp] lemma generates_choice_iff :
    Generates (.choice e f) w ↔ Generates e w ∨ Generates f w := by
  constructor
  · rintro ⟨⟩
    · exact Or.inl ‹_›
    · exact Or.inr ‹_›
  · rintro (h | h)
    · exact .left h
    · exact .right h

@[simp] lemma generates_opt_iff : Generates (.opt e) w ↔ w = [] ∨ Generates e w := by
  constructor
  · rintro ⟨⟩
    · exact Or.inl rfl
    · exact Or.inr ‹_›
  · rintro (rfl | h)
    · exact .none
    · exact .some h

@[simp] lemma generates_punct_iff {p : Punct} : Generates (.punct p) w ↔ w = [.punct p] :=
  generates_terminal_iff

@[simp] lemma generates_keyword_iff {k : Keyword} : Generates (.keyword k) w ↔ w = [.word k.word] :=
  generates_terminal_iff

@[simp] lemma generates_id_iff : Generates .id w ↔ ∃ name, w = [.id name] :=
  generates_terminal_iff

lemma Generates.firstOf {es : List Expr} (h : Generates (.firstOf es) w) :
    ∃ e ∈ es, Generates e w := by
  induction es with
  | nil => cases h
  | cons e es ih =>
    rcases generates_choice_iff.1 h with he | hes
    · exact ⟨e, List.mem_cons_self, he⟩
    · obtain ⟨f, hf, hw⟩ := ih hes
      exact ⟨f, List.mem_cons_of_mem e hf, hw⟩

/-- What holds of nothing and of everything with one more part in front holds of repetitions. -/
lemma Generates.star_induction {P : List Token → Prop} (h : Generates (.star e) w) (nil : P [])
    (cons : ∀ u v, Generates e u → Generates (.star e) v → P v → P (u ++ v)) : P w := by
  generalize hs : Expr.star e = s at h
  induction h with
  | nil => exact nil
  | cons he hs' _ ih =>
    cases hs
    exact cons _ _ he hs' (ih rfl)
  | _ => cases hs

end Generates

/-! ### The rules -/

section Rules

variable {w : List Token}

lemma Generates.assign (h : Generates (.rule .assign) w) :
    ∃ key value, w = [.id key, .punct .equals, .id value] := by
  simp only [generates_rule_iff, Nonterminal.expr, Expr.sequence, generates_seq_iff,
    generates_id_iff, generates_punct_iff, generates_empty_iff] at h
  obtain ⟨_, _, ⟨key, rfl⟩, ⟨_, _, rfl, ⟨_, _, ⟨value, rfl⟩, rfl, rfl⟩, rfl⟩, rfl⟩ := h
  exact ⟨key, value, rfl⟩

lemma Generates.compass (h : Generates (.rule .compass) w) :
    ∃ c : Compass, w = [.word c.word] := by
  rw [generates_rule_iff] at h
  obtain ⟨e, he, hw⟩ := Generates.firstOf h
  obtain ⟨c, -, rfl⟩ := List.mem_map.1 he
  exact ⟨c, generates_terminal_iff.1 hw⟩

lemma Generates.port (h : Generates (.rule .port) w) :
    ∃ name, w = [.punct .colon, .id name] ∨
      ∃ c : Compass, w = [.punct .colon, .id name, .punct .colon, .word c.word] := by
  simp only [generates_rule_iff (r := .port), Nonterminal.expr, Expr.sequence, generates_seq_iff,
    generates_opt_iff, generates_id_iff, generates_punct_iff, generates_empty_iff] at h
  obtain ⟨_, _, rfl, ⟨_, _, ⟨name, rfl⟩, ⟨_, _, hcompass, rfl, rfl⟩, rfl⟩, rfl⟩ := h
  refine ⟨name, ?_⟩
  rcases hcompass with rfl | ⟨_, _, rfl, ⟨_, _, hc, rfl, rfl⟩, rfl⟩
  · exact Or.inl rfl
  · obtain ⟨c, rfl⟩ := Generates.compass hc
    exact Or.inr ⟨c, rfl⟩

lemma Generates.nodeId (h : Generates (.rule .nodeId) w) :
    ∃ name port, (port = [] ∨ Generates (.rule .port) port) ∧ w = .id name :: port := by
  simp only [generates_rule_iff (r := .nodeId), Nonterminal.expr, Expr.sequence,
    generates_seq_iff, generates_opt_iff, generates_id_iff, generates_empty_iff] at h
  obtain ⟨_, _, ⟨name, rfl⟩, ⟨port, _, hport, rfl, rfl⟩, rfl⟩ := h
  exact ⟨name, port, hport, by simp⟩

lemma Generates.body (h : Generates (.rule .body) w) :
    ∃ u, Generates (.star terminatedExpr) u ∧
      w = .punct .openBrace :: u ++ [.punct .closeBrace] := by
  simp only [generates_rule_iff (r := .body), Nonterminal.expr, Expr.sequence, generates_seq_iff,
    generates_punct_iff, generates_empty_iff] at h
  obtain ⟨_, _, rfl, ⟨u, _, hu, ⟨_, _, rfl, rfl, rfl⟩, rfl⟩, rfl⟩ := h
  exact ⟨u, hu, rfl⟩

/-- The tokens before the body of a subgraph. -/
inductive IsMark : List Token → Prop
  | none : IsMark []
  | bare : IsMark [.word Keyword.subgraph.word]
  | named (name : Id) : IsMark [.word Keyword.subgraph.word, .id name]

lemma Generates.subgraph (h : Generates (.rule .subgraph) w) :
    ∃ mark b, IsMark mark ∧ Generates (.rule .body) b ∧ w = mark ++ b := by
  simp only [generates_rule_iff (r := .subgraph), Nonterminal.expr, Expr.sequence,
    generates_seq_iff, generates_opt_iff, generates_id_iff, generates_keyword_iff,
    generates_empty_iff] at h
  obtain ⟨mark, _, hmark, ⟨b, _, hb, rfl, rfl⟩, rfl⟩ := h
  rw [List.append_nil]
  refine ⟨mark, b, ?_, hb, rfl⟩
  rcases hmark with rfl | ⟨_, _, rfl, ⟨_, _, hname, rfl, rfl⟩, rfl⟩
  · exact .none
  · rcases hname with rfl | ⟨name, rfl⟩
    · exact .bare
    · exact .named name

lemma Generates.vertex (h : Generates (.rule .vertex) w) :
    Generates (.rule .subgraph) w ∨ Generates (.rule .nodeId) w := by
  simp only [generates_rule_iff (r := .vertex), Nonterminal.expr, Expr.firstOf,
    generates_choice_iff, generates_fail_iff, or_false] at h
  exact h

lemma Generates.hop (h : Generates hopExpr w) :
    ∃ sign v, (sign = .arrow ∨ sign = .line) ∧ Generates (.rule .vertex) v ∧
      w = .punct sign :: v := by
  simp only [hopExpr, generates_rule_iff (r := .arrow), Nonterminal.expr, Expr.sequence,
    Expr.firstOf, generates_seq_iff, generates_choice_iff, generates_fail_iff,
    generates_punct_iff, generates_empty_iff, or_false] at h
  obtain ⟨_, _, hsign, ⟨v, _, hv, rfl, rfl⟩, rfl⟩ := h
  rw [List.append_nil]
  rcases hsign with rfl | rfl
  · exact ⟨.arrow, v, Or.inl rfl, hv, rfl⟩
  · exact ⟨.line, v, Or.inr rfl, hv, rfl⟩

lemma Generates.defaults (h : Generates (.rule .defaults) w) :
    ∃ (target : Target) (attrs : List Token), Generates (.rule .attributeList) attrs ∧
      w = .word target.word :: attrs := by
  simp only [generates_rule_iff (r := .defaults), Nonterminal.expr, Expr.sequence, Expr.firstOf,
    generates_seq_iff, generates_choice_iff, generates_fail_iff, generates_keyword_iff,
    generates_empty_iff, or_false] at h
  obtain ⟨_, _, hkeyword, ⟨attrs, _, hattrs, rfl, rfl⟩, rfl⟩ := h
  rw [List.append_nil]
  rcases hkeyword with rfl | rfl | rfl
  · exact ⟨.graph, attrs, hattrs, rfl⟩
  · exact ⟨.node, attrs, hattrs, rfl⟩
  · exact ⟨.edge, attrs, hattrs, rfl⟩

lemma Generates.item (h : Generates itemExpr w) :
    ∃ key value separator, (separator = [] ∨ separator = [.punct .semicolon] ∨
      separator = [.punct .comma]) ∧ w = .id key :: .punct .equals :: .id value :: separator := by
  simp only [itemExpr, Expr.sequence, Expr.firstOf, generates_seq_iff, generates_opt_iff,
    generates_choice_iff, generates_fail_iff, generates_punct_iff, generates_empty_iff,
    or_false] at h
  obtain ⟨_, _, hassign, ⟨separator, _, hseparator, rfl, rfl⟩, rfl⟩ := h
  obtain ⟨key, value, rfl⟩ := hassign.assign
  exact ⟨key, value, separator, hseparator, by simp⟩

lemma Generates.group (h : Generates groupExpr w) :
    ∃ items, Generates (.star itemExpr) items ∧
      w = .punct .openBracket :: items ++ [.punct .closeBracket] := by
  simp only [groupExpr, Expr.sequence, generates_seq_iff, generates_punct_iff,
    generates_empty_iff] at h
  obtain ⟨_, _, rfl, ⟨items, _, hitems, ⟨_, _, rfl, rfl, rfl⟩, rfl⟩, rfl⟩ := h
  exact ⟨items, hitems, rfl⟩

lemma Generates.attributeList (h : Generates (.rule .attributeList) w) :
    ∃ first others, Generates groupExpr first ∧ Generates (.star groupExpr) others ∧
      w = first ++ others := by
  rw [generates_rule_iff] at h
  obtain ⟨first, others, hfirst, hothers, rfl⟩ := generates_seq_iff.1 h
  exact ⟨first, others, hfirst, hothers, rfl⟩

end Rules

/-! ## Places in a body -/

/-- A place in a body. -/
inductive Place where
  /-- Where a statement may start. -/
  | start
  /-- Behind a statement, where a semicolon may stand. -/
  | finish
  /-- Behind a vertex, where attributes may stand or not. -/
  | chain (attributes : Bool)

/-- The list of tokens can stand between the place and the closing brace of the body. -/
inductive Continues : Place → List Token → Prop
  | nil : Continues .start []
  | defaults {target : Target} {attrs w : List Token}
      (hattrs : Generates (.rule .attributeList) attrs) (h : Continues .finish w) :
      Continues .start (.word target.word :: attrs ++ w)
  | assign {key value : Id} {w : List Token} (h : Continues .finish w) :
      Continues .start (.id key :: .punct .equals :: .id value :: w)
  | node {ref w : List Token} (href : Generates (.rule .nodeId) ref)
      (h : Continues (.chain true) w) : Continues .start (ref ++ w)
  | subgraph {group w : List Token} (hgroup : Generates (.rule .subgraph) group)
      (h : Continues (.chain false) w) : Continues .start (group ++ w)
  | hop {b : Bool} {sign : Punct} {v w : List Token} (hsign : sign = .arrow ∨ sign = .line)
      (hv : Generates (.rule .vertex) v) (h : Continues (.chain true) w) :
      Continues (.chain b) (.punct sign :: v ++ w)
  | attributes {attrs w : List Token} (hattrs : Generates (.rule .attributeList) attrs)
      (h : Continues .finish w) : Continues (.chain true) (attrs ++ w)
  | statement {b : Bool} {w : List Token} (h : Continues .finish w) : Continues (.chain b) w
  | semicolon {w : List Token} (h : Continues .start w) :
      Continues .finish (.punct .semicolon :: w)
  | next {w : List Token} (h : Continues .start w) : Continues .finish w

lemma Continues.weaken {w : List Token} (h : Continues (.chain false) w) :
    Continues (.chain true) w := by
  cases h with
  | hop hsign hv h => exact .hop hsign hv h
  | statement h => exact .statement h

/-- Behind the vertices of a chain the attributes follow, or the statement is finished. -/
lemma Continues.cases_of_no_hop {b : Bool} {w rest : List Token} (h : Continues (.chain b) w)
    (hsigns : ∀ q ∈ [Punct.arrow, .line],
      (w ++ .punct .closeBrace :: rest).head? ≠ some (.punct q)) :
    Continues .finish w ∨ b = true ∧ ∃ attrs w', Generates (.rule .attributeList) attrs ∧
      Continues .finish w' ∧ w = attrs ++ w' := by
  cases h with
  | @hop _ sign v w hsign hv h => exact absurd rfl (hsigns sign (by simpa using hsign))
  | attributes hattrs h => exact Or.inr ⟨rfl, _, _, hattrs, h, rfl⟩
  | statement h => exact Or.inl h

/-! ### Derivations continue -/

lemma continues_of_hops {u w : List Token} (hu : Generates (.star hopExpr) u)
    (h : Continues (.chain true) w) : Continues (.chain true) (u ++ w) := by
  refine hu.star_induction (P := fun u => Continues (.chain true) (u ++ w)) h ?_
  intro first others hfirst _ ih
  obtain ⟨sign, v, hsign, hv, rfl⟩ := hfirst.hop
  rw [List.append_assoc]
  exact .hop hsign hv ih

lemma continues_of_attributes {u w : List Token}
    (hu : u = [] ∨ Generates (.rule .attributeList) u) (h : Continues .finish w) :
    Continues (.chain true) (u ++ w) := by
  rcases hu with rfl | hu
  · exact .statement h
  · exact .attributes hu h

lemma continues_of_statement {u w : List Token} (hu : Generates (.rule .statement) u)
    (h : Continues .finish w) : Continues .start (u ++ w) := by
  simp only [generates_rule_iff (r := .statement), Nonterminal.expr, Expr.firstOf,
    generates_choice_iff, generates_fail_iff, or_false] at hu
  rcases hu with hu | hu | hu | hu | hu
  · obtain ⟨target, attrs, hattrs, rfl⟩ := hu.defaults
    exact .defaults hattrs h
  · -- an edge
    rw [generates_rule_iff] at hu
    obtain ⟨v, _, hv, hrest, rfl⟩ := generates_seq_iff.1 hu
    obtain ⟨_, _, hplus, hlist, rfl⟩ := generates_seq_iff.1 hrest
    obtain ⟨first, others, hfirst, hothers, rfl⟩ := generates_seq_iff.1 hplus
    obtain ⟨attrs, _, hattrs, hnil, rfl⟩ := generates_seq_iff.1 hlist
    obtain rfl := generates_empty_iff.1 hnil
    -- a hop can follow nodes and subgraphs alike
    have hchain : ∀ b, Continues (.chain b) (first ++ others ++ (attrs ++ []) ++ w) := by
      intro b
      obtain ⟨sign, v, hsign, hv, rfl⟩ := Generates.hop hfirst
      have hothers := continues_of_hops hothers
        (continues_of_attributes (generates_opt_iff.1 hattrs) h)
      simpa using Continues.hop hsign hv hothers
    rw [List.append_assoc]
    rcases hv.vertex with hgroup | href
    · exact .subgraph hgroup (hchain false)
    · exact .node href (hchain true)
  · exact .subgraph hu (.statement h)
  · obtain ⟨key, value, rfl⟩ := hu.assign
    exact .assign h
  · rw [generates_rule_iff] at hu
    obtain ⟨ref, _, href, hlist, rfl⟩ := generates_seq_iff.1 hu
    obtain ⟨attrs, _, hattrs, hnil, rfl⟩ := generates_seq_iff.1 hlist
    obtain rfl := generates_empty_iff.1 hnil
    rw [List.append_nil, List.append_assoc]
    exact .node href (continues_of_attributes (generates_opt_iff.1 hattrs) h)

/-- Derivable statements continue the start of a body. -/
theorem continues_of_star {u : List Token} (hu : Generates (.star terminatedExpr) u) :
    Continues .start u := by
  refine hu.star_induction .nil ?_
  intro first others hfirst _ ih
  obtain ⟨s, _, hs, hopt, rfl⟩ := generates_seq_iff.1 hfirst
  obtain ⟨semicolon, _, hsemicolon, hnil, rfl⟩ := generates_seq_iff.1 hopt
  obtain rfl := generates_empty_iff.1 hnil
  rw [List.append_nil, List.append_assoc]
  refine continues_of_statement hs ?_
  -- with or without a semicolon the next statement starts behind it
  rcases generates_opt_iff.1 hsemicolon with rfl | hsemicolon
  · exact .next ih
  · obtain rfl := generates_punct_iff.1 hsemicolon
    exact .semicolon ih

/-! ### What stands first -/

/-- The punctuation that can stand first, the closing brace of the body included. -/
def Place.firsts : Place → List Punct
  | start => [.openBrace, .closeBrace]
  | finish => [.semicolon, .openBrace, .closeBrace]
  | chain false => [.arrow, .line, .semicolon, .openBrace, .closeBrace]
  | chain true => [.openBracket, .arrow, .line, .semicolon, .openBrace, .closeBrace]

lemma Generates.head_attributeList {w : List Token} (h : Generates (.rule .attributeList) w) :
    ∃ w', w = .punct .openBracket :: w' := by
  obtain ⟨first, others, hfirst, -, rfl⟩ := h.attributeList
  obtain ⟨items, -, rfl⟩ := hfirst.group
  exact ⟨_, rfl⟩

lemma Generates.head_body {w : List Token} (h : Generates (.rule .body) w) :
    ∃ w', w = .punct .openBrace :: w' := by
  obtain ⟨u, -, rfl⟩ := h.body
  exact ⟨_, rfl⟩

lemma Continues.mem_firsts {p : Place} {w : List Token} (h : Continues p w) {q : Punct}
    {rest : List Token} (hq : (w ++ .punct .closeBrace :: rest).head? = some (.punct q)) :
    q ∈ p.firsts := by
  induction h with
  | nil => simp_all [Place.firsts]
  | defaults _ _ => simp [Token.word] at hq
  | assign _ => simp at hq
  | node href _ =>
    obtain ⟨name, port, -, rfl⟩ := href.nodeId
    simp at hq
  | subgraph hgroup _ =>
    obtain ⟨mark, b, hmark, hb, rfl⟩ := hgroup.subgraph
    obtain ⟨w', rfl⟩ := hb.head_body
    cases hmark with
    | none => simp_all [Place.firsts]
    | bare => simp [Token.word] at hq
    | named name => simp [Token.word] at hq
  -- the sign of an edge is in the list behind either kind of vertex
  | @hop b _ _ _ hsign _ _ =>
    rcases hsign with rfl | rfl <;> cases b <;> simp_all [Place.firsts]
  | attributes hattrs _ =>
    obtain ⟨w', rfl⟩ := hattrs.head_attributeList
    simp_all [Place.firsts]
  | @statement b _ _ ih =>
    have hfinish : q ∈ [Punct.arrow, .line] ++ Place.finish.firsts :=
      List.mem_append_right _ (ih hq)
    cases b with
    | false => exact hfinish
    | true => exact List.mem_cons_of_mem _ hfinish
  | semicolon _ => simp_all [Place.firsts]
  | next _ ih => exact List.mem_cons_of_mem _ (ih hq)

lemma Continues.head_ne {p : Place} {w rest : List Token} (h : Continues p w) {q : Punct}
    (hq : q ∉ p.firsts) : (w ++ .punct .closeBrace :: rest).head? ≠ some (.punct q) :=
  fun hhead => hq (h.mem_firsts hhead)

/-! ### Bodies behind the word for a subgraph -/

/-- A body stands here, with a name before it or not. -/
def OpensBody (w : List Token) : Prop :=
  ∃ name : Option Id, ∃ w', w = (name.map Token.id).toList ++ .punct .openBrace :: w'

/-- A body that stands first can be taken off. -/
lemma Continues.brace {p : Place} {w rest : List Token} (h : Continues p w)
    (hhead : (w ++ .punct .closeBrace :: rest).head? = some (.punct .openBrace)) :
    ∃ b w', Generates (.rule .body) b ∧ Continues (.chain false) w' ∧ w = b ++ w' := by
  induction h with
  | nil => cases hhead
  | defaults _ _ => cases hhead
  | assign _ => cases hhead
  | node href _ =>
    obtain ⟨name, port, -, rfl⟩ := href.nodeId
    cases hhead
  | subgraph hgroup h =>
    obtain ⟨mark, b, hmark, hb, rfl⟩ := hgroup.subgraph
    cases hmark with
    | none => exact ⟨b, _, hb, h, rfl⟩
    | bare => cases hhead
    | named name => cases hhead
  | hop hsign _ _ => rcases hsign with rfl | rfl <;> cases hhead
  | attributes hattrs _ =>
    obtain ⟨w', rfl⟩ := hattrs.head_attributeList
    cases hhead
  | statement _ ih => exact ih hhead
  | semicolon _ => cases hhead
  | next _ ih => exact ih hhead

/-- A body with a name before it can be taken off as well.  The name was that of a node, or it
was the word for a subgraph. -/
lemma Continues.opens {p : Place} {w rest : List Token} (h : Continues p w)
    (hopens : OpensBody (w ++ .punct .closeBrace :: rest)) :
    ∃ name : Option Id, ∃ b w', Generates (.rule .body) b ∧ Continues (.chain false) w' ∧
      w = (name.map Token.id).toList ++ b ++ w' := by
  obtain ⟨name, next, hnext⟩ := hopens
  cases name with
  | none =>
    obtain ⟨b, w', hb, hw', rfl⟩ := h.brace (by rw [hnext]; rfl)
    exact ⟨none, b, w', hb, hw', rfl⟩
  | some name =>
    induction h with
    | nil => cases hnext
    | defaults hattrs _ =>
      obtain ⟨w', rfl⟩ := hattrs.head_attributeList
      simp at hnext
    | assign _ => simp at hnext
    | @node ref w href h =>
      -- the name is a node and the body starts the next statement
      obtain ⟨other, port, hport, rfl⟩ := href.nodeId
      rcases hport with rfl | hport
      · have hrest : w ++ .punct .closeBrace :: rest = .punct .openBrace :: next := by
          simpa using (List.cons.inj hnext).2
        obtain ⟨b, w', hb, hw', rfl⟩ := h.brace (by rw [hrest]; rfl)
        exact ⟨some other, b, w', hb, hw', rfl⟩
      · obtain ⟨_, rfl | ⟨c, rfl⟩⟩ := hport.port
        · simp at hnext
        · simp at hnext
    | @subgraph group w hgroup h =>
      -- the name is the word for a subgraph
      obtain ⟨mark, b, hmark, hb, rfl⟩ := hgroup.subgraph
      cases hmark with
      | none =>
        obtain ⟨w', rfl⟩ := hb.head_body
        simp at hnext
      | bare => exact ⟨some _, b, w, hb, h, rfl⟩
      | named other => simp at hnext
    | hop hsign _ _ => simp at hnext
    | attributes hattrs _ =>
      obtain ⟨w', rfl⟩ := hattrs.head_attributeList
      simp at hnext
    | statement _ ih => exact ih hnext
    | semicolon _ => simp at hnext
    | next _ ih => exact ih hnext

end DotNotation.Reference
