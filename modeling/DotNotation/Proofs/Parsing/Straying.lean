/-
# How the runs of statements end

Below bodies the rules are followed one after the other.  A subgraph can be lost in its body.  Then
the word for it, if it was written, is read as a node, and the run goes astray at the name or the
body behind it.  A chain goes astray at the sign in front of a body that is lost.  Everything else
either finds something and has passed all bodies, or misses and has opened none.

There is one manner for each rule, and one lemma that its runs end in this manner, given that those
of bodies do.  The last one is `Grammar.ran_terminated`.
-/
import DotNotation.Proofs.Parsing.Conduct

namespace DotNotation

open Token Tokens Trace

namespace Grammar

open DotNotation.Parser

/-! ## The word and the name of a subgraph -/

/-- The word for a subgraph and its name, both of which may be left out. -/
def marker : Parser (Option Id) :=
  optional (keyword .subgraph) >>= fun marked => marked.elim (pure none) fun _ => optional id

instance flat_marker : Flat marker := by
  unfold marker
  infer_instance

instance uniform_marker : Uniform marker := by
  unfold marker
  infer_instance

lemma subgraph_eq_marker (body : Parser (List Statement)) :
    subgraph body = within .subgraph (marker >>= fun name =>
      body >>= fun statements => pure (.mk name statements)) := by
  rw [subgraph_eq, marker, bind_assoc]

section Marker

variable {why : Stop} {w : List Token} {frame : Frame} {ts : Tokens}

lemma answer_marker_none (h : w.head? ≠ some (.word Keyword.subgraph.word)) :
    marker.answer why w = .found none w :=
  (answer_bind_found (answer_optional_missing (answer_keyword_missing h))).trans (answer_pure none)

lemma answer_marker_word (name : Option Id) (hname : name.all Id.isValid = true)
    (hw : name = none → ∀ other, w.head? ≠ some (.id other)) :
    marker.answer why (.word Keyword.subgraph.word :: (ofName name ++ w)) = .found name w := by
  refine (answer_bind_found (answer_optional_found (answer_keyword_cons .subgraph))).trans ?_
  cases name with
  | none => exact answer_optional_missing (answer_id_missing (hw rfl))
  | some name => exact answer_optional_found (answer_id_cons (by simpa using hname) w)

/-- Tokens start with a name or without one. -/
lemma exists_ofName (hw : areValid w) : ∃ name rest, w = ofName name ++ rest ∧
    name.all Id.isValid = true ∧ (name = none → ∀ other, rest.head? ≠ some (.id other)) := by
  rcases w with _ | ⟨p | name, w⟩
  · exact ⟨none, [], rfl, rfl, by simp⟩
  · exact ⟨none, .punct p :: w, rfl, rfl, by simp⟩
  · exact ⟨some name, w, rfl, hw (.id name) List.mem_cons_self, by simp⟩

lemma head_of_startsBlock {name : Option Id} (h : StartsBlock (ofName name ++ w))
    (hw : name = none → ∀ other, w.head? ≠ some (.id other)) :
    w.head? = some (.punct .openBrace) := by
  obtain ⟨name', inside, heq⟩ := h
  cases name with
  | none =>
    cases name' with
    | none => exact congrArg List.head? heq
    | some name' => exact absurd (congrArg List.head? heq) (hw rfl name')
  | some name =>
    cases name' with
    | none => cases heq
    | some name' => exact congrArg List.head? (List.cons.inj heq).2

/-- The word and the name are always found.  If no body follows, none stands at the front, and the
word for a subgraph announces none. -/
lemma exists_marker (frame : Frame) (hts : ts.Proper) : ∃ name mid u s,
    marker frame ts = ⟨.found name mid, s⟩ ∧ Passes ts mid u s ∧
      (u = [] ∨ u = .word Keyword.subgraph.word :: ofName name) ∧
      (mid.toList.head? ≠ some (.punct .openBrace) →
        ts.toList.head? ≠ some (.punct .openBrace) ∧
        ∀ w, ts.toList = .word Keyword.subgraph.word :: w → ¬ StartsBlock w) := by
  have hspans := spans_of_flat marker
  by_cases hword : ts.toList.head? = some (.word Keyword.subgraph.word)
  · obtain ⟨w, hw⟩ := List.head?_eq_some_iff.1 hword
    obtain ⟨name, rest, rfl, hname, hrest⟩ := exists_ofName
      (hts.valid.of_suffix ⟨[.word Keyword.subgraph.word], hw.symm⟩)
    rw [← List.cons_append] at hw
    obtain ⟨mid, hmid, rfl⟩ := exists_reaches_of_toList hw
    obtain ⟨s, hrun⟩ := exists_run_found frame hspans hmid
      ((congrArg _ hw).trans (answer_marker_word name hname hrest))
    obtain ⟨u, hu, -, -⟩ := hspans.passes hrun
    obtain rfl := hu.reaches.tokens_unique hmid
    refine ⟨name, mid, _, s, hrun, hu, Or.inr rfl, fun hhead => ⟨?_, ?_⟩⟩
    · rw [hw]
      simp [Token.word]
    · intro w' hw' hblock
      rw [hw] at hw'
      obtain ⟨-, rfl⟩ := List.cons.inj hw'
      exact hhead (head_of_startsBlock hblock hrest)
  · obtain ⟨s, hrun⟩ := exists_run_found frame hspans .here (answer_marker_none hword)
    obtain ⟨u, hu, -, -⟩ := hspans.passes hrun
    obtain rfl := hu.reaches.tokens_unique .here
    refine ⟨none, ts, [], s, hrun, hu, Or.inl rfl, fun hhead => ⟨hhead, ?_⟩⟩
    rintro w hw -
    exact hword (by rw [hw]; rfl)

end Marker

/-! ## Manners of the rules -/

/-- No body is read at the brace. -/
def LeftOpen (room : Nat) (inside : Tokens) : Prop :=
  (body room).answer inside.why (.punct .openBrace :: inside.toList) = .missing

section Rules

variable (room : Nat)

/-- What is made of a body ends with the closing brace.  Only the body itself can be lost. -/
def bodyManner {α : Type} : Manner α where
  found _ u _ := ∃ v, u = v ++ [.punct .closeBrace]
  missing w := w.head? ≠ some (.punct .openBrace)
  lost inside w := w = [] ∧ LeftOpen room inside
  astray _ _ _ := False

/-- A subgraph ends with the closing brace of its body, which can be lost behind the word for a
subgraph and a name. -/
def subgraphManner {α : Type} : Manner α where
  found _ u _ := ∃ v, u = v ++ [.punct .closeBrace]
  missing w := w.head? ≠ some (.punct .openBrace) ∧
    ∀ v, w = .word Keyword.subgraph.word :: v → ¬ StartsBlock v
  lost inside w := (w = [] ∨ ∃ name, w = .word Keyword.subgraph.word :: ofName name) ∧
    LeftOpen room inside
  astray _ _ _ := False

variable {room} {frame : Frame} {ts : Tokens}

-- what the rules of a body assume of the bodies inside it
variable (hbody : ∀ frame ts, ts.Proper → Ran (bodyManner room) ts (body room frame ts))

include hbody in
lemma ran_subgraph (frame : Frame) (hts : ts.Proper) :
    Ran (subgraphManner room) ts (subgraph (body room) frame ts) := by
  rw [subgraph_eq_marker, within]
  obtain ⟨name, mid, u, s, hrun, hs, hu, hmiss⟩ := exists_marker ⟨.subgraph, frame.depth + 1⟩ hts
  rw [bind_of_found hrun]
  have hgroup : Ran (bodyManner room) mid ((body room >>= fun ss => pure (Subgraph.mk name ss))
      ⟨.subgraph, frame.depth + 1⟩ mid) :=
    (hbody _ mid (hts.of_reaches hs.reaches)).map (Subgraph.mk name) (fun _ _ _ h => h)
      (fun h => h) (fun _ _ h => h) fun _ _ h => h
  refine hgroup.after hs hts.ordered ?_ ?_ ?_ ?_
  · rintro group _ w - ⟨v, rfl⟩
    exact ⟨u ++ v, (List.append_assoc u v _).symm⟩
  · intro hmid
    refine ⟨hs.opened_eq ?_, hmiss hmid⟩
    rcases hu with rfl | rfl
    · simp
    · cases name <;> simp [Token.word, ofName]
  · rintro inside _ ⟨rfl, hopen⟩
    refine ⟨hu.imp ?_ ?_, hopen⟩
    · rintro rfl
      rfl
    · rintro rfl
      exact ⟨name, List.append_nil _⟩
  · rintro rest t ⟨⟩

/-! ## Vertices -/

/-- A node reference as a vertex. -/
def nodeVertex : Parser Vertex :=
  orElse (nodeId >>= fun name => pure (.node name)) (expected .vertex)

instance flat_nodeVertex : Flat nodeVertex := by
  unfold nodeVertex
  infer_instance

instance uniform_nodeVertex : Uniform nodeVertex := by
  unfold nodeVertex
  infer_instance

lemma vertex_eq_nodeVertex (body : Parser (List Statement)) : vertex body = within .vertex
    (orElse (subgraph body >>= fun group => pure (.subgraph group)) nodeVertex) :=
  vertex_eq_orElse body

lemma spans_nodeVertex : nodeVertex.Spans fun _ u =>
    (∃ name, u = [.id name]) ∨ ∃ v name, u = v ++ [.punct .colon, .id name] := by
  refine spans_orElse (spans_bind spans_nodeId fun name u hu => spans_pure ?_) ?_
  · rwa [List.append_nil]
  · intro frame ts v rest hfound
    cases hfound

lemma answer_nodeVertex_cons {why : Stop} {name : Id} {w : List Token}
    (hname : name.isValid = true) (hw : w.head? ≠ some (.punct .colon)) :
    nodeVertex.answer why (.id name :: w) = .found (.node ⟨name, none⟩) w := by
  have hnode : nodeId.answer why (.id name :: w) = .found ⟨name, none⟩ w := by
    unfold nodeId
    rw [answer_within, answer_bind_found (answer_id_cons hname w)]
    exact (answer_bind_found (answer_optional_missing (port_missing hw))).trans (answer_pure _)
  exact answer_orElse_found ((answer_bind_found hnode).trans (answer_pure _))

lemma answer_nodeVertex_missing {why : Stop} {w : List Token}
    (h : ∀ name, w.head? ≠ some (.id name)) : nodeVertex.answer why w = .missing := by
  have hnode : nodeId.answer why w = .missing := by
    unfold nodeId
    rw [answer_within]
    exact answer_bind_missing (answer_id_missing h)
  exact answer_orElse_missing (answer_bind_missing hnode)

/-- The run has read the word for a subgraph as a node, since the body behind it and a name is left
open.  In the given contexts this body is announced. -/
def Announced (room : Nat) (Q : List Token → Prop) (ts rest : Tokens) (t : Trace) : Prop :=
  ∃ m inside w name, Strays ts rest m inside w (ofName name) t ∧ (∀ c, Q c → Marks (c ++ w)) ∧
    LeftOpen room inside

/-- A vertex does not announce the body behind it, unless this body is left open. -/
def vertexManner (room : Nat) : Manner Vertex where
  found v u w := Ends w u ∧ ∀ name, v = .node name → ∀ tok ∈ u, tok.isBrace = false
  missing w := w.head? ≠ some (.punct .openBrace)
  lost inside w := w = [] ∧ LeftOpen room inside
  astray := Announced room FitsVertex

lemma Announced.after {Q Q' : List Token → Prop} {mid rest : Tokens} {u : List Token}
    {s t : Trace} (h : Announced room Q mid rest t) (hs : Passes ts mid u s) (hts : ts.Ordered)
    (hcontext : ∀ c, Q' c → Q (c ++ u)) : Announced room Q' ts rest (s.join t) := by
  obtain ⟨m, inside, w, name, hstrays, hmarks, hopen⟩ := h
  refine ⟨m, inside, u ++ w, name, hstrays.after hs hts, fun c hc => ?_, hopen⟩
  rw [← List.append_assoc]
  exact hmarks _ (hcontext c hc)

lemma Announced.join_right {Q : List Token → Prop} {rest : Tokens} {s t : Trace}
    (h : Announced room Q ts rest t) (hts : ts.Ordered) (hs : Passes rest rest [] s) :
    Announced room Q ts rest (t.join s) := by
  obtain ⟨m, inside, w, name, hstrays, hannounced⟩ := h
  exact ⟨m, inside, w, name, hstrays.join_right hts hs, hannounced⟩

lemma ran_nodeVertex (frame : Frame) (hbrace : ts.toList.head? ≠ some (.punct .openBrace))
    (hword : ∀ v, ts.toList = .word Keyword.subgraph.word :: v → ¬ StartsBlock v) :
    Ran (vertexManner room) ts (nodeVertex frame ts) := by
  refine ran_of_flat spans_nodeVertex frame ?_ fun _ => hbrace
  rintro v u w hlist (⟨name, rfl⟩ | ⟨x, name, rfl⟩) hu
  · refine ⟨.node [] name (by simp) ?_, fun _ _ => hu⟩
    intro hname
    rw [hname] at hlist
    exact hword w hlist
  · exact ⟨.part x (Or.inr rfl) name, fun _ _ => hu⟩

include hbody in
lemma ran_vertex (frame : Frame) (hts : ts.Proper) :
    Ran (vertexManner room) ts (vertex (body room) frame ts) := by
  rw [vertex_eq_nodeVertex, within]
  have hgroup : Ran { (subgraphManner room : Manner Vertex) with
      found := (vertexManner room).found } ts
      ((subgraph (body room) >>= fun group => pure (.subgraph group))
        ⟨.vertex, frame.depth + 1⟩ ts) := by
    refine (ran_subgraph hbody _ hts).map Vertex.subgraph ?_ (fun h => h) (fun _ _ h => h)
      fun _ _ h => h
    rintro group _ w ⟨v, rfl⟩
    exact ⟨.punct v (by simp) (by simp), by simp⟩
  generalize hrun : (subgraph (body room) >>= fun group => pure (Vertex.subgraph group))
    ⟨.vertex, frame.depth + 1⟩ ts = outcome at hgroup
  cases hgroup with
  | found h hv =>
    rw [orElse_of_found hrun]
    exact .found h hv
  | missing h hmiss =>
    rw [orElse_of_missing hrun]
    refine (ran_nodeVertex _ hmiss.1 hmiss.2).after h hts.ordered (fun _ _ _ _ hv => hv)
      (fun hmid => ⟨h.opened_eq List.not_mem_nil, hmid⟩) (fun _ _ hw => hw) ?_
    exact fun rest t hstray => hstray.after h hts.ordered fun c hc => by rwa [List.append_nil]
  | gaveUp h =>
    rw [orElse_of_gaveUp hrun]
    exact .gaveUp h
  | @lost m inside w t h hw =>
    rw [orElse_of_missing hrun]
    obtain ⟨rfl | ⟨name, rfl⟩, hopen⟩ := hw
    · have hlist := h.reaches.toList_eq
      obtain ⟨s, hnode⟩ := exists_run_missing ⟨.vertex, frame.depth + 1⟩ ts
        (answer_nodeVertex_missing (by rw [hlist]; simp [toList]))
      rw [hnode]
      exact .lost (h.join_passes hts.ordered (passes_of_run hnode)) ⟨rfl, hopen⟩
    · -- the word is read as a node, and the body stands behind its name
      obtain ⟨n, mid, hmid, rfl⟩ : ∃ n mid, Reaches (.next m (.punct .openBrace) inside)
          (ofName name) mid ∧ ts = .next n (.word Keyword.subgraph.word) mid := by
        cases h.reaches with
        | next n tok hmid => exact ⟨n, _, hmid, rfl⟩
      have hnode : nodeVertex.answer mid.why (.word Keyword.subgraph.word :: mid.toList) = _ :=
        answer_nodeVertex_cons (hts.valid _ List.mem_cons_self) (by
          rw [hmid.toList_eq]
          cases name <;> simp [ofName, toList])
      obtain ⟨s, hnode⟩ := exists_run_found ⟨.vertex, frame.depth + 1⟩ spans_nodeVertex
        (.next n _ .here) hnode
      rw [hnode]
      refine .astray ⟨m, inside, [.word Keyword.subgraph.word], name, ⟨.next n _ .here, hmid, ?_⟩,
        fun c hc => ⟨c, hc, rfl⟩, hopen⟩
      exact h.join_passes hts.ordered (passes_of_run hnode)
  | astray h => cases h

/-! ## Chains -/

/-- The sign between two vertices. -/
def sign : Parser Unit := orElse (punct .arrow) (punct .line)

instance flat_sign : Flat sign := by
  unfold sign
  infer_instance

instance uniform_sign : Uniform sign := by
  unfold sign
  infer_instance

lemma spans_sign : sign.Spans fun _ u => ∃ p, (p = .arrow ∨ p = .line) ∧ u = [.punct p] := by
  refine spans_orElse ((spans_punct .arrow).mono ?_) ((spans_punct .line).mono ?_)
  · rintro _ _ rfl
    exact ⟨.arrow, Or.inl rfl, rfl⟩
  · rintro _ _ rfl
    exact ⟨.line, Or.inr rfl, rfl⟩

lemma sign_missing {why : Stop} {w : List Token} (harrow : w.head? ≠ some (.punct .arrow))
    (hline : w.head? ≠ some (.punct .line)) : sign.answer why w = .missing :=
  (answer_orElse_missing (answer_punct_missing harrow)).trans (answer_punct_missing hline)

/-- One step along a chain.  The body behind the sign can be lost. -/
def hopManner (room : Nat) : Manner Vertex where
  found _ u w := Extends w u
  missing _ := True
  lost _ w := ∃ p, (p = .arrow ∨ p = .line) ∧ w = [.punct p]
  astray := Announced room fun c => .punct .openBrace ∈ c

include hbody in
lemma ran_hop (frame : Frame) (hts : ts.Proper) :
    Ran (hopManner room) ts (hop (body room) frame ts) := by
  have hsign : Ran ⟨fun _ u _ => ∃ p, (p = .arrow ∨ p = .line) ∧ u = [.punct p], fun _ => True,
      fun _ _ => False, fun _ _ _ => False⟩ ts (sign frame ts) :=
    ran_of_flat spans_sign frame (fun _ _ _ _ hu _ => hu) fun _ => trivial
  refine hsign.bind ?_ (fun _ => trivial) (fun _ _ h => h.elim) fun _ _ _ h => h.elim
  rintro _ _ mid s hs ⟨p, hp, rfl⟩
  refine (ran_vertex hbody frame (hts.of_reaches hs.reaches)).after hs hts.ordered ?_ ?_ ?_ ?_
  · rintro v u w - ⟨hu, -⟩
    exact Or.inr ⟨p, u, rfl, hu.cons_punct p⟩
  · exact fun _ => ⟨hs.opened_eq (by rcases hp with rfl | rfl <;> simp), trivial⟩
  · rintro inside _ ⟨rfl, -⟩
    exact ⟨p, hp, rfl⟩
  · refine fun rest t h => h.after hs hts.ordered fun c hc => ?_
    refine ⟨List.mem_append_left _ hc, ?_, ?_⟩ <;> rcases hp with rfl | rfl <;> simp

/-- The chain breaks off at a sign, behind which a body is left open. -/
def Stranded (ts rest : Tokens) (t : Trace) : Prop :=
  ∃ m inside w p, (p = .arrow ∨ p = .line) ∧ Strays ts rest m inside w [.punct p] t

/-- The run ends in front of a body that is left open: at the name of a subgraph, or at the sign of
a chain. -/
def Astray (room : Nat) (Q : List Token → Prop) (ts rest : Tokens) (t : Trace) : Prop :=
  Announced room Q ts rest t ∨ Stranded ts rest t

section Astray

variable {Q Q' : List Token → Prop} {mid rest : Tokens} {u : List Token} {s t : Trace}

lemma Astray.after (h : Astray room Q mid rest t) (hs : Passes ts mid u s) (hts : ts.Ordered)
    (hcontext : ∀ c, Q' c → Q (c ++ u)) : Astray room Q' ts rest (s.join t) := by
  refine h.imp (fun h => h.after hs hts hcontext) ?_
  rintro ⟨m, inside, w, p, hp, hstrays⟩
  exact ⟨m, inside, u ++ w, p, hp, hstrays.after hs hts⟩

lemma Astray.join_right (h : Astray room Q ts rest t) (hts : ts.Ordered)
    (hs : Passes rest rest [] s) : Astray room Q ts rest (t.join s) := by
  refine h.imp (fun h => h.join_right hts hs) ?_
  rintro ⟨m, inside, w, p, hp, hstrays⟩
  exact ⟨m, inside, w, p, hp, hstrays.join_right hts hs⟩

lemma Announced.head_ne (h : Announced room Q ts rest t) {p : Punct} (hp : p ≠ .openBrace) :
    rest.toList.head? ≠ some (.punct p) := by
  obtain ⟨m, inside, w, name, hstrays, -⟩ := h
  rw [hstrays.ahead.toList_eq]
  cases name <;> simp [ofName, toList, hp.symm]

/-- The punctuation that goes on with a statement does not stand where its run went astray. -/
lemma Astray.head_ne (h : Astray room Q ts rest t) {p : Punct}
    (hp : p = .equals ∨ p = .openBracket ∨ p = .semicolon) :
    rest.toList.head? ≠ some (.punct p) := by
  rcases h with h | ⟨m, inside, w, q, hq, hstrays⟩
  · exact h.head_ne (by rcases hp with rfl | rfl | rfl <;> simp)
  · rw [hstrays.ahead.toList_eq]
    rcases hp with rfl | rfl | rfl <;> rcases hq with rfl | rfl <;> simp

end Astray

/-- All steps of a chain.  A step in which a body is left open is the last one. -/
def hopsManner (room : Nat) : Manner (List Vertex) where
  found vs u w := Extends w u ∧ (vs = [] → u = [])
  missing _ := False
  lost _ _ := False
  astray := Astray room fun c => .punct .openBrace ∈ c

lemma idles_hops (frame : Frame) (harrow : ts.toList.head? ≠ some (.punct .arrow))
    (hline : ts.toList.head? ≠ some (.punct .line)) :
    Idles (many (hop (body room))) frame ts := by
  obtain ⟨s, hrun⟩ := exists_run_missing frame ts (sign_missing harrow hline)
  exact idles_many (bind_of_missing hrun) (passes_of_run hrun)

include hbody in
lemma ran_hops (frame : Frame) (hts : ts.Proper) :
    Ran (hopsManner room) ts (many (hop (body room)) frame ts) := by
  induction hn : ts.toList.length using Nat.strong_induction_on generalizing ts with
  | _ n ih =>
    have htakes := takes_hop (takes_body room)
    have hround := ran_hop hbody frame hts
    generalize hrun : hop (body room) frame ts = outcome at hround
    cases hround with
    | @found v mid u t h hu =>
      have hlt := htakes.length_lt_of_found hrun
      have hmid := ih _ (hn ▸ hlt) (hts.of_reaches h.reaches) rfl
      have hcons : Ran ⟨fun vs u w => vs ≠ [] ∧ Extends w u, (hopsManner room).missing,
          (hopsManner room).lost, (hopsManner room).astray⟩ mid
          ((many (hop (body room)) >>= fun vs => pure (v :: vs)) frame mid) :=
        hmid.map (v :: ·) (fun vs u w hu => ⟨List.cons_ne_nil v vs, hu.1⟩) (fun h => h)
          (fun _ _ h => h) fun _ _ h => h
      rw [many_of_found htakes hrun]
      refine hcons.after h hts.ordered ?_ (fun h => h.elim) (fun _ _ h => h) ?_
      · rintro vs u' w hlist ⟨hvs, hu'⟩
        rw [hlist] at hu
        exact ⟨Extends.append hu hu', fun h => absurd h hvs⟩
      · exact fun rest t hstray => hstray.after h hts.ordered fun c hc => List.mem_append_left _ hc
    | missing h _ =>
      rw [many_of_missing hrun]
      exact .found h ⟨extends_nil _, fun _ => rfl⟩
    | gaveUp h =>
      rw [many_of_gaveUp hrun]
      exact .gaveUp h
    | @lost m inside w t h hw =>
      obtain ⟨p, hp, rfl⟩ := hw
      rw [many_of_missing hrun]
      exact .astray (Or.inr ⟨m, inside, [], p, hp, .here, h.reaches, h⟩)
    | @astray v rest t h =>
      obtain ⟨vs, s, hidle, hs⟩ := (idles_hops frame (h.head_ne (by simp))
        (h.head_ne (by simp))).bind fun vs => idles_pure (v :: vs) frame rest
      rw [many_of_found htakes hrun, hidle]
      exact .astray (Or.inl (h.join_right hts.ordered hs))

/-! ## Statements -/

section AfterChain

variable {why : Stop} {w : List Token}

lemma makeEdge_eq (head next : Vertex) (more : List Vertex) (attrs : List Attribute) :
    Statement.makeEdge (head :: next :: more) attrs = .ok (.edge (head :: next :: more) attrs) :=
  if_pos (by simp)

lemma exists_answer_afterChain (head : Vertex) (more : List Vertex)
    (hequals : w.head? ≠ some (.punct .equals))
    (hbracket : w.head? ≠ some (.punct .openBracket)) :
    ∃ st, (afterChain head more).answer why w = .found st w := by
  have hattributes : attributes.answer why w = .found [] w :=
    (answer_bind_found (answer_optional_missing (attributeList_missing hbracket))).trans
      (answer_pure [])
  cases more with
  | nil =>
    cases head with
    | node name =>
      refine ⟨.node name [], ?_⟩
      show (nodeOrAttribute name).answer why w = _
      have hassigned : (if name.port.isNone then optional (punct .equals) else pure none).answer
          why w = .found none w := by
        split
        · exact answer_optional_missing (answer_punct_missing hequals)
        · exact answer_pure none
      rw [nodeOrAttribute_eq]
      exact (answer_bind_found hassigned).trans
        ((answer_bind_found hattributes).trans (answer_build_ok _))
    | subgraph group => exact ⟨.subgraph group, answer_pure _⟩
  | cons next more =>
    refine ⟨.edge (head :: next :: more) [], (answer_bind_found hattributes).trans ?_⟩
    rw [makeEdge_eq]
    exact answer_build_ok _

/-- Only an attribute can lack something behind its first name. -/
lemma of_answer_afterChain_missing {head : Vertex} {more : List Vertex}
    (h : (afterChain head more).answer why w = .missing) :
    more = [] ∧ ∃ name, head = .node name := by
  cases more with
  | nil =>
    cases head with
    | node name => exact ⟨rfl, name, rfl⟩
    | subgraph group =>
      have hpure : (pure (Statement.subgraph group) : Parser Statement).answer why w = .missing := h
      rw [answer_pure] at hpure
      cases hpure
  | cons next more =>
    unfold afterChain attributes at h
    simp only [makeEdge_eq, answer_bind, answer_optional] at h
    cases hlist : attributeList.answer why w <;> simp [hlist] at h

end AfterChain

lemma idles_afterChain (frame : Frame) (head : Vertex) (more : List Vertex)
    (hequals : ts.toList.head? ≠ some (.punct .equals))
    (hbracket : ts.toList.head? ≠ some (.punct .openBracket)) :
    Idles (afterChain head more) frame ts := by
  obtain ⟨st, hanswer⟩ := exists_answer_afterChain head more hequals hbracket
  exact idles_of_answer frame hanswer

/-- What follows the first vertex of a statement. -/
def tailManner (room : Nat) (head : Vertex) : Manner Statement where
  found _ u w := Extends w u
  missing _ := ∃ name, head = .node name
  lost _ _ := False
  astray := Astray room fun c => .punct .openBrace ∈ c

include hbody in
lemma ran_tail (frame : Frame) (hts : ts.Proper) (head : Vertex) :
    Ran (tailManner room head) ts
      ((hops (body room) >>= fun more => afterChain head more) frame ts) := by
  have hhops : Ran (hopsManner room) ts (hops (body room) frame ts) := ran_hops hbody _ hts
  refine hhops.bind ?_ (fun h => h.elim) (fun _ _ h => h) ?_
  · rintro more u rest s hs ⟨hu, hnil⟩
    have hlast : Ran ⟨fun _ u w => Extends w u, fun _ => more = [] ∧ ∃ name, head = .node name,
        fun _ _ => False, fun _ _ _ => False⟩ rest (afterChain head more frame rest) :=
      ran_of_flat (spans_afterChain head more) frame (fun _ _ _ _ hv _ => hv _)
        of_answer_afterChain_missing
    refine hlast.after hs hts.ordered ?_ ?_ (fun _ _ h => h) fun _ _ h => h.elim
    · intro st v w hlist hv
      rw [hlist] at hu
      exact hu.append hv
    · rintro ⟨rfl, hhead⟩
      obtain rfl := hnil rfl
      exact ⟨hs.opened_eq List.not_mem_nil, hhead⟩
  · intro more rest s hstray
    obtain ⟨st, t, hidle, ht⟩ := idles_afterChain frame head more (hstray.head_ne (Or.inl rfl))
      (hstray.head_ne (Or.inr (Or.inl rfl)))
    rw [hidle]
    exact .astray (hstray.join_right hts.ordered ht)

/-- A statement does not announce the body behind it, unless this body is left open.  Only a body
at its front can be lost. -/
def statementManner (room : Nat) : Manner Statement where
  found _ u w := Ends w u
  missing w := w.head? ≠ some (.punct .openBrace)
  lost _ w := w = []
  astray := Astray room FitsVertex

include hbody in
lemma ran_vertexStatement (frame : Frame) (hts : ts.Proper) :
    Ran (statementManner room) ts (vertexStatement (body room) frame ts) := by
  rw [vertexStatement_eq]
  refine (ran_vertex hbody frame hts).bind ?_ (fun h => h) (fun _ _ h => h.1) ?_
  · rintro head u mid s hs ⟨hu, hnode⟩
    refine (ran_tail hbody frame (hts.of_reaches hs.reaches) head).after hs hts.ordered ?_ ?_
      (fun _ _ h => h.elim) ?_
    · intro st v w hlist hv
      rw [hlist] at hu
      exact hu.append hv
    · rintro ⟨name, rfl⟩
      have hbrace := openBrace_notMem (hnode name rfl)
      refine ⟨hs.opened_eq hbrace, ?_⟩
      show ts.toList.head? ≠ _
      rw [hs.reaches.toList_eq, List.head?_append_of_ne_nil _ hu.ne_nil]
      exact fun hhead => hbrace (List.mem_of_head? hhead)
    · exact fun rest t h => h.after hs hts.ordered fun c hc => List.mem_append_left _ hc.inBody
  · intro head rest s hstray
    have hhops : Idles (hops (body room)) frame rest :=
      idles_hops _ (hstray.head_ne (by simp)) (hstray.head_ne (by simp))
    obtain ⟨st, t, hidle, ht⟩ := hhops.bind fun more =>
      idles_afterChain frame head more (hstray.head_ne (by simp)) (hstray.head_ne (by simp))
    rw [hidle]
    exact .astray (Or.inl (hstray.join_right hts.ordered ht))

include hbody in
lemma ran_statement (frame : Frame) (hts : ts.Proper) :
    Ran (statementManner room) ts (statement (body room) frame ts) := by
  rw [statement, within]
  rcases hrun : defaults ⟨.statement, frame.depth + 1⟩ ts with ⟨⟨st, rest⟩ | _ | cause, s⟩
  · obtain ⟨u, hu, hends, -⟩ := spans_defaults.passes hrun
    rw [orElse_of_found hrun]
    exact .found hu (hends _)
  · have hs := passes_of_run hrun
    rw [orElse_of_missing hrun]
    refine (ran_vertexStatement hbody _ hts).after hs hts.ordered (fun _ _ _ _ h => h)
      (fun h => ⟨hs.opened_eq List.not_mem_nil, h⟩) (fun _ _ h => h) ?_
    exact fun rest t h => h.after hs hts.ordered fun c hc => by rwa [List.append_nil]
  · rw [orElse_of_gaveUp hrun]
    refine .gaveUp ?_
    rw [(passes_of_run hrun).opened_eq List.not_mem_nil]
    exact List.nil_prefix

/-- The semicolon that may follow a statement. -/
lemma ran_semicolon (st : Statement) (frame : Frame) (ts : Tokens) :
    Ran ⟨fun _ u w => Extends w u, fun _ => False, fun _ _ => False, fun _ _ _ => False⟩ ts
      ((optional (punct .semicolon) >>= fun _ => pure st) frame ts) := by
  refine ran_of_flat (P := fun _ u => ∀ w, Extends w u) ?_ frame (fun _ _ w _ hu _ => hu w) ?_
  · refine spans_bind (P := fun _ u => ∀ w, Extends w u)
      (spans_optional (spans_punct .semicolon) extends_nil ?_) fun _ u hu => spans_pure ?_
    · rintro _ _ rfl w
      exact Or.inr ⟨.semicolon, [], rfl, .punct [] (by simp) (by simp)⟩
    · rwa [List.append_nil]
  · intro hmissing
    rw [answer_bind, answer_optional] at hmissing
    cases hanswer : (Parser.punct .semicolon).answer ts.why ts.toList <;> simp [hanswer] at hmissing

include hbody in
lemma ran_terminated (frame : Frame) (hts : ts.Proper) :
    Ran (statementManner room) ts (terminated (body room) frame ts) := by
  refine (ran_statement hbody frame hts).bind (f := fun st =>
    optional (punct .semicolon) >>= fun _ => pure st) ?_ (fun h => h) (fun _ _ h => h) ?_
  · intro st u rest s hs hu
    refine (ran_semicolon st frame rest).after hs hts.ordered ?_ (fun h => h.elim)
      (fun _ _ h => h.elim) fun _ _ h => h.elim
    intro _ v w hlist hv
    rw [hlist] at hu
    exact Ends.append hu hv
  · intro st rest s hstray
    obtain ⟨t, hrun⟩ := exists_run_missing frame rest
      (answer_punct_missing (hstray.head_ne (Or.inr (Or.inr rfl))))
    obtain ⟨st, t, hidle, ht⟩ := (idles_optional hrun (passes_of_run hrun)).bind fun _ =>
      idles_pure st frame rest
    rw [hidle]
    exact .astray (hstray.join_right hts.ordered ht)

end Rules

end Grammar

end DotNotation
