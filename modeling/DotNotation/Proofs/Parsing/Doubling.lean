/-
# Unclosed subgraphs double the work

A body that is left open is read again if it is announced, and so are the bodies inside it.  So the
number of openings doubles with each subgraph that is opened inside another one and not closed:
`Grammar.missing_of_unclosed` for bodies, and `Graph.length_openings_of_unclosed` for documents.
-/
import DotNotation.Proofs.Parsing.Reopening
import Mathlib.Algebra.Group.Nat.Defs

namespace DotNotation

open Token Tokens

/-- A body and subgraphs nested inside it, none of which is closed. -/
def Token.unclosed : Nat → List Token
  | 0 => [.punct .openBrace]
  | n + 1 => .punct .openBrace :: .word Keyword.subgraph.word :: unclosed n

namespace Parser

variable {α β : Type} {p q : Parser α} {f : α → Parser β} {frame : Frame} {ts mid : Tokens} {a : α}
  {t : Trace}

/-- In a sequence the first part opens all bodies if the second one opens none. -/
lemma opened_bind (h : ∀ a rest t, p frame ts = ⟨.found a rest, t⟩ →
      (f a frame rest).trace.opened = []) :
    ((p >>= f) frame ts).trace.opened = (p frame ts).trace.opened := by
  rcases hrun : p frame ts with ⟨⟨a, rest⟩ | _ | cause, t⟩
  · rw [bind_of_found hrun]
    show t.opened ++ (f a frame rest).trace.opened = t.opened
    rw [h a rest t hrun, List.append_nil]
  · rw [bind_of_missing hrun]
  · rw [bind_of_gaveUp hrun]

lemma opened_bind_of_flat [∀ a, Flat (f a)] (frame : Frame) (ts : Tokens) :
    ((p >>= f) frame ts).trace.opened = (p frame ts).trace.opened :=
  opened_bind fun a rest _ _ => (flat_run (f a) frame rest).opened_eq

/-- A flat part in front opens nothing. -/
lemma opened_bind_of_found [Flat p] [Uniform p] {u : List Token} (frame : Frame)
    (hmid : Reaches mid u ts) (h : p.answer ts.why ts.toList = .found a mid.toList) :
    ((p >>= f) frame ts).trace.opened = (f a frame mid).trace.opened := by
  obtain ⟨s, hrun⟩ := exists_run_found frame (spans_of_flat p) hmid h
  rw [bind_of_found hrun]
  show s.opened ++ (f a frame mid).trace.opened = _
  rw [(passes_of_run hrun).opened_eq List.not_mem_nil, List.nil_append]

lemma opened_orElse_of_flat [Flat q] (frame : Frame) (ts : Tokens) :
    (orElse p q frame ts).trace.opened = (p frame ts).trace.opened := by
  rcases hrun : p frame ts with ⟨⟨a, rest⟩ | _ | cause, t⟩
  · rw [orElse_of_found hrun]
  · rw [orElse_of_missing hrun]
    show t.opened ++ (q frame ts).trace.opened = t.opened
    rw [(flat_run q frame ts).opened_eq, List.append_nil]
  · rw [orElse_of_gaveUp hrun]

end Parser

namespace Grammar

open DotNotation.Parser

variable {room : Nat} {ts mid : Tokens} {u : List Token}

/-- A vertex opens no bodies but those of its subgraph. -/
lemma opened_vertex {name : Option Id} (room : Nat) (frame : Frame) (hmid : Reaches mid u ts)
    (h : marker.answer ts.why ts.toList = .found name mid.toList) :
    ∃ frame', (vertex (body room) frame ts).trace.opened =
      (body room frame' mid).trace.opened := by
  refine ⟨⟨.subgraph, frame.depth + 1 + 1⟩, ?_⟩
  rw [vertex_eq_nodeVertex, within, opened_orElse_of_flat, opened_bind_of_flat,
    subgraph_eq_marker, within, opened_bind_of_found _ hmid h, opened_bind_of_flat]

/-- A statement that ends before a brace opens no bodies but those of its first vertex. -/
lemma opened_terminated (frame : Frame) (ts : Tokens)
    (hdefaults : defaults.answer ts.why ts.toList = .missing)
    (hbrace : ∀ head rest, (vertex (body room)).answer ts.why ts.toList = .found head rest →
      rest.head? = some (.punct .openBrace)) :
    ∃ frame', (terminated (body room) frame ts).trace.opened =
      (vertex (body room) frame' ts).trace.opened := by
  obtain ⟨s, hrun⟩ := exists_run_missing ⟨.statement, frame.depth + 1⟩ ts hdefaults
  refine ⟨⟨.statement, frame.depth + 1⟩, ?_⟩
  have hsemicolon : (terminated (body room) frame ts).trace.opened =
      (statement (body room) frame ts).trace.opened := opened_bind_of_flat frame ts
  rw [hsemicolon, statement, within, orElse_of_missing hrun]
  show s.opened ++ (vertexStatement (body room) _ ts).trace.opened = _
  rw [(passes_of_run hrun).opened_eq List.not_mem_nil, List.nil_append, vertexStatement_eq]
  refine opened_bind fun head rest t hvertex => ?_
  have hhead := hbrace head rest.toList (answer_of_found hvertex)
  have hhops : Idles (hops (body room)) ⟨.statement, frame.depth + 1⟩ rest :=
    idles_hops _ (by simp [hhead]) (by simp [hhead])
  obtain ⟨st, t, hidle, ht⟩ := hhops.bind fun more =>
    idles_afterChain _ head more (by simp [hhead]) (by simp [hhead])
  rw [hidle]
  exact ht.opened_eq List.not_mem_nil

lemma exists_of_toList_unclosed {n : Nat} (h : ts.toList = unclosed n) :
    ∃ m inside, ts = .next m (.punct .openBrace) inside := by
  rcases head_cases (.punct .openBrace) ts with hts | hhead
  · exact hts
  · rw [h] at hhead
    cases n <;> exact absurd rfl hhead

section Unclosed

variable {m k n : Nat} {inside : Tokens}

/-- Behind a word that is read as a node the body is lost. -/
lemma exists_opened_missing (frame : Frame) (hopen : LeftOpen room inside) :
    ∃ frame' t,
      terminated (body room) frame (.next m (.punct .openBrace) inside) = ⟨.missing, t⟩ ∧
        t.opened = (body room frame' (.next m (.punct .openBrace) inside)).trace.opened := by
  have hvertex : (vertex (body room)).answer inside.why (.punct .openBrace :: inside.toList) =
      .missing := vertex_missing_of_body hopen
  have hmissing : (terminated (body room)).answer inside.why
      (.punct .openBrace :: inside.toList) = .missing :=
    terminated_missing_of_vertex (by simp) hvertex
  have hdefaults : defaults.answer inside.why (.punct .openBrace :: inside.toList) = .missing :=
    defaults_missing (by rintro target next ⟨⟩)
  obtain ⟨t, hrun⟩ := exists_run_missing frame (.next m (.punct .openBrace) inside) hmissing
  obtain ⟨frame', hfirst⟩ := opened_terminated frame (.next m (.punct .openBrace) inside)
    hdefaults (fun head rest h => nomatch hvertex.symm.trans h)
  have hmid : Reaches (.next m (.punct .openBrace) inside) []
      (.next m (.punct .openBrace) inside) := .here
  obtain ⟨frame'', hsecond⟩ := opened_vertex room frame' hmid
    (answer_marker_none (by simp [toList, Token.word]))
  refine ⟨frame'', t, hrun, ?_⟩
  rw [← hsecond, ← hfirst, hrun]

/-- In front of a body that is lost the word for a subgraph is read as a node. -/
lemma exists_opened_node (frame : Frame) (hopen : LeftOpen room inside) :
    ∃ frame' st t, terminated (body room) frame
        (.next k (.word Keyword.subgraph.word) (.next m (.punct .openBrace) inside)) =
          ⟨.found st (.next m (.punct .openBrace) inside), t⟩ ∧
        t.opened = (body room frame' (.next m (.punct .openBrace) inside)).trace.opened := by
  let ts : Tokens := .next k (.word Keyword.subgraph.word) (.next m (.punct .openBrace) inside)
  have hvalid : (⟨.plain, Keyword.subgraph.word⟩ : Id).isValid = true := by decide
  have hmid : Reaches (.next m (.punct .openBrace) inside) [.word Keyword.subgraph.word] ts :=
    .next k _ .here
  have hvertex : (vertex (body room)).answer ts.why ts.toList = _ :=
    answer_vertex_named hvalid hopen
  obtain ⟨st, hanswer⟩ : ∃ st, (terminated (body room)).answer ts.why ts.toList =
      .found st (.punct .openBrace :: inside.toList) := exists_answer_terminated hvalid hopen
  obtain ⟨t, hrun⟩ := exists_run_found frame (composed_terminated room).spans hmid hanswer
  obtain ⟨frame', hfirst⟩ := opened_terminated frame ts (defaults_missing_at_brace _) (by
    intro head rest h
    rw [hvertex, Answer.found.injEq] at h
    rw [← h.2]
    rfl)
  obtain ⟨frame'', hsecond⟩ := opened_vertex room frame' hmid
    (answer_marker_word none rfl (by simp))
  refine ⟨frame'', st, t, hrun, ?_⟩
  rw [← hsecond, ← hfirst, hrun]

/-- The statements in front of a body that is lost open it twice if they consist of the word for a
subgraph. -/
lemma exists_opened_twice (frame : Frame) (k m : Nat) (hopen : LeftOpen room inside) :
    ∃ frame₁ frame₂ ss t, many (terminated (body room)) frame
        (.next k (.word Keyword.subgraph.word) (.next m (.punct .openBrace) inside)) =
          ⟨.found ss (.next m (.punct .openBrace) inside), t⟩ ∧
        t.opened = (body room frame₁ (.next m (.punct .openBrace) inside)).trace.opened ++
          (body room frame₂ (.next m (.punct .openBrace) inside)).trace.opened := by
  obtain ⟨frame₁, st, s, hnode, hs⟩ := exists_opened_node (m := m) (k := k) frame hopen
  obtain ⟨frame₂, t, hmissing, ht⟩ := exists_opened_missing (m := m) frame hopen
  refine ⟨frame₁, frame₂, [st], s.join t, ?_, ?_⟩
  · rw [many_of_found (takes_terminated (takes_body room)) hnode,
      bind_pure_of_found _ (many_of_missing hmissing), after_found]
  · rw [← hs, ← ht]
    rfl

/-- At the end of the tokens no statement is read. -/
lemma exists_opened_nil (room : Nat) (frame : Frame) (hts : ts.toList = []) :
    ∃ t, terminated (body room) frame ts = ⟨.missing, t⟩ ∧ t.opened = [] := by
  have hvertex : (vertex (body room)).answer ts.why ts.toList = .missing :=
    vertex_missing room (by simp [hts]) (by simp [hts])
  have hdefaults : defaults.answer ts.why ts.toList = .missing :=
    defaults_missing (by simp [hts])
  obtain ⟨t, hrun⟩ := exists_run_missing frame ts
    (terminated_missing_of_vertex (by simp [hts]) hvertex)
  obtain ⟨frame', hfirst⟩ := opened_terminated frame ts hdefaults
    (fun head rest h => nomatch hvertex.symm.trans h)
  have hmid : Reaches ts [] ts := .here
  obtain ⟨frame'', hsecond⟩ := opened_vertex room frame' hmid
    (answer_marker_none (by simp [hts]))
  refine ⟨t, hrun, ?_⟩
  rw [body_of_ne room frame'' (by simp [hts]), ← hfirst, hrun] at hsecond
  exact hsecond

/-- A body that is not closed behind its statements is opened, and so are those in them. -/
lemma exists_opened_body {ss : List Statement} {rest : Tokens} {t : Trace} (frame : Frame) (m : Nat)
    (h : many (terminated (body room)) ⟨.body, frame.depth + 1⟩ inside = ⟨.found ss rest, t⟩)
    (hhead : rest.toList.head? ≠ some (.punct .closeBrace)) :
    ∃ s, body (room + 1) frame (.next m (.punct .openBrace) inside) = ⟨.missing, s⟩ ∧
      s.opened = m :: t.opened := by
  refine ⟨(Trace.opening m).join (t.join (.unmet ⟨.body, frame.depth + 1⟩ rest.offset
    (.punct .closeBrace))), ?_, ?_⟩
  · rw [body_succ_of_next, bind_of_found h, bind_of_missing (punct_of_ne _ hhead), after_missing,
      after_missing]
  · simp [Trace.join, Trace.opening, Trace.unmet]

/-- An unclosed body is lost, and every subgraph inside twice as many times as the one around it. -/
theorem missing_of_unclosed (hn : n < room) (frame : Frame) (hts : ts.toList = unclosed n) :
    ∃ t, body room frame ts = ⟨.missing, t⟩ ∧ t.opened.length + 1 = 2 ^ (n + 1) := by
  induction n generalizing room frame ts with
  | zero =>
    obtain ⟨room, rfl⟩ := Nat.exists_eq_succ_of_ne_zero (Nat.ne_zero_of_lt hn)
    obtain ⟨m, inside, rfl⟩ := exists_of_toList_unclosed hts
    have hinside : inside.toList = [] := (List.cons.inj hts).2
    obtain ⟨t, hrun, ht⟩ := exists_opened_nil room ⟨.body, frame.depth + 1⟩ hinside
    obtain ⟨s, hbody, hs⟩ := exists_opened_body frame m (many_of_missing hrun) (by simp [hinside])
    exact ⟨s, hbody, by simp [hs, ht]⟩
  | succ n ih =>
    obtain ⟨room, rfl⟩ := Nat.exists_eq_succ_of_ne_zero (Nat.ne_zero_of_lt hn)
    obtain ⟨m, inside, rfl⟩ := exists_of_toList_unclosed hts
    have hinside : inside.toList = .word Keyword.subgraph.word :: unclosed n :=
      (List.cons.inj hts).2
    obtain ⟨k, ts, rfl⟩ : ∃ k ts, inside = .next k (.word Keyword.subgraph.word) ts :=
      (head_cases _ inside).resolve_right (by simp [hinside])
    have hlist : ts.toList = unclosed n := (List.cons.inj hinside).2
    have hlost := fun frame => ih (Nat.lt_of_succ_lt_succ hn) frame hlist
    obtain ⟨m', inside, rfl⟩ := exists_of_toList_unclosed hlist
    have hopen : LeftOpen room inside := by
      obtain ⟨t, hrun, -⟩ := hlost frame
      exact answer_of_missing hrun
    obtain ⟨frame₁, frame₂, ss, t, hmany, ht⟩ :=
      exists_opened_twice ⟨.body, frame.depth + 1⟩ k m' hopen
    obtain ⟨s₁, hrun₁, hlength₁⟩ := hlost frame₁
    obtain ⟨s₂, hrun₂, hlength₂⟩ := hlost frame₂
    obtain ⟨r, hbody, hr⟩ := exists_opened_body frame m hmany (by simp [toList])
    have hlength : r.opened.length = s₁.opened.length + s₂.opened.length + 1 := by
      rw [hr, ht, hrun₁, hrun₂, List.length_cons, List.length_append]
    refine ⟨r, hbody, ?_⟩
    rw [hlength, Nat.pow_succ]
    omega

end Unclosed

/-- A document opens the bodies of its outermost body, in front of which flat parts stand. -/
lemma opened_file (frame : Frame) (hmid : Reaches mid [.word Keyword.graph.word] ts)
    (hid : ∀ name, mid.toList.head? ≠ some (.id name)) :
    ∃ frame', (file frame ts).trace.opened = (body maxNesting frame' mid).trace.opened := by
  have hlist := hmid.toList_eq
  have hstrict : (optional (keyword .strict)).answer ts.why ts.toList = .found none ts.toList := by
    refine answer_optional_missing (answer_keyword_missing ?_)
    rw [hlist]
    exact fun hword => absurd (Option.some.inj hword) (by decide)
  have hkind : kind.answer ts.why ts.toList = .found false mid.toList := by
    rw [hlist]
    exact answer_kind false mid.toList
  have hname : (optional id).answer mid.why mid.toList = .found none mid.toList :=
    answer_optional_missing (answer_id_missing hid)
  refine ⟨⟨.graph, frame.depth + 1 + 1⟩, ?_⟩
  show ((graph >>= fun g => finished >>= fun _ => pure g)
    ⟨.file, frame.depth + 1⟩ ts).trace.opened = _
  rw [opened_bind_of_flat, graph_eq, within, opened_bind_of_found _ .here hstrict,
    opened_bind_of_found _ hmid hkind, opened_bind_of_found _ .here hname, opened_bind_of_flat]

end Grammar

namespace Graph

open Grammar

/-- In a graph with `n` unclosed subgraphs inside each other bodies are opened `2 ^ (n + 1) - 1`
times, although there are only `n + 1` of them. -/
theorem length_openings_of_unclosed {source : Text} {n : Nat} (hn : n < maxNesting)
    (h : (ofText source).toList = .word Keyword.graph.word :: unclosed n) :
    (openings source).length + 1 = 2 ^ (n + 1) := by
  obtain ⟨mid, hmid, hlist⟩ := exists_reaches_of_toList (u := [.word Keyword.graph.word]) h
  obtain ⟨m, inside, rfl⟩ := exists_of_toList_unclosed hlist
  obtain ⟨frame, hopened⟩ := opened_file .outermost hmid (by simp [toList])
  obtain ⟨t, hrun, hlength⟩ := missing_of_unclosed hn frame hlist
  rw [hrun] at hopened
  rw [openings, Parser.run, hopened]
  exact hlength

example : (openings "graph\x7b subgraph\x7b subgraph\x7b".toList).length + 1 = 2 ^ 3 :=
  length_openings_of_unclosed (by decide) (by decide +kernel)

end Graph

end DotNotation
