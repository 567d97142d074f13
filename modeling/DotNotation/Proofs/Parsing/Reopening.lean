/-
# Bodies that are opened twice

A body that is left open can be announced by the word for a subgraph.  After the subgraph was lost
this word is read as a node, the name behind it as another one, and the body as a subgraph without
the word: it is opened again.  This happens in front of the furthest failure only, and nothing else
makes a run open a body again.  The main results are

* `Graph.openings_eq_of_parse`: while a document is accepted every body is opened once;
* `Graph.nodup_openings_iff`: a body is opened twice exactly if a document is rejected inside an
  announced body.
-/
import DotNotation.Proofs.Parsing.Straying

namespace DotNotation

open Token Tokens Trace

namespace Grammar

open DotNotation.Parser

section Rules

variable {room : Nat} {frame : Frame} {ts : Tokens}

/-! ## Statements before a body that is left open -/

section LeftOpen

variable {why : Stop} {w : List Token} {m : Nat} {inside rest : Tokens} {name : Option Id}

lemma terminated_missing_of_vertex (hid : ∀ name, w.head? ≠ some (.id name))
    (h : (vertex (body room)).answer why w = .missing) :
    (terminated (body room)).answer why w = .missing := by
  have hdefaults : defaults.answer why w = .missing := by
    refine defaults_missing ?_
    rintro target next rfl
    exact absurd rfl (hid _)
  unfold terminated statement
  refine answer_bind_missing ?_
  rw [answer_within, answer_orElse_missing hdefaults, vertexStatement_eq, answer_bind_missing h]

lemma vertex_missing_of_body
    (h : (body room).answer why (.punct .openBrace :: w) = .missing) :
    (vertex (body room)).answer why (.punct .openBrace :: w) = .missing := by
  have hgroup : (subgraph (body room)).answer why (.punct .openBrace :: w) = .missing := by
    rw [subgraph_eq_marker, answer_within,
      answer_bind_found (answer_marker_none (by simp [Token.word])), answer_bind_missing h]
  rw [vertex_eq_nodeVertex, answer_within, answer_orElse_missing (answer_bind_missing hgroup)]
  exact answer_nodeVertex_missing (by simp)

lemma defaults_missing_at_brace (name : Id) :
    defaults.answer why (.id name :: .punct .openBrace :: w) = .missing := by
  refine defaults_missing ?_
  intro target next hnext
  obtain ⟨-, rfl⟩ := List.cons.inj hnext
  simp

/-- Before a body that is left open a name is read as a node, even if it is the word for a
subgraph. -/
lemma answer_vertex_named {name : Id} (hname : name.isValid = true)
    (h : (body room).answer why (.punct .openBrace :: w) = .missing) :
    (vertex (body room)).answer why (.id name :: .punct .openBrace :: w) =
      .found (.node ⟨name, none⟩) (.punct .openBrace :: w) := by
  have hgroup : (subgraph (body room)).answer why (.id name :: .punct .openBrace :: w) =
      .missing := by
    rw [subgraph_eq_marker, answer_within]
    by_cases hword : Token.id name = .word Keyword.subgraph.word
    · have hmarker : marker.answer why (.id name :: .punct .openBrace :: w) =
          .found none (.punct .openBrace :: w) := by
        rw [hword]
        exact answer_marker_word none rfl (by simp)
      rw [answer_bind_found hmarker, answer_bind_missing h]
    · rw [answer_bind_found (answer_marker_none (by simpa using hword)),
        answer_bind_missing (body_missing room (by simp))]
  rw [vertex_eq_nodeVertex, answer_within, answer_orElse_missing (answer_bind_missing hgroup)]
  exact answer_nodeVertex_cons hname (by simp)

lemma exists_answer_terminated {name : Id} (hname : name.isValid = true)
    (h : (body room).answer why (.punct .openBrace :: w) = .missing) :
    ∃ st, (terminated (body room)).answer why (.id name :: .punct .openBrace :: w) =
      .found st (.punct .openBrace :: w) := by
  obtain ⟨st, htail⟩ : ∃ st, (afterChain (.node ⟨name, none⟩) []).answer why
      (.punct .openBrace :: w) = .found st (.punct .openBrace :: w) :=
    exists_answer_afterChain _ _ (by simp) (by simp)
  have hstatement := (answer_statement (defaults_missing_at_brace name)
    (answer_vertex_named hname h) (answer_hops_nil room (by simp) (by simp))).trans htail
  refine ⟨st, (answer_bind_found hstatement).trans ?_⟩
  exact (answer_bind_found (answer_optional_missing (answer_punct_missing (by simp)))).trans
    (answer_pure st)

variable (hbody : ∀ frame ts, ts.Proper → Ran (bodyManner room) ts (body room frame ts))

include hbody

lemma exists_enters (frame : Frame) (hts : (next m (.punct .openBrace) inside).Proper)
    (hopen : LeftOpen room inside) :
    ∃ t, terminated (body room) frame (.next m (.punct .openBrace) inside) = ⟨.missing, t⟩ ∧
      Enters m inside t := by
  obtain ⟨t, hrun⟩ := exists_run_missing frame (.next m (.punct .openBrace) inside)
    (terminated_missing_of_vertex (by simp [toList]) (vertex_missing_of_body hopen))
  have hran := ran_terminated hbody frame hts
  rw [hrun] at hran
  refine ⟨t, hrun, ?_⟩
  cases hran with
  | missing _ hhead => exact absurd rfl hhead
  | lost h hw =>
    obtain rfl : _ = [] := hw
    cases h.reaches
    exact h.enters List.not_mem_nil

/-- Behind a run that went astray at the name of a subgraph, the name is read as a statement, and
then the body is opened and lost again. -/
lemma exists_enters_named (frame : Frame) (hts : rest.Proper) (hopen : LeftOpen room inside)
    (hrest : Reaches (.next m (.punct .openBrace) inside) (ofName name) rest) :
    ∃ ss t, many (terminated (body room)) frame rest =
        ⟨.found ss (.next m (.punct .openBrace) inside), t⟩ ∧ Enters m inside t := by
  obtain ⟨t, hrun, hagain⟩ := exists_enters hbody frame (hts.of_reaches hrest) hopen
  have hmany := many_of_missing hrun
  cases name with
  | none =>
    cases hrest
    exact ⟨[], t, hmany, hagain⟩
  | some name =>
    have hfirst : Reaches (.next m (.punct .openBrace) inside) [.id name] rest := hrest
    have hvalid : name.isValid = true :=
      hts.valid (.id name) (by rw [hrest.toList_eq]; exact List.mem_cons_self)
    obtain ⟨st, hst⟩ : ∃ st, (terminated (body room)).answer rest.why rest.toList =
        .found st (next m (.punct .openBrace) inside).toList := by
      rw [hrest.why_eq, hrest.toList_eq]
      exact exists_answer_terminated hvalid hopen
    have hspans := (composed_terminated room).spans
    obtain ⟨s, hname⟩ := exists_run_found frame hspans hfirst hst
    have hran := ran_terminated hbody frame hts
    rw [hname] at hran
    refine ⟨[st], s.join t, ?_, ?_⟩
    · rw [many_of_found (takes_terminated (takes_body room)) hname, bind_of_found hmany]
      show (⟨.found [st] _, s.join (t.join .empty)⟩ : Outcome (List Statement)) = _
      rw [Trace.join_empty]
    · cases hran with
      | found h _ =>
        obtain rfl := h.reaches.tokens_unique hfirst
        have hbeyond := hts.ordered m _ inside _ hfirst
        exact hagain.join_left hbeyond (h.opened_eq (by simp))
          (h.within hts.ordered (by rw [braces_openBrace]; exact List.mem_cons_self))
      | astray h =>
        rcases h with ⟨m', inside', w, name', hstrays, -⟩ | ⟨m', inside', w, p, hp, hstrays⟩
        · cases name' with
          | some name' => cases hstrays.ahead
          | none =>
            have hw := hstrays.reaches.tokens_unique hfirst
            cases hstrays.ahead
            exact (hstrays.breaks.enters (by simp [hw, ofName])).join hagain
        · cases hstrays.ahead
          simp at hp

end LeftOpen

/-! ## The statements of a body -/

/-- The ways in which the statements behind the tokens `c` of a body end.  All bodies in them are
passed, or a body is left open.  It is opened again if it is announced. -/
inductive Listed (c : List Token) (ts : Tokens) : Outcome (List Statement) → Prop
  | passed {ss : List Statement} {rest : Tokens} {u : List Token} {t : Trace}
      (h : Passes ts rest u t) : Listed c ts ⟨.found ss rest, t⟩
  | gaveUp {cause : Abort} {t : Trace} (h : t.opened <+: ts.braces) :
      Listed c ts ⟨.gaveUp cause, t⟩
  | once {ss : List Statement} {m : Nat} {inside rest : Tokens} {w : List Token} {t : Trace}
      (h : Breaks ts m inside w t) (hw : ¬ Announces (c ++ w)) (hoffset : rest.offset ≤ m)
      (hhead : rest.toList.head? ≠ some (.punct .closeBrace)) : Listed c ts ⟨.found ss rest, t⟩
  | twice {ss : List Statement} {m : Nat} {inside : Tokens} {w : List Token} {s t : Trace}
      (h : Breaks ts m inside w s) (hagain : Enters m inside t) (hw : Announces (c ++ w)) :
      Listed c ts ⟨.found ss (.next m (.punct .openBrace) inside), s.join t⟩

section Listed

variable {c u : List Token} {mid : Tokens} {s : Trace}

lemma Listed.after {outcome : Outcome (List Statement)} (h : Listed (c ++ u) mid outcome)
    (hs : Passes ts mid u s) (hts : ts.Ordered) : Listed c ts (Parser.after s outcome) := by
  cases h with
  | passed h => exact .passed (hs.trans h)
  | gaveUp h => exact .gaveUp (hs.join_prefix h)
  | once h hw hoffset hhead =>
    exact .once (hs.breaks h hts) (by rwa [← List.append_assoc]) hoffset hhead
  | twice h hagain hw =>
    rw [after_found, ← Trace.join_assoc]
    exact .twice (hs.breaks h hts) hagain (by rwa [← List.append_assoc])

lemma Listed.cons {p : Parser (List Statement)} (st : Statement) (h : Listed c ts (p frame ts)) :
    Listed c ts ((p >>= fun ss => pure (st :: ss)) frame ts) := by
  generalize hrun : p frame ts = outcome at h
  cases h with
  | passed h =>
    rw [bind_pure_of_found _ hrun]
    exact .passed h
  | gaveUp h =>
    rw [bind_of_gaveUp hrun]
    exact .gaveUp h
  | once h hw hoffset hhead =>
    rw [bind_pure_of_found _ hrun]
    exact .once h hw hoffset hhead
  | twice h hagain hw =>
    rw [bind_pure_of_found _ hrun]
    exact .twice h hagain hw

variable (hbody : ∀ frame ts, ts.Proper → Ran (bodyManner room) ts (body room frame ts))

include hbody

lemma exists_missing_at_sign (frame : Frame) {rest : Tokens} (hts : rest.Proper) {p : Punct}
    (hp : p = .arrow ∨ p = .line) (hhead : rest.toList.head? = some (.punct p)) :
    ∃ t, terminated (body room) frame rest = ⟨.missing, t⟩ ∧ Passes rest rest [] t := by
  have hid : ∀ name, rest.toList.head? ≠ some (.id name) := by simp [hhead]
  have hbrace : rest.toList.head? ≠ some (.punct .openBrace) := by
    rw [hhead]
    rcases hp with rfl | rfl <;> simp
  obtain ⟨t, hrun⟩ := exists_run_missing frame rest
    (terminated_missing_of_vertex hid (vertex_missing room hid hbrace))
  have hran := ran_terminated hbody frame hts
  rw [hrun] at hran
  refine ⟨t, hrun, ?_⟩
  cases hran with
  | missing h _ => exact h
  | lost h hw =>
    obtain rfl : _ = [] := hw
    cases h.reaches
    exact absurd rfl hbrace

lemma listed_statements (frame : Frame) (hts : ts.Proper) (hcontext : Context c ts.toList) :
    Listed c ts (many (terminated (body room)) frame ts) := by
  induction hn : ts.toList.length using Nat.strong_induction_on generalizing c ts with
  | _ n ih =>
    have htakes := takes_terminated (takes_body room)
    have hround := ran_terminated hbody frame hts
    generalize hrun : terminated (body room) frame ts = outcome at hround
    cases hround with
    | @found st mid u t h hu =>
      have hlt := htakes.length_lt_of_found hrun
      rw [h.reaches.toList_eq] at hcontext
      have hmid := ih _ (hn ▸ hlt) (hts.of_reaches h.reaches) (hcontext.append hu) rfl
      rw [many_of_found htakes hrun]
      exact (hmid.cons st).after h hts.ordered
    | missing h _ =>
      rw [many_of_missing hrun]
      exact .passed h
    | gaveUp h =>
      rw [many_of_gaveUp hrun]
      exact .gaveUp h
    | @lost m inside w t h hw =>
      obtain rfl : w = [] := hw
      rw [many_of_missing hrun]
      cases h.reaches
      refine .once h ?_ le_rfl (by simp [toList])
      rw [List.append_nil]
      exact hcontext.body inside.toList rfl
    | @astray st rest t h =>
      rcases h with ⟨m, inside, w, name, hstrays, hmarks, hopen⟩ | ⟨m, inside, w, p, hp, hstrays⟩
      · obtain ⟨ss, s, hmany, hagain⟩ := exists_enters_named hbody frame
          (hts.of_reaches hstrays.reaches) hopen hstrays.ahead
        rw [many_of_found htakes hrun, bind_pure_of_found _ hmany, after_found]
        refine .twice hstrays.breaks hagain ?_
        rw [← List.append_assoc]
        exact (hmarks c hcontext.fits).announces name
      · have hrest := hts.of_reaches hstrays.reaches
        have hhead : rest.toList.head? = some (.punct p) := by
          rw [hstrays.ahead.toList_eq]
          rfl
        obtain ⟨s, hmissing, hs⟩ := exists_missing_at_sign hbody frame hrest hp hhead
        rw [many_of_found htakes hrun, bind_pure_of_found _ (many_of_missing hmissing), after_found]
        refine .once (hstrays.join_right hts.ordered hs).breaks ?_
          (hrest.ordered.offset_le hstrays.mem_braces) ?_
        · rw [← List.append_assoc]
          exact not_announces_punct (c ++ w) p
        · rw [hhead]
          rcases hp with rfl | rfl <;> simp

end Listed

end Rules

/-! ## Bodies -/

section Bodies

variable {room : Nat} {frame : Frame} {ts inside rest last : Tokens} {u : List Token} {m n : Nat}
  {t : Trace}

lemma head_cases (tok : Token) (ts : Tokens) :
    (∃ m rest, ts = .next m tok rest) ∨ ts.toList.head? ≠ some tok := by
  rcases ts with ⟨m, other, rest⟩ | ⟨m, reason⟩
  · by_cases h : other = tok
    · exact Or.inl ⟨m, rest, by rw [h]⟩
    · exact Or.inr (by simpa [toList] using h)
  · exact Or.inr (by simp [toList])

lemma punct_of_next (p : Punct) (frame : Frame) (m : Nat) (rest : Tokens) :
    Parser.punct p frame (.next m (.punct p) rest) = ⟨.found () rest, .empty⟩ := if_pos rfl

lemma punct_of_ne {p : Punct} (frame : Frame) (h : ts.toList.head? ≠ some (.punct p)) :
    Parser.punct p frame ts = ⟨.missing, .unmet frame ts.offset (.punct p)⟩ := by
  rcases ts with ⟨m, q | name, rest⟩ | ⟨m, reason⟩
  · have hne : p ≠ q := by
      rintro rfl
      exact h rfl
    exact if_neg hne
  · rfl
  · rfl

lemma body_zero_of_next (frame : Frame) (m : Nat) (inside : Tokens) :
    body 0 frame (.next m (.punct .openBrace) inside) = ⟨.gaveUp .tooDeep, .opening m⟩ := rfl

lemma body_succ_of_next (room : Nat) (frame : Frame) (m : Nat) (inside : Tokens) :
    body (room + 1) frame (.next m (.punct .openBrace) inside) =
      after (.opening m) ((many (terminated (body room)) >>= fun ss =>
        Parser.punct .closeBrace >>= fun _ => pure ss) ⟨.body, frame.depth + 1⟩ inside) := rfl

lemma body_of_ne (room : Nat) (frame : Frame) (h : ts.toList.head? ≠ some (.punct .openBrace)) :
    body room frame ts =
      ⟨.missing, .unmet ⟨.body, frame.depth + 1⟩ ts.offset (.punct .openBrace)⟩ := by
  have hopen : openBody ⟨.body, frame.depth + 1⟩ ts =
      ⟨.missing, .unmet ⟨.body, frame.depth + 1⟩ ts.offset (.punct .openBrace)⟩ := by
    rw [openBody, punct_of_ne _ h]
  cases room <;> exact bind_of_missing hopen

lemma passes_unmet (frame : Frame) (e : Expectation) (ts : Tokens) :
    Passes ts ts [] (.unmet frame ts.offset e) :=
  (flatRun_unmet frame e ts : FlatRun ts (_ : Outcome Unit)).passes

/-- A body that is closed was passed. -/
lemma passes_body (h : Passes inside (.next n (.punct .closeBrace) last) u t) :
    Passes (.next m (.punct .openBrace) inside) last
      (.punct .openBrace :: (u ++ [.punct .closeBrace])) ((Trace.opening m).join t) where
  reaches := .next m _ ((Reaches.here.next n _).trans h.reaches)
  balanced := h.balanced.braces
  braces_eq := by
    rw [braces_openBrace, h.braces_eq, braces_of_ne (by simp)]
    rfl
  accounts := by
    intro k hk
    obtain ⟨place, v, opened, hv, hplace, hrising, hbraces, hprefix⟩ := h.accounts k hk
    refine ⟨place, _, m :: opened, hv.next m _, hplace, hrising.openBrace, ?_, ?_⟩
    · rw [braces_openBrace, hbraces, List.cons_append]
    · exact (List.prefix_cons_inj m).2 hprefix

/-- A body in which a run halts is left open. -/
lemma breaks_body (h : Halts [.punct .openBrace] inside t) :
    Breaks (.next m (.punct .openBrace) inside) m inside [] ((Trace.opening m).join t) :=
  ⟨.here, balanced_nil, [], t.opened, braces_openBrace m inside, rfl, h⟩

lemma within_unmet {e : Expectation} (h : n ≤ m) : (Trace.unmet frame n e).Within m := by
  rintro f ⟨⟩
  exact h

/-- How the run of a body ends behind its opening brace. -/
inductive Enclosed (inside : Tokens) : Outcome (List Statement) → Prop
  | closed {ss : List Statement} {n : Nat} {last : Tokens} {u : List Token} {t : Trace}
      (h : Passes inside (.next n (.punct .closeBrace) last) u t) :
      Enclosed inside ⟨.found ss last, t⟩
  | halted {t : Trace} (h : Halts [.punct .openBrace] inside t) : Enclosed inside ⟨.missing, t⟩
  | gaveUp {cause : Abort} {t : Trace} (h : t.opened <+: inside.braces) :
      Enclosed inside ⟨.gaveUp cause, t⟩

lemma Listed.enclosed {p : Parser (List Statement)} (hinside : inside.Ordered)
    (h : Listed [.punct .openBrace] inside (p frame inside)) :
    Enclosed inside ((p >>= fun ss => Parser.punct .closeBrace >>= fun _ => pure ss)
      frame inside) := by
  have hunclosed : ∀ {ss rest t}, p frame inside = ⟨.found ss rest, t⟩ →
      rest.toList.head? ≠ some (.punct .closeBrace) →
        (p >>= fun ss => Parser.punct .closeBrace >>= fun _ => pure ss) frame inside =
          ⟨.missing, t.join (.unmet frame rest.offset (.punct .closeBrace))⟩ := by
    intro ss rest t hrun hhead
    rw [bind_of_found hrun, bind_of_missing (punct_of_ne frame hhead), after_missing]
  generalize hrun : p frame inside = outcome at h
  cases h with
  | @passed ss rest u t h =>
    rcases head_cases (.punct .closeBrace) rest with ⟨n, last, rfl⟩ | hhead
    · rw [bind_of_found hrun, bind_pure_of_found _ (punct_of_next _ frame n last), after_found,
        Trace.join_empty]
      exact .closed h
    · rw [hunclosed hrun hhead]
      exact .halted (h.halts hinside (passes_unmet frame _ rest).accounts rfl
        ⟨rest.offset, by simp, le_rfl⟩)
  | gaveUp h =>
    rw [bind_of_gaveUp hrun]
    exact .gaveUp h
  | once h hw hoffset hhead =>
    rw [hunclosed hrun hhead]
    exact .halted ((h.join_right hinside rfl (within_unmet hoffset)).halts_once hinside hw)
  | twice h hagain hw =>
    rw [hunclosed hrun (by simp [toList]), Trace.join_assoc]
    exact .halted (h.halts_twice
      (hagain.join_right (h.beyond hinside) rfl (within_unmet le_rfl)) hw)

/-- The runs of bodies, by induction on the number of bodies that may be opened inside. -/
theorem ran_body (room : Nat) (frame : Frame) (hts : ts.Proper) :
    Ran (bodyManner room) ts (body room frame ts) := by
  induction room generalizing frame ts with
  | zero =>
    rcases head_cases (.punct .openBrace) ts with ⟨m, inside, rfl⟩ | hhead
    · rw [body_zero_of_next]
      refine .gaveUp ?_
      rw [braces_openBrace]
      exact (List.prefix_cons_inj m).2 List.nil_prefix
    · rw [body_of_ne 0 frame hhead]
      exact .missing (passes_unmet _ _ ts) hhead
  | succ room ih =>
    rcases head_cases (.punct .openBrace) ts with ⟨m, inside, rfl⟩ | hhead
    · have hinside : inside.Proper := hts.of_reaches (.next m _ .here)
      have henclosed := (listed_statements (fun frame ts hts => ih frame hts)
        ⟨.body, frame.depth + 1⟩ hinside (context_openBrace inside.toList)).enclosed hinside.ordered
      have hrun := body_succ_of_next room frame m inside
      rw [hrun]
      generalize (many (terminated (body room)) >>= _) _ _ = outcome at henclosed hrun
      cases henclosed with
      | @closed ss n last u t h => exact .found (passes_body h) ⟨.punct .openBrace :: u, rfl⟩
      | halted h => exact .lost (breaks_body h) ⟨rfl, answer_of_missing hrun⟩
      | gaveUp h =>
        refine .gaveUp ?_
        rw [braces_openBrace]
        exact (List.prefix_cons_inj m).2 h
    · rw [body_of_ne _ frame hhead]
      exact .missing (passes_unmet _ _ ts) hhead

end Bodies

/-! ## Documents -/

section Documents

variable {frame : Frame} {ts : Tokens}

/-- A document is lost only in its outermost body, in front of which no brace stands. -/
def documentManner {α : Type} : Manner α where
  found _ _ _ := True
  missing _ := True
  lost _ w := .punct .openBrace ∉ w
  astray _ _ _ := False

/-- What stands in front of the outermost body is flat. -/
lemma ran_header {α β : Type} (p : Parser α) [Flat p] [Uniform p] {f : α → Parser β}
    (hts : ts.Proper) (hf : ∀ a rest, rest.Proper → Ran documentManner rest (f a frame rest)) :
    Ran documentManner ts ((p >>= f) frame ts) := by
  have hp : Ran ⟨fun _ u _ => .punct .openBrace ∉ u, fun _ => True, fun _ _ => False,
      fun _ _ _ => False⟩ ts (p frame ts) :=
    ran_of_flat (spans_of_flat p) frame (fun _ _ _ _ _ hu => openBrace_notMem hu) fun _ => trivial
  refine hp.bind ?_ (fun h => h) (fun _ _ h => h.elim) fun _ _ _ h => h.elim
  intro a u rest s hs hu
  refine (hf a rest (hts.of_reaches hs.reaches)).after hs hts.ordered (fun _ _ _ _ h => h)
    (fun h => ⟨hs.opened_eq hu, h⟩) (fun inside w hw => ?_) fun _ _ h => h
  exact List.not_mem_append hu hw

lemma ran_graph (frame : Frame) (hts : ts.Proper) : Ran documentManner ts (graph frame ts) := by
  rw [graph_eq, within]
  refine ran_header _ hts fun strict rest hrest => ?_
  refine ran_header _ hrest fun directed rest hrest => ?_
  refine ran_header _ hrest fun name rest hrest => ?_
  refine (ran_body maxNesting _ hrest).map _ (fun _ _ _ _ => trivial) (fun _ => trivial) ?_
    fun _ _ h => h
  rintro inside _ ⟨rfl, -⟩
  exact List.not_mem_nil

/-- How the run of a whole document ends. -/
inductive Read (ts : Tokens) : Outcome Graph → Prop
  | accepted {g : Graph} {rest : Tokens} {t : Trace} (h : t.opened = ts.braces) :
      Read ts ⟨.found g rest, t⟩
  | rejected {t : Trace} (h : Halts [] ts t) : Read ts ⟨.missing, t⟩
  | gaveUp {cause : Abort} {t : Trace} (h : t.opened <+: ts.braces) : Read ts ⟨.gaveUp cause, t⟩

lemma finished_cases (frame : Frame) (ts : Tokens) :
    (ts.braces = [] ∧ finished frame ts = ⟨.found () ts, .empty⟩) ∨
      finished frame ts = ⟨.missing, .unmet frame ts.offset .endOfInput⟩ := by
  rcases ts with ⟨m, tok, rest⟩ | ⟨m, reason⟩
  · exact Or.inr rfl
  · cases reason with
    | endOfInput => exact Or.inl ⟨rfl, rfl⟩
    | _ => exact Or.inr rfl

theorem read_file (frame : Frame) (hts : ts.Proper) : Read ts (file frame ts) := by
  have hgraph := ran_graph ⟨.file, frame.depth + 1⟩ hts
  show Read ts ((graph >>= fun g => finished >>= fun _ => pure g) ⟨.file, frame.depth + 1⟩ ts)
  generalize hrun : graph ⟨.file, frame.depth + 1⟩ ts = outcome at hgraph
  cases hgraph with
  | @found g rest u t h _ =>
    rw [bind_of_found hrun]
    rcases finished_cases ⟨.file, frame.depth + 1⟩ rest with ⟨hrest, hfinished⟩ | hfinished
    · rw [bind_pure_of_found _ hfinished, after_found, Trace.join_empty]
      refine .accepted ?_
      rw [h.braces_eq, hrest, List.append_nil]
    · rw [bind_of_missing hfinished, after_missing]
      exact .rejected (h.halts hts.ordered (passes_unmet _ _ rest).accounts rfl
        ⟨rest.offset, by simp, le_rfl⟩)
  | @missing t h _ =>
    rw [bind_of_missing hrun]
    have hgrounded := composed_graph.grounded ⟨.file, frame.depth + 1⟩ ts
    rw [hrun] at hgrounded
    obtain ⟨n, hn⟩ := hgrounded.missing rfl
    obtain ⟨place, u, hu, rfl⟩ := hgrounded.place n hn
    have hhalts := (passes_here ts).halts (c := []) hts.ordered h.accounts
      (h.opened_eq List.not_mem_nil) ⟨place.offset, hn, hts.ordered.le_of_reaches hu⟩
    rw [Trace.empty_join] at hhalts
    exact .rejected hhalts
  | gaveUp h =>
    rw [bind_of_gaveUp hrun]
    exact .gaveUp h
  | lost h hw =>
    rw [bind_of_missing hrun]
    exact .rejected (h.halts_once hts.ordered fun hannounced =>
      hw (openBrace_mem_of_announces hannounced))
  | astray h => cases h

end Documents

end Grammar

/-! ## Bodies that are opened twice -/

namespace Graph

variable {source : Text}

/-- While a document is accepted every body is opened once, in the order of the text. -/
theorem openings_eq_of_parse {g : Graph} (h : parse source = .ok g) :
    openings source = (Tokens.ofText source).braces := by
  have hread := Grammar.read_file .outermost (proper_ofText source)
  unfold parse at h
  unfold openings
  change Grammar.Read _ (Grammar.file.run source) at hread
  generalize Grammar.file.run source = outcome at hread h
  cases hread with
  | accepted hopened => exact hopened
  | rejected _ => cases h
  | gaveUp _ => cases h

/-- A body is opened twice exactly if a document is rejected while an announced body is left open:
the tokens before the failure open it and do not close it, and in front of it stands the word for a
subgraph, with a name behind it or not, where a vertex can stand. -/
theorem nodup_openings_iff (source : Text) :
    (openings source).Nodup ↔ ∀ failure, parse source = .error (.unexpected failure) →
      ∀ front, LeavesOpen front ((Tokens.ofText source).before failure.offset) →
        ¬ Announces front := by
  have hproper := proper_ofText source
  have hread := Grammar.read_file .outermost hproper
  have hbraces := hproper.ordered.nodup_braces
  unfold parse openings
  change Grammar.Read _ (Grammar.file.run source) at hread
  generalize Grammar.file.run source = outcome at hread
  cases hread with
  | accepted h => exact iff_of_true (h ▸ hbraces) fun _ herror => nomatch herror
  | gaveUp h => exact iff_of_true (hbraces.sublist h.sublist) fun _ herror => nomatch herror
  | rejected h =>
    obtain ⟨place, u, hu, ⟨f, hf, hplace⟩, -, hnodup⟩ := h.stop
    rw [Option.mem_def] at hf
    refine hnodup.trans ?_
    simp only [Outcome.result, Outcome.failure, hf, Option.getD_some, Except.error.injEq,
      ParseError.unexpected.injEq, forall_eq', hplace, hproper.ordered.before_eq hu,
      List.nil_append]

/-- The body of a subgraph that is never closed is opened as the body of the subgraph, and then once
more behind a node with the name of the keyword. -/
theorem opens_unclosed_twice : ¬ (openings "graph\x7bsubgraph\x7b".toList).Nodup := by
  decide +kernel

end Graph

end DotNotation
