/-
# Nothing is missing among the expectations of a failure

A text was rejected.  Let it be cut at the place of the failure and continued in a new line in such
a way that it becomes a document.  Then the first token of the continuation was expected.

The two runs are compared step by step.  Before the place they read the same tokens and do the
same.  At the place they look for the same tokens, and where the second run finds what the first
does not find, the first has recorded what it looked for.  If the first run gets beyond the place it
cannot miss any more, since a failure there would be further than the furthest one.
`Parser.Follows` lists these possibilities, and `Parser.Composed.follows` carries them through all
parsers of the grammar.
-/
import DotNotation.Proofs.Parsing.Furthest
import DotNotation.Proofs.Parsing.Soundness

namespace DotNotation

/-- The trace records at the place an expectation that describes the first of the tokens, or the
want of tokens. -/
def Trace.Foresees (place : Tokens) (w : List Token) (t : Trace) : Prop :=
  ∃ e, t.Records place.offset e ∧ e ≠ .vertex ∧ e.Describes w.head?

namespace Trace

variable {place : Tokens} {w : List Token} {s t : Trace}

lemma Foresees.join_left (h : s.Foresees place w) (ht : t.Within place.offset) :
    (s.join t).Foresees place w := by
  obtain ⟨e, he, hdescribes⟩ := h
  exact ⟨e, records_join_iff.2 (Or.inl ⟨he, ht⟩), hdescribes⟩

lemma Foresees.join_right (h : t.Foresees place w) (hs : s.Within place.offset) :
    (s.join t).Foresees place w := by
  obtain ⟨e, he, hdescribes⟩ := h
  exact ⟨e, records_join_iff.2 (Or.inr ⟨he, hs⟩), hdescribes⟩

end Trace

namespace Parser

variable {α β : Type}

/-- How the outcome of a run over a place compares with the answer of a second run, which has other
tokens from the place on. -/
inductive Follows (place : Tokens) (w : List Token) : Outcome α → Answer α → Prop
  | foreseen {outcome : Outcome α} {answer : Answer α} (h : outcome.trace.Foresees place w) :
      Follows place w outcome answer
  | found {a : α} {rest : Tokens} {trace : Trace} {v : List Token}
      (h : Tokens.Reaches place v rest) :
      Follows place w ⟨.found a rest, trace⟩ (.found a (v ++ w))
  | beyond {a : α} {rest : Tokens} {trace : Trace} {answer : Answer α}
      (h : rest.Beyond place.offset) : Follows place w ⟨.found a rest, trace⟩ answer
  | missing {trace : Trace} : Follows place w ⟨.missing, trace⟩ .missing
  | gaveUp {cause : Abort} {trace : Trace} {answer : Answer α} :
      Follows place w ⟨.gaveUp cause, trace⟩ answer

section Follows

variable {place ts : Tokens} {w u : List Token} {why : Stop} {frame : Frame}

lemma Follows.after {outcome : Outcome α} {answer : Answer α} {trace : Trace}
    (h : Follows place w outcome answer) (htrace : trace.Within place.offset) :
    Follows place w (Parser.after trace outcome) answer := by
  cases h with
  | foreseen h => exact .foreseen (h.join_right htrace)
  | found h => exact .found h
  | beyond h => exact .beyond h
  | missing => exact .missing
  | gaveUp => exact .gaveUp

lemma follows_pure (a : α) (hu : Tokens.Reaches place u ts) :
    Follows place w ((pure a : Parser α) frame ts) ((pure a : Parser α).answer why (u ++ w)) := by
  rw [answer_pure]
  exact .found hu

/-- Beyond the place a run can only find something further on, or give up. -/
lemma Grounded.follows {outcome : Outcome α} (h : Grounded ts outcome)
    (hts : ts.Beyond place.offset) (hwithin : outcome.trace.Within place.offset)
    (answer : Answer α) : Follows place w outcome answer := by
  rcases outcome with ⟨reply, trace⟩
  obtain ⟨a, rest, rfl, hrest⟩ | ⟨cause, rfl⟩ := h.beyond hts hwithin
  · exact .beyond hrest
  · exact .gaveUp

lemma Looked.follows {select : Token → Option α} {outcome : Outcome α}
    (h : Looked select frame ts outcome) (hu : Tokens.Reaches place u ts)
    (hplace : ∀ m tok rest, place = .next m tok rest → rest.Beyond m) :
    Follows place w outcome (Answer.take select (u ++ w)) := by
  cases h with
  | @found m tok rest a trace ha _ =>
    cases hu with
    | here => exact .beyond (hplace m tok rest rfl)
    | next _ _ hu =>
      simp only [List.cons_append, Answer.take, ha, Option.elim_some]
      exact .found hu
  | missing hts he =>
    cases hu with
    | here =>
      cases w with
      | nil => exact .missing
      | cons tok w =>
        cases htok : select tok with
        | some a =>
          have hdescribes := (he.2 tok).1 (by simp [htok])
          exact .foreseen ⟨_, Trace.records_unmet.2 ⟨rfl, rfl⟩, he.1, hdescribes⟩
        | none =>
          simp only [List.nil_append, Answer.take, htok, Option.elim_none]
          exact .missing
    | next m tok hu =>
      have htok : select tok = none := hts tok rfl
      simp only [List.cons_append, Answer.take, htok, Option.elim_none]
      exact .missing

/-- Two sequences keep step as long as their parts do. -/
lemma Follows.bind {p p' : Parser α} {f f' : α → Parser β} [Uniform p'] [∀ a, Uniform (f' a)]
    (hp : Follows place w (p frame ts) (p'.answer why (u ++ w)))
    (hwithin : ((p >>= f) frame ts).trace.Within place.offset)
    (hgrounded : ∀ a rest, Grounded rest (f a frame rest))
    (hf : ∀ a rest v, (p frame ts).reply = .found a rest → Tokens.Reaches place v rest →
      (f a frame rest).trace.Within place.offset →
        Follows place w (f a frame rest) ((f' a).answer why (v ++ w))) :
    Follows place w ((p >>= f) frame ts) ((p' >>= f').answer why (u ++ w)) := by
  rw [answer_bind]
  change (andThen p f frame ts).trace.Within _ at hwithin
  show Follows place w (andThen p f frame ts) _
  unfold andThen at hwithin ⊢
  generalize p frame ts = outcome at hp hwithin hf
  generalize p'.answer why (u ++ w) = answer at hp
  cases hp with
  | foreseen h =>
    rcases outcome with ⟨⟨a, rest⟩ | _ | cause, trace⟩
    · exact .foreseen (h.join_left (Trace.within_join_iff.1 hwithin).2)
    · exact .foreseen h
    · exact .foreseen h
  | @found a rest trace v h =>
    obtain ⟨htrace, hrest⟩ := Trace.within_join_iff.1 hwithin
    exact (hf a rest v rfl h hrest).after htrace
  | @beyond a rest trace _ h =>
    obtain ⟨htrace, hrest⟩ := Trace.within_join_iff.1 hwithin
    exact ((hgrounded a rest).follows h hrest _).after htrace
  | missing => exact .missing
  | gaveUp => exact .gaveUp

lemma Follows.orElse {p q : Parser α} [Uniform p] [Uniform q]
    (hp : Follows place w (p frame ts) (p.answer why (u ++ w)))
    (hq : (q frame ts).trace.Within place.offset →
      Follows place w (q frame ts) (q.answer why (u ++ w)))
    (hwithin : (orElse p q frame ts).trace.Within place.offset) :
    Follows place w (orElse p q frame ts) ((orElse p q).answer why (u ++ w)) := by
  rw [answer_orElse]
  unfold Parser.orElse at hwithin ⊢
  generalize p frame ts = outcome at hp hwithin
  generalize p.answer why (u ++ w) = answer at hp
  cases hp with
  | foreseen h =>
    rcases outcome with ⟨⟨a, rest⟩ | _ | cause, trace⟩
    · exact .foreseen h
    · exact .foreseen (h.join_left (Trace.within_join_iff.1 hwithin).2)
    · exact .foreseen h
  | found h => exact .found h
  | beyond h => exact .beyond h
  | missing =>
    obtain ⟨htrace, hrest⟩ := Trace.within_join_iff.1 hwithin
    exact (hq hrest).after htrace
  | gaveUp => exact .gaveUp

lemma Follows.optional {p : Parser α} [Uniform p]
    (hp : Follows place w (p frame ts) (p.answer why (u ++ w))) (hu : Tokens.Reaches place u ts) :
    Follows place w (optional p frame ts) ((optional p).answer why (u ++ w)) := by
  rw [answer_optional]
  unfold Parser.optional
  generalize p frame ts = outcome at hp
  generalize p.answer why (u ++ w) = answer at hp
  cases hp with
  | foreseen h => rcases outcome with ⟨⟨a, rest⟩ | _ | cause, trace⟩ <;> exact .foreseen h
  | found h => exact .found h
  | beyond h => exact .beyond h
  | missing => exact .found hu
  | gaveUp => exact .gaveUp

lemma answer_many_eq_optional {p : Parser α} [Uniform p] (htakes : p.Takes 1) (w : List Token) :
    (many p).answer why w = (optional p >>= fun o =>
      o.elim (pure []) fun a => many p >>= fun as => pure (a :: as)).answer why w := by
  rw [answer_many htakes, answer_bind, answer_optional]
  cases p.answer why w with
  | found a rest => rfl
  | missing => exact (answer_pure _).symm
  | gaveUp cause => rfl

/-- Two repetitions keep step: by induction on the bound of the first.  Where the bound is used up
the first run gives up, so the bound need not be long enough. -/
lemma follows_manyWithin {p : Parser α} [Uniform p] (htakes : p.Takes 1)
    (hgrounded : ∀ ts, Grounded ts (p frame ts))
    (hp : ∀ ts u, Tokens.Reaches place u ts → (p frame ts).trace.Within place.offset →
      Follows place w (p frame ts) (p.answer why (u ++ w)))
    (bound : Tokens) (hu : Tokens.Reaches place u ts)
    (hwithin : (manyWithin bound p frame ts).trace.Within place.offset) :
    Follows place w (manyWithin bound p frame ts) ((many p).answer why (u ++ w)) := by
  rw [answer_many_eq_optional htakes]
  induction bound generalizing ts u with
  | stop m reason =>
    rw [manyWithin_stop] at hwithin ⊢
    have hfirst := within_of_bind hwithin
    rw [trace_optional] at hfirst
    refine ((hp ts u hu hfirst).optional hu).bind hwithin ?_ ?_
    · intro o rest
      cases o with
      | none => exact grounded_found [] rest
      | some a => exact grounded_gaveUp _ rest
    · intro o rest v _ hv _
      cases o with
      | none => exact follows_pure [] hv
      | some a => exact .gaveUp
  | next m tok bound ih =>
    rw [manyWithin_next] at hwithin ⊢
    have hfirst := within_of_bind hwithin
    rw [trace_optional] at hfirst
    refine ((hp ts u hu hfirst).optional hu).bind hwithin ?_ ?_
    · intro o rest
      cases o with
      | none => exact grounded_found [] rest
      | some a =>
        exact (grounded_manyWithin hgrounded bound rest).bind fun as last =>
          grounded_found (a :: as) last
    · intro o rest v _ hv hrest
      cases o with
      | none => exact follows_pure [] hv
      | some a =>
        have hmore := ih hv (within_of_bind hrest)
        rw [← answer_many_eq_optional htakes] at hmore
        refine hmore.bind hrest (fun as last => grounded_found (a :: as) last) ?_
        exact fun as last v _ hv _ => follows_pure (a :: as) hv

end Follows

/-- The runs of a composed parser on tokens that agree up to a place keep step. -/
theorem Composed.follows {p : Parser α} (h : Composed p) {place : Tokens} {w : List Token}
    {why : Stop} (hplace : ∀ m tok rest, place = .next m tok rest → rest.Beyond m)
    {frame : Frame} {ts : Tokens} {u : List Token} (hu : Tokens.Reaches place u ts)
    (hwithin : (p frame ts).trace.Within place.offset) :
    Follows place w (p frame ts) (p.answer why (u ++ w)) := by
  induction h generalizing frame ts u with
  | look h _ =>
    rw [answer_of_take h.reply_eq]
    exact (h frame ts).follows hu hplace
  | pure a => exact follows_pure a hu
  | gaveUp cause => exact .gaveUp
  | expected e => exact .missing
  | bind hp hf ihp ihf =>
    have := hp.uniform
    have := fun a => (hf a).uniform
    exact (ihp hu (within_of_bind hwithin)).bind hwithin (fun a rest => (hf a).grounded _ rest)
      fun a rest v _ hv hrest => ihf a hv hrest
  | orElse hp hq ihp ihq =>
    have := hp.uniform
    have := hq.uniform
    exact (ihp hu (within_of_orElse hwithin)).orElse (ihq hu) hwithin
  | optional hp ih =>
    have := hp.uniform
    rw [trace_optional] at hwithin
    exact (ih hu hwithin).optional hu
  | within rule hp ih =>
    have := hp.uniform
    rw [answer_within]
    exact ih hu hwithin
  | many hp htakes ih =>
    have := hp.uniform
    exact follows_manyWithin htakes (hp.grounded _) (fun ts u hu hts => ih hu hts) ts hu hwithin

/-- Where the first run finds something left, the second run is at the end only if it has no tokens
from the place on. -/
lemma follows_finished {place rest : Tokens} {w v : List Token} {why : Stop} {frame : Frame}
    (hv : Tokens.Reaches place v rest) (h : (finished frame rest).reply = .missing) :
    Follows place w (finished frame rest) (finished.answer why (v ++ w)) := by
  have houtcome : finished frame rest = ⟨.missing, .unmet frame rest.offset .endOfInput⟩ := by
    rcases rest with ⟨m, tok, rest⟩ | ⟨m, reason⟩
    · rfl
    · cases reason with
      | endOfInput => cases h
      | _ => rfl
  rw [houtcome, answer_finished]
  cases hv with
  | here =>
    split
    · rename_i hend
      refine .foreseen ⟨.endOfInput, Trace.records_unmet.2 ⟨rfl, rfl⟩, by simp, ?_⟩
      rw [List.nil_append] at hend
      rw [hend.1]
      rfl
    · exact .missing
  | next m tok hv =>
    rw [if_neg (by simp)]
    exact .missing

end Parser

open DotNotation.Parser

/-- If a document is missing here and found with other tokens from the place on, then the first of
these was expected. -/
lemma Grammar.foresees_of_file {place ts : Tokens} {w u rest : List Token} {why : Stop}
    {frame : Frame} {g : Graph} (hplace : ∀ m tok rest, place = .next m tok rest → rest.Beyond m)
    (hu : Tokens.Reaches place u ts) (hwithin : (file frame ts).trace.Within place.offset)
    (hmissing : (file frame ts).reply = .missing)
    (hfound : file.answer why (u ++ w) = .found g rest) :
    (file frame ts).trace.Foresees place w := by
  have hfollows : Follows place w (file frame ts) (file.answer why (u ++ w)) := by
    unfold file at hwithin hmissing ⊢
    rw [answer_within]
    refine (composed_graph.follows hplace hu (within_of_bind hwithin)).bind hwithin ?_ ?_
    · exact fun g rest => grounded_end g _ rest
    · intro g rest v hreply hv hrest
      have hend : (finished ⟨.file, frame.depth + 1⟩ rest).reply = .missing := by
        change ((graph >>= _) _ ts).reply = _ at hmissing
        rw [reply_bind, hreply] at hmissing
        simp only [reply_bind] at hmissing
        cases h : (finished ⟨.file, frame.depth + 1⟩ rest).reply with
        | missing => rfl
        | found a last =>
          rw [h] at hmissing
          cases hmissing
        | gaveUp cause =>
          rw [h] at hmissing
          cases hmissing
      refine (follows_finished hv hend).bind hrest (fun _ last => grounded_found g last) ?_
      exact fun _ last v _ hv _ => follows_pure g hv
  rw [hfound] at hfollows
  generalize file frame ts = outcome at hfollows hmissing
  cases hfollows with
  | foreseen h => exact h
  | found _ => cases hmissing
  | beyond _ => cases hmissing
  | gaveUp => cases hmissing

/-- The expectations of a failure are complete.  If a rejected text is cut at the place of the
failure and continued in a new line so that it becomes a document, then the first token of the
continuation, or that there is none, was expected.  This does not rest on the expectation of a
vertex, which says no more than others do. -/
theorem Graph.expected_of_parse {source t : Text} {failure : Failure} {g : Graph}
    (h : Graph.parse source = .error (.unexpected failure))
    (ht : Graph.parse (source.take failure.offset ++ '\n' :: t) = .ok g) :
    ∃ e ∈ failure.expected,
      e ≠ .vertex ∧ e.Describes (Tokens.ofText ('\n' :: t)).toList.head? := by
  obtain ⟨hmissing, hfailure⟩ := Graph.missing_of_parse h
  obtain ⟨place, u, hu, hoffset⟩ :=
    (Grammar.grounded_file .outermost (Tokens.ofText source)).place failure.offset
      ⟨failure, hfailure, rfl⟩
  rw [← hoffset] at ht
  obtain ⟨rest, hfound⟩ := Grammar.file.result_eq_ok_iff.1 ht
  rw [(Tokens.alike_cut hu t).1] at hfound
  have hplace : ∀ m tok rest, place = .next m tok rest → rest.Beyond m := by
    rintro m tok rest rfl
    exact Tokens.beyond_of_reaches hu
  have hwithin : (Grammar.file.run source).trace.Within place.offset := by
    intro f hf
    rw [hfailure, Option.mem_some_iff] at hf
    rw [← hf, hoffset]
  obtain ⟨e, ⟨f, hf, -, he⟩, hdescribes⟩ :=
    Grammar.foresees_of_file hplace hu hwithin hmissing hfound
  change f ∈ (Grammar.file.run source).trace.failure at hf
  rw [hfailure, Option.mem_some_iff] at hf
  exact ⟨e, hf ▸ he, hdescribes⟩

/-- Behind a bare subgraph name a body was expected, also after the parser had gone back to reading
the name as a node of its own; and behind the second colon of a port only a compass point was. -/
theorem Graph.expected_of_parse_subgraph_port :
    (∃ failure, Graph.parse "graph \x7b a -- subgraph b".toList = .error (.unexpected failure) ∧
      ∃ e ∈ failure.expected, e ≠ .vertex ∧
        e.Describes (Tokens.ofText ('\n' :: "/*\x7d*/ \x7bc\x7d\x7d".toList)).toList.head?) ∧
    ∃ failure, Graph.parse "graph \x7b a:b: \"".toList = .error (.unexpected failure) ∧
      ∃ e ∈ failure.expected, e ≠ .vertex ∧
        e.Describes (Tokens.ofText ('\n' :: "#e\nsw\x7d".toList)).toList.head? := by
  have hsubgraph : Graph.parse "graph \x7b a -- subgraph b".toList = .error (.unexpected
      ⟨23, ⟨.body, 3⟩, [.punct .openBrace, .punct .colon, .punct .arrow, .punct .line,
        .punct .equals, .punct .openBracket, .punct .semicolon, .keyword .graph, .keyword .node,
        .keyword .edge, .keyword .subgraph, .id, .vertex, .punct .closeBrace]⟩) :=
    parse_eq_of_error? (by decide +kernel)
  have hport : Graph.parse "graph \x7b a:b: \"".toList =
      .error (.unexpected ⟨13, ⟨.compass, 8⟩, [.compassPoint]⟩) :=
    parse_eq_of_error? (by decide +kernel)
  constructor
  · obtain ⟨g, hg⟩ := Graph.exists_of_isOk (by decide +kernel :
      (Graph.parse ("graph \x7b a -- subgraph b".toList.take 23 ++
        '\n' :: "/*\x7d*/ \x7bc\x7d\x7d".toList)).isOk = true)
    exact ⟨_, hsubgraph, expected_of_parse hsubgraph hg⟩
  · obtain ⟨g, hg⟩ := Graph.exists_of_isOk (by decide +kernel :
      (Graph.parse ("graph \x7b a:b: \"".toList.take 13 ++
        '\n' :: "#e\nsw\x7d".toList)).isOk = true)
    exact ⟨_, hport, expected_of_parse hport hg⟩

end DotNotation
