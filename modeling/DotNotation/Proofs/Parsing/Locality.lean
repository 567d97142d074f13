/-
# Failures are local

A text was rejected because of the token at the place of the failure.  Whatever stands behind this
token has no part in that: if something else follows it, the text is rejected at the same place,
by the same rule and with the same expectations.

The two runs are compared step by step.  They have the same tokens at the same offsets, up to and
including the token at the place.  As long as a run does not take this token it cannot tell what
stands behind it.  If an attempt of the first run took it, the attempt could not miss any more,
since a failure behind the place would be further than the furthest one; so the whole run would
not miss either.  `Parser.KeepsStep` lists these possibilities, and `Parser.Composed.keepsStep`
carries them through all parsers of the grammar.
-/
import DotNotation.Parsing.Diagnostic
import DotNotation.Proofs.Parsing.Furthest

namespace DotNotation

namespace Parser

variable {α β : Type}

/-- How the outcomes of two runs compare whose tokens differ only behind the first token of a place:
they are the same, or the first run took that token or gave up. -/
inductive KeepsStep (place place' : Tokens) : Outcome α → Outcome α → Prop
  | found {a : α} {rest rest' : Tokens} {trace : Trace} {u : List Token}
      (h : Tokens.Parallel place place' u rest rest') :
      KeepsStep place place' ⟨.found a rest, trace⟩ ⟨.found a rest', trace⟩
  | missing {trace : Trace} : KeepsStep place place' ⟨.missing, trace⟩ ⟨.missing, trace⟩
  | beyond {a : α} {rest : Tokens} {trace : Trace} {other : Outcome α}
      (h : rest.Beyond place.offset) : KeepsStep place place' ⟨.found a rest, trace⟩ other
  | gaveUp {cause : Abort} {trace : Trace} {other : Outcome α} :
      KeepsStep place place' ⟨.gaveUp cause, trace⟩ other

section Combinators

variable {place place' ts ts' : Tokens} {u : List Token} {frame : Frame}

lemma KeepsStep.after {outcome outcome' : Outcome α} (h : KeepsStep place place' outcome outcome')
    (trace : Trace) :
    KeepsStep place place' (Parser.after trace outcome) (Parser.after trace outcome') := by
  cases h with
  | found h => exact .found h
  | missing => exact .missing
  | beyond h => exact .beyond h
  | gaveUp => exact .gaveUp

/-- Beyond the place nothing has to be compared any more. -/
lemma Grounded.keepsStep {outcome : Outcome α} {trace : Trace} (h : Grounded ts outcome)
    (hts : ts.Beyond place.offset)
    (hwithin : (Parser.after trace outcome).trace.Within place.offset) (other : Outcome α) :
    KeepsStep place place' (Parser.after trace outcome) other := by
  obtain ⟨-, houtcome⟩ := Trace.within_join_iff.1 hwithin
  obtain ⟨a, rest, hreply, hrest⟩ | ⟨cause, hreply⟩ := h.beyond hts houtcome
  · rw [Parser.after, hreply]
    exact .beyond hrest
  · rw [Parser.after, hreply]
    exact .gaveUp

/-- Two sequences keep step as long as their parts do. -/
lemma KeepsStep.bind {p p' : Parser α} {f f' : α → Parser β}
    (hp : KeepsStep place place' (p frame ts) (p' frame ts'))
    (hwithin : ((p >>= f) frame ts).trace.Within place.offset)
    (hgrounded : ∀ a rest, Grounded rest (f a frame rest))
    (hf : ∀ a rest rest' u, (p' frame ts').reply = .found a rest' →
      Tokens.Parallel place place' u rest rest' → (f a frame rest).trace.Within place.offset →
        KeepsStep place place' (f a frame rest) (f' a frame rest')) :
    KeepsStep place place' ((p >>= f) frame ts) ((p' >>= f') frame ts') := by
  change (andThen p f frame ts).trace.Within _ at hwithin
  show KeepsStep place place' (andThen p f frame ts) (andThen p' f' frame ts')
  unfold andThen at hwithin ⊢
  generalize p frame ts = outcome at hp hwithin
  generalize p' frame ts' = outcome' at hp hf
  cases hp with
  | @found a rest rest' trace u h =>
    obtain ⟨-, hrest⟩ := Trace.within_join_iff.1 hwithin
    exact (hf a rest rest' u rfl h hrest).after trace
  | missing => exact .missing
  | @beyond a rest trace _ h => exact (hgrounded a rest).keepsStep h hwithin _
  | gaveUp => exact .gaveUp

lemma KeepsStep.orElse {p q : Parser α} (hp : KeepsStep place place' (p frame ts) (p frame ts'))
    (hq : (q frame ts).trace.Within place.offset →
      KeepsStep place place' (q frame ts) (q frame ts'))
    (hwithin : (orElse p q frame ts).trace.Within place.offset) :
    KeepsStep place place' (orElse p q frame ts) (orElse p q frame ts') := by
  unfold Parser.orElse at hwithin ⊢
  generalize p frame ts = outcome at hp hwithin
  generalize p frame ts' = outcome' at hp
  cases hp with
  | found h => exact .found h
  | missing =>
    obtain ⟨-, hrest⟩ := Trace.within_join_iff.1 hwithin
    exact (hq hrest).after _
  | beyond h => exact .beyond h
  | gaveUp => exact .gaveUp

lemma KeepsStep.optional {p : Parser α} (hp : KeepsStep place place' (p frame ts) (p frame ts'))
    (hu : Tokens.Parallel place place' u ts ts') :
    KeepsStep place place' (optional p frame ts) (optional p frame ts') := by
  unfold Parser.optional
  generalize p frame ts = outcome at hp
  generalize p frame ts' = outcome' at hp
  cases hp with
  | found h => exact .found h
  | missing => exact .found hu
  | beyond h => exact .beyond h
  | gaveUp => exact .gaveUp

end Combinators

/-- What is found in one round takes a token. -/
lemma Takes.length_lt_of_optional {p : Parser α} [Uniform p] (htakes : p.Takes 1) {frame : Frame}
    {ts rest : Tokens} {a : α} (h : (optional p frame ts).reply = .found (some a) rest) :
    rest.toList.length < ts.toList.length := by
  have hmatch := reply_eq p frame ts
  rw [reply_optional] at h
  cases hreply : (p frame ts).reply with
  | found a' rest' =>
    rw [hreply] at h hmatch
    cases h
    have hanswer := hmatch.answer_eq
    exact htakes.length_lt hanswer.symm
  | missing =>
    rw [hreply] at h
    cases h
  | gaveUp cause =>
    rw [hreply] at h
    cases h

section Token

variable {m : Nat} {tok : Token} {more more' ts ts' : Tokens} {u : List Token} {frame : Frame}

/-- Before the place two runs look at the same token, and at the place too. -/
lemma Nearsighted.keepsStep {p : Parser α} (h : p.Nearsighted) (hmore : more.Beyond m)
    (hu : Tokens.Parallel (.next m tok more) (.next m tok more') u ts ts') :
    KeepsStep (.next m tok more) (.next m tok more') (p frame ts) (p frame ts') := by
  cases hu with
  | here =>
    have hglanced := h frame m tok more more'
    generalize p frame (.next m tok more) = outcome at hglanced
    generalize p frame (.next m tok more') = outcome' at hglanced
    cases hglanced with
    | found a trace => exact .beyond hmore
    | missing trace => exact .missing
  | @next v rest rest' n first hu =>
    have hglanced := h frame n first rest rest'
    generalize p frame (.next n first rest) = outcome at hglanced
    generalize p frame (.next n first rest') = outcome' at hglanced
    cases hglanced with
    | found a trace => exact .found hu
    | missing trace => exact .missing

lemma exists_next_of_parallel {bound : Tokens}
    (hu : Tokens.Parallel (.next m tok more) (.next m tok more') u ts ts')
    (h : ts'.toList.length ≤ bound.toList.length) : ∃ n other rest, bound = .next n other rest := by
  rw [hu.right.toList_eq, List.length_append] at h
  cases bound with
  | next n other rest => exact ⟨n, other, rest, rfl⟩
  | stop n reason => simp [Tokens.toList] at h

/-- Two repetitions keep step: by induction on the bound of the first.  The bound of the second is
never used up, since it is no shorter than the tokens and the place still has one. -/
lemma keepsStep_manyWithin {p : Parser α} [Uniform p] (htakes : p.Takes 1)
    (hgrounded : ∀ ts, Grounded ts (p frame ts))
    (hp : ∀ ts ts' u, Tokens.Parallel (.next m tok more) (.next m tok more') u ts ts' →
      (p frame ts).trace.Within m →
        KeepsStep (.next m tok more) (.next m tok more') (p frame ts) (p frame ts'))
    (bound bound' : Tokens) (hbound : ts'.toList.length ≤ bound'.toList.length)
    (hu : Tokens.Parallel (.next m tok more) (.next m tok more') u ts ts')
    (hwithin : (manyWithin bound p frame ts).trace.Within m) :
    KeepsStep (.next m tok more) (.next m tok more') (manyWithin bound p frame ts)
      (manyWithin bound' p frame ts') := by
  induction bound generalizing bound' ts ts' u with
  | stop n reason =>
    obtain ⟨n', other', bound', rfl⟩ := exists_next_of_parallel hu hbound
    rw [manyWithin_stop] at hwithin ⊢
    rw [manyWithin_next]
    have hfirst := within_of_bind hwithin
    rw [trace_optional] at hfirst
    refine ((hp ts ts' u hu hfirst).optional hu).bind hwithin ?_ ?_
    · intro o rest
      cases o with
      | none => exact grounded_found [] rest
      | some a => exact grounded_gaveUp _ rest
    · intro o rest rest' v _ hv _
      cases o with
      | none => exact .found hv
      | some a => exact .gaveUp
  | next n other bound ih =>
    obtain ⟨n', other', bound', rfl⟩ := exists_next_of_parallel hu hbound
    rw [manyWithin_next] at hwithin ⊢
    rw [manyWithin_next]
    have hfirst := within_of_bind hwithin
    rw [trace_optional] at hfirst
    refine ((hp ts ts' u hu hfirst).optional hu).bind hwithin ?_ ?_
    · intro o rest
      cases o with
      | none => exact grounded_found [] rest
      | some a =>
        exact (grounded_manyWithin hgrounded bound rest).bind fun as last =>
          grounded_found (a :: as) last
    · intro o rest rest' v hreply hv hrest
      cases o with
      | none => exact .found hv
      | some a =>
        have hlt := htakes.length_lt_of_optional hreply
        simp only [Tokens.toList, List.length_cons] at hbound
        refine (ih bound' (by omega) hv (within_of_bind hrest)).bind hrest ?_ ?_
        · exact fun as last => grounded_found (a :: as) last
        · exact fun as last last' v _ hv _ => .found hv

/-- The runs of a composed parser on tokens that differ only behind the token at a place keep
step. -/
theorem Composed.keepsStep {p : Parser α} (h : Composed p) (hmore : more.Beyond m)
    (hu : Tokens.Parallel (.next m tok more) (.next m tok more') u ts ts')
    (hwithin : (p frame ts).trace.Within m) :
    KeepsStep (.next m tok more) (.next m tok more') (p frame ts) (p frame ts') := by
  induction h generalizing frame ts ts' u with
  | look _ hnear => exact hnear.keepsStep hmore hu
  | pure a => exact .found hu
  | gaveUp cause => exact .gaveUp
  | expected e =>
    unfold Parser.expected
    cases hu with
    | here => exact .missing
    | next n first hu => exact .missing
  | bind _ hf ihp ihf =>
    exact (ihp hu (within_of_bind hwithin)).bind hwithin (fun a rest => (hf a).grounded _ rest)
      fun a rest rest' v _ hv hrest => ihf a hv hrest
  | orElse _ _ ihp ihq => exact (ihp hu (within_of_orElse hwithin)).orElse (ihq hu) hwithin
  | optional _ ih =>
    rw [trace_optional] at hwithin
    exact (ih hu hwithin).optional hu
  | within rule _ ih => exact ih hu hwithin
  | many hp htakes ih =>
    have := hp.uniform
    exact keepsStep_manyWithin htakes (hp.grounded _) (fun ts ts' u hu hts => ih hu hts) ts ts'
      le_rfl hu hwithin

end Token

end Parser

open DotNotation.Parser

/-- A document that is missing is missed in the same way whatever stands behind the token at the
place. -/
lemma Grammar.file_eq_of_missing {m : Nat} {tok : Token} {more more' ts ts' : Tokens}
    {u : List Token} {frame : Frame} (hmore : more.Beyond m)
    (hu : Tokens.Parallel (.next m tok more) (.next m tok more') u ts ts')
    (hwithin : (file frame ts).trace.Within m) (hmissing : (file frame ts).reply = .missing) :
    file frame ts' = file frame ts := by
  have hstep :
      KeepsStep (.next m tok more) (.next m tok more') (file frame ts) (file frame ts') := by
    refine (composed_graph.keepsStep hmore hu (within_of_bind hwithin)).bind hwithin ?_ ?_
    · exact fun g rest => grounded_end g _ rest
    · intro g rest rest' v _ hv hrest
      refine (nearsighted_finished.keepsStep hmore hv).bind hrest ?_ ?_
      · exact fun _ last => grounded_found g last
      · exact fun _ last last' v _ hv _ => .found hv
  generalize file frame ts = outcome at hstep hmissing
  generalize file frame ts' = outcome' at hstep
  cases hstep with
  | found _ => cases hmissing
  | missing => rfl
  | beyond _ => cases hmissing
  | gaveUp => cases hmissing

/-- Behind a token and a space a text can be replaced: the tokens up to there stay. -/
lemma Tokens.Parts.exists_parallel {n : Nat} {place : Tokens} {u : List Token} {tok : Token}
    {before behind : Text} (h : Tokens.Parts n place u before (tok.render ++ behind))
    (htok : tok.StandsBefore behind) (w : Text) :
    ∃ more more', place = .next place.offset tok more ∧
      Tokens.Parallel (.next place.offset tok more) (.next place.offset tok more') u
        (Tokens.scanFrom n (before ++ (tok.render ++ behind)))
        (Tokens.scanFrom n (before ++ (tok.render ++ ' ' :: w))) := by
  have hnil := Piece.render_ne_nil_of_read (Piece.read_render htok)
  have hspace : tok.StandsBefore ([] ++ ' ' :: w) := htok.continued rfl
  have hkept := h.kept _ (.front hnil behind (r := ' ' :: w) rfl)
  have hplace := h.scan_eq
  rw [Tokens.scanFrom_render htok] at hplace
  rw [List.nil_append] at hspace
  rw [Tokens.scanFrom_render hspace] at hkept
  exact ⟨_, _, hplace, hplace ▸ hkept⟩

/-- Failures are local.  If a text is rejected at a place where a token stands, then it is rejected
with the same failure, at the same line and column, whatever comes behind that token and a space. -/
theorem Graph.parse_failure_local {source behind : Text} {failure : Failure} {tok : Token}
    (h : Graph.parse source = .error (.unexpected failure))
    (hsource : source.drop failure.offset = tok.render ++ behind) (htok : tok.StandsBefore behind)
    (w : Text) :
    let other := source.take failure.offset ++ tok.render ++ ' ' :: w
    Graph.parse other = .error (.unexpected failure) ∧
      (failure.diagnostic other).line = (failure.diagnostic source).line ∧
      (failure.diagnostic other).column = (failure.diagnostic source).column := by
  intro other
  obtain ⟨hmissing, hfailure⟩ := Graph.missing_of_parse h
  obtain ⟨place, u, hu, hoffset⟩ :=
    (Grammar.grounded_file .outermost (Tokens.ofText source)).place failure.offset
      ⟨failure, hfailure, rfl⟩
  obtain ⟨before, rest, rfl, hparts⟩ := Tokens.exists_parts source 0 hu
  have hbefore : failure.offset = before.length := by
    rw [← hoffset, hparts.offset_eq, Nat.zero_add]
  rw [hbefore, List.drop_left] at hsource
  subst hsource
  have htake : (before ++ (tok.render ++ behind)).take failure.offset = before := by
    rw [hbefore, List.take_left]
  have hother : other = before ++ (tok.render ++ ' ' :: w) := by
    rw [← List.append_assoc]
    exact congrArg (· ++ tok.render ++ ' ' :: w) htake
  obtain ⟨more, more', hplace, hparallel⟩ := hparts.exists_parallel htok w
  rw [hplace] at hu
  have hwithin :
      (Grammar.file.run (before ++ (tok.render ++ behind))).trace.Within place.offset := by
    intro f hf
    rw [hfailure, Option.mem_some_iff] at hf
    rw [← hf, hoffset]
  have hrun : Grammar.file.run other = Grammar.file.run (before ++ (tok.render ++ behind)) := by
    rw [hother]
    exact Grammar.file_eq_of_missing (Tokens.beyond_of_reaches hu) hparallel hwithin hmissing
  have hfront : (failure.diagnostic other).before =
      (failure.diagnostic (before ++ (tok.render ++ behind))).before := by
    show other.take failure.offset = (before ++ (tok.render ++ behind)).take failure.offset
    rw [htake, hother, hbefore, List.take_left]
  refine ⟨?_, ?_, ?_⟩
  · rw [← h]
    exact congrArg Outcome.result hrun
  · rw [Diagnostic.line, Diagnostic.line, hfront]
  · rw [Diagnostic.column, Diagnostic.column, Diagnostic.lineStart, Diagnostic.lineStart, hfront]
    rfl

/-- A quoted text is no compass point, also where the rest of the text is an open comment and an
open quotation. -/
theorem Graph.parse_failure_local_port :
    ∃ failure, Graph.parse "graph \x7b\n a:b: \"n\" \x7d".toList = .error (.unexpected failure) ∧
      Graph.parse "graph \x7b\n a:b: \"n\" /* \"".toList = .error (.unexpected failure) ∧
      (failure.diagnostic "graph \x7b\n a:b: \"n\" /* \"".toList).line = 2 ∧
      (failure.diagnostic "graph \x7b\n a:b: \"n\" /* \"".toList).column = 7 := by
  have h : Graph.parse "graph \x7b\n a:b: \"n\" \x7d".toList =
      .error (.unexpected ⟨14, ⟨.compass, 8⟩, [.compassPoint]⟩) :=
    parse_eq_of_error? (by decide +kernel)
  have htok : (Token.id ⟨.quoted, ['n']⟩).StandsBefore " \x7d".toList :=
    Token.standsBefore_of_breaks (by decide) (by decide)
  obtain ⟨hparse, hline, hcolumn⟩ := parse_failure_local h (by decide) htok "/* \"".toList
  exact ⟨_, h, hparse, hline, hcolumn⟩

end DotNotation
