/-
# Parsers that keep off bodies

Most rules of the grammar take no brace and open no body.  Whatever they reply, they have not gone
beyond the next brace, and the log of openings stays as it is.  `Parser.Flat` is the class of these
parsers; every combinator keeps it.
-/
import DotNotation.Proofs.Parsing.Spans

namespace DotNotation

namespace Parser

variable {α β : Type}

/-- The run opened no body, and all that it found or missed stands before the next brace. -/
structure FlatRun (ts : Tokens) (outcome : Outcome α) : Prop where
  opened_eq : outcome.trace.opened = []
  rest : ∀ a rest, outcome.reply = .found a rest →
    ∃ u, Tokens.Reaches rest u ts ∧ ∀ tok ∈ u, tok.isBrace = false
  place : ∀ n, outcome.trace.FailsAt n →
    ∃ place u, Tokens.Reaches place u ts ∧ (∀ tok ∈ u, tok.isBrace = false) ∧ place.offset = n

/-- The parser takes no brace and opens no body. -/
class Flat (p : Parser α) : Prop where
  /-- Every run of the parser is flat. -/
  flat : ∀ (frame : Frame) (ts : Tokens), FlatRun ts (p frame ts)

/-- The run of a flat parser is flat. -/
theorem flat_run (p : Parser α) [h : Flat p] (frame : Frame) (ts : Tokens) :
    FlatRun ts (p frame ts) := h.flat frame ts

lemma spans_of_flat (p : Parser α) [Flat p] : p.Spans fun _ u => ∀ tok ∈ u, tok.isBrace = false :=
  fun frame ts a rest hfound => (flat_run p frame ts).rest a rest hfound

section FlatRun

variable {ts mid : Tokens} {outcome : Outcome α} {trace : Trace} {frame : Frame}

lemma FlatRun.of_reaches {u : List Token} (h : FlatRun mid outcome)
    (hmid : Tokens.Reaches mid u ts) (hu : ∀ tok ∈ u, tok.isBrace = false) :
    FlatRun ts outcome where
  opened_eq := h.opened_eq
  rest a rest hrest := by
    obtain ⟨v, hv, hbrace⟩ := h.rest a rest hrest
    exact ⟨u ++ v, hv.trans hmid, List.forall_mem_append.2 ⟨hu, hbrace⟩⟩
  place n hn := by
    obtain ⟨place, v, hv, hbrace, hplace⟩ := h.place n hn
    exact ⟨place, u ++ v, hv.trans hmid, List.forall_mem_append.2 ⟨hu, hbrace⟩, hplace⟩

lemma FlatRun.after (h : FlatRun ts outcome) (hopened : trace.opened = [])
    (hplace : ∀ n, trace.FailsAt n → ∃ place u, Tokens.Reaches place u ts ∧
      (∀ tok ∈ u, tok.isBrace = false) ∧ place.offset = n) :
    FlatRun ts (Parser.after trace outcome) where
  opened_eq := by
    show trace.opened ++ outcome.trace.opened = []
    rw [hopened, h.opened_eq, List.append_nil]
  rest := h.rest
  place n hn := hn.of_join.elim (hplace n) (h.place n)

lemma flatRun_found (a : α) (ts : Tokens) : FlatRun ts ⟨.found a ts, .empty⟩ where
  opened_eq := rfl
  rest b rest h := by
    cases h
    exact ⟨[], .here, by simp⟩
  place n := by
    rintro ⟨f, hf, -⟩
    cases hf

lemma flatRun_missing (ts : Tokens) : FlatRun ts (⟨.missing, .empty⟩ : Outcome α) where
  opened_eq := rfl
  rest := by simp
  place n := by
    rintro ⟨f, hf, -⟩
    cases hf

lemma flatRun_unmet (frame : Frame) (e : Expectation) (ts : Tokens) :
    FlatRun ts (⟨.missing, .unmet frame ts.offset e⟩ : Outcome α) where
  opened_eq := rfl
  rest := by simp
  place n hn := ⟨ts, [], .here, by simp, Trace.failsAt_unmet.1 hn⟩

end FlatRun

/-! ## Combinators -/

section Combinators

variable {p q : Parser α} {f : α → Parser β}

instance flat_pure (a : α) : Flat (pure a : Parser α) where
  flat _ ts := flatRun_found a ts

instance flat_gaveUp (cause : Abort) : Flat (gaveUp cause : Parser α) where
  flat _ _ :=
    { opened_eq := rfl
      rest := by simp [gaveUp]
      place := by
        rintro n ⟨f, hf, -⟩
        cases hf }

instance flat_expected (e : Expectation) : Flat (expected e : Parser α) where
  flat frame ts := flatRun_unmet frame e ts

instance flat_build (part : Except Defect α) : Flat (build part) := by
  cases part with
  | ok a => exact flat_pure a
  | error defect => exact flat_gaveUp _

instance flat_bind [Flat p] [∀ a, Flat (f a)] : Flat (p >>= f) where
  flat frame ts := by
    show FlatRun ts (andThen p f frame ts)
    have hp := flat_run p frame ts
    unfold andThen
    generalize p frame ts = outcome at hp
    rcases outcome with ⟨⟨a, rest⟩ | _ | cause, trace⟩
    · obtain ⟨u, hu, hbrace⟩ := hp.rest a rest rfl
      exact ((flat_run (f a) frame rest).of_reaches hu hbrace).after hp.opened_eq hp.place
    · exact ⟨hp.opened_eq, by simp, hp.place⟩
    · exact ⟨hp.opened_eq, by simp, hp.place⟩

instance flat_orElse [Flat p] [Flat q] : Flat (orElse p q) where
  flat frame ts := by
    have hp := flat_run p frame ts
    unfold orElse
    generalize p frame ts = outcome at hp
    rcases outcome with ⟨⟨a, rest⟩ | _ | cause, trace⟩
    · exact hp
    · exact (flat_run q frame ts).after hp.opened_eq hp.place
    · exact hp

instance flat_optional [Flat p] : Flat (optional p) where
  flat frame ts := by
    have hp := flat_run p frame ts
    unfold optional
    generalize p frame ts = outcome at hp
    rcases outcome with ⟨⟨a, rest⟩ | _ | cause, trace⟩
    · refine ⟨hp.opened_eq, ?_, hp.place⟩
      rintro _ _ ⟨⟩
      exact hp.rest a rest rfl
    · refine ⟨hp.opened_eq, ?_, hp.place⟩
      rintro _ _ ⟨⟩
      exact ⟨[], .here, by simp⟩
    · exact ⟨hp.opened_eq, by simp, hp.place⟩

instance flat_within (rule : Rule) [Flat p] : Flat (within rule p) where
  flat frame ts := flat_run p ⟨rule, frame.depth + 1⟩ ts

instance flat_ite (c : Prop) [Decidable c] [Flat p] [Flat q] : Flat (if c then p else q) := by
  split <;> assumption

instance flat_elim (o : Option β) {g : β → Parser α} [Flat q] [∀ b, Flat (g b)] :
    Flat (o.elim q g) := by
  cases o with
  | none => assumption
  | some b => exact inferInstanceAs (Flat (g b))

instance flat_firstOf_nil : Flat (firstOf [] : Parser α) where
  flat _ ts := flatRun_missing ts

instance flat_firstOf_cons (ps : List (Parser α)) [Flat p] [Flat (firstOf ps)] :
    Flat (firstOf (p :: ps)) :=
  flat_orElse

instance flat_manyWithin (bound : Tokens) [Flat p] : Flat (manyWithin bound p) := by
  induction bound with
  | stop m reason =>
    rw [manyWithin_stop]
    infer_instance
  | next m tok bound ih =>
    rw [manyWithin_next]
    infer_instance

instance flat_many [Flat p] : Flat (many p) where
  flat frame ts := flat_run (manyWithin ts p) frame ts

/-- What looks at one token is flat if it takes no brace and logs nothing. -/
lemma flat_of_looks {select : Token → Option α} (h : p.Looks select)
    (hbrace : ∀ tok, tok.isBrace = true → select tok = none)
    (hopened : ∀ frame ts, (p frame ts).trace.opened = []) : Flat p where
  flat frame ts := by
    have hlooked := h frame ts
    have hlog := hopened frame ts
    generalize p frame ts = outcome at hlooked hlog
    cases hlooked with
    | @found m tok rest a trace ha htrace =>
      refine ⟨hlog, ?_, ?_⟩
      · rintro _ _ ⟨⟩
        refine ⟨[tok], .next m tok .here, ?_⟩
        rw [List.forall_mem_singleton]
        by_contra hne
        rw [hbrace tok (Bool.not_eq_false _ ▸ hne)] at ha
        cases ha
      · rintro n ⟨f, hf, -⟩
        rw [htrace] at hf
        cases hf
    | missing _ _ => exact flatRun_unmet frame _ ts

lemma flat_only {p : Parser Unit} {tok : Token} (h : p.Looks (Token.only tok))
    (hbrace : tok.isBrace = false) (hopened : ∀ frame ts, (p frame ts).trace.opened = []) :
    Flat p := by
  refine flat_of_looks h (fun other hother => Token.only_of_ne ?_) hopened
  rintro rfl
  rw [hbrace] at hother
  cases hother

lemma opened_punct (p : Punct) (frame : Frame) (ts : Tokens) :
    (punct p frame ts).trace.opened = [] := by
  rcases ts with ⟨m, q | name, rest⟩ | ⟨m, reason⟩
  · simp only [punct]
    split <;> rfl
  · rfl
  · rfl

lemma flat_punct {p : Punct} (h : (Token.punct p).isBrace = false) : Flat (punct p) :=
  flat_only (looks_punct p) h (opened_punct p)

instance flat_colon : Flat (punct .colon) := flat_punct rfl

instance flat_equals : Flat (punct .equals) := flat_punct rfl

instance flat_semicolon : Flat (punct .semicolon) := flat_punct rfl

instance flat_comma : Flat (punct .comma) := flat_punct rfl

instance flat_openBracket : Flat (punct .openBracket) := flat_punct rfl

instance flat_closeBracket : Flat (punct .closeBracket) := flat_punct rfl

instance flat_arrow : Flat (punct .arrow) := flat_punct rfl

instance flat_line : Flat (punct .line) := flat_punct rfl

instance flat_keyword (k : Keyword) : Flat (keyword k) := by
  refine flat_only (looks_keyword k) rfl fun frame ts => ?_
  rcases ts with ⟨m, q | name, rest⟩ | ⟨m, reason⟩
  · rfl
  · simp only [keyword]
    split <;> rfl
  · rfl

instance flat_anyId : Flat anyId := by
  refine flat_of_looks looks_anyId ?_ fun frame ts => ?_
  · rintro (p | name) htok
    · rfl
    · cases htok
  · rcases ts with ⟨m, q | name, rest⟩ | ⟨m, reason⟩
    · rfl
    · rfl
    · cases reason <;> rfl

instance flat_compassPoint : Flat compassPoint := by
  refine flat_of_looks looks_compassPoint ?_ fun frame ts => ?_
  · rintro (p | name) htok
    · rfl
    · cases htok
  · rcases ts with ⟨m, q | name, rest⟩ | ⟨m, reason⟩
    · rfl
    · simp only [compassPoint]
      split
      · split <;> rfl
      · rfl
    · rfl

instance flat_finished : Flat finished where
  flat frame ts := by
    rcases ts with ⟨m, tok, rest⟩ | ⟨m, reason⟩
    · exact flatRun_unmet frame .endOfInput _
    · cases reason with
      | endOfInput => exact flatRun_found () _
      | _ => exact flatRun_unmet frame .endOfInput _

end Combinators

end Parser

/-! ## Rules -/

namespace Grammar

open DotNotation.Parser

instance flat_id : Flat id := by
  unfold id
  infer_instance

instance flat_port : Flat port := by
  unfold port
  infer_instance

instance flat_nodeId : Flat nodeId := by
  unfold nodeId
  infer_instance

instance flat_assignment : Flat assignment := by
  unfold assignment
  infer_instance

instance flat_item : Flat item := by
  unfold item
  infer_instance

instance flat_attributeGroup : Flat attributeGroup := by
  unfold attributeGroup
  infer_instance

instance flat_attributeList : Flat attributeList := by
  unfold attributeList
  infer_instance

instance flat_attributes : Flat attributes := by
  unfold attributes
  infer_instance

instance flat_defaultsFor (target : Target) : Flat (defaultsFor target) := by
  unfold defaultsFor
  infer_instance

instance flat_defaults : Flat defaults := by
  rw [defaults_eq]
  infer_instance

instance flat_nodeOrAttribute (name : NodeId) : Flat (nodeOrAttribute name) := by
  rw [nodeOrAttribute_eq]
  infer_instance

instance flat_afterChain (head : Vertex) (more : List Vertex) : Flat (afterChain head more) := by
  cases more with
  | nil =>
    cases head with
    | node name => exact flat_nodeOrAttribute name
    | subgraph group => exact flat_pure _
  | cons next more =>
    unfold afterChain
    infer_instance

instance flat_kind : Flat kind := by
  unfold kind
  infer_instance

end Grammar

end DotNotation
