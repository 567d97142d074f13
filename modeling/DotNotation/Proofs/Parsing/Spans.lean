/-
# The tokens that a value is read from

A value that a parser finds is read from the tokens between the place where the parser starts and
the place that it leaves.  `Parser.Spans` states a property of the value together with these tokens.
Every combinator has its rule: in a sequence the tokens are put one behind the other, and in a
choice they belong to the alternative that was found.
-/
import DotNotation.Proofs.Parsing.Furthest

namespace DotNotation.Parser

variable {α β : Type}

/-- Whatever the parser finds is read from tokens up to the place that it leaves, and the two have
the property. -/
def Spans (p : Parser α) (P : α → List Token → Prop) : Prop :=
  ∀ (frame : Frame) (ts : Tokens) (a : α) (rest : Tokens),
    (p frame ts).reply = .found a rest → ∃ u, Tokens.Reaches rest u ts ∧ P a u

variable {p q : Parser α} {f : α → Parser β} {P P' : α → List Token → Prop}
  {Q : β → List Token → Prop}

lemma Spans.mono (hp : p.Spans P) (h : ∀ a u, P a u → P' a u) : p.Spans P' := by
  intro frame ts a rest hfound
  obtain ⟨u, hu, ha⟩ := hp frame ts a rest hfound
  exact ⟨u, hu, h a u ha⟩

/-- A composed parser reads its values from some tokens. -/
lemma Composed.spans (hp : Composed p) : p.Spans fun _ _ => True := by
  intro frame ts a rest hfound
  obtain ⟨u, hu⟩ := (hp.grounded frame ts).rest a rest hfound
  exact ⟨u, hu, trivial⟩

lemma spans_pure {a : α} (h : P a []) : (pure a : Parser α).Spans P := by
  intro frame ts b rest hfound
  cases hfound
  exact ⟨[], .here, h⟩

lemma spans_gaveUp (cause : Abort) : (gaveUp cause : Parser α).Spans P := by
  intro frame ts a rest hfound
  cases hfound

lemma spans_bind (hp : p.Spans P) (hf : ∀ a u, P a u → (f a).Spans fun b v => Q b (u ++ v)) :
    (p >>= f).Spans Q := by
  intro frame ts b rest hfound
  rw [reply_bind] at hfound
  cases hreply : (p frame ts).reply with
  | found a mid =>
    rw [hreply] at hfound
    obtain ⟨u, hu, ha⟩ := hp frame ts a mid hreply
    obtain ⟨v, hv, hb⟩ := hf a u ha frame mid b rest hfound
    exact ⟨u ++ v, hv.trans hu, hb⟩
  | missing => simp [hreply] at hfound
  | gaveUp cause => simp [hreply] at hfound

lemma spans_orElse (hp : p.Spans P) (hq : q.Spans P) : (orElse p q).Spans P := by
  intro frame ts a rest hfound
  rw [reply_orElse] at hfound
  cases hreply : (p frame ts).reply with
  | found b mid =>
    rw [hreply] at hfound
    cases hfound
    exact hp frame ts a rest hreply
  | missing =>
    rw [hreply] at hfound
    exact hq frame ts a rest hfound
  | gaveUp cause => simp [hreply] at hfound

lemma spans_optional {Q : Option α → List Token → Prop} (hp : p.Spans P) (hnone : Q none [])
    (hsome : ∀ a u, P a u → Q (some a) u) : (optional p).Spans Q := by
  intro frame ts o rest hfound
  rw [reply_optional] at hfound
  cases hreply : (p frame ts).reply with
  | found a mid =>
    rw [hreply] at hfound
    cases hfound
    obtain ⟨u, hu, ha⟩ := hp frame ts a rest hreply
    exact ⟨u, hu, hsome a u ha⟩
  | missing =>
    rw [hreply] at hfound
    cases hfound
    exact ⟨[], .here, hnone⟩
  | gaveUp cause => simp [hreply] at hfound

lemma spans_within (rule : Rule) (hp : p.Spans P) : (within rule p).Spans P :=
  fun _ ts a rest hfound => hp _ ts a rest hfound

/-- The tokens of a repetition are those of its rounds. -/
lemma spans_manyWithin {P Q : List Token → Prop} (hp : p.Spans fun _ => P) (hnil : Q [])
    (happend : ∀ u v, P u → Q v → Q (u ++ v)) (bound : Tokens) :
    (manyWithin bound p).Spans fun _ => Q := by
  have hround : (optional p).Spans fun o u => match o with
      | none => u = []
      | some _ => P u := spans_optional hp rfl fun _ _ hu => hu
  induction bound with
  | stop m reason =>
    rw [manyWithin_stop]
    refine spans_bind hround fun o u hu => ?_
    cases o with
    | none => exact spans_pure (by rwa [hu])
    | some a => exact spans_gaveUp _
  | next m tok bound ih =>
    rw [manyWithin_next]
    refine spans_bind hround fun o u hu => ?_
    cases o with
    | none => exact spans_pure (by rwa [hu])
    | some a =>
      refine spans_bind ih fun as v hv => spans_pure ?_
      rw [List.append_nil]
      exact happend u v hu hv

lemma spans_many {P Q : List Token → Prop} (hp : p.Spans fun _ => P) (hnil : Q [])
    (happend : ∀ u v, P u → Q v → Q (u ++ v)) : (many p).Spans fun _ => Q :=
  fun frame ts => spans_manyWithin hp hnil happend ts frame ts

/-! ## Tokens -/

lemma Looks.spans {select : Token → Option α} (h : p.Looks select) :
    p.Spans fun a u => ∃ tok, select tok = some a ∧ u = [tok] := by
  intro frame ts a rest hfound
  have hlooked := h frame ts
  generalize p frame ts = outcome at hlooked hfound
  cases hlooked with
  | @found m tok more a' _ ha _ =>
    cases hfound
    exact ⟨[tok], .next m tok .here, tok, ha, rfl⟩
  | missing _ _ => cases hfound

lemma spans_only {p : Parser Unit} {tok : Token} (h : p.Looks (Token.only tok)) :
    p.Spans fun _ u => u = [tok] := by
  refine h.spans.mono ?_
  rintro _ u ⟨other, hother, rfl⟩
  unfold Token.only at hother
  split at hother
  · rename_i heq
    rw [heq]
  · cases hother

lemma spans_keyword (k : Keyword) : (keyword k).Spans fun _ u => u = [.word k.word] :=
  spans_only (looks_keyword k)

lemma spans_finished : finished.Spans fun _ u => u = [] := by
  rintro frame (⟨m, tok, more⟩ | ⟨m, reason⟩) a rest hfound
  · cases hfound
  · cases reason with
    | endOfInput =>
      cases hfound
      exact ⟨[], .here, rfl⟩
    | _ => cases hfound

/-- In a list of tokens, too, a value is read from those in front of what is left. -/
lemma Spans.answer (hp : p.Spans P) {why : Stop} {w rest : List Token} {a : α}
    (h : p.answer why w = .found a rest) : ∃ u, w = u ++ rest ∧ P a u := by
  unfold Parser.answer at h
  cases hreply : (p .outermost (Tokens.ofList why w)).reply with
  | found b last =>
    rw [hreply] at h
    cases h
    obtain ⟨u, hu, ha⟩ := hp _ _ _ _ hreply
    have hlist := hu.toList_eq
    rw [Tokens.toList_ofList] at hlist
    exact ⟨u, hlist, ha⟩
  | missing => simp [hreply, Reply.answer] at h
  | gaveUp cause => simp [hreply, Reply.answer] at h

/-- A whole text that is read starts with the tokens that its value is read from. -/
lemma Spans.run {source : Text} {a : α} (hp : p.Spans P) (h : (p.run source).result = .ok a) :
    ∃ u rest, (Tokens.ofText source).toList = u ++ rest ∧ P a u := by
  unfold Outcome.result at h
  cases hreply : (p.run source).reply with
  | found b rest =>
    rw [hreply] at h
    cases h
    obtain ⟨u, hu, ha⟩ := hp .outermost (Tokens.ofText source) a rest hreply
    exact ⟨u, rest.toList, hu.toList_eq, ha⟩
  | missing => simp [hreply] at h
  | gaveUp cause => simp [hreply] at h

end DotNotation.Parser

namespace DotNotation.Grammar

open DotNotation.Parser

lemma spans_kind : kind.Spans fun directed u => u = [.word (kindKeyword directed).word] := by
  refine spans_orElse ?_ ?_
  · refine spans_bind (spans_keyword .digraph) ?_
    rintro _ _ rfl
    exact spans_pure rfl
  · refine spans_bind (spans_keyword .graph) ?_
    rintro _ _ rfl
    exact spans_pure rfl

end DotNotation.Grammar
