/-
# What fails at the furthest place

A trace keeps the furthest place at which something failed, with everything that was expected
there.  Joining traces loses no expectation at that place, and adds none.

The parsers of the grammar are composed of a few others.  `Parser.Composed` is this composition as
an inductive predicate, so that a property of runs needs one case for each way of composing.  The
first such property is `Parser.Composed.grounded`: a run stays among the places of its tokens, and
whoever misses has a failure to show.

Down to bodies the rules are composed in the same way over any parser for bodies, and only bodies
take braces.  `Parser.Paired` says so of two parsers over two parsers for bodies, and
`Grammar.paired_terminated` of the statements in a body.
-/
import DotNotation.Proofs.Lexical.Places
import DotNotation.Proofs.Parsing.Rules

namespace DotNotation

/-- The expectation describes the token, or the want of one. -/
def Expectation.Describes : Expectation → Option Token → Prop
  | punct p, tok => tok = some (.punct p)
  | keyword k, tok => tok = some (.word k.word)
  | compassPoint, tok => ∃ c : Compass, tok = some (.word c.word)
  | endOfInput, tok => tok = none
  | id, tok | vertex, tok | closingQuote, tok | closingBracket, tok =>
    ∃ name, tok = some (.id name)

/-! ## Traces -/

/-- Of two failures the further one counts; at the same place their expectations are put
together. -/
lemma Failure.join_cases (f g : Failure) :
    f.offset < g.offset ∧ f.join g = g ∨ g.offset < f.offset ∧ f.join g = f ∨
      f.offset = g.offset ∧ (f.join g).offset = g.offset ∧
        ∀ e, e ∈ (f.join g).expected ↔ e ∈ f.expected ∨ e ∈ g.expected := by
  unfold join
  split
  · exact Or.inl ⟨by assumption, rfl⟩
  · split
    · exact Or.inr (Or.inl ⟨by assumption, rfl⟩)
    · have heq : f.offset = g.offset := by omega
      exact Or.inr (Or.inr ⟨heq, heq, fun _ => mem_unite⟩)

namespace Trace

/-- The furthest failure has the given offset. -/
def FailsAt (n : Nat) (t : Trace) : Prop := ∃ f ∈ t.failure, f.offset = n

/-- The expectation is one of those at the furthest place, which has the given offset. -/
def Records (n : Nat) (e : Expectation) (t : Trace) : Prop :=
  ∃ f ∈ t.failure, f.offset = n ∧ e ∈ f.expected

/-- Where something failed something was expected. -/
def Expects (t : Trace) : Prop := ∀ f ∈ t.failure, f.expected ≠ []

/-- Nothing failed behind the offset. -/
def Within (n : Nat) (t : Trace) : Prop := ∀ f ∈ t.failure, f.offset ≤ n

variable {s t : Trace} {m n : Nat} {e : Expectation}

lemma FailsAt.le (h : t.FailsAt m) (ht : t.Within n) : m ≤ n := by
  obtain ⟨f, hf, rfl⟩ := h
  exact ht f hf

@[simp] lemma failsAt_unmet {frame : Frame} : (unmet frame m e).FailsAt n ↔ m = n := by
  simp [FailsAt, unmet]

@[simp] lemma records_unmet {frame : Frame} {e' : Expectation} :
    (unmet frame m e').Records n e ↔ m = n ∧ e = e' := by
  simp [Records, unmet]

/-- What two attempts record at the furthest place is what one of them does, unless the other
went further. -/
lemma records_join_iff : (s.join t).Records n e ↔
    s.Records n e ∧ t.Within n ∨ t.Records n e ∧ s.Within n := by
  obtain ⟨f, xs⟩ := s
  obtain ⟨g, ys⟩ := t
  cases f with
  | none => simp [Records, Within, join]
  | some f =>
    cases g with
    | none => simp [Records, Within, join]
    | some g =>
      have hcases := f.join_cases g
      simp only [Records, Within, join, Option.mem_def, Option.some.injEq, exists_eq_left',
        forall_eq']
      rcases hcases with ⟨hlt, hjoin⟩ | ⟨hlt, hjoin⟩ | ⟨heq, hoffset, hexpected⟩
      · rw [hjoin]
        constructor
        · rintro ⟨rfl, he⟩
          exact Or.inr ⟨⟨rfl, he⟩, hlt.le⟩
        · rintro (⟨⟨rfl, -⟩, hle⟩ | ⟨h, -⟩)
          · omega
          · exact h
      · rw [hjoin]
        constructor
        · rintro ⟨rfl, he⟩
          exact Or.inl ⟨⟨rfl, he⟩, hlt.le⟩
        · rintro (⟨h, -⟩ | ⟨⟨rfl, -⟩, hle⟩)
          · exact h
          · omega
      · rw [hoffset, hexpected, heq]
        constructor
        · rintro ⟨rfl, he | he⟩
          · exact Or.inl ⟨⟨rfl, he⟩, le_refl _⟩
          · exact Or.inr ⟨⟨rfl, he⟩, le_refl _⟩
        · rintro (⟨⟨rfl, he⟩, -⟩ | ⟨⟨rfl, he⟩, -⟩)
          · exact ⟨rfl, Or.inl he⟩
          · exact ⟨rfl, Or.inr he⟩

lemma within_join_iff : (s.join t).Within n ↔ s.Within n ∧ t.Within n := by
  obtain ⟨f, xs⟩ := s
  obtain ⟨g, ys⟩ := t
  cases f with
  | none => simp [Within, join]
  | some f =>
    cases g with
    | none => simp [Within, join]
    | some g =>
      have hcases := f.join_cases g
      simp only [Within, join, Option.mem_def, Option.some.injEq, forall_eq']
      rcases hcases with ⟨hlt, hjoin⟩ | ⟨hlt, hjoin⟩ | ⟨heq, hoffset, -⟩
      · rw [hjoin]
        omega
      · rw [hjoin]
        omega
      · rw [hoffset]
        omega

/-- Two attempts fail where one of them does. -/
lemma FailsAt.of_join (h : (s.join t).FailsAt n) : s.FailsAt n ∨ t.FailsAt n := by
  obtain ⟨f, xs⟩ := s
  obtain ⟨g, ys⟩ := t
  cases f with
  | none => exact Or.inr h
  | some f =>
    cases g with
    | none => exact Or.inl h
    | some g =>
      have hcases := f.join_cases g
      simp only [FailsAt, join, Option.mem_def, Option.some.injEq, exists_eq_left'] at h ⊢
      rcases hcases with ⟨-, hjoin⟩ | ⟨-, hjoin⟩ | ⟨-, hoffset, -⟩
      · exact Or.inr (hjoin ▸ h)
      · exact Or.inl (hjoin ▸ h)
      · exact Or.inr (hoffset ▸ h)

lemma expects_unmet (frame : Frame) (m : Nat) (e : Expectation) : (unmet frame m e).Expects := by
  simp [Expects, unmet]

lemma expects_of_failure_eq_none (h : t.failure = none) : t.Expects := by
  simp [Expects, h]

/-- Joining traces drops no expectation at the place that is kept. -/
lemma Expects.join (hs : s.Expects) (ht : t.Expects) : (s.join t).Expects := by
  obtain ⟨f, xs⟩ := s
  obtain ⟨g, ys⟩ := t
  cases f with
  | none => exact ht
  | some f =>
    cases g with
    | none => exact hs
    | some g =>
      have hcases := f.join_cases g
      simp only [Expects, Trace.join, Option.mem_def, Option.some.injEq, forall_eq'] at hs ht ⊢
      rcases hcases with ⟨-, hjoin⟩ | ⟨-, hjoin⟩ | ⟨-, -, hexpected⟩
      · rwa [hjoin]
      · rwa [hjoin]
      · obtain ⟨e, he⟩ := List.exists_mem_of_ne_nil _ hs
        exact List.ne_nil_of_mem ((hexpected e).2 (Or.inl he))

/-- A failure is never forgotten, though it may give way to a further one. -/
lemma exists_failsAt_join (h : (∃ m, s.FailsAt m) ∨ ∃ m, t.FailsAt m) :
    ∃ m, (s.join t).FailsAt m := by
  have hexists : ∀ r : Trace, (∃ m, r.FailsAt m) ↔ r.failure.isSome := by
    intro r
    cases hr : r.failure <;> simp [FailsAt, hr]
  simp only [hexists] at h ⊢
  obtain ⟨f, xs⟩ := s
  obtain ⟨g, ys⟩ := t
  cases f <;> cases g <;> simp_all [join]

end Trace

/-! ## Looking at one token -/

/-- The expectation stands for looking for one of the selected tokens. -/
def Expectation.StandsFor {α : Type} (e : Expectation) (select : Token → Option α) : Prop :=
  e ≠ .vertex ∧ ∀ tok, (select tok).isSome ↔ e.Describes (some tok)

/-- Is the token a brace? -/
def Token.isBrace : Token → Bool
  | punct .openBrace => true
  | punct .closeBrace => true
  | _ => false

namespace Parser

variable {α β : Type}

/-- The first token is taken if it is selected; otherwise an expectation that stands for the
selected tokens is recorded. -/
inductive Looked (select : Token → Option α) (frame : Frame) : Tokens → Outcome α → Prop
  | found {m : Nat} {tok : Token} {rest : Tokens} {a : α} {trace : Trace}
      (ha : select tok = some a) (htrace : trace.failure = none) :
      Looked select frame (.next m tok rest) ⟨.found a rest, trace⟩
  | missing {ts : Tokens} {e : Expectation} (hts : ∀ tok ∈ ts.toList.head?, select tok = none)
      (he : e.StandsFor select) : Looked select frame ts ⟨.missing, .unmet frame ts.offset e⟩

/-- The parser takes one token of those that are selected. -/
def Looks (p : Parser α) (select : Token → Option α) : Prop :=
  ∀ frame ts, Looked select frame ts (p frame ts)

lemma looks_punct (p : Punct) : (punct p).Looks (Token.only (.punct p)) := by
  have he : (Expectation.punct p).StandsFor (Token.only (.punct p)) :=
    ⟨by simp, by simp [Token.only, Expectation.Describes]⟩
  rintro frame (⟨m, q | name, rest⟩ | ⟨m, reason⟩)
  · by_cases h : p = q
    · subst h
      have hfound : punct p frame (.next m (.punct p) rest) = ⟨.found () rest, .empty⟩ := if_pos rfl
      rw [hfound]
      exact .found (Token.only_self _) rfl
    · have hmissing : punct p frame (.next m (.punct q) rest) = expected (.punct p) frame _ :=
        if_neg h
      rw [hmissing]
      exact .missing (by simp [Tokens.toList, Token.only, Ne.symm h]) he
  · exact .missing (by simp [Tokens.toList, Token.only]) he
  · exact .missing (by simp [Tokens.toList]) he

lemma looks_openBody : openBody.Looks (Token.only (.punct .openBrace)) := by
  intro frame ts
  have h := looks_punct .openBrace frame ts
  unfold openBody
  generalize punct .openBrace frame ts = outcome at h
  cases h with
  | found ha _ => exact .found ha rfl
  | missing hts he => exact .missing hts he

lemma looks_keyword (k : Keyword) : (keyword k).Looks (Token.only (.word k.word)) := by
  have he : (Expectation.keyword k).StandsFor (Token.only (.word k.word)) :=
    ⟨by simp, by simp [Token.only, Expectation.Describes]⟩
  rintro frame (⟨m, q | name, rest⟩ | ⟨m, reason⟩)
  · exact .missing (by simp [Tokens.toList, Token.only, Token.word]) he
  · by_cases h : name.isWord k.word = true
    · have hfound : keyword k frame (.next m (.id name) rest) = ⟨.found () rest, .empty⟩ := if_pos h
      rw [hfound]
      exact .found (by rw [Id.isWord_iff.1 h]; exact Token.only_self _) rfl
    · have hmissing : keyword k frame (.next m (.id name) rest) = expected (.keyword k) frame _ :=
        if_neg h
      rw [Id.isWord_iff] at h
      rw [hmissing]
      exact .missing (by simp [Tokens.toList, Token.only, Token.word, h]) he
  · exact .missing (by simp [Tokens.toList]) he

lemma looks_anyId : anyId.Looks Token.id? := by
  have hid : ∀ tok, (Token.id? tok).isSome ↔ ∃ name, some tok = some (Token.id name) := by
    rintro (p | name) <;> simp [Token.id?]
  rintro frame (⟨m, q | name, rest⟩ | ⟨m, reason⟩)
  · exact .missing (by simp [Tokens.toList, Token.id?]) (e := .id) ⟨by simp, hid⟩
  · exact .found rfl rfl
  · cases reason with
    | openQuote => exact .missing (by simp [Tokens.toList]) (e := .closingQuote) ⟨by simp, hid⟩
    | openLabel => exact .missing (by simp [Tokens.toList]) (e := .closingBracket) ⟨by simp, hid⟩
    | _ => exact .missing (by simp [Tokens.toList]) (e := .id) ⟨by simp, hid⟩

lemma looks_compassPoint : compassPoint.Looks Token.compass? := by
  have he : Expectation.compassPoint.StandsFor Token.compass? := by
    refine ⟨by simp, ?_⟩
    rintro (p | ⟨kind, value⟩)
    · simp [Token.compass?, Expectation.Describes, Token.word]
    · cases kind with
      | plain =>
        simp only [Token.compass?, Option.isSome_iff_exists, Expectation.Describes, Token.word,
          Option.some.injEq, Token.id.injEq, Id.mk.injEq, true_and]
        refine exists_congr fun c => ⟨fun h => (Compass.word_of_ofWord? h).symm, ?_⟩
        rintro rfl
        exact Compass.ofWord?_word c
      | quoted => simp [Token.compass?, Expectation.Describes, Token.word]
      | html => simp [Token.compass?, Expectation.Describes, Token.word]
  rintro frame (⟨m, q | ⟨kind, value⟩, rest⟩ | ⟨m, reason⟩)
  · exact .missing (by simp [Tokens.toList, Token.compass?]) he
  · cases kind with
    | plain =>
      cases h : Compass.ofWord? value with
      | some c =>
        have hfound : compassPoint frame (.next m (.id ⟨.plain, value⟩) rest) =
            ⟨.found c rest, .empty⟩ := by simp [compassPoint, h]
        rw [hfound]
        exact .found h rfl
      | none =>
        have hmissing : compassPoint frame (.next m (.id ⟨.plain, value⟩) rest) =
            expected .compassPoint frame (.next m (.id ⟨.plain, value⟩) rest) := by
          simp [compassPoint, h]
        rw [hmissing]
        exact .missing (by simp [Tokens.toList, Token.compass?, h]) he
    | quoted => exact .missing (by simp [Tokens.toList, Token.compass?]) he
    | html => exact .missing (by simp [Tokens.toList, Token.compass?]) he
  · exact .missing (by simp [Tokens.toList]) he

/-- A token was taken or not, and what was done with it did not depend on what stands behind it. -/
inductive Glanced (rest rest' : Tokens) : Outcome α → Outcome α → Prop
  | found (a : α) (trace : Trace) :
      Glanced rest rest' ⟨.found a rest, trace⟩ ⟨.found a rest', trace⟩
  | missing (trace : Trace) : Glanced rest rest' ⟨.missing, trace⟩ ⟨.missing, trace⟩

/-- What the parser does with a token does not depend on what stands behind it. -/
def Nearsighted (p : Parser α) : Prop :=
  ∀ frame m tok rest rest', Glanced rest rest' (p frame (.next m tok rest))
    (p frame (.next m tok rest'))

lemma nearsighted_punct (p : Punct) : (punct p).Nearsighted := by
  rintro frame m (q | name) rest rest'
  · simp only [punct]
    split
    · exact .found () _
    · exact .missing _
  · exact .missing _

lemma nearsighted_openBody : openBody.Nearsighted := by
  intro frame m tok rest rest'
  have h := nearsighted_punct .openBrace frame m tok rest rest'
  unfold openBody
  generalize punct .openBrace frame (.next m tok rest) = outcome at h
  generalize punct .openBrace frame (.next m tok rest') = outcome' at h
  cases h with
  | found a trace => exact .found a _
  | missing trace => exact .missing trace

lemma nearsighted_keyword (k : Keyword) : (keyword k).Nearsighted := by
  rintro frame m (q | name) rest rest'
  · exact .missing _
  · simp only [keyword]
    split
    · exact .found () _
    · exact .missing _

lemma nearsighted_anyId : anyId.Nearsighted := by
  rintro frame m (q | name) rest rest'
  · exact .missing _
  · exact .found name _

lemma nearsighted_compassPoint : compassPoint.Nearsighted := by
  rintro frame m (q | name) rest rest'
  · exact .missing _
  · simp only [compassPoint]
    split
    · split
      · exact .found _ _
      · exact .missing _
    · exact .missing _

lemma nearsighted_finished : finished.Nearsighted := fun _ _ _ _ _ => .missing _

/-! ## Composed parsers -/

/-- Parsers that are composed of others, down to those that look at one token. -/
inductive Composed : {α : Type} → Parser α → Prop
  | look {α : Type} {p : Parser α} {select : Token → Option α} (h : p.Looks select)
      (hnear : p.Nearsighted) : Composed p
  | pure {α : Type} (a : α) : Composed (pure a)
  | gaveUp {α : Type} (cause : Abort) : Composed (gaveUp cause : Parser α)
  | expected {α : Type} (e : Expectation) : Composed (expected e : Parser α)
  | bind {α β : Type} {p : Parser α} {f : α → Parser β} (hp : Composed p)
      (hf : ∀ a, Composed (f a)) : Composed (p >>= f)
  | orElse {α : Type} {p q : Parser α} (hp : Composed p) (hq : Composed q) : Composed (orElse p q)
  | optional {α : Type} {p : Parser α} (hp : Composed p) : Composed (optional p)
  | within {α : Type} {p : Parser α} (rule : Rule) (hp : Composed p) : Composed (within rule p)
  | many {α : Type} {p : Parser α} (hp : Composed p) (htakes : p.Takes 1) : Composed (many p)

lemma Looks.reply_eq {p : Parser α} {select : Token → Option α} (h : p.Looks select)
    (frame : Frame) (ts : Tokens) : (p frame ts).reply = ts.take select := by
  have hlooked := h frame ts
  generalize p frame ts = outcome at hlooked
  cases hlooked with
  | found ha _ => simp [Tokens.take, ha]
  | missing hts _ =>
    cases ts with
    | stop m reason => rfl
    | next m tok rest => simp [Tokens.take, hts tok rfl]

lemma Composed.uniform {p : Parser α} (h : Composed p) : Uniform p := by
  induction h with
  | look h _ => exact uniform_of_take h.reply_eq
  | pure a => infer_instance
  | gaveUp cause => infer_instance
  | expected e => infer_instance
  | bind _ _ ihp ihf => infer_instance
  | orElse _ _ ihp ihq => infer_instance
  | optional _ ih => infer_instance
  | within rule _ ih => infer_instance
  | many _ _ ih => infer_instance

/-- The outcome stays among the places of the tokens: what is left is one of them, so is where
something failed, something was expected there, and whoever misses has failed somewhere. -/
structure Grounded (ts : Tokens) (outcome : Outcome α) : Prop where
  rest : ∀ a rest, outcome.reply = .found a rest → ∃ u, Tokens.Reaches rest u ts
  place : ∀ n, outcome.trace.FailsAt n → ∃ place u, Tokens.Reaches place u ts ∧ place.offset = n
  expects : outcome.trace.Expects
  missing : outcome.reply = .missing → ∃ n, outcome.trace.FailsAt n

section Grounded

variable {ts mid : Tokens} {outcome : Outcome α} {trace : Trace}

lemma Grounded.of_reaches {u : List Token} (h : Grounded mid outcome)
    (hmid : Tokens.Reaches mid u ts) : Grounded ts outcome where
  rest a rest hrest := by
    obtain ⟨v, hv⟩ := h.rest a rest hrest
    exact ⟨u ++ v, hv.trans hmid⟩
  place n hn := by
    obtain ⟨place, v, hv, hplace⟩ := h.place n hn
    exact ⟨place, u ++ v, hv.trans hmid, hplace⟩
  expects := h.expects
  missing := h.missing

/-- An outcome stays grounded behind the trace of an earlier attempt. -/
lemma Grounded.after (h : Grounded ts outcome)
    (htrace : ∀ n, trace.FailsAt n → ∃ place u, Tokens.Reaches place u ts ∧ place.offset = n)
    (hexpects : trace.Expects) : Grounded ts (Parser.after trace outcome) where
  rest := h.rest
  place n hn := hn.of_join.elim (htrace n) (h.place n)
  expects := hexpects.join h.expects
  missing hmissing := Trace.exists_failsAt_join (Or.inr (h.missing hmissing))

lemma grounded_found (a : α) (ts : Tokens) : Grounded ts ⟨.found a ts, .empty⟩ where
  rest b rest h := by
    cases h
    exact ⟨[], .here⟩
  place n := by
    rintro ⟨f, hf, -⟩
    cases hf
  expects := Trace.expects_of_failure_eq_none rfl
  missing := by simp

lemma grounded_gaveUp (cause : Abort) (ts : Tokens) :
    Grounded ts (⟨.gaveUp cause, .empty⟩ : Outcome α) where
  rest := by simp
  place n := by
    rintro ⟨f, hf, -⟩
    cases hf
  expects := Trace.expects_of_failure_eq_none rfl
  missing := by simp

lemma grounded_unmet (frame : Frame) (e : Expectation) (ts : Tokens) :
    Grounded ts (⟨.missing, .unmet frame ts.offset e⟩ : Outcome α) where
  rest := by simp
  place n hn := ⟨ts, [], .here, Trace.failsAt_unmet.1 hn⟩
  expects := Trace.expects_unmet frame ts.offset e
  missing _ := ⟨ts.offset, by simp⟩

lemma Looked.grounded {select : Token → Option α} {frame : Frame}
    (h : Looked select frame ts outcome) : Grounded ts outcome := by
  cases h with
  | @found m tok more a trace _ htrace =>
    refine ⟨?_, ?_, Trace.expects_of_failure_eq_none htrace, by simp⟩
    · rintro _ _ ⟨⟩
      exact ⟨[tok], .next m tok .here⟩
    · rintro n ⟨f, hf, -⟩
      rw [htrace] at hf
      cases hf
  | missing _ _ => exact grounded_unmet _ _ ts

lemma Grounded.bind {p : Parser α} {f : α → Parser β} {frame : Frame}
    (hp : Grounded ts (p frame ts)) (hf : ∀ a rest, Grounded rest (f a frame rest)) :
    Grounded ts ((p >>= f) frame ts) := by
  show Grounded ts (andThen p f frame ts)
  unfold andThen
  generalize p frame ts = outcome at hp
  rcases outcome with ⟨⟨a, rest⟩ | _ | cause, trace⟩
  · obtain ⟨u, hu⟩ := hp.rest a rest rfl
    exact ((hf a rest).of_reaches hu).after hp.place hp.expects
  · exact ⟨by simp, hp.place, hp.expects, fun _ => hp.missing rfl⟩
  · exact ⟨by simp, hp.place, hp.expects, by simp⟩

lemma Grounded.orElse {p q : Parser α} {frame : Frame} (hp : Grounded ts (p frame ts))
    (hq : Grounded ts (q frame ts)) : Grounded ts (orElse p q frame ts) := by
  unfold Parser.orElse
  generalize p frame ts = outcome at hp
  rcases outcome with ⟨⟨a, rest⟩ | _ | cause, trace⟩
  · exact hp
  · exact hq.after hp.place hp.expects
  · exact hp

lemma Grounded.optional {p : Parser α} {frame : Frame} (hp : Grounded ts (p frame ts)) :
    Grounded ts (optional p frame ts) := by
  unfold Parser.optional
  generalize p frame ts = outcome at hp
  rcases outcome with ⟨⟨a, rest⟩ | _ | cause, trace⟩
  · refine ⟨?_, hp.place, hp.expects, by simp⟩
    rintro _ _ ⟨⟩
    exact hp.rest a rest rfl
  · refine ⟨?_, hp.place, hp.expects, by simp⟩
    rintro _ _ ⟨⟩
    exact ⟨[], .here⟩
  · exact ⟨by simp, hp.place, hp.expects, by simp⟩

lemma grounded_manyWithin {p : Parser α} {frame : Frame} (hp : ∀ ts, Grounded ts (p frame ts))
    (bound ts : Tokens) : Grounded ts (manyWithin bound p frame ts) := by
  induction bound generalizing ts with
  | stop m reason =>
    rw [manyWithin_stop]
    refine (hp ts).optional.bind fun o rest => ?_
    cases o with
    | none => exact grounded_found [] rest
    | some a => exact grounded_gaveUp _ rest
  | next m tok bound ih =>
    rw [manyWithin_next]
    refine (hp ts).optional.bind fun o rest => ?_
    cases o with
    | none => exact grounded_found [] rest
    | some a => exact (ih rest).bind fun as last => grounded_found (a :: as) last

/-- Beyond an offset behind which nothing failed, a run finds something further on or gives up. -/
lemma Grounded.beyond {n : Nat} (h : Grounded ts outcome) (hts : ts.Beyond n)
    (hwithin : outcome.trace.Within n) :
    (∃ a rest, outcome.reply = .found a rest ∧ rest.Beyond n) ∨
      ∃ cause, outcome.reply = .gaveUp cause := by
  rcases outcome with ⟨⟨a, rest⟩ | _ | cause, trace⟩
  · obtain ⟨u, hu⟩ := h.rest a rest rfl
    exact Or.inl ⟨a, rest, rfl, hts.of_reaches hu⟩
  · obtain ⟨m, hm⟩ := h.missing rfl
    obtain ⟨other, u, hu, rfl⟩ := h.place m hm
    exact absurd (hts other u hu) (hm.le hwithin).not_gt
  · exact Or.inr ⟨cause, rfl⟩

/-- Whoever misses reports the furthest failure. -/
lemma Grounded.exists_failure (h : Grounded ts outcome) (hmissing : outcome.reply = .missing) :
    ∃ f, outcome.trace.failure = some f ∧ outcome.result = .error (.unexpected f) := by
  obtain ⟨-, f, hf, -⟩ := h.missing hmissing
  rw [Option.mem_def] at hf
  refine ⟨f, hf, ?_⟩
  rw [Outcome.result, hmissing, Outcome.failure, hf]
  rfl

end Grounded

/-- Runs of composed parsers stay among the places of their tokens. -/
theorem Composed.grounded {p : Parser α} (h : Composed p) (frame : Frame) (ts : Tokens) :
    Grounded ts (p frame ts) := by
  induction h generalizing frame ts with
  | look h _ => exact (h frame ts).grounded
  | pure a => exact grounded_found a ts
  | gaveUp cause => exact grounded_gaveUp cause ts
  | expected e => exact grounded_unmet frame e ts
  | bind _ _ ihp ihf => exact (ihp frame ts).bind fun a rest => ihf a frame rest
  | orElse _ _ ihp ihq => exact (ihp frame ts).orElse (ihq frame ts)
  | optional _ ih => exact (ih frame ts).optional
  | within rule _ ih => exact ih _ ts
  | many _ _ ih => exact grounded_manyWithin (ih frame) ts ts

lemma grounded_finished (frame : Frame) (ts : Tokens) : Grounded ts (finished frame ts) := by
  cases ts with
  | next m tok rest => exact grounded_unmet frame .endOfInput _
  | stop m reason =>
    cases reason with
    | endOfInput => exact grounded_found () _
    | _ => exact grounded_unmet frame .endOfInput _

lemma grounded_end (a : α) (frame : Frame) (ts : Tokens) :
    Grounded ts ((finished >>= fun _ => pure a) frame ts) :=
  (grounded_finished frame ts).bind fun _ last => grounded_found a last

lemma trace_optional (p : Parser α) (frame : Frame) (ts : Tokens) :
    (optional p frame ts).trace = (p frame ts).trace := by
  unfold optional
  rcases p frame ts with ⟨⟨a, rest⟩ | _ | cause, trace⟩ <;> rfl

lemma trace_bind_pure (p : Parser α) (g : α → β) (frame : Frame) (ts : Tokens) :
    ((p >>= fun a => pure (g a)) frame ts).trace = (p frame ts).trace := by
  show (andThen p (fun a => pure (g a)) frame ts).trace = _
  unfold andThen
  rcases p frame ts with ⟨⟨a, rest⟩ | _ | cause, trace⟩
  · exact Trace.join_empty trace
  · rfl
  · rfl

lemma within_of_bind {p : Parser α} {f : α → Parser β} {frame : Frame} {ts : Tokens} {n : Nat}
    (h : ((p >>= f) frame ts).trace.Within n) : (p frame ts).trace.Within n := by
  change (andThen p f frame ts).trace.Within n at h
  unfold andThen at h
  rcases hp : p frame ts with ⟨⟨a, rest⟩ | _ | cause, trace⟩
  · rw [hp] at h
    exact (Trace.within_join_iff.1 h).1
  · rwa [hp] at h
  · rwa [hp] at h

lemma within_of_orElse {p q : Parser α} {frame : Frame} {ts : Tokens} {n : Nat}
    (h : (orElse p q frame ts).trace.Within n) : (p frame ts).trace.Within n := by
  unfold Parser.orElse at h
  rcases hp : p frame ts with ⟨⟨a, rest⟩ | _ | cause, trace⟩
  · rwa [hp] at h
  · rw [hp] at h
    exact (Trace.within_join_iff.1 h).1
  · rwa [hp] at h

/-! ## Derived forms of composition -/

/-- The last alternative stands for itself. -/
lemma firstOf_singleton (p : Parser α) : firstOf [p] = p := by
  funext frame ts
  show orElse p (firstOf []) frame ts = p frame ts
  unfold orElse firstOf
  rcases p frame ts with ⟨⟨a, rest⟩ | _ | cause, trace⟩
  · rfl
  · simp [after]
  · rfl

lemma composed_build (part : Except Defect α) : Composed (build part) := by
  cases part with
  | ok a => exact .pure a
  | error defect => exact .gaveUp _

/-! ## Parsers that are composed alike -/

/-- The two parsers are composed alike over two parsers for bodies, and take no brace outside of
them. -/
inductive Paired (b b' : Parser (List Statement)) : {α : Type} → Parser α → Parser α → Prop
  | body : Paired b b' b b'
  | look {α : Type} {p : Parser α} {select : Token → Option α} (h : p.Looks select)
      (hnear : p.Nearsighted) (hbrace : ∀ tok, tok.isBrace = true → select tok = none) :
      Paired b b' p p
  | pure {α : Type} (a : α) : Paired b b' (pure a) (pure a)
  | gaveUp {α : Type} (cause : Abort) : Paired b b' (gaveUp cause : Parser α) (gaveUp cause)
  | expected {α : Type} (e : Expectation) : Paired b b' (expected e : Parser α) (expected e)
  | bind {α β : Type} {p p' : Parser α} {f f' : α → Parser β} (hp : Paired b b' p p')
      (hf : ∀ a, Paired b b' (f a) (f' a)) : Paired b b' (p >>= f) (p' >>= f')
  | orElse {α : Type} {p p' q q' : Parser α} (hp : Paired b b' p p') (hq : Paired b b' q q') :
      Paired b b' (orElse p q) (orElse p' q')
  | optional {α : Type} {p p' : Parser α} (hp : Paired b b' p p') :
      Paired b b' (optional p) (optional p')
  | within {α : Type} {p p' : Parser α} (rule : Rule) (hp : Paired b b' p p') :
      Paired b b' (within rule p) (within rule p')
  | many {α : Type} {p p' : Parser α} (hp : Paired b b' p p') (htakes : p.Takes 1)
      (htakes' : p'.Takes 1) : Paired b b' (many p) (many p')

section Paired

variable {b b' : Parser (List Statement)}

lemma Paired.composed {p p' : Parser α} (h : Paired b b' p p') (hb : Composed b) : Composed p := by
  induction h with
  | body => exact hb
  | look h hnear _ => exact .look h hnear
  | pure a => exact .pure a
  | gaveUp cause => exact .gaveUp cause
  | expected e => exact .expected e
  | bind _ _ ihp ihf => exact .bind ihp ihf
  | orElse _ _ ihp ihq => exact .orElse ihp ihq
  | optional _ ih => exact .optional ih
  | within rule _ ih => exact .within rule ih
  | many _ htakes _ ih => exact .many ih htakes

lemma Paired.symm {p p' : Parser α} (h : Paired b b' p p') : Paired b' b p' p := by
  induction h with
  | body => exact .body
  | look h hnear hbrace => exact .look h hnear hbrace
  | pure a => exact .pure a
  | gaveUp cause => exact .gaveUp cause
  | expected e => exact .expected e
  | bind _ _ ihp ihf => exact .bind ihp ihf
  | orElse _ _ ihp ihq => exact .orElse ihp ihq
  | optional _ ih => exact .optional ih
  | within rule _ ih => exact .within rule ih
  | many _ htakes htakes' ih => exact .many ih htakes' htakes

lemma Paired.uniform {p p' : Parser α} (h : Paired b b' p p') (hb : Composed b)
    (hb' : Composed b') : Uniform p ∧ Uniform p' :=
  ⟨(h.composed hb).uniform, (h.symm.composed hb').uniform⟩

lemma paired_build (part : Except Defect α) : Paired b b' (build part) (build part) := by
  cases part with
  | ok a => exact .pure a
  | error defect => exact .gaveUp _

end Paired

end Parser

namespace Grammar

open DotNotation.Parser

section Paired

variable {b b' : Parser (List Statement)}

lemma paired_punct {p : Punct} (h : (Token.punct p).isBrace = false) :
    Paired b b' (punct p) (punct p) := by
  refine .look (looks_punct p) (nearsighted_punct p) fun tok htok => Token.only_of_ne ?_
  rintro rfl
  rw [h] at htok
  cases htok

lemma paired_keyword (k : Keyword) : Paired b b' (keyword k) (keyword k) := by
  refine .look (looks_keyword k) (nearsighted_keyword k) fun tok htok => Token.only_of_ne ?_
  rintro rfl
  cases htok

lemma paired_id : Paired b b' id id := by
  refine .within _ (.bind (.look looks_anyId nearsighted_anyId ?_) fun _ => paired_build _)
  rintro (p | name) htok
  · rfl
  · cases htok

lemma paired_compassPoint : Paired b b' compassPoint compassPoint := by
  refine .look looks_compassPoint nearsighted_compassPoint ?_
  rintro (p | name) htok
  · rfl
  · cases htok

lemma paired_port : Paired b b' port port :=
  .within _ (.bind (paired_punct rfl) fun _ => .bind paired_id fun _ =>
    .bind (.optional (.bind (paired_punct rfl) fun _ => .within _ paired_compassPoint)) fun _ =>
      paired_build _)

lemma paired_nodeId : Paired b b' nodeId nodeId :=
  .within _ (.bind paired_id fun _ => .bind (.optional paired_port) fun _ => .pure _)

lemma paired_assignment : Paired b b' assignment assignment :=
  .within _ (.bind paired_id fun _ => .bind (paired_punct rfl) fun _ =>
    .bind paired_id fun _ => .pure _)

lemma paired_item : Paired b b' item item :=
  .bind paired_assignment fun _ =>
    .bind (.optional (.orElse (paired_punct rfl) (paired_punct rfl))) fun _ => .pure _

lemma paired_attributeGroup : Paired b b' attributeGroup attributeGroup :=
  .bind (paired_punct rfl) fun _ => .bind (.many paired_item takes_item takes_item)
    fun _ => .bind (paired_punct rfl) fun _ => .pure _

lemma paired_attributeList : Paired b b' attributeList attributeList :=
  .within _ (.bind paired_attributeGroup fun _ =>
    .bind (.many paired_attributeGroup takes_attributeGroup takes_attributeGroup) fun _ => .pure _)

lemma paired_attributes : Paired b b' attributes attributes :=
  .bind (.optional paired_attributeList) fun _ => .pure _

lemma paired_defaultsFor (target : Target) :
    Paired b b' (defaultsFor target) (defaultsFor target) :=
  .bind (paired_keyword target.keyword) fun _ => .bind paired_attributeList fun _ => .pure _

lemma defaults_eq_orElse : defaults = within .defaults
    (orElse (defaultsFor .graph) (orElse (defaultsFor .node) (defaultsFor .edge))) := by
  rw [defaults_eq, firstOf, firstOf, firstOf_singleton]

lemma paired_defaults : Paired b b' defaults defaults := by
  rw [defaults_eq_orElse]
  exact .within _ (.orElse (paired_defaultsFor .graph)
    (.orElse (paired_defaultsFor .node) (paired_defaultsFor .edge)))

lemma paired_subgraph : Paired b b' (subgraph b) (subgraph b') := by
  rw [subgraph_eq, subgraph_eq]
  refine .within _ (.bind (.optional (paired_keyword .subgraph)) fun marked =>
    .bind ?_ fun _ => .bind .body fun _ => .pure _)
  cases marked with
  | none => exact .pure none
  | some _ => exact .optional paired_id

lemma vertex_eq_orElse (body : Parser (List Statement)) : vertex body = within .vertex
    (orElse (subgraph body >>= fun group => pure (.subgraph group))
      (orElse (nodeId >>= fun name => pure (.node name)) (expected .vertex))) := by
  unfold vertex
  rw [firstOf, firstOf, firstOf_singleton]

lemma paired_vertex : Paired b b' (vertex b) (vertex b') := by
  rw [vertex_eq_orElse, vertex_eq_orElse]
  exact .within _ (.orElse (.bind paired_subgraph fun _ => .pure _)
    (.orElse (.bind paired_nodeId fun _ => .pure _) (.expected .vertex)))

lemma paired_hop : Paired b b' (hop b) (hop b') :=
  .bind (.orElse (paired_punct rfl) (paired_punct rfl)) fun _ => paired_vertex

lemma paired_nodeOrAttribute (name : NodeId) :
    Paired b b' (nodeOrAttribute name) (nodeOrAttribute name) := by
  rw [nodeOrAttribute_eq]
  refine .bind ?_ fun assigned => ?_
  · split
    · exact .optional (paired_punct rfl)
    · exact .pure none
  · cases assigned with
    | none => exact .bind paired_attributes fun _ => paired_build _
    | some _ => exact .bind paired_id fun _ => .pure _

lemma paired_afterChain (head : Vertex) (more : List Vertex) :
    Paired b b' (afterChain head more) (afterChain head more) := by
  cases more with
  | nil =>
    cases head with
    | node name => exact paired_nodeOrAttribute name
    | subgraph group => exact .pure _
  | cons next more => exact .bind paired_attributes fun _ => paired_build _

variable [Uniform b] [Uniform b']

lemma paired_statement (htakes : b.Takes 1) (htakes' : b'.Takes 1) :
    Paired b b' (statement b) (statement b') := by
  have hvertex : Paired b b' (vertexStatement b) (vertexStatement b') := by
    rw [vertexStatement_eq, vertexStatement_eq]
    exact .bind paired_vertex fun head =>
      .bind (.within _ (.many paired_hop (takes_hop htakes) (takes_hop htakes'))) fun more =>
        paired_afterChain head more
  exact .within _ (.orElse paired_defaults hvertex)

lemma paired_terminated (htakes : b.Takes 1) (htakes' : b'.Takes 1) :
    Paired b b' (terminated b) (terminated b') :=
  .bind (paired_statement htakes htakes') fun _ =>
    .bind (.optional (paired_punct rfl)) fun _ => .pure _

end Paired

lemma paired_kind {b b' : Parser (List Statement)} : Paired b b' kind kind :=
  .orElse (.bind (paired_keyword .digraph) fun _ => .pure true)
    (.bind (paired_keyword .graph) fun _ => .pure false)

lemma paired_graph : Paired (body maxNesting) (body maxNesting) graph graph := by
  rw [graph_eq]
  exact .within _ (.bind (.optional (paired_keyword .strict)) fun _ =>
    .bind paired_kind fun _ => .bind (.optional paired_id) fun _ => .bind .body fun _ => .pure _)

lemma composed_body (room : Nat) : Composed (body room) := by
  induction room with
  | zero => exact .within _ (.bind (.look looks_openBody nearsighted_openBody) fun _ => .gaveUp _)
  | succ room ih =>
    have htakes := takes_body room
    have hstatements := (paired_terminated htakes htakes).composed ih
    exact .within _ (.bind (.look looks_openBody nearsighted_openBody) fun _ =>
      .bind (.many hstatements (takes_terminated htakes)) fun _ =>
        .bind (.look (looks_punct .closeBrace) (nearsighted_punct .closeBrace)) fun _ => .pure _)

lemma composed_id : Composed id :=
  .within _ (.bind (.look looks_anyId nearsighted_anyId) fun _ => composed_build _)

lemma composed_graph : Composed graph := paired_graph.composed (composed_body maxNesting)

lemma composed_terminated (room : Nat) : Composed (terminated (body room)) :=
  (paired_terminated (takes_body room) (takes_body room)).composed (composed_body room)

/-- Reading to the end, too, stays among the places of the tokens. -/
lemma grounded_toEnd {α : Type} {p : Parser α} (hp : Composed p) (frame : Frame) (ts : Tokens) :
    Grounded ts ((p >>= fun a => finished >>= fun _ => pure a) frame ts) :=
  (hp.grounded _ ts).bind fun a rest => grounded_end a _ rest

lemma grounded_file (frame : Frame) (ts : Tokens) : Grounded ts (file frame ts) :=
  grounded_toEnd composed_graph _ ts

lemma grounded_fragment (frame : Frame) (ts : Tokens) : Grounded ts (fragment frame ts) :=
  grounded_toEnd (composed_terminated maxNesting) _ ts

end Grammar

/-! ## Rejected texts -/

namespace Graph

/-- The error for which a text is rejected. -/
def error? (source : Text) : Option ParseError :=
  match parse source with
  | .ok _ => none
  | .error e => some e

lemma parse_eq_of_error? {source : Text} {e : ParseError} (h : error? source = some e) :
    parse source = .error e := by
  unfold error? at h
  cases hparse : parse source with
  | ok graph =>
    rw [hparse] at h
    cases h
  | error e' =>
    rw [hparse] at h
    cases h
    rfl

/-- The failure for which a text is rejected is the furthest one of the run. -/
lemma missing_of_parse {source : Text} {failure : Failure}
    (h : parse source = .error (.unexpected failure)) :
    (Grammar.file.run source).reply = .missing ∧
      (Grammar.file.run source).trace.failure = some failure := by
  have hgrounded := Grammar.grounded_file .outermost (Tokens.ofText source)
  change Parser.Grounded _ (Grammar.file.run source) at hgrounded
  unfold parse at h
  cases hreply : (Grammar.file.run source).reply with
  | found g rest => simp [Outcome.result, hreply] at h
  | gaveUp cause => simp [Outcome.result, hreply] at h
  | missing =>
    obtain ⟨f, hf, hresult⟩ := hgrounded.exists_failure hreply
    rw [hresult, Except.error.injEq, ParseError.unexpected.injEq] at h
    exact ⟨rfl, h ▸ hf⟩

end Graph

end DotNotation
