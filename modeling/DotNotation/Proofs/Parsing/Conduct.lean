/-
# How runs end

A run of a rule can find something and have passed every body that it opened, or it can miss
without having opened any.  As soon as a body is left open there are two other ways.  The run is
lost: it finds nothing, since nothing else can be read where the body stands.  Or it goes astray:
it finds something in front of the body, and leaves it to the next attempt to fail at the body
again.

`Parser.Ran` lists these ways, and a `Parser.Manner` states for a rule what holds in each of them.
The main results are

* `Parser.Ran.bind`, `Parser.Ran.after`: how a sequence ends, given how its parts do;
* `Parser.many_of_found`, `Parser.many_of_missing`: how the runs of a repetition are composed.
-/
import DotNotation.Proofs.Parsing.Ending

namespace DotNotation

open Token Tokens Trace

/-! ## Places -/

namespace Tokens

variable {place place' ts : Tokens} {u v w : List Token}

/-- Tokens as those of a text: their places are in order, and their identifiers are well formed. -/
structure Proper (ts : Tokens) : Prop where
  ordered : ts.Ordered
  valid : areValid ts.toList

lemma proper_ofText (source : Text) : (ofText source).Proper :=
  ⟨ordered_ofText source, areValid_ofText source⟩

lemma Proper.of_reaches (h : ts.Proper) (hu : Reaches place u ts) : place.Proper := by
  refine ⟨h.ordered.of_reaches hu, h.valid.of_suffix ?_⟩
  rw [hu.toList_eq]
  exact List.suffix_append u place.toList

/-- A place is known by the tokens behind it. -/
lemma Reaches.eq_of_toList (h : Reaches place u ts) (h' : Reaches place' v ts)
    (heq : place.toList = place'.toList) : place = place' := by
  have hlist := h.toList_eq.symm.trans h'.toList_eq
  rw [heq] at hlist
  obtain rfl := List.append_cancel_right hlist
  exact h.unique h'

lemma exists_reaches_of_toList (h : ts.toList = u ++ w) :
    ∃ place, Reaches place u ts ∧ place.toList = w := by
  induction u generalizing ts with
  | nil => exact ⟨ts, .here, h⟩
  | cons tok u ih =>
    cases ts with
    | stop m reason => cases h
    | next m tok' rest =>
      obtain ⟨rfl, hrest⟩ := List.cons.inj h
      obtain ⟨place, hplace, hw⟩ := ih hrest
      exact ⟨place, .next m _ hplace, hw⟩

end Tokens

namespace Parser

variable {α β : Type}

/-! ## Runs of composed parsers -/

section Runs

variable {p q : Parser α} {f : α → Parser β} {frame : Frame} {ts mid : Tokens} {a : α}
  {cause : Abort} {t : Trace}

lemma bind_of_found (h : p frame ts = ⟨.found a mid, t⟩) :
    (p >>= f) frame ts = after t (f a frame mid) := by
  show andThen p f frame ts = _
  rw [andThen, h]

lemma bind_of_missing (h : p frame ts = ⟨.missing, t⟩) : (p >>= f) frame ts = ⟨.missing, t⟩ := by
  show andThen p f frame ts = _
  rw [andThen, h]

lemma bind_of_gaveUp (h : p frame ts = ⟨.gaveUp cause, t⟩) :
    (p >>= f) frame ts = ⟨.gaveUp cause, t⟩ := by
  show andThen p f frame ts = _
  rw [andThen, h]

@[simp] lemma after_pure (s : Trace) (b : β) (frame : Frame) (ts : Tokens) :
    after s ((pure b : Parser β) frame ts) = ⟨.found b ts, s⟩ :=
  congrArg _ (Trace.join_empty s)

lemma bind_pure_of_found (g : α → β) (h : p frame ts = ⟨.found a mid, t⟩) :
    (p >>= fun a => pure (g a)) frame ts = ⟨.found (g a) mid, t⟩ := by
  rw [bind_of_found h, after_pure]

lemma orElse_of_found (h : p frame ts = ⟨.found a mid, t⟩) :
    orElse p q frame ts = ⟨.found a mid, t⟩ := by
  rw [orElse, h]

lemma orElse_of_missing (h : p frame ts = ⟨.missing, t⟩) :
    orElse p q frame ts = after t (q frame ts) := by
  rw [orElse, h]

lemma orElse_of_gaveUp (h : p frame ts = ⟨.gaveUp cause, t⟩) :
    orElse p q frame ts = ⟨.gaveUp cause, t⟩ := by
  rw [orElse, h]

lemma optional_of_found (h : p frame ts = ⟨.found a mid, t⟩) :
    optional p frame ts = ⟨.found (some a) mid, t⟩ := by
  rw [optional, h]

lemma optional_of_missing (h : p frame ts = ⟨.missing, t⟩) :
    optional p frame ts = ⟨.found none ts, t⟩ := by
  rw [optional, h]

lemma optional_of_gaveUp (h : p frame ts = ⟨.gaveUp cause, t⟩) :
    optional p frame ts = ⟨.gaveUp cause, t⟩ := by
  rw [optional, h]

@[simp] lemma after_found (s : Trace) : after s ⟨.found a mid, t⟩ = ⟨.found a mid, s.join t⟩ := rfl

@[simp] lemma after_missing (s : Trace) :
    after s (⟨.missing, t⟩ : Outcome α) = ⟨.missing, s.join t⟩ := rfl

lemma after_after (s t : Trace) (outcome : Outcome α) :
    after s (after t outcome) = after (s.join t) outcome := by
  rw [after, after, after, Trace.join_assoc]

lemma bind_assoc {γ : Type} (p : Parser α) (f : α → Parser β) (g : β → Parser γ) :
    p >>= f >>= g = p >>= fun a => f a >>= g := by
  funext frame ts
  rcases hp : p frame ts with ⟨⟨a, mid⟩ | _ | cause, s⟩
  · rw [bind_of_found hp]
    rcases hf : f a frame mid with ⟨⟨b, rest⟩ | _ | cause, t⟩
    · rw [bind_of_found ((bind_of_found hp).trans (congrArg (after s) hf)), bind_of_found hf,
        after_after]
    · rw [bind_of_missing ((bind_of_found hp).trans (congrArg (after s) hf)), bind_of_missing hf]
      rfl
    · rw [bind_of_gaveUp ((bind_of_found hp).trans (congrArg (after s) hf)), bind_of_gaveUp hf]
      rfl
  · rw [bind_of_missing hp, bind_of_missing (bind_of_missing hp)]
  · rw [bind_of_gaveUp hp, bind_of_gaveUp (bind_of_gaveUp hp)]

end Runs

/-! ## Runs of repetitions -/

section Repetition

variable {p : Parser α} {frame : Frame} {ts mid : Tokens} {a : α} {cause : Abort} {t : Trace}

lemma manyWithin_of_missing (bound : Tokens) (h : p frame ts = ⟨.missing, t⟩) :
    manyWithin bound p frame ts = ⟨.found [] ts, t⟩ := by
  have hend : ∀ f : α → Parser (List α),
      (optional p >>= fun o => o.elim (pure []) f) frame ts = ⟨.found [] ts, t⟩ := by
    intro f
    rw [bind_of_found (optional_of_missing h)]
    show after t ⟨.found [] ts, .empty⟩ = _
    rw [after_found, Trace.join_empty]
  cases bound with
  | stop m reason => rw [manyWithin_stop, hend]
  | next m tok bound => rw [manyWithin_next, hend]

lemma manyWithin_of_gaveUp (bound : Tokens) (h : p frame ts = ⟨.gaveUp cause, t⟩) :
    manyWithin bound p frame ts = ⟨.gaveUp cause, t⟩ := by
  cases bound with
  | stop m reason => rw [manyWithin_stop, bind_of_gaveUp (optional_of_gaveUp h)]
  | next m tok bound => rw [manyWithin_next, bind_of_gaveUp (optional_of_gaveUp h)]

lemma manyWithin_of_found (m : Nat) (tok : Token) (bound : Tokens)
    (h : p frame ts = ⟨.found a mid, t⟩) :
    manyWithin (.next m tok bound) p frame ts =
      after t ((manyWithin bound p >>= fun as => pure (a :: as)) frame mid) := by
  rw [manyWithin_next, bind_of_found (optional_of_found h)]
  rfl

variable [Uniform p]

lemma answer_of_found (h : p frame ts = ⟨.found a mid, t⟩) :
    p.answer ts.why ts.toList = .found a mid.toList := by
  have hmatch := reply_eq p frame ts
  rw [h] at hmatch
  exact hmatch.answer_eq.symm

lemma answer_of_missing (h : p frame ts = ⟨.missing, t⟩) :
    p.answer ts.why ts.toList = .missing := by
  have hmatch := reply_eq p frame ts
  rw [h] at hmatch
  exact hmatch.answer_eq.symm

lemma Takes.length_lt_of_found (hp : p.Takes 1) (h : p frame ts = ⟨.found a mid, t⟩) :
    mid.toList.length < ts.toList.length :=
  hp.length_lt (answer_of_found h)

/-- A bound that is long enough makes no difference to the run. -/
lemma manyWithin_eq (hp : p.Takes 1) (bound other : Tokens) (frame : Frame) (ts : Tokens)
    (h : ts.toList.length ≤ bound.toList.length) (h' : ts.toList.length ≤ other.toList.length) :
    manyWithin bound p frame ts = manyWithin other p frame ts := by
  induction bound generalizing other ts with
  | stop m reason =>
    rcases hrun : p frame ts with ⟨⟨a, mid⟩ | _ | cause, t⟩
    · -- nothing can be found without a token, so the bound is never reached
      exact absurd ((hp.length_lt_of_found hrun).trans_le h) (Nat.not_lt_zero _)
    · rw [manyWithin_of_missing _ hrun, manyWithin_of_missing _ hrun]
    · rw [manyWithin_of_gaveUp _ hrun, manyWithin_of_gaveUp _ hrun]
  | next m tok bound ih =>
    rcases hrun : p frame ts with ⟨⟨a, mid⟩ | _ | cause, t⟩
    · have hlt := hp.length_lt_of_found hrun
      cases other with
      | stop n reason => exact absurd (hlt.trans_le h') (Nat.not_lt_zero _)
      | next n tok' other =>
        have hround := ih other mid (Nat.le_of_lt_succ (hlt.trans_le h))
          (Nat.le_of_lt_succ (hlt.trans_le h'))
        rw [manyWithin_of_found m tok bound hrun, manyWithin_of_found n tok' other hrun]
        show after t (andThen _ _ _ _) = after t (andThen _ _ _ _)
        rw [andThen, andThen, hround]
    · rw [manyWithin_of_missing _ hrun, manyWithin_of_missing _ hrun]
    · rw [manyWithin_of_gaveUp _ hrun, manyWithin_of_gaveUp _ hrun]

/-- A repetition goes on behind what its first round found. -/
lemma many_of_found (hp : p.Takes 1) (h : p frame ts = ⟨.found a mid, t⟩) :
    many p frame ts = after t ((many p >>= fun as => pure (a :: as)) frame mid) := by
  have hlt := hp.length_lt_of_found h
  have hlonger : many p frame ts = manyWithin (.next 0 (.punct .comma) ts) p frame ts :=
    manyWithin_eq hp ts _ frame ts le_rfl (Nat.le_succ _)
  have hround : manyWithin ts p frame mid = many p frame mid :=
    manyWithin_eq hp ts mid frame mid hlt.le le_rfl
  rw [hlonger, manyWithin_of_found _ _ _ h]
  show after t (andThen _ _ _ _) = after t (andThen _ _ _ _)
  rw [andThen, andThen, hround]

omit [Uniform p] in
lemma many_of_missing (h : p frame ts = ⟨.missing, t⟩) : many p frame ts = ⟨.found [] ts, t⟩ :=
  manyWithin_of_missing ts h

omit [Uniform p] in
lemma many_of_gaveUp (h : p frame ts = ⟨.gaveUp cause, t⟩) :
    many p frame ts = ⟨.gaveUp cause, t⟩ :=
  manyWithin_of_gaveUp ts h

end Repetition

/-! ## Runs known from the answer -/

section Known

variable {p : Parser α} [Uniform p] {frame : Frame} {ts mid : Tokens} {u : List Token} {a : α}

lemma exists_run_missing (frame : Frame) (ts : Tokens) (h : p.answer ts.why ts.toList = .missing) :
    ∃ t, p frame ts = ⟨.missing, t⟩ := by
  have hmatch := reply_eq p frame ts
  rw [h] at hmatch
  rcases hrun : p frame ts with ⟨reply, t⟩
  rw [hrun] at hmatch
  cases hmatch
  exact ⟨t, rfl⟩

lemma exists_run_found {P : α → List Token → Prop} (frame : Frame) (hp : p.Spans P)
    (hmid : Reaches mid u ts) (h : p.answer ts.why ts.toList = .found a mid.toList) :
    ∃ t, p frame ts = ⟨.found a mid, t⟩ := by
  have hmatch := reply_eq p frame ts
  rw [h] at hmatch
  rcases hrun : p frame ts with ⟨⟨b, rest⟩ | _ | cause, t⟩
  · obtain ⟨v, hv, -⟩ := hp frame ts b rest (by rw [hrun])
    rw [hrun] at hmatch
    have heq := hmatch.answer_eq
    rw [Reply.answer, Answer.found.injEq] at heq
    obtain ⟨rfl, hlist⟩ := heq
    rw [hv.eq_of_toList hmid hlist]
    exact ⟨t, rfl⟩
  · rw [hrun] at hmatch
    cases hmatch.answer_eq
  · rw [hrun] at hmatch
    cases hmatch.answer_eq

end Known

/-! ## Runs of flat parsers -/

section Flat

variable {p : Parser α} {f : α → Parser β} {P : α → List Token → Prop} {frame : Frame}
  {ts mid rest : Tokens} {u : List Token} {outcome : Outcome α} {a : α} {t : Trace}

lemma openBrace_notMem (h : ∀ tok ∈ u, tok.isBrace = false) : .punct .openBrace ∉ u :=
  fun hmem => Bool.noConfusion (h _ hmem)

/-- A flat run leaves all bodies behind it. -/
lemma FlatRun.passes (h : FlatRun ts outcome) : Passes ts ts [] outcome.trace := by
  refine passes_of_nil h.opened_eq fun n hn => ?_
  obtain ⟨place, u, hu, hbrace, hplace⟩ := h.place n hn
  exact ⟨place, u, [], hu, hplace, (balanced_of_isBrace hbrace).rising,
    hu.braces_eq (openBrace_notMem hbrace), List.nil_prefix⟩

lemma passes_of_run [Flat p] {reply : Reply α} (h : p frame ts = ⟨reply, t⟩) :
    Passes ts ts [] t := by
  have hflat := flat_run p frame ts
  rw [h] at hflat
  exact hflat.passes

lemma Spans.passes [Flat p] (hp : p.Spans P) (h : p frame ts = ⟨.found a rest, t⟩) :
    ∃ u, Passes ts rest u t ∧ P a u ∧ ∀ tok ∈ u, tok.isBrace = false := by
  have hhere := passes_of_run h
  obtain ⟨u, hu, ha⟩ := hp frame ts a rest (by rw [h])
  obtain ⟨v, hv, hbrace⟩ := (flat_run p frame ts).rest a rest (by rw [h])
  obtain rfl := hv.tokens_unique hu
  refine ⟨v, ⟨hv, balanced_of_isBrace hbrace, ?_, hhere.accounts⟩, ha, hbrace⟩
  rw [hhere.opened_eq List.not_mem_nil, List.nil_append]
  exact hv.braces_eq (openBrace_notMem hbrace)

/-- The parser finds something without taking a token, and keeps off the next body. -/
def Idles (p : Parser α) (frame : Frame) (ts : Tokens) : Prop :=
  ∃ a t, p frame ts = ⟨.found a ts, t⟩ ∧ Passes ts ts [] t

lemma idles_of_answer [Flat p] [Uniform p] (frame : Frame)
    (h : p.answer ts.why ts.toList = .found a ts.toList) : Idles p frame ts := by
  obtain ⟨t, hrun⟩ := exists_run_found frame (spans_of_flat p) .here h
  exact ⟨a, t, hrun, passes_of_run hrun⟩

lemma idles_pure (a : α) (frame : Frame) (ts : Tokens) : Idles (pure a) frame ts :=
  ⟨a, .empty, rfl, passes_here ts⟩

lemma idles_optional (h : p frame ts = ⟨.missing, t⟩) (ht : Passes ts ts [] t) :
    Idles (optional p) frame ts :=
  ⟨none, t, optional_of_missing h, ht⟩

lemma idles_many (h : p frame ts = ⟨.missing, t⟩) (ht : Passes ts ts [] t) :
    Idles (many p) frame ts :=
  ⟨[], t, many_of_missing h, ht⟩

lemma Idles.bind (hp : Idles p frame ts) (hf : ∀ a, Idles (f a) frame ts) :
    Idles (p >>= f) frame ts := by
  obtain ⟨a, s, hrun, hs⟩ := hp
  obtain ⟨b, t, hrun', ht⟩ := hf a
  refine ⟨b, s.join t, ?_, hs.trans ht⟩
  rw [bind_of_found hrun, hrun', after_found]

end Flat

/-! ## The ways in which a run ends -/

/-- What holds of the runs of a rule, depending on how they end. -/
structure Manner (α : Type) where
  /-- The value that is found, the tokens that it is read from and those behind them. -/
  found : α → List Token → List Token → Prop
  /-- The tokens before which the rule misses without opening a body. -/
  missing : List Token → Prop
  /-- The body in which the run is lost, and the tokens in front of it. -/
  lost : Tokens → List Token → Prop
  /-- The tokens, those that are left and the trace of a run that goes astray. -/
  astray : Tokens → Tokens → Trace → Prop

/-- The ways in which a run ends. -/
inductive Ran (M : Manner α) (ts : Tokens) : Outcome α → Prop
  | found {a : α} {rest : Tokens} {u : List Token} {t : Trace} (h : Passes ts rest u t)
      (ha : M.found a u rest.toList) : Ran M ts ⟨.found a rest, t⟩
  | missing {t : Trace} (h : Passes ts ts [] t) (hts : M.missing ts.toList) :
      Ran M ts ⟨.missing, t⟩
  | gaveUp {cause : Abort} {t : Trace} (h : t.opened <+: ts.braces) : Ran M ts ⟨.gaveUp cause, t⟩
  | lost {m : Nat} {inside : Tokens} {w : List Token} {t : Trace} (h : Breaks ts m inside w t)
      (hw : M.lost inside w) : Ran M ts ⟨.missing, t⟩
  | astray {a : α} {rest : Tokens} {t : Trace} (h : M.astray ts rest t) :
      Ran M ts ⟨.found a rest, t⟩

section Ran

variable {p : Parser α} {f : α → Parser β} {M : Manner α} {M' : Manner β} {frame : Frame}
  {ts mid : Tokens} {u : List Token} {s : Trace}

/-- A run behind tokens that were passed. -/
lemma Ran.after {M' : Manner α} {outcome : Outcome α} (h : Ran M mid outcome)
    (hs : Passes ts mid u s) (hts : ts.Ordered)
    (hfound : ∀ a v w, mid.toList = v ++ w → M.found a v w → M'.found a (u ++ v) w)
    (hmissing : M.missing mid.toList → s.opened = [] ∧ M'.missing ts.toList)
    (hlost : ∀ inside w, M.lost inside w → M'.lost inside (u ++ w))
    (hastray : ∀ rest t, M.astray mid rest t → M'.astray ts rest (s.join t)) :
    Ran M' ts (Parser.after s outcome) := by
  cases h with
  | found h ha => exact .found (hs.trans h) (hfound _ _ _ h.reaches.toList_eq ha)
  | @missing t h hmid =>
    obtain ⟨hopened, hmissing⟩ := hmissing hmid
    refine .missing (passes_of_nil ?_ (hs.accounts_join h.accounts)) hmissing
    show s.opened ++ t.opened = []
    rw [hopened, h.opened_eq List.not_mem_nil, List.append_nil]
  | gaveUp h => exact .gaveUp (hs.join_prefix h)
  | lost h hw => exact .lost (hs.breaks h hts) (hlost _ _ hw)
  | astray h => exact .astray (hastray _ _ h)

/-- A sequence ends as its first part does, unless that finds something. -/
lemma Ran.bind (h : Ran M ts (p frame ts))
    (hfound : ∀ a u rest s, Passes ts rest u s → M.found a u rest.toList →
      Ran M' ts (Parser.after s (f a frame rest)))
    (hmissing : M.missing ts.toList → M'.missing ts.toList)
    (hlost : ∀ inside w, M.lost inside w → M'.lost inside w)
    (hastray : ∀ a rest s, M.astray ts rest s → Ran M' ts (Parser.after s (f a frame rest))) :
    Ran M' ts ((p >>= f) frame ts) := by
  generalize hrun : p frame ts = outcome at h
  cases h with
  | found h ha =>
    rw [bind_of_found hrun]
    exact hfound _ _ _ _ h ha
  | missing h hts =>
    rw [bind_of_missing hrun]
    exact .missing h (hmissing hts)
  | gaveUp h =>
    rw [bind_of_gaveUp hrun]
    exact .gaveUp h
  | lost h hw =>
    rw [bind_of_missing hrun]
    exact .lost h (hlost _ _ hw)
  | astray h =>
    rw [bind_of_found hrun]
    exact hastray _ _ _ h

/-- The run of a flat parser is neither lost nor goes astray. -/
lemma ran_of_flat [Flat p] [Uniform p] {P : α → List Token → Prop} {M : Manner α}
    (hp : p.Spans P) (frame : Frame) (hfound : ∀ a u w, ts.toList = u ++ w → P a u →
      (∀ tok ∈ u, tok.isBrace = false) → M.found a u w)
    (hmissing : p.answer ts.why ts.toList = .missing → M.missing ts.toList) :
    Ran M ts (p frame ts) := by
  rcases hrun : p frame ts with ⟨⟨a, rest⟩ | _ | cause, t⟩
  · obtain ⟨u, hu, ha, hbrace⟩ := hp.passes hrun
    exact .found hu (hfound a u _ hu.reaches.toList_eq ha hbrace)
  · exact .missing (passes_of_run hrun) (hmissing (answer_of_missing hrun))
  · refine .gaveUp ?_
    rw [(passes_of_run hrun).opened_eq List.not_mem_nil]
    exact List.nil_prefix

lemma Ran.map (g : α → β) (h : Ran M ts (p frame ts))
    (hfound : ∀ a u w, M.found a u w → M'.found (g a) u w)
    (hmissing : M.missing ts.toList → M'.missing ts.toList)
    (hlost : ∀ inside w, M.lost inside w → M'.lost inside w)
    (hastray : ∀ rest s, M.astray ts rest s → M'.astray ts rest s) :
    Ran M' ts ((p >>= fun a => pure (g a)) frame ts) := by
  refine h.bind ?_ hmissing hlost ?_
  · intro a u rest s hs ha
    rw [after_pure]
    exact .found hs (hfound _ _ _ ha)
  · intro a rest s hs
    rw [after_pure]
    exact .astray (hastray _ _ hs)

end Ran

/-! ## Runs that go astray -/

/-- The run is left open in the body at the offset `m`, and what it finds ends before the tokens `v`
in front of this body. -/
structure Strays (ts rest : Tokens) (m : Nat) (inside : Tokens) (w v : List Token) (t : Trace) :
    Prop where
  reaches : Reaches rest w ts
  ahead : Reaches (.next m (.punct .openBrace) inside) v rest
  breaks : Breaks ts m inside (w ++ v) t

section Strays

variable {ts mid rest inside : Tokens} {u v w : List Token} {m : Nat} {s t : Trace}

lemma Strays.after (h : Strays mid rest m inside w v t) (hs : Passes ts mid u s)
    (hts : ts.Ordered) : Strays ts rest m inside (u ++ w) v (s.join t) where
  reaches := h.reaches.trans hs.reaches
  ahead := h.ahead
  breaks := by
    rw [List.append_assoc]
    exact hs.breaks h.breaks hts

lemma Strays.mem_braces (h : Strays ts rest m inside w v t) : m ∈ rest.braces := by
  refine h.ahead.braces_subset ?_
  rw [braces_openBrace]
  exact List.mem_cons_self

/-- What idles behind the run fails before the body. -/
lemma Strays.join_right (h : Strays ts rest m inside w v t) (hts : ts.Ordered)
    (hs : Passes rest rest [] s) : Strays ts rest m inside w v (t.join s) where
  reaches := h.reaches
  ahead := h.ahead
  breaks := h.breaks.join_right hts (hs.opened_eq List.not_mem_nil)
    (hs.within (hts.of_reaches h.reaches) h.mem_braces)

end Strays

end Parser

end DotNotation
