/-
# Which bodies a run opens

A run logs the offset of every body that it opens.  As long as nothing fails inside a body the log
has the opening braces that were passed, each of them once, and an attempt that fails has not gone
beyond the bodies in the log: `Trace.Passes`.  A body that is left open ends this.  Its run has the
furthest failure inside, and everything that is tried afterwards fails before or inside it:
`Trace.Breaks`.

A body can be opened again if the word for a subgraph announces it.  This word is then read as a
node, and the body without it.  `Token.Announces` says when this can happen, in terms of the tokens
in front of the body.
-/
import DotNotation.Proofs.Parsing.Flat
import DotNotation.Proofs.Parsing.OpenBraces
import Mathlib.Data.List.Basic

namespace DotNotation

/-! ## Announced bodies -/

namespace Token

/-- The tokens of a name that may be left out. -/
def ofName (name : Option Id) : List Token := (name.map Token.id).toList

/-- A vertex can stand behind the tokens: they reach into a body, and no value and no part of a
port is due. -/
structure FitsVertex (v : List Token) : Prop where
  inBody : .punct .openBrace ∈ v
  noValue : v.getLast? ≠ some (.punct .equals)
  noPort : v.getLast? ≠ some (.punct .colon)

/-- The tokens end with the word for a subgraph, where a vertex can stand. -/
def Marks (front : List Token) : Prop :=
  ∃ v, FitsVertex v ∧ front = v ++ [.word Keyword.subgraph.word]

/-- The tokens end with the word for a subgraph, where a vertex can stand, or with this word and a
name.  The body behind them is the one of the subgraph. -/
def Announces (front : List Token) : Prop :=
  Marks front ∨ ∃ v name, Marks v ∧ front = v ++ [.id name]

section Announces

variable {tok : Token} {v c front : List Token}

lemma marks_concat_iff : Marks (v ++ [tok]) ↔ FitsVertex v ∧ tok = .word Keyword.subgraph.word := by
  constructor
  · rintro ⟨v', hv', heq⟩
    obtain ⟨rfl, htok⟩ := List.append_inj' heq rfl
    exact ⟨hv', List.cons.inj htok |>.1⟩
  · rintro ⟨hv, rfl⟩
    exact ⟨v, hv, rfl⟩

lemma announces_concat_iff :
    Announces (v ++ [tok]) ↔ Marks (v ++ [tok]) ∨ Marks v ∧ ∃ name, tok = .id name := by
  refine or_congr_right ⟨?_, ?_⟩
  · rintro ⟨v', name, hv', heq⟩
    obtain ⟨rfl, htok⟩ := List.append_inj' heq rfl
    exact ⟨hv', name, List.cons.inj htok |>.1⟩
  · rintro ⟨hv, name, rfl⟩
    exact ⟨v, name, hv, rfl⟩

lemma not_marks_punct (v : List Token) (p : Punct) : ¬ Marks (v ++ [.punct p]) := by
  rw [marks_concat_iff]
  rintro ⟨-, h⟩
  cases h

/-- Punctuation announces nothing. -/
lemma not_announces_punct (v : List Token) (p : Punct) : ¬ Announces (v ++ [.punct p]) := by
  rw [announces_concat_iff]
  rintro (h | ⟨-, name, h⟩)
  · exact not_marks_punct v p h
  · cases h

lemma fitsVertex_append_iff :
    FitsVertex (c ++ .punct .openBrace :: v) ↔ FitsVertex (.punct .openBrace :: v) := by
  have hlast : (c ++ .punct .openBrace :: v).getLast? =
      (.punct .openBrace :: v : List Token).getLast? := by
    rw [List.getLast?_append, List.getLast?_cons]
    rfl
  constructor
  · rintro ⟨-, hvalue, hport⟩
    exact ⟨List.mem_cons_self, hlast ▸ hvalue, hlast ▸ hport⟩
  · rintro ⟨-, hvalue, hport⟩
    exact ⟨by simp, hlast ▸ hvalue, hlast ▸ hport⟩

lemma marks_append_iff :
    Marks (c ++ .punct .openBrace :: v) ↔ Marks (.punct .openBrace :: v) := by
  rcases List.eq_nil_or_concat' v with rfl | ⟨v, tok, rfl⟩
  · exact iff_of_false (not_marks_punct c .openBrace) (not_marks_punct [] .openBrace)
  · rw [← List.cons_append, ← List.append_assoc, marks_concat_iff, marks_concat_iff,
      fitsVertex_append_iff]

/-- Whether a body is announced depends on the tokens of the body around it only. -/
lemma announces_append_iff :
    Announces (c ++ .punct .openBrace :: v) ↔ Announces (.punct .openBrace :: v) := by
  rcases List.eq_nil_or_concat' v with rfl | ⟨v, tok, rfl⟩
  · exact iff_of_false (not_announces_punct c .openBrace) (not_announces_punct [] .openBrace)
  · rw [← List.cons_append, ← List.append_assoc, announces_concat_iff, announces_concat_iff,
      List.append_assoc, List.cons_append, marks_append_iff, marks_append_iff]

/-- The word announces a body behind it, and one behind a name. -/
lemma Marks.announces (h : Marks front) (name : Option Id) : Announces (front ++ ofName name) := by
  cases name with
  | none =>
    rw [show ofName none = [] from rfl, List.append_nil]
    exact Or.inl h
  | some name => exact Or.inr ⟨front, name, h, rfl⟩

/-- Outside of bodies nothing is announced. -/
lemma openBrace_mem_of_announces (h : Announces front) : .punct .openBrace ∈ front := by
  rcases h with ⟨v, hv, rfl⟩ | ⟨_, name, ⟨v, hv, rfl⟩, rfl⟩
  · exact List.mem_append_left _ hv.inBody
  · exact List.mem_append_left _ (List.mem_append_left _ hv.inBody)

end Announces

end Token

open Token Tokens

namespace Trace

section Failures

variable {s t : Trace} {n : Nat}

/-- A trace has one furthest place. -/
lemma FailsAt.within (h : t.FailsAt n) : t.Within n := by
  obtain ⟨f, hf, rfl⟩ := h
  intro g hg
  rw [Option.mem_unique hf hg]

lemma FailsAt.join_left (h : t.FailsAt n) (hs : s.Within n) : (s.join t).FailsAt n := by
  obtain ⟨k, hk⟩ := exists_failsAt_join (s := s) (Or.inr ⟨n, h⟩)
  have hle : k ≤ n := hk.le (within_join_iff.2 ⟨hs, h.within⟩)
  have hge : n ≤ k := h.le (within_join_iff.1 hk.within).2
  rwa [← Nat.le_antisymm hle hge]

lemma FailsAt.join_right (h : s.FailsAt n) (ht : t.Within n) : (s.join t).FailsAt n := by
  obtain ⟨k, hk⟩ := exists_failsAt_join (t := t) (Or.inl ⟨n, h⟩)
  have hle : k ≤ n := hk.le (within_join_iff.2 ⟨h.within, ht⟩)
  have hge : n ≤ k := h.le (within_join_iff.1 hk.within).1
  rwa [← Nat.le_antisymm hle hge]

lemma Within.mono {m : Nat} (h : t.Within m) (hle : m ≤ n) : t.Within n :=
  fun f hf => (h f hf).trans hle

end Failures

/-! ## Bodies that are passed -/

/-- An attempt that failed somewhere had passed no bodies but the first ones in the log. -/
def Accounts (ts : Tokens) (t : Trace) : Prop :=
  ∀ n, t.FailsAt n → ∃ place u opened, Reaches place u ts ∧ place.offset = n ∧ Rising u ∧
    ts.braces = opened ++ place.braces ∧ opened <+: t.opened

/-- The run has passed the tokens `u` and opened each body in them once. -/
structure Passes (ts mid : Tokens) (u : List Token) (t : Trace) : Prop where
  reaches : Reaches mid u ts
  balanced : Balanced u
  braces_eq : ts.braces = t.opened ++ mid.braces
  accounts : t.Accounts ts

section Passes

variable {ts mid rest : Tokens} {u v : List Token} {s t : Trace} {n : Nat}

lemma accounts_of_failure_eq_none (h : t.failure = none) : t.Accounts ts := by
  rintro n ⟨f, hf, -⟩
  rw [h] at hf
  cases hf

lemma passes_here (ts : Tokens) : Passes ts ts [] .empty :=
  ⟨.here, balanced_nil, rfl, accounts_of_failure_eq_none rfl⟩

/-- Behind passed bodies the next attempt accounts for its failures. -/
lemma Passes.accounts_join (h : Passes ts mid u s) (ht : t.Accounts mid) :
    (s.join t).Accounts ts := by
  intro n hn
  rcases hn.of_join with hn | hn
  · obtain ⟨place, v, opened, hv, hplace, hrising, hbraces, hprefix⟩ := h.accounts n hn
    exact ⟨place, v, opened, hv, hplace, hrising, hbraces, hprefix.trans (List.prefix_append _ _)⟩
  · obtain ⟨place, v, opened, hv, hplace, hrising, hbraces, hprefix⟩ := ht n hn
    refine ⟨place, u ++ v, s.opened ++ opened, hv.trans h.reaches, hplace,
      h.balanced.append_rising hrising, ?_, (List.prefix_append_right_inj _).2 hprefix⟩
    rw [h.braces_eq, hbraces, List.append_assoc]

lemma Passes.trans (h : Passes ts mid u s) (h' : Passes mid rest v t) :
    Passes ts rest (u ++ v) (s.join t) where
  reaches := h'.reaches.trans h.reaches
  balanced := h.balanced.append h'.balanced
  braces_eq := by
    show ts.braces = s.opened ++ t.opened ++ rest.braces
    rw [h.braces_eq, h'.braces_eq, List.append_assoc]
  accounts := h.accounts_join h'.accounts

/-- A run that gives up behind passed bodies has opened the first ones. -/
lemma Passes.join_prefix (h : Passes ts mid u s) (ht : t.opened <+: mid.braces) :
    (s.join t).opened <+: ts.braces := by
  show s.opened ++ t.opened <+: ts.braces
  rw [h.braces_eq]
  exact (List.prefix_append_right_inj _).2 ht

/-- An attempt that opened nothing passes nothing. -/
lemma passes_of_nil (hopened : t.opened = []) (h : t.Accounts ts) : Passes ts ts [] t :=
  ⟨.here, balanced_nil, by rw [hopened, List.nil_append], h⟩

/-- No failure lies behind the next body that was not opened. -/
lemma Accounts.within (h : t.Accounts ts) (hts : ts.Ordered) {unopened : List Nat}
    (hbraces : ts.braces = t.opened ++ unopened) (hn : n ∈ unopened) : t.Within n := by
  intro f hf
  obtain ⟨place, u, opened, hu, hplace, -, hopened, more, hmore⟩ := h f.offset ⟨f, hf, rfl⟩
  rw [← hplace]
  refine (hts.of_reaches hu).offset_le ?_
  rw [hbraces, ← hmore, List.append_assoc] at hopened
  rw [← List.append_cancel_left hopened]
  exact List.mem_append_right _ hn

/-- A run that passed no opening brace opened no body. -/
lemma Passes.opened_eq (h : Passes ts mid u t) (hu : .punct .openBrace ∉ u) : t.opened = [] := by
  have hbraces := h.braces_eq
  rwa [h.reaches.braces_eq hu, List.self_eq_append_left] at hbraces

lemma Passes.within (h : Passes ts mid u t) (hts : ts.Ordered) (hn : n ∈ mid.braces) :
    t.Within n := h.accounts.within hts h.braces_eq hn

end Passes

/-! ## Bodies that are left open -/

/-- The run, on tokens in a body behind the tokens `c`, comes to its furthest failure.  The log has
an offset twice exactly if an announced body is left open there. -/
structure Halts (c : List Token) (ts : Tokens) (t : Trace) : Prop where
  subset : t.opened ⊆ ts.braces
  stop : ∃ place u, Reaches place u ts ∧ t.FailsAt place.offset ∧ Rising u ∧
    (t.opened.Nodup ↔ ∀ front, LeavesOpen front u → ¬ Announces (c ++ front))

/-- The run passes the tokens `w`, opens the body at the offset `m` for the first time, and comes to
its furthest failure inside. -/
structure Breaks (ts : Tokens) (m : Nat) (inside : Tokens) (w : List Token) (t : Trace) :
    Prop where
  reaches : Reaches (.next m (.punct .openBrace) inside) w ts
  balanced : Balanced w
  halts : ∃ passed opened, ts.braces = passed ++ m :: inside.braces ∧
    t.opened = passed ++ m :: opened ∧ Halts [.punct .openBrace] inside ⟨t.failure, opened⟩

/-- The furthest failure lies in the body around the tokens. -/
def Stops (inside : Tokens) (t : Trace) : Prop :=
  ∃ place u, Reaches place u inside ∧ t.FailsAt place.offset ∧ Rising u

/-- The run opens a body at the offset `m` that it does not leave any more. -/
structure Enters (m : Nat) (inside : Tokens) (t : Trace) : Prop where
  mem : m ∈ t.opened
  subset : t.opened ⊆ m :: inside.braces
  stops : Stops inside t

section Halts

variable {ts mid rest inside : Tokens} {c u w : List Token} {s t : Trace} {m : Nat}

lemma Stops.join (h : Stops inside s) (h' : Stops inside t) : Stops inside (s.join t) := by
  obtain ⟨place, u, hu, hfails, hrising⟩ := h
  obtain ⟨place', u', hu', hfails', hrising'⟩ := h'
  rcases le_total place.offset place'.offset with hle | hle
  · exact ⟨place', u', hu', hfails'.join_left (hfails.within.mono hle), hrising'⟩
  · exact ⟨place, u, hu, hfails.join_right (hfails'.within.mono hle), hrising⟩

lemma Stops.join_left (h : Stops inside t) (hm : inside.Beyond m) (hs : s.Within m) :
    Stops inside (s.join t) := by
  obtain ⟨place, u, hu, hfails, hrising⟩ := h
  exact ⟨place, u, hu, hfails.join_left (hs.mono (hm place u hu).le), hrising⟩

lemma Stops.join_right (h : Stops inside t) (hm : inside.Beyond m) (hs : s.Within m) :
    Stops inside (t.join s) := by
  obtain ⟨place, u, hu, hfails, hrising⟩ := h
  exact ⟨place, u, hu, hfails.join_right (hs.mono (hm place u hu).le), hrising⟩

/-- Earlier failures before the body do not count. -/
lemma Halts.join_left (h : Halts c inside t) (hm : inside.Beyond m) (hs : s.Within m) :
    Halts c inside ⟨(s.join t).failure, t.opened⟩ := by
  obtain ⟨place, u, hu, hfails, hrising, hnodup⟩ := h.stop
  exact ⟨h.subset, place, u, hu, hfails.join_left (hs.mono (hm place u hu).le), hrising, hnodup⟩

/-- Later failures before the body do not count. -/
lemma Halts.join_right (h : Halts c inside t) (hm : inside.Beyond m) (hs : s.Within m) :
    Halts c inside ⟨(t.join s).failure, t.opened⟩ := by
  obtain ⟨place, u, hu, hfails, hrising, hnodup⟩ := h.stop
  exact ⟨h.subset, place, u, hu, hfails.join_right (hs.mono (hm place u hu).le), hrising, hnodup⟩

lemma Breaks.beyond (h : Breaks ts m inside w t) (hts : ts.Ordered) : inside.Beyond m :=
  hts m _ inside w h.reaches

lemma Breaks.mem_braces (h : Breaks ts m inside w t) : m ∈ ts.braces := by
  obtain ⟨passed, opened, hbraces, -, -⟩ := h.halts
  rw [hbraces]
  exact List.mem_append_right _ List.mem_cons_self

lemma Passes.breaks (h : Passes ts mid u s) (h' : Breaks mid m inside w t) (hts : ts.Ordered) :
    Breaks ts m inside (u ++ w) (s.join t) := by
  obtain ⟨passed, opened, hbraces, hopened, hhalts⟩ := h'.halts
  have hwithin := h.within hts h'.mem_braces
  refine ⟨h'.reaches.trans h.reaches, h.balanced.append h'.balanced, s.opened ++ passed, opened,
    ?_, ?_, hhalts.join_left (h'.beyond (hts.of_reaches h.reaches)) hwithin⟩
  · rw [h.braces_eq, hbraces, List.append_assoc]
  · show s.opened ++ t.opened = _
    rw [hopened, List.append_assoc]

/-- Later attempts that open nothing and fail before the body change nothing. -/
lemma Breaks.join_right (h : Breaks ts m inside w t) (hts : ts.Ordered) (hopened : s.opened = [])
    (hs : s.Within m) : Breaks ts m inside w (t.join s) := by
  obtain ⟨passed, opened, hbraces, hlog, hhalts⟩ := h.halts
  refine ⟨h.reaches, h.balanced, passed, opened, hbraces, ?_, hhalts.join_right (h.beyond hts) hs⟩
  show t.opened ++ s.opened = _
  rw [hopened, List.append_nil, hlog]

/-- A later attempt in the same place that passes no body changes nothing. -/
lemma Breaks.join_passes (h : Breaks ts m inside w t) (hts : ts.Ordered)
    (hs : Passes ts ts [] s) : Breaks ts m inside w (t.join s) :=
  h.join_right hts (hs.opened_eq List.not_mem_nil) (hs.within hts h.mem_braces)

lemma Breaks.subset (h : Breaks ts m inside w t) : t.opened ⊆ ts.braces := by
  obtain ⟨passed, opened, hbraces, hlog, hhalts⟩ := h.halts
  rw [hbraces, hlog]
  exact List.append_subset.2 ⟨List.subset_append_left _ _,
    List.subset_append_of_subset_right _ (List.cons_subset_cons m hhalts.subset)⟩

lemma Breaks.mem (h : Breaks ts m inside w t) : m ∈ t.opened := by
  obtain ⟨passed, opened, -, hlog, -⟩ := h.halts
  rw [hlog]
  exact List.mem_append_right _ List.mem_cons_self

lemma Breaks.stops (h : Breaks ts m inside w t) : Stops inside t := by
  obtain ⟨_, _, -, -, hhalts⟩ := h.halts
  obtain ⟨place, u, hu, hfails, hrising, -⟩ := hhalts.stop
  exact ⟨place, u, hu, hfails, hrising⟩

/-- A body that is not announced is opened once: only bodies inside can be opened twice. -/
lemma Breaks.halts_once (h : Breaks ts m inside w t) (hts : ts.Ordered)
    (hw : ¬ Announces (c ++ w)) : Halts c ts t := by
  obtain ⟨passed, opened, hbraces, hlog, hhalts⟩ := h.halts
  obtain ⟨place, u, hu, hfails, hrising, hnodup⟩ := hhalts.stop
  refine ⟨h.subset, place, w ++ .punct .openBrace :: u, (hu.next m _).trans h.reaches, hfails,
    h.balanced.append_rising hrising.openBrace, ?_⟩
  have hfront : (∀ front, LeavesOpen front (w ++ .punct .openBrace :: u) →
      ¬ Announces (c ++ front)) ↔
        ∀ front, LeavesOpen front u → ¬ Announces (.punct .openBrace :: front) := by
    simp only [leavesOpen_append_iff h.balanced, leavesOpen_openBrace_iff]
    constructor
    · intro hall front hfront
      have hannounced := hall _ ⟨_, rfl, Or.inr ⟨front, rfl, hfront⟩⟩
      rwa [← List.append_assoc, announces_append_iff] at hannounced
    · rintro hall _ ⟨_, rfl, ⟨rfl, -⟩ | ⟨front, rfl, hfront⟩⟩
      · rwa [List.append_nil]
      · rw [← List.append_assoc, announces_append_iff]
        exact hall front hfront
  have hlogged : t.opened.Nodup ↔ opened.Nodup := by
    have hall := hts.nodup_braces
    rw [hbraces, List.nodup_append, List.nodup_cons] at hall
    obtain ⟨hpassed, ⟨hm, -⟩, hdisjoint⟩ := hall
    rw [hlog, List.nodup_append, List.nodup_cons]
    constructor
    · exact fun hnodup => hnodup.2.1.2
    · refine fun hnodup => ⟨hpassed, ⟨fun hmem => hm (hhalts.subset hmem), hnodup⟩, ?_⟩
      exact fun a ha b hb => hdisjoint a ha b (List.cons_subset_cons m hhalts.subset hb)
  rw [hfront, hlogged]
  exact hnodup

/-- A body that is announced and left open is opened again, so the log has its offset twice. -/
lemma Breaks.halts_twice (h : Breaks ts m inside w s) (ht : Enters m inside t)
    (hw : Announces (c ++ w)) : Halts c ts (s.join t) := by
  obtain ⟨place, u, hu, hfails, hrising⟩ := h.stops.join ht.stops
  have htwice : ¬ (s.join t).opened.Nodup := by
    show ¬ (s.opened ++ t.opened).Nodup
    rw [List.nodup_append]
    exact fun hnodup => hnodup.2.2 m h.mem m ht.mem rfl
  refine ⟨?_, place, w ++ .punct .openBrace :: u, (hu.next m _).trans h.reaches, hfails,
    h.balanced.append_rising hrising.openBrace, ?_⟩
  · have hbraces := h.reaches.braces_subset
    rw [braces_openBrace] at hbraces
    exact List.append_subset.2 ⟨h.subset, List.Subset.trans ht.subset hbraces⟩
  · refine iff_of_false htwice fun hall => hall w ?_ hw
    exact ⟨u, rfl, hrising⟩

/-! ## Bodies that are entered again -/

lemma Breaks.enters (h : Breaks ts m inside w t) (hw : .punct .openBrace ∉ w) :
    Enters m inside t := by
  refine ⟨h.mem, ?_, h.stops⟩
  have hsubset := h.subset
  rwa [h.reaches.braces_eq hw, braces_openBrace] at hsubset

lemma Enters.join_right (h : Enters m inside t) (hm : inside.Beyond m) (hopened : s.opened = [])
    (hs : s.Within m) : Enters m inside (t.join s) := by
  have hlog : (t.join s).opened = t.opened := by
    show t.opened ++ s.opened = t.opened
    rw [hopened, List.append_nil]
  exact ⟨hlog ▸ h.mem, hlog ▸ h.subset, h.stops.join_right hm hs⟩

lemma Enters.join_left (h : Enters m inside t) (hm : inside.Beyond m) (hopened : s.opened = [])
    (hs : s.Within m) : Enters m inside (s.join t) := by
  have hlog : (s.join t).opened = t.opened := by
    show s.opened ++ t.opened = t.opened
    rw [hopened, List.nil_append]
  exact ⟨hlog ▸ h.mem, hlog ▸ h.subset, h.stops.join_left hm hs⟩

lemma Enters.join (h : Enters m inside s) (h' : Enters m inside t) :
    Enters m inside (s.join t) :=
  ⟨List.mem_append_left _ h.mem, List.append_subset.2 ⟨h.subset, h'.subset⟩,
    h.stops.join h'.stops⟩

/-! ## Failures behind passed bodies -/

/-- Where all bodies were passed and then something failed, no body is left open. -/
lemma Passes.halts (h : Passes ts rest w s) (hts : ts.Ordered) (ht : t.Accounts rest)
    (hopened : t.opened = []) (hfails : ∃ n, t.FailsAt n ∧ rest.offset ≤ n) :
    Halts c ts (s.join t) := by
  have hlog : (s.join t).opened = s.opened := by
    show s.opened ++ t.opened = s.opened
    rw [hopened, List.append_nil]
  obtain ⟨k, hk⟩ := exists_failsAt_join (s := s) (Or.inr (hfails.imp fun _ hn => hn.1))
  have hle : rest.offset ≤ k := by
    obtain ⟨n, hn, hle⟩ := hfails
    exact hle.trans (hn.le (within_join_iff.1 hk.within).2)
  obtain ⟨place, u, opened, hu, rfl, hrising, hbraces, hprefix⟩ := h.accounts_join ht k hk
  obtain ⟨z, rfl, hz⟩ := hts.exists_reaches h.reaches hu hle
  -- the place is not beyond a brace, since all that was opened stands before `rest`
  have hnone : .punct .openBrace ∉ z := by
    refine hz.openBrace_notMem ?_
    obtain ⟨passed, hpassed, -⟩ := hz.exists_braces
    rw [hlog] at hprefix
    obtain ⟨more, hmore⟩ := hprefix
    have hall := h.braces_eq.symm.trans hbraces
    rw [← hmore, List.append_assoc, List.append_cancel_left_eq, hpassed, ← List.append_assoc,
      List.append_left_eq_self, List.append_eq_nil_iff] at hall
    rw [hpassed, hall.2, List.nil_append]
  have hnodup : s.opened.Nodup := by
    have hall := hts.nodup_braces
    rw [h.braces_eq] at hall
    exact (List.nodup_append.1 hall).1
  refine ⟨?_, place, w ++ z, hu, hk, hrising, ?_⟩
  · rw [hlog, h.braces_eq]
    exact List.subset_append_left _ _
  · rw [hlog]
    refine iff_of_true hnodup fun front hfront => ?_
    obtain ⟨front', -, hfront'⟩ := (leavesOpen_append_iff h.balanced).1 hfront
    exact absurd hfront' (not_leavesOpen_of_notMem hnone)

end Halts

end Trace

end DotNotation
