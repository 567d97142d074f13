/-
# Parsers beside expressions

A parser and an expression of the grammar, read with ordered choice, are compared on one text.
`Agrees` says that both find the same there, or both find nothing; where the parser gives up it
says nothing.  The parsers for sequence, choice, options and repetition keep the agreement of
their parts, and the parsers for single tokens agree with the terminals.  The main results are

* `agrees_bind`, `agrees_choice`, `agrees_opt`, `agrees_many`: the combinators;
* `agrees_punct`, `agrees_keyword`, `agrees_id`, `agrees_compass`, `agrees_finished`: the tokens.
-/
import DotNotation.Proofs.Parsing.Soundness
import DotNotation.Proofs.Reference.Grammar

namespace DotNotation

open DotNotation.Parser

/-- The answer of a parser to the tokens of a text. -/
def Parser.onText {α : Type} (p : Parser α) (t : Text) : Answer α :=
  p.answer (Tokens.ofText t).why (Tokens.ofText t).toList

namespace Reference

/-! ## Agreement on one text -/

/-- The tokens of the second text are what is left of those of the first. -/
def Leaves (t : Text) (w : List Token) (rest : Text) : Prop :=
  (Tokens.ofText rest).toList = w ∧ (Tokens.ofText rest).why = (Tokens.ofText t).why

/-- On the text the parser and the expression find the same; values and results are related. -/
def Agrees {α : Type} (t : Text) (p : Parser α) (e : Expr) (S : α → List Value → Prop) : Prop :=
  match p.onText t with
  | .found a w => ∃ rest vs, Leaves t w rest ∧ Parses e t (some (vs, rest)) ∧ S a vs
  | .missing => Parses e t none
  | .gaveUp _ => True

/-- The values of an optional part. -/
def OptionOf {α : Type} (S : α → List Value → Prop) : Option α → List Value → Prop
  | none, vs => vs = []
  | some a, vs => S a vs

/-- The values of repeated parts. -/
inductive ListOf {α : Type} (S : α → List Value → Prop) : List α → List Value → Prop
  | nil : ListOf S [] []
  | cons {a : α} {as : List α} {vs us : List Value} (h : S a vs) (hs : ListOf S as us) :
      ListOf S (a :: as) (vs ++ us)

/-- The values of repeated parts, selected. -/
lemma ListOf.filterMap {α β : Type} {S : α → List Value → Prop} {f : Value → Option β}
    {g : α → List β} (hS : ∀ a vs, S a vs → vs.filterMap f = g a) {as : List α}
    {vs : List Value} (h : ListOf S as vs) : vs.filterMap f = as.flatMap g := by
  induction h with
  | nil => rfl
  | cons h _ ih => rw [List.filterMap_append, hS _ _ h, ih, List.flatMap_cons]

lemma Leaves.trans {t mid rest : Text} {w w' : List Token} (h : Leaves t w mid)
    (h' : Leaves mid w' rest) : Leaves t w' rest :=
  ⟨h'.1, h'.2.trans h.2⟩

lemma leaves_refl (t : Text) : Leaves t (Tokens.ofText t).toList t := ⟨rfl, rfl⟩

section Combinators

variable {α β : Type} {t : Text} {p q : Parser α} {e e' : Expr} {S : α → List Value → Prop}

lemma Leaves.answer {mid : Text} {w : List Token} (h : Leaves t w mid) :
    p.answer (Tokens.ofText t).why w = p.onText mid := by
  rw [onText, h.1, h.2]

lemma Agrees.found (h : Agrees t p e S) {a : α} {w : List Token} (hans : p.onText t = .found a w) :
    ∃ rest vs, Leaves t w rest ∧ Parses e t (some (vs, rest)) ∧ S a vs := by
  rw [Agrees, hans] at h
  exact h

lemma Agrees.missing (h : Agrees t p e S) (hans : p.onText t = .missing) : Parses e t none := by
  rw [Agrees, hans] at h
  exact h

lemma agrees_of_found {a : α} {w : List Token} {rest : Text} {vs : List Value}
    (hans : p.onText t = .found a w) (hrest : Leaves t w rest)
    (h : Parses e t (some (vs, rest))) (hS : S a vs) : Agrees t p e S := by
  rw [Agrees, hans]
  exact ⟨rest, vs, hrest, h, hS⟩

lemma agrees_of_missing (hans : p.onText t = .missing) (h : Parses e t none) :
    Agrees t p e S := by
  rw [Agrees, hans]
  exact h

lemma agrees_of_gaveUp {cause : Abort} (hans : p.onText t = .gaveUp cause) : Agrees t p e S := by
  rw [Agrees, hans]
  trivial

lemma Agrees.mono {S' : α → List Value → Prop} (h : Agrees t p e S)
    (hS : ∀ a vs, S a vs → S' a vs) : Agrees t p e S' := by
  cases hans : p.onText t with
  | found a w =>
    obtain ⟨rest, vs, hrest, hparses, ha⟩ := h.found hans
    exact agrees_of_found hans hrest hparses (hS a vs ha)
  | missing => exact agrees_of_missing hans (h.missing hans)
  | gaveUp cause => exact agrees_of_gaveUp hans

lemma agrees_pure {a : α} (h : S a []) : Agrees t (pure a) .empty S :=
  agrees_of_found (answer_pure a) (leaves_refl t) .empty h

lemma agrees_within [Uniform p] {rule : Rule} (h : Agrees t p e S) :
    Agrees t (within rule p) e S := by
  rw [Agrees, onText, answer_within]
  exact h

lemma agrees_rule {r : Nonterminal} (h : Agrees t p r.expr fun a vs => S a (r.act vs)) :
    Agrees t p (.rule r) S := by
  cases hans : p.onText t with
  | found a w =>
    obtain ⟨rest, vs, hrest, hparses, ha⟩ := h.found hans
    exact agrees_of_found hans hrest (.rule hparses) ha
  | missing => exact agrees_of_missing hans (.no_rule (h.missing hans))
  | gaveUp cause => exact agrees_of_gaveUp hans

lemma onText_bind_found [Uniform p] {f : α → Parser β} [∀ a, Uniform (f a)] {a : α}
    {w : List Token} {mid : Text} (hans : p.onText t = .found a w) (hmid : Leaves t w mid) :
    (p >>= f).onText t = (f a).onText mid :=
  (answer_bind_found hans).trans hmid.answer

/-- Sequence: the values of the first part stand before those of the second. -/
lemma agrees_bind [Uniform p] {f : α → Parser β} [∀ a, Uniform (f a)]
    {S' : β → List Value → Prop} (hp : Agrees t p e S)
    (hf : ∀ a vs rest, S a vs → Agrees rest (f a) e' fun b us => S' b (vs ++ us)) :
    Agrees t (p >>= f) (.seq e e') S' := by
  cases hans : p.onText t with
  | found a w =>
    obtain ⟨mid, vs, hmid, hparses, ha⟩ := hp.found hans
    have hrest := hf a vs mid ha
    have hbind := onText_bind_found (f := f) hans hmid
    cases hans' : (f a).onText mid with
    | found b w' =>
      obtain ⟨rest, us, hrest', hparses', hb⟩ := hrest.found hans'
      exact agrees_of_found (hbind.trans hans') (hmid.trans hrest') (.seq hparses hparses') hb
    | missing =>
      exact agrees_of_missing (hbind.trans hans') (.no_second hparses (hrest.missing hans'))
    | gaveUp cause => exact agrees_of_gaveUp (hbind.trans hans')
  | missing => exact agrees_of_missing (answer_bind_missing hans) (.no_first (hp.missing hans))
  | gaveUp cause => exact agrees_of_gaveUp (answer_bind_gaveUp hans)

/-- The last part of a sequence. -/
lemma agrees_last (h : Agrees t p e S) : Agrees t p (.seq e .empty) S := by
  cases hans : p.onText t with
  | found a w =>
    obtain ⟨rest, vs, hrest, hparses, ha⟩ := h.found hans
    refine agrees_of_found hans hrest (.seq hparses .empty) ?_
    rwa [List.append_nil]
  | missing => exact agrees_of_missing hans (.no_first (h.missing hans))
  | gaveUp cause => exact agrees_of_gaveUp hans

/-- What is made of a result. -/
lemma agrees_map [Uniform p] {g : α → β} {S' : β → List Value → Prop} (h : Agrees t p e S)
    (hS : ∀ a vs, S a vs → S' (g a) vs) : Agrees t (p >>= fun a => pure (g a)) e S' := by
  cases hans : p.onText t with
  | found a w =>
    obtain ⟨rest, vs, hrest, hparses, ha⟩ := h.found hans
    have hbind := onText_bind_found (f := fun a => (pure (g a) : Parser β)) hans hrest
    rw [onText, onText, answer_pure, hrest.1] at hbind
    exact agrees_of_found hbind hrest hparses (hS a vs ha)
  | missing => exact agrees_of_missing (answer_bind_missing hans) (h.missing hans)
  | gaveUp cause => exact agrees_of_gaveUp (answer_bind_gaveUp hans)

lemma agrees_choice [Uniform p] [Uniform q] (hp : Agrees t p e S) (hq : Agrees t q e' S) :
    Agrees t (orElse p q) (.choice e e') S := by
  cases hans : p.onText t with
  | found a w =>
    obtain ⟨rest, vs, hrest, hparses, ha⟩ := hp.found hans
    exact agrees_of_found (answer_orElse_found hans) hrest (.choice hparses) ha
  | missing =>
    have hsecond : (orElse p q).onText t = q.onText t := answer_orElse_missing hans
    cases hans' : q.onText t with
    | found a w =>
      obtain ⟨rest, vs, hrest, hparses, ha⟩ := hq.found hans'
      exact agrees_of_found (hsecond.trans hans') hrest
        (.otherwise (hp.missing hans) hparses) ha
    | missing =>
      exact agrees_of_missing (hsecond.trans hans')
        (.otherwise (hp.missing hans) (hq.missing hans'))
    | gaveUp cause => exact agrees_of_gaveUp (hsecond.trans hans')
  | gaveUp cause => exact agrees_of_gaveUp (answer_orElse_gaveUp hans)

/-- The last alternative of a choice. -/
lemma agrees_last_choice (h : Agrees t p e S) : Agrees t p (.choice e .fail) S := by
  cases hans : p.onText t with
  | found a w =>
    obtain ⟨rest, vs, hrest, hparses, ha⟩ := h.found hans
    exact agrees_of_found hans hrest (.choice hparses) ha
  | missing => exact agrees_of_missing hans (.otherwise (h.missing hans) .fail)
  | gaveUp cause => exact agrees_of_gaveUp hans

lemma agrees_opt [Uniform p] (h : Agrees t p e S) :
    Agrees t (optional p) (.opt e) (OptionOf S) := by
  cases hans : p.onText t with
  | found a w =>
    obtain ⟨rest, vs, hrest, hparses, ha⟩ := h.found hans
    exact agrees_of_found (answer_optional_found hans) hrest (.opt hparses) ha
  | missing =>
    exact agrees_of_found (answer_optional_missing hans) (leaves_refl t)
      (.no_opt (h.missing hans)) rfl
  | gaveUp cause => exact agrees_of_gaveUp (answer_optional_gaveUp hans)

/-- Repetition: by induction on the number of tokens that are left. -/
lemma agrees_many [Uniform p] (htakes : p.Takes 1) (h : ∀ t, Agrees t p e S) (t : Text) :
    Agrees t (many p) (.star e) (ListOf S) := by
  induction hn : (Tokens.ofText t).toList.length using Nat.strong_induction_on generalizing t with
  | _ n ih =>
    cases hans : p.onText t with
    | found a w =>
      obtain ⟨mid, vs, hmid, hparses, ha⟩ := (h t).found hans
      have hlt : (Tokens.ofText mid).toList.length < n := by
        rw [hmid.1, ← hn]
        exact htakes.length_lt hans
      have hrest := ih _ hlt mid rfl
      have hmany : (many p).onText t = (many p >>= fun as => pure (a :: as)).onText mid := by
        rw [onText, answer_many htakes, show p.answer _ _ = _ from hans]
        exact hmid.answer
      cases hans' : (many p).onText mid with
      | found as w' =>
        obtain ⟨rest, us, hrest', hparses', has⟩ := hrest.found hans'
        refine agrees_of_found (a := a :: as) (hmany.trans ?_) (hmid.trans hrest')
          (.star hparses hparses') (.cons ha has)
        exact (answer_bind_found hans').trans (answer_pure _)
      | missing => cases hrest.missing hans' -- repetition never fails
      | gaveUp cause => exact agrees_of_gaveUp (hmany.trans (answer_bind_gaveUp hans'))
    | missing =>
      exact agrees_of_found (answer_many_missing htakes hans) (leaves_refl t)
        (.no_star ((h t).missing hans)) .nil
    | gaveUp cause => exact agrees_of_gaveUp (answer_many_gaveUp htakes hans)

end Combinators

/-! ## Tokens -/

section Tokens

variable {t : Text}

/-- A parser for single tokens agrees with a terminal for the same tokens. -/
lemma agrees_terminal {α : Type} {p : Parser α} {S : α → List Value → Prop} {k : Terminal}
    (hk : k ≠ .endOfInput)
    (hfound : ∀ a w, p.onText t = .found a w →
      ∃ tok vs, (Tokens.ofText t).toList = tok :: w ∧ k.Takes tok vs ∧ S a vs)
    (hmissing : p.onText t = .missing →
      ∀ tok w vs, (Tokens.ofText t).toList = tok :: w → ¬ k.Takes tok vs) :
    Agrees t p (.terminal k) S := by
  cases hans : p.onText t with
  | found a w =>
    obtain ⟨tok, vs, htokens, htakes, ha⟩ := hfound a w hans
    obtain ⟨rest, hheads, hrest⟩ := exists_heads htokens
    exact agrees_of_found hans ⟨hrest, hheads.alike.2.symm⟩
      (.terminal ((Terminal.reads_iff hk).2 ⟨tok, hheads, htakes⟩)) ha
  | missing =>
    refine agrees_of_missing hans (.no_terminal ?_)
    intro vs rest hreads
    obtain ⟨tok, hheads, htakes⟩ := (Terminal.reads_iff hk).1 hreads
    exact hmissing hans tok _ vs hheads.alike.1 htakes
  | gaveUp cause => exact agrees_of_gaveUp hans

lemma agrees_only {p : Parser Unit} {k : Terminal} {tok : Token} {vs : List Value}
    (hk : k ≠ .endOfInput) (hp : ∀ why w, p.answer why w = Answer.take (Token.only tok) w)
    (htakes : k.Takes tok vs) (honly : ∀ other us, k.Takes other us → other = tok) :
    Agrees t p (.terminal k) fun _ us => us = vs := by
  refine agrees_terminal hk ?_ ?_
  · intro a w hans
    rw [onText, hp] at hans
    cases htokens : (Tokens.ofText t).toList with
    | nil =>
      rw [htokens] at hans
      cases hans
    | cons other w' =>
      by_cases hother : other = tok
      · subst hother
        rw [htokens, take_only_cons] at hans
        cases hans
        exact ⟨_, vs, rfl, htakes, rfl⟩
      · rw [htokens, take_only_missing (by simpa using hother)] at hans
        cases hans
  · intro hans other w us htokens hother
    obtain rfl := honly other us hother
    rw [onText, hp, htokens, take_only_cons] at hans
    cases hans

lemma agrees_punct (p : Punct) : Agrees t (punct p) (.punct p) fun _ vs => vs = [] :=
  agrees_only (by simp) (fun _ _ => answer_punct p) ⟨rfl, rfl⟩ fun _ _ h => h.1

lemma agrees_keyword (k : Keyword) :
    Agrees t (keyword k) (.keyword k) fun _ vs => vs = [.keyword k] :=
  agrees_only (by simp) (fun _ _ => answer_keyword k) ⟨rfl, rfl⟩ fun _ _ h => h.1

lemma agrees_openBody : Agrees t openBody (.punct .openBrace) fun _ vs => vs = [] :=
  agrees_only (by simp) (fun _ _ => answer_openBody) ⟨rfl, rfl⟩ fun _ _ h => h.1

lemma agrees_id : Agrees t Grammar.id .id fun name vs => vs = [.id name] := by
  have hvalid := Tokens.areValid_ofText t
  refine agrees_terminal (by simp) ?_ ?_
  · intro name w hans
    rw [onText] at hans
    cases htokens : (Tokens.ofText t).toList with
    | nil =>
      rw [htokens, Grammar.answer_id_missing (by simp)] at hans
      cases hans
    | cons tok w' =>
      rw [htokens] at hans hvalid
      cases tok with
      | punct p =>
        rw [Grammar.answer_id_missing (by simp)] at hans
        cases hans
      | id other =>
        -- the scanner gives valid tokens only, so building the identifier succeeds
        have hother : other.isValid = true := hvalid (.id other) List.mem_cons_self
        rw [Grammar.answer_id_cons hother] at hans
        cases hans
        exact ⟨_, _, rfl, ⟨_, rfl, rfl⟩, rfl⟩
  · rintro hans _ w vs htokens ⟨name, rfl, -⟩
    have hname : name.isValid = true := by
      rw [htokens] at hvalid
      exact hvalid (.id name) List.mem_cons_self
    rw [onText, htokens, Grammar.answer_id_cons hname] at hans
    cases hans

lemma agrees_finished : Agrees t finished (.terminal .endOfInput) fun _ vs => vs = [] := by
  by_cases hend : (Tokens.ofText t).toList = [] ∧ (Tokens.ofText t).why = .endOfInput
  · obtain ⟨s, hs, hread⟩ := exists_stop hend.1
    rw [hend.2] at hread
    -- the tokens end with the text, not at something that the scanner cannot read
    obtain rfl := Piece.eq_nil_of_read hread
    have hans : finished.onText t = .found () [] := by rw [onText, answer_finished, if_pos hend]
    have hleaves : Leaves t [] [] := ⟨rfl, hend.2.symm⟩
    exact agrees_of_found hans hleaves
      (.terminal (Terminal.reads_endOfInput_iff.2 ⟨hs, rfl, rfl⟩)) rfl
  · refine agrees_of_missing ?_ (.no_terminal ?_)
    · rw [onText, answer_finished, if_neg hend]
    · intro vs rest hreads
      obtain ⟨hs, -⟩ := Terminal.reads_endOfInput_iff.1 hreads
      exact hend hs.alike

/-! ### Choice between tokens -/

/-- A choice between terminals reads the first token if one of them stands for it. -/
lemma parses_firstOf {ks : List Terminal} (hend : ∀ k ∈ ks, k ≠ .endOfInput) {tok : Token}
    {rest : Text} (hheads : Heads t tok rest) {vs : List Value}
    (hex : ∃ k ∈ ks, k.Takes tok vs) (hall : ∀ k ∈ ks, ∀ us, k.Takes tok us → us = vs) :
    Parses (.firstOf (ks.map .terminal)) t (some (vs, rest)) := by
  induction ks with
  | nil =>
    obtain ⟨k, hk, -⟩ := hex
    cases hk
  | cons k ks ih =>
    obtain ⟨hk, hks⟩ := List.forall_mem_cons.1 hend
    obtain ⟨hfirst, hothers⟩ := List.forall_mem_cons.1 hall
    by_cases htakes : ∃ us, k.Takes tok us
    · obtain ⟨us, hus⟩ := htakes
      obtain rfl := hfirst us hus
      exact .choice (.terminal ((Terminal.reads_iff hk).2 ⟨tok, hheads, hus⟩))
    · refine .otherwise (.no_terminal ?_) (ih hks ?_ hothers)
      · intro us rest' hreads
        obtain ⟨tok', hheads', hus⟩ := (Terminal.reads_iff hk).1 hreads
        obtain ⟨rfl, -⟩ := hheads.unique hheads'
        exact htakes ⟨us, hus⟩
      · obtain ⟨k', hk', hus⟩ := hex
        rcases List.mem_cons.1 hk' with rfl | hk'
        · exact absurd ⟨vs, hus⟩ htakes
        · exact ⟨k', hk', hus⟩

/-- A choice between terminals reads nothing if none of them stands for the first token. -/
lemma parses_firstOf_none {ks : List Terminal} (hend : ∀ k ∈ ks, k ≠ .endOfInput)
    (h : ∀ k ∈ ks, ∀ tok rest vs, Heads t tok rest → ¬ k.Takes tok vs) :
    Parses (.firstOf (ks.map .terminal)) t none := by
  induction ks with
  | nil => exact .fail
  | cons k ks ih =>
    obtain ⟨hk, hks⟩ := List.forall_mem_cons.1 hend
    obtain ⟨hfirst, hothers⟩ := List.forall_mem_cons.1 h
    refine .otherwise (.no_terminal ?_) (ih hks hothers)
    intro vs rest hreads
    obtain ⟨tok, hheads, htakes⟩ := (Terminal.reads_iff hk).1 hreads
    exact hfirst tok rest vs hheads htakes

lemma keyword_of_word {k k' : Keyword} (h : k.word = k'.word) : k = k' := by
  have hfind : ∀ k : Keyword, Keyword.all.find? (·.word == k.word) = some k := by
    intro k
    cases k <;> decide
  have hk := hfind k
  rw [h, hfind k'] at hk
  exact (Option.some.inj hk).symm

/-- A choice between keywords reads the keyword that stands in the text. -/
lemma parses_keywords {ks : List Keyword} {k : Keyword} {rest : Text}
    (hheads : Heads t (.word k.word) rest) (hk : k ∈ ks) :
    Parses (.firstOf (ks.map .keyword)) t (some ([.keyword k], rest)) := by
  rw [show ks.map Expr.keyword = (ks.map Terminal.keyword).map .terminal by
    rw [List.map_map]; rfl]
  refine parses_firstOf (by simp) hheads ⟨.keyword k, List.mem_map_of_mem hk, rfl, rfl⟩ ?_
  rintro _ hmem us htakes
  obtain ⟨k', -, rfl⟩ := List.mem_map.1 hmem
  have hword : k.word = k'.word := by simpa [Token.word] using htakes.1
  rw [htakes.2, keyword_of_word hword]

lemma parses_no_keyword {ks : List Keyword}
    (h : ∀ k ∈ ks, ∀ rest, ¬ Heads t (.word k.word) rest) :
    Parses (.firstOf (ks.map .keyword)) t none := by
  rw [show ks.map Expr.keyword = (ks.map Terminal.keyword).map .terminal by
    rw [List.map_map]; rfl]
  refine parses_firstOf_none (by simp) ?_
  intro _ hmem tok rest vs hheads htakes
  obtain ⟨k, hk, rfl⟩ := List.mem_map.1 hmem
  exact h k hk rest (htakes.1 ▸ hheads)

lemma agrees_compass :
    Agrees t (within .compass compassPoint) (.rule .compass) fun c vs => vs = [.compass c] := by
  refine agrees_rule (agrees_within ?_)
  have hexpr : Nonterminal.compass.expr =
      .firstOf ((Compass.all.map Terminal.compass).map .terminal) := rfl
  have hend : ∀ k ∈ Compass.all.map Terminal.compass, k ≠ .endOfInput := by simp
  have hans : compassPoint.onText t = Answer.take Token.compass? (Tokens.ofText t).toList :=
    answer_compassPoint
  rw [hexpr]
  cases htokens : (Tokens.ofText t).toList with
  | nil =>
    rw [htokens] at hans
    refine agrees_of_missing hans (parses_firstOf_none hend ?_)
    intro k _ tok rest vs hheads
    rw [hheads.alike.1] at htokens
    cases htokens
  | cons tok w =>
    obtain ⟨rest, hheads, hrest⟩ := exists_heads htokens
    rw [htokens, Answer.take] at hans
    cases hc : Token.compass? tok with
    | some c =>
      rw [hc] at hans
      have htok : tok = .word c.word := by
        rcases tok with p | ⟨kind, value⟩
        · cases hc
        · cases kind with
          | plain => rw [Token.word, Compass.word_of_ofWord? hc]
          | quoted => cases hc
          | html => cases hc
      -- the points have different words, so no earlier one is taken instead
      have hothers : ∀ k ∈ Compass.all.map Terminal.compass, ∀ us, k.Takes tok us →
          us = [.compass c] := by
        rintro _ hmem us htakes
        obtain ⟨d, -, rfl⟩ := List.mem_map.1 hmem
        have hd : Token.compass? tok = some d := by simp [htakes.1, Token.compass?, Token.word]
        rw [hd] at hc
        rw [htakes.2, Option.some.inj hc]
      have hthis : ∃ k ∈ Compass.all.map Terminal.compass, k.Takes tok [.compass c] :=
        ⟨.compass c, List.mem_map_of_mem (Compass.mem_all c), htok, rfl⟩
      exact agrees_of_found hans ⟨hrest, hheads.alike.2.symm⟩
        (parses_firstOf hend hheads hthis hothers) rfl
    | none =>
      rw [hc] at hans
      refine agrees_of_missing hans (parses_firstOf_none hend ?_)
      intro k hmem tok' rest' vs hheads' htakes
      obtain ⟨rfl, -⟩ := hheads.unique hheads'
      obtain ⟨c, -, rfl⟩ := List.mem_map.1 hmem
      simp [htakes.1, Token.compass?, Token.word] at hc

end Tokens

end Reference

end DotNotation
