/-
# Every expectation can be met

A text was rejected.  For everything that was expected at the place of the failure there is a
continuation that starts with it and makes a document of the text before that place.

A parser may have looked for a token in vain and then have gone back to read the same tokens
differently.  For this reason the continuation is found for each attempt on its own: the tokens that
the attempt has read so far, the expected token, and the shortest way to complete what the attempt
was to read can be derived from the grammar.  `Parser.Viable` states this for a parser, and
`Parser.Derives` for a parser and an expression of the grammar; the rules follow one by one.  What
is derived is then accepted, whatever the order in which the parser tries its alternatives.

Completing a text never opens more than one body inside those that are open at the place.
-/
import DotNotation.Proofs.Parsing.Spans
import DotNotation.Proofs.Reference.Derivations

namespace DotNotation

open DotNotation.Parser DotNotation.Grammar DotNotation.Reference

/-! ## Tokens that are put behind a text -/

namespace Token

lemma nesting_append_le (u v : List Token) : nesting (u ++ v) ≤ nesting u + nesting v := by
  fun_induction nesting u with
  | case1 => simp
  | case2 w ih =>
    rw [List.cons_append, nesting]
    omega
  | case3 w ih =>
    rw [List.cons_append, nesting]
    omega
  | case4 tok w hopen hclose ih =>
    rwa [List.cons_append, nesting.eq_4 _ _ hopen hclose]

lemma nesting_le_append (u v : List Token) : nesting u ≤ nesting (u ++ v) := by
  fun_induction nesting u with
  | case1 => exact Nat.zero_le _
  | case2 w ih =>
    rw [List.cons_append, nesting]
    omega
  | case3 w ih =>
    rw [List.cons_append, nesting]
    omega
  | case4 tok w hopen hclose ih =>
    rwa [List.cons_append, nesting.eq_4 _ _ hopen hclose]

/-- The tokens are written as they are meant and open at most so many bodies at once. -/
def Fits (k : Nat) (w : List Token) : Prop := areValid w ∧ nesting w ≤ k

variable {i j k : Nat} {u v : List Token}

lemma fits_nil : Fits 0 [] := ⟨by simp [areValid], le_refl _⟩

lemma Fits.append (hu : Fits i u) (hv : Fits j v) : Fits (i + j) (u ++ v) := by
  refine ⟨?_, (nesting_append_le u v).trans (Nat.add_le_add hu.2 hv.2)⟩
  intro tok htok
  rcases List.mem_append.1 htok with htok | htok
  · exact hu.1 tok htok
  · exact hv.1 tok htok

lemma Fits.mono (h : Fits i u) (hk : i ≤ k) : Fits k u := ⟨h.1, h.2.trans hk⟩

end Token

/-! ## Viable parsers -/

namespace Parser

variable {α β : Type}

/-- The expectation can be met at a place with the given offset: the tokens before the place, a
token that is described by the expectation, and a few more together have the property. -/
def Meets (k : Nat) (W : List Token → Prop) (ts : Tokens) (n : Nat) (e : Expectation) : Prop :=
  ∃ place u tok w, Tokens.Reaches place u ts ∧ place.offset = n ∧ e.Describes (some tok) ∧
    Token.Fits k (tok :: w) ∧ W (u ++ tok :: w)

/-- What the parser finds it reads from tokens with the first property, and whatever it expected at
the furthest place can be met so that all tokens together have the second property. -/
structure Viable (k : Nat) (p : Parser α) (P : α → List Token → Prop)
    (W : List Token → Prop) : Prop where
  spans : p.Spans P
  meets : ∀ frame ts n e, (p frame ts).trace.Records n e → Meets k W ts n e

section Combinators

variable {p q : Parser α} {f : α → Parser β} {i j k : Nat} {P P' : α → List Token → Prop}
  {Q : β → List Token → Prop} {W W' V : List Token → Prop}

lemma Viable.mono (hp : p.Viable j P W) (hk : j ≤ k) (hP : ∀ a u, P a u → P' a u)
    (hW : ∀ u, W u → W' u) : p.Viable k P' W' where
  spans := hp.spans.mono hP
  meets frame ts n e h := by
    obtain ⟨place, u, tok, w, hu, hoffset, he, hfits, hw⟩ := hp.meets frame ts n e h
    exact ⟨place, u, tok, w, hu, hoffset, he, hfits.mono hk, hW _ hw⟩

lemma viable_pure {a : α} (h : P a []) : (pure a : Parser α).Viable k P W where
  spans := spans_pure h
  meets frame ts n e := by
    rintro ⟨f, hf, -⟩
    cases hf

lemma viable_gaveUp (cause : Abort) : (gaveUp cause : Parser α).Viable k P W where
  spans := spans_gaveUp cause
  meets frame ts n e := by
    rintro ⟨f, hf, -⟩
    cases hf

lemma viable_build {part : Except Defect α} (h : ∀ a, part = .ok a → P a []) :
    (build part).Viable k P W := by
  cases part with
  | ok a => exact viable_pure (h a rfl)
  | error defect => exact viable_gaveUp _

lemma viable_expected {e : Expectation} {tok : Token} (he : e.Describes (some tok))
    (hfits : Token.Fits k [tok]) : (expected e : Parser α).Viable k P (· = [tok]) where
  spans frame ts a rest h := by cases h
  meets frame ts n e' h := by
    obtain ⟨hoffset, rfl⟩ := Trace.records_unmet.1 h
    exact ⟨ts, [], tok, [], .here, hoffset, he, hfits, rfl⟩

lemma viable_look {select : Token → Option α} {tok : Token} (h : p.Looks select)
    (hfits : Token.Fits k [tok]) (htok : (select tok).isSome) :
    p.Viable k (fun a u => ∃ tok, select tok = some a ∧ u = [tok]) (· = [tok]) where
  spans := h.spans
  meets frame ts n e hrecords := by
    have hlooked := h frame ts
    generalize p frame ts = outcome at hlooked hrecords
    cases hlooked with
    | found _ htrace =>
      obtain ⟨f, hf, -⟩ := hrecords
      rw [htrace] at hf
      cases hf
    | missing _ he =>
      obtain ⟨hoffset, rfl⟩ := Trace.records_unmet.1 hrecords
      exact ⟨ts, [], tok, [], .here, hoffset, (he.2 tok).1 htok, hfits, rfl⟩

/-- In a sequence, what the first part was to read is completed, and what it has read stands before
what the second part reads. -/
lemma Viable.bind (hp : p.Viable j P W) (hW : ∀ y, W y → ∃ d, Token.Fits i d ∧ V (y ++ d))
    (hk : j + i ≤ k)
    (hf : ∀ a x, P a x → (f a).Viable k (fun b z => Q b (x ++ z)) fun z => V (x ++ z)) :
    (p >>= f).Viable k Q V where
  spans := spans_bind hp.spans fun a x ha => (hf a x ha).spans
  meets frame ts n e h := by
    have hfirst : (p frame ts).trace.Records n e → Meets k V ts n e := by
      intro hrecords
      obtain ⟨place, u, tok, w, hu, hoffset, he, hfits, hw⟩ := hp.meets frame ts n e hrecords
      obtain ⟨d, hd, hV⟩ := hW _ hw
      refine ⟨place, u, tok, w ++ d, hu, hoffset, he, (hfits.append hd).mono hk, ?_⟩
      rwa [List.append_assoc] at hV
    have hspans := hp.spans frame ts
    change (andThen p f frame ts).trace.Records n e at h
    unfold andThen at h
    generalize p frame ts = outcome at h hfirst hspans
    rcases outcome with ⟨⟨a, mid⟩ | _ | cause, trace⟩
    · rcases Trace.records_join_iff.1 h with ⟨h, -⟩ | ⟨h, -⟩
      · exact hfirst h
      · obtain ⟨x, hx, ha⟩ := hspans a mid rfl
        obtain ⟨place, u, tok, w, hu, hoffset, he, hfits, hw⟩ := (hf a x ha).meets frame mid n e h
        refine ⟨place, x ++ u, tok, w, hu.trans hx, hoffset, he, hfits, ?_⟩
        rwa [List.append_assoc]
    · exact hfirst h
    · exact hfirst h

/-- In a sequence that the first part may be all of, nothing has to be put behind it. -/
lemma Viable.bind_whole (hp : p.Viable k P W) (hW : ∀ y, W y → V y)
    (hf : ∀ a x, P a x → (f a).Viable k (fun b z => Q b (x ++ z)) fun z => V (x ++ z)) :
    (p >>= f).Viable k Q V := by
  have hcomplete : ∀ y, W y → ∃ d, Token.Fits 0 d ∧ V (y ++ d) := by
    intro y hy
    refine ⟨[], Token.fits_nil, ?_⟩
    rw [List.append_nil]
    exact hW y hy
  exact hp.bind hcomplete (le_refl _) hf

lemma Viable.map {g : α → β} (hp : p.Viable k P V) (h : ∀ a u, P a u → Q (g a) u) :
    (p >>= fun a => pure (g a)).Viable k Q V := by
  refine hp.bind_whole (fun _ hy => hy) ?_
  intro a x ha
  exact viable_pure (by rw [List.append_nil]; exact h a x ha)

lemma Viable.orElse (hp : p.Viable k P W) (hq : q.Viable k P W) : (orElse p q).Viable k P W where
  spans := spans_orElse hp.spans hq.spans
  meets frame ts n e h := by
    have hfirst := hp.meets frame ts n e
    unfold Parser.orElse at h
    generalize p frame ts = outcome at h hfirst
    rcases outcome with ⟨⟨a, mid⟩ | _ | cause, trace⟩
    · exact hfirst h
    · rcases Trace.records_join_iff.1 h with ⟨h, -⟩ | ⟨h, -⟩
      · exact hfirst h
      · exact hq.meets frame ts n e h
    · exact hfirst h

lemma Viable.optional {Q : Option α → List Token → Prop} (hp : p.Viable k P W) (hnone : Q none [])
    (hsome : ∀ a u, P a u → Q (some a) u) : (optional p).Viable k Q W where
  spans := spans_optional hp.spans hnone hsome
  meets frame ts n e h := by
    rw [trace_optional] at h
    exact hp.meets frame ts n e h

lemma Viable.within (rule : Rule) (hp : p.Viable k P W) : (within rule p).Viable k P W where
  spans := spans_within rule hp.spans
  meets _ ts n e h := hp.meets _ ts n e h

/-- In a repetition, the parts that were read stand before the one that is completed. -/
lemma Viable.many {Q : List α → List Token → Prop} (hp : p.Viable k P W) (hnil : Q [] [])
    (hcons : ∀ a u as v, P a u → Q as v → Q (a :: as) (u ++ v)) (hlast : ∀ y, W y → V y)
    (hmore : ∀ a u y, P a u → V y → V (u ++ y)) : (many p).Viable k Q V := by
  have hoption : (Parser.optional p).Viable k
      (fun o u => (o = none → u = []) ∧ ∀ a, o = some a → P a u) W :=
    hp.optional ⟨fun _ => rfl, by simp⟩ (by simp)
  -- the bound does not matter, since a parser that gives up expects nothing
  have hbound : ∀ bound, (manyWithin bound p).Viable k Q V := by
    intro bound
    induction bound with
    | stop m reason =>
      rw [manyWithin_stop]
      refine hoption.bind_whole hlast ?_
      rintro (_ | a) x ⟨hx, ha⟩
      · rw [hx rfl]
        exact viable_pure hnil
      · exact viable_gaveUp _
    | next m tok bound ih =>
      rw [manyWithin_next]
      refine hoption.bind_whole hlast ?_
      rintro (_ | a) x ⟨hx, ha⟩
      · rw [hx rfl]
        exact viable_pure hnil
      · have hrest : (manyWithin bound p).Viable k (fun as v => Q (a :: as) (x ++ v))
            fun y => V (x ++ y) :=
          ih.mono (le_refl _) (fun as v => hcons a x as v (ha a rfl))
            fun y => hmore a x y (ha a rfl)
        exact hrest.map fun _ _ h => h
  exact ⟨fun frame ts => (hbound ts).spans frame ts, fun frame ts => (hbound ts).meets frame ts⟩

end Combinators

end Parser

/-! ## Parsers and expressions of the grammar -/

namespace Reference

/-- Tokens that open at most so many bodies at once can be derived from the expression. -/
def Expr.Completes (k : Nat) (e : Expr) : Prop := ∃ d, Token.Fits k d ∧ Generates e d

variable {e f : Expr} {i j k : Nat}

lemma generates_seq_empty_iff {w : List Token} : Generates (.seq e .empty) w ↔ Generates e w := by
  simp

lemma generates_firstOf {es : List Expr} {w : List Token} (he : e ∈ es) (h : Generates e w) :
    Generates (.firstOf es) w := by
  induction es with
  | nil => cases he
  | cons e' es ih =>
    rcases List.mem_cons.1 he with rfl | he
    · exact .left h
    · exact .right (ih he)

lemma completes_empty : Expr.empty.Completes 0 := ⟨[], Token.fits_nil, .empty⟩

lemma completes_opt : (Expr.opt e).Completes 0 := ⟨[], Token.fits_nil, .none⟩

lemma completes_star : (Expr.star e).Completes 0 := ⟨[], Token.fits_nil, .nil⟩

lemma Expr.Completes.seq (he : e.Completes i) (hf : f.Completes j) :
    (Expr.seq e f).Completes (i + j) := by
  obtain ⟨u, hu, heu⟩ := he
  obtain ⟨v, hv, hfv⟩ := hf
  exact ⟨u ++ v, hu.append hv, .seq heu hfv⟩

lemma Expr.Completes.rule {r : Nonterminal} (h : r.expr.Completes k) :
    (Expr.rule r).Completes k := by
  obtain ⟨d, hd, hgenerates⟩ := h
  exact ⟨d, hd, .rule hgenerates⟩

end Reference

namespace Parser

variable {α β : Type}

/-- The parser reads what can be derived from the expression, and all that it expects leads to
something that can be derived from it. -/
def Derives (k : Nat) (p : Parser α) (e : Expr) : Prop :=
  p.Viable k (fun _ => Generates e) (Generates e)

variable {p q : Parser α} {f : α → Parser β} {e e' : Expr} {i j k : Nat}

lemma Derives.mono (hp : p.Derives j e) (hk : j ≤ k) (h : ∀ w, Generates e w → Generates e' w) :
    p.Derives k e' :=
  Viable.mono hp hk (fun _ => h) h

lemma derives_pure (a : α) : (pure a : Parser α).Derives k .empty := viable_pure .empty

lemma derives_build (part : Except Defect α) : (build part).Derives k .empty :=
  viable_build fun _ _ => .empty

lemma derives_look {select : Token → Option α} {tok : Token} (h : p.Looks select)
    (hfits : Token.Fits k [tok]) (htok : (select tok).isSome)
    (hgenerates : ∀ tok, (select tok).isSome → Generates e [tok]) : p.Derives k e := by
  refine (viable_look h hfits htok).mono (le_refl _) ?_ ?_
  · rintro a _ ⟨other, ha, rfl⟩
    exact hgenerates other (by simp [ha])
  · rintro _ rfl
    exact hgenerates tok htok

lemma Derives.seq (hp : p.Derives j e) (he' : e'.Completes i) (hk : j + i ≤ k)
    (hf : ∀ a, (f a).Derives k e') : (p >>= f).Derives k (.seq e e') := by
  obtain ⟨d, hd, hgenerates⟩ := he'
  refine Viable.bind hp (fun y hy => ⟨d, hd, .seq hy hgenerates⟩) hk ?_
  intro a x hx
  exact Viable.mono (hf a) (le_refl _) (fun _ _ => .seq hx) fun _ => .seq hx

lemma Derives.last (hp : p.Derives k e) (hf : ∀ a, (f a).Derives k .empty) :
    (p >>= f).Derives k e := by
  have hseq : (p >>= f).Derives k (.seq e .empty) := hp.seq completes_empty (le_refl _) hf
  exact hseq.mono (le_refl _) fun w hw => generates_seq_empty_iff.1 hw

lemma Derives.seq_empty (hp : p.Derives k e) : p.Derives k (.seq e .empty) := by
  exact hp.mono (le_refl _) fun w hw => generates_seq_empty_iff.2 hw

lemma Derives.orElse (hp : p.Derives k e) (hq : q.Derives k e) : (orElse p q).Derives k e :=
  Viable.orElse hp hq

lemma Derives.optional (hp : p.Derives k e) : (optional p).Derives k (.opt e) :=
  Viable.mono (Viable.optional hp (Q := fun _ => Generates (.opt e)) .none fun _ _ => .some)
    (le_refl _) (fun _ _ h => h) fun _ => .some

lemma Derives.within (rule : Rule) (hp : p.Derives k e) : (within rule p).Derives k e :=
  Viable.within rule hp

lemma Derives.rule {r : Nonterminal} (hp : p.Derives k r.expr) : p.Derives k (.rule r) :=
  hp.mono (le_refl _) fun _ => .rule

lemma Derives.many (hp : p.Derives k e) : (many p).Derives k (.star e) := by
  refine Viable.many hp .nil (fun _ _ _ _ => .cons) (fun y hy => ?_) fun _ _ _ => .cons
  rw [← List.append_nil y]
  exact .cons hy .nil

end Parser

/-! ## Rules without bodies -/

namespace Grammar

/-- The identifier that stands for any identifier. -/
def sample : Id := ⟨.plain, ['x']⟩

lemma fits_punct {p : Punct} (hp : p ≠ .openBrace) : Token.Fits 0 [.punct p] := by
  refine ⟨by simp [Token.areValid, Token.isValid], ?_⟩
  cases p <;> first | exact absurd rfl hp | decide

lemma fits_keyword (k : Keyword) : Token.Fits 0 [.word k.word] := by
  refine ⟨?_, le_refl _⟩
  cases k <;> simp [Token.areValid] <;> decide

lemma fits_sample : Token.Fits 0 [.id sample] := ⟨by simp [Token.areValid]; decide, le_refl _⟩

lemma completes_punct {p : Punct} (hp : p ≠ .openBrace) : (Expr.punct p).Completes 0 :=
  ⟨[.punct p], fits_punct hp, .terminal rfl⟩

lemma completes_id : Expr.id.Completes 0 := ⟨[.id sample], fits_sample, .terminal ⟨sample, rfl⟩⟩

lemma derives_only {k : Nat} {p : Parser Unit} {tok : Token} {e : Expr}
    (h : p.Looks (Token.only tok)) (hfits : Token.Fits k [tok]) (he : Generates e [tok]) :
    p.Derives k e := by
  refine derives_look h hfits (by simp) ?_
  intro other hother
  unfold Token.only at hother
  split at hother
  · rename_i heq
    rwa [heq]
  · cases hother

lemma derives_punct {p : Punct} (hp : p ≠ .openBrace) : (punct p).Derives 0 (.punct p) :=
  derives_only (looks_punct p) (fits_punct hp) (.terminal rfl)

lemma derives_openBody : openBody.Derives 1 (.punct .openBrace) :=
  derives_only looks_openBody ⟨by simp [Token.areValid, Token.isValid], le_refl _⟩ (.terminal rfl)

lemma derives_keyword (k : Keyword) : (keyword k).Derives 0 (.keyword k) :=
  derives_only (looks_keyword k) (fits_keyword k) (.terminal rfl)

lemma derives_id : id.Derives 0 .id := by
  refine .within _ (Derives.last (derives_look looks_anyId fits_sample rfl ?_)
    fun _ => derives_build _)
  rintro (p | name) h
  · cases h
  · exact .terminal ⟨name, rfl⟩

lemma generates_compass (c : Compass) : Generates (.rule .compass) [.word c.word] := by
  have hmem : Expr.terminal (.compass c) ∈ Compass.all.map fun c => .terminal (.compass c) :=
    List.mem_map_of_mem (by cases c <;> decide)
  exact .rule (generates_firstOf hmem (.terminal rfl))

lemma fits_north : Token.Fits 0 [.word Compass.north.word] :=
  ⟨by simp [Token.areValid]; decide, le_refl _⟩

lemma derives_compass : (within .compass compassPoint).Derives 0 (.rule .compass) := by
  refine .within _ (derives_look looks_compassPoint fits_north rfl ?_)
  rintro (p | ⟨kind, value⟩) h
  · cases h
  · cases kind with
    | plain =>
      obtain ⟨c, hc⟩ := Option.isSome_iff_exists.1 h
      have hgenerates := generates_compass c
      rwa [Compass.word_of_ofWord? hc] at hgenerates
    | quoted => cases h
    | html => cases h

lemma derives_port : port.Derives 0 (.rule .port) := by
  have hcompletes : (Expr.rule .compass).Completes 0 :=
    ⟨[.word Compass.north.word], fits_north, generates_compass .north⟩
  have hcompass : (punct .colon >>= fun _ => within .compass compassPoint).Derives 0
      (.sequence [.punct .colon, .rule .compass]) :=
    (derives_punct (by decide)).seq (hcompletes.seq completes_empty) (le_refl _) fun _ =>
      derives_compass.seq_empty
  refine .within _ (Derives.rule ?_)
  refine (derives_punct (by decide)).seq (completes_id.seq (completes_opt.seq completes_empty))
    (le_refl _) fun _ => ?_
  refine derives_id.seq (completes_opt.seq completes_empty) (le_refl _) fun _ => ?_
  exact hcompass.optional.seq completes_empty (le_refl _) fun _ => derives_build _

lemma derives_assignment : assignment.Derives 0 (.rule .assign) := by
  have hequals : (Expr.punct .equals).Completes 0 := completes_punct (by decide)
  refine .within _ (Derives.rule ?_)
  refine derives_id.seq (hequals.seq (completes_id.seq completes_empty)) (le_refl _) fun _ => ?_
  refine (derives_punct (by decide)).seq (completes_id.seq completes_empty) (le_refl _) fun _ => ?_
  exact derives_id.seq completes_empty (le_refl _) fun _ => derives_pure _

lemma derives_item : item.Derives 0 itemExpr := by
  have hseparator : (orElse (punct .semicolon) (punct .comma)).Derives 0
      (.firstOf [.punct .semicolon, .punct .comma]) :=
    .orElse ((derives_punct (by decide)).mono (le_refl _) fun _ => .left)
      ((derives_punct (by decide)).mono (le_refl _) fun _ h => .right (.left h))
  refine derives_assignment.seq (completes_opt.seq completes_empty) (le_refl _) fun _ => ?_
  exact hseparator.optional.seq completes_empty (le_refl _) fun _ => derives_pure _

lemma derives_attributeGroup : attributeGroup.Derives 0 groupExpr := by
  have hclose : (Expr.punct .closeBracket).Completes 0 := completes_punct (by decide)
  rw [attributeGroup_eq]
  refine (derives_punct (by decide)).seq (completes_star.seq (hclose.seq completes_empty))
    (le_refl _) fun _ => ?_
  refine derives_item.many.seq (hclose.seq completes_empty) (le_refl _) fun _ => ?_
  exact (derives_punct (by decide)).seq completes_empty (le_refl _) fun _ => derives_pure _

lemma derives_attributeList : attributeList.Derives 0 (.rule .attributeList) :=
  .within _ (Derives.rule (derives_attributeGroup.seq completes_star (le_refl _) fun _ =>
    derives_attributeGroup.many.last fun _ => derives_pure _))

lemma derives_attributes : attributes.Derives 0 (.opt (.rule .attributeList)) :=
  derives_attributeList.optional.last fun _ => derives_pure _

lemma completes_attributeList : (Expr.rule .attributeList).Completes 0 := by
  have hopen : (Expr.punct .openBracket).Completes 0 := completes_punct (by decide)
  have hclose : (Expr.punct .closeBracket).Completes 0 := completes_punct (by decide)
  exact ((hopen.seq (completes_star.seq (hclose.seq completes_empty))).seq completes_star).rule

lemma derives_defaults : defaults.Derives 0 (.rule .defaults) := by
  have hfor : ∀ target, (defaultsFor target).Derives 0 (.rule .defaults) := by
    intro target
    have hkeyword : (keyword target.keyword).Derives 0
        (.firstOf [.keyword .graph, .keyword .node, .keyword .edge]) :=
      (derives_keyword target.keyword).mono (le_refl _) fun w hw =>
        generates_firstOf (by cases target <;> simp [Target.keyword]) hw
    refine Derives.rule (hkeyword.seq (completes_attributeList.seq completes_empty) (le_refl _)
      fun _ => ?_)
    exact derives_attributeList.seq completes_empty (le_refl _) fun _ => derives_pure _
  rw [defaults_eq_orElse]
  exact .within _ ((hfor .graph).orElse ((hfor .node).orElse (hfor .edge)))

/-- What a node reference is read from; without a port this is one identifier. -/
def NodeSpan (ref : NodeId) (u : List Token) : Prop :=
  Generates (.rule .nodeId) u ∧ (ref.port = none → ∃ name, u = [.id name])

lemma generates_nodeId {u v : List Token} (hu : Generates .id u)
    (hv : Generates (.opt (.rule .port)) v) : Generates (.rule .nodeId) (u ++ v) :=
  .rule (.seq hu (generates_seq_empty_iff.2 hv))

lemma viable_nodeId : nodeId.Viable 0 NodeSpan (Generates (.rule .nodeId)) := by
  have hport : (optional port).Viable 0
      (fun o v => Generates (.opt (.rule .port)) v ∧ (o = none → v = []))
      (Generates (.rule .port)) :=
    Viable.optional derives_port ⟨.none, fun _ => rfl⟩ fun _ _ h => ⟨.some h, by simp⟩
  refine .within _ (Viable.bind derives_id
    (fun y hy => ⟨[], Token.fits_nil, generates_nodeId hy .none⟩) (le_refl _) ?_)
  intro name x hx
  refine (hport.mono (le_refl _) (fun _ _ h => h) fun v hv => generates_nodeId hx (.some hv)).map ?_
  rintro o v ⟨hv, hnone⟩
  refine ⟨generates_nodeId hx hv, ?_⟩
  rintro (ho : o = none)
  rw [hnone ho, List.append_nil]
  exact generates_id_iff.1 hx

/-! ## Rules with bodies -/

lemma completes_body : (Expr.rule .body).Completes 1 := by
  have hopen : (Expr.punct .openBrace).Completes 1 :=
    ⟨[.punct .openBrace], ⟨by simp [Token.areValid, Token.isValid], le_refl _⟩, .terminal rfl⟩
  have hclose : (Expr.punct .closeBrace).Completes 0 := completes_punct (by decide)
  exact (hopen.seq (completes_star.seq (hclose.seq completes_empty))).rule

lemma generates_subgraph {mark b : List Token} (hmark : IsMark mark)
    (hb : Generates (.rule .body) b) : Generates (.rule .subgraph) (mark ++ b) := by
  have hkeyword : Generates (.keyword .subgraph) [.word Keyword.subgraph.word] := .terminal rfl
  refine .rule (.seq ?_ (generates_seq_empty_iff.2 hb))
  cases hmark with
  | none => exact .none
  | bare => exact .some (.seq hkeyword (.seq .none .empty))
  | named name =>
    have hname : Generates .id [.id name] := .terminal ⟨name, rfl⟩
    exact .some (.seq hkeyword (.seq (.some hname) .empty))

/-- What a vertex is read from. -/
def VertexSpan : Vertex → List Token → Prop
  | .subgraph _, u => Generates (.rule .subgraph) u
  | .node ref, u => NodeSpan ref u

lemma VertexSpan.generates {v : Vertex} {u : List Token} (h : VertexSpan v u) :
    Generates (.rule .vertex) u := by
  cases v with
  | subgraph group => exact .rule (.left h)
  | node ref => exact .rule (.right (.left h.1))

section Statements

variable {body : Parser (List Statement)}

/-- Behind a mark the body makes a subgraph. -/
lemma viable_marked (hbody : body.Derives 1 (.rule .body)) (name : Option Id) {mark : List Token}
    (hmark : IsMark mark) : (body >>= fun ss => pure (Subgraph.mk name ss)).Viable 1
      (fun _ z => Generates (.rule .subgraph) (mark ++ z))
      fun z => Generates (.rule .subgraph) (mark ++ z) := by
  refine Viable.map (Viable.mono hbody (le_refl _) (fun _ _ h => h) ?_) ?_
  · exact fun b hb => generates_subgraph hmark hb
  · exact fun _ b hb => generates_subgraph hmark hb

lemma derives_subgraph (hbody : body.Derives 1 (.rule .body)) :
    (subgraph body).Derives 1 (.rule .subgraph) := by
  obtain ⟨braces, hbraces, hgenerates⟩ := completes_body
  have hmarked : (optional (keyword .subgraph)).Viable 0
      (fun o u => (o = none → u = []) ∧ (o ≠ none → u = [.word Keyword.subgraph.word]))
      (Generates (.keyword .subgraph)) :=
    Viable.optional (derives_keyword .subgraph) ⟨fun _ => rfl, by simp⟩
      fun _ u hu => ⟨by simp, fun _ => generates_keyword_iff.1 hu⟩
  rw [subgraph_eq]
  refine .within _ (hmarked.bind (fun y hy => ⟨braces, hbraces, ?_⟩) (le_refl _) ?_)
  · rw [generates_keyword_iff.1 hy]
    exact generates_subgraph .bare hgenerates
  rintro (_ | _) x ⟨hnone, hsome⟩
  · rw [hnone rfl]
    have hnothing : (pure none : Parser (Option Id)).Viable 0 (fun _ u => u = []) fun _ => False :=
      viable_pure rfl
    refine hnothing.bind (i := 0) (fun _ h => h.elim) (Nat.zero_le _) ?_
    rintro name _ rfl
    exact viable_marked hbody name .none
  · rw [hsome (by simp)]
    have hname : (optional id).Viable 0 (fun _ u => IsMark (.word Keyword.subgraph.word :: u))
        (Generates .id) := by
      refine Viable.optional derives_id .bare fun _ u hu => ?_
      obtain ⟨name, rfl⟩ := generates_id_iff.1 hu
      exact .named name
    refine hname.bind (fun y hy => ⟨braces, hbraces, ?_⟩) (le_refl _)
      fun name u hu => viable_marked hbody name hu
    obtain ⟨name, rfl⟩ := generates_id_iff.1 hy
    rw [← List.append_assoc]
    exact generates_subgraph (.named name) hgenerates

lemma viable_vertex (hbody : body.Derives 1 (.rule .body)) :
    (vertex body).Viable 1 VertexSpan (Generates (.rule .vertex)) := by
  have hgroup : (subgraph body >>= fun group => pure (Vertex.subgraph group)).Viable 1 VertexSpan
      (Generates (.rule .vertex)) :=
    Viable.map (Viable.mono (derives_subgraph hbody) (le_refl _) (fun _ _ h => h) fun _ h =>
      .rule (.left h)) fun _ _ h => h
  have hnode : (nodeId >>= fun name => pure (Vertex.node name)).Viable 1 VertexSpan
      (Generates (.rule .vertex)) :=
    Viable.map (viable_nodeId.mono (Nat.zero_le _) (fun _ _ h => h) fun _ h =>
      .rule (.right (.left h))) fun _ _ h => h
  have hneither : (expected .vertex : Parser Vertex).Viable 1 VertexSpan
      (Generates (.rule .vertex)) := by
    refine (viable_expected (e := .vertex) ⟨sample, rfl⟩ fits_sample).mono (Nat.zero_le _)
      (fun _ _ h => h) ?_
    rintro _ rfl
    exact .rule (.right (.left (generates_nodeId (.terminal ⟨sample, rfl⟩) .none)))
  rw [vertex_eq_orElse]
  exact .within _ (hgroup.orElse (hnode.orElse hneither))

lemma completes_vertex : (Expr.rule .vertex).Completes 0 :=
  ⟨[.id sample], fits_sample,
    .rule (.right (.left (generates_nodeId (.terminal ⟨sample, rfl⟩) .none)))⟩

lemma derives_hop (hbody : body.Derives 1 (.rule .body)) : (hop body).Derives 1 hopExpr := by
  have hsign : (orElse (punct .arrow) (punct .line)).Derives 0 (.rule .arrow) :=
    .orElse ((derives_punct (by decide)).mono (le_refl _) fun _ h => .rule (.left h))
      ((derives_punct (by decide)).mono (le_refl _) fun _ h => .rule (.right (.left h)))
  have hvertex : (vertex body).Derives 1 (.rule .vertex) :=
    (viable_vertex hbody).mono (le_refl _) (fun _ _ h => h.generates) fun _ h => h
  exact hsign.seq (completes_vertex.seq completes_empty) (Nat.zero_le _) fun _ => hvertex.seq_empty

/-- What further vertices are read from. -/
def ChainSpan (more : List Vertex) (u : List Token) : Prop :=
  more = [] ∧ u = [] ∨ more ≠ [] ∧ Generates (.plus hopExpr) u

lemma viable_hops (hbody : body.Derives 1 (.rule .body)) :
    (hops body).Viable 1 ChainSpan (Generates (.plus hopExpr)) := by
  refine .within _ (Viable.many (derives_hop hbody) (Or.inl ⟨rfl, rfl⟩) ?_ ?_ ?_)
  · rintro v u more z hu (⟨-, rfl⟩ | ⟨-, hz⟩)
    · exact Or.inr ⟨by simp, .seq hu .nil⟩
    · obtain ⟨first, others, hfirst, hothers, rfl⟩ := generates_seq_iff.1 hz
      exact Or.inr ⟨by simp, .seq hu (.cons hfirst hothers)⟩
  · intro y hy
    rw [← List.append_nil y]
    exact .seq hy .nil
  · intro _ u y hu hy
    obtain ⟨first, others, hfirst, hothers, rfl⟩ := generates_seq_iff.1 hy
    exact .seq hu (.cons hfirst hothers)

lemma generates_node {x z : List Token} (hx : Generates (.rule .nodeId) x)
    (hz : Generates (.opt (.rule .attributeList)) z) : Generates (.rule .statement) (x ++ z) := by
  have hnode : Generates (.rule .node) (x ++ z) := .rule (.seq hx (generates_seq_empty_iff.2 hz))
  exact .rule (generates_firstOf (by simp) hnode)

lemma generates_edge {x y z : List Token} (hx : Generates (.rule .vertex) x)
    (hy : Generates (.plus hopExpr) y) (hz : Generates (.opt (.rule .attributeList)) z) :
    Generates (.rule .statement) (x ++ (y ++ z)) := by
  have hedge : Generates (.rule .edge) (x ++ (y ++ z)) :=
    .rule (.seq hx (.seq hy (generates_seq_empty_iff.2 hz)))
  exact .rule (generates_firstOf (by simp) hedge)

lemma generates_assign {key value : List Token} (hkey : Generates .id key)
    (hvalue : Generates .id value) :
    Generates (.rule .statement) (key ++ (.punct .equals :: value)) := by
  have hassign : Generates (.rule .assign) (key ++ ([.punct .equals] ++ value)) :=
    .rule (.seq hkey (.seq (.terminal rfl) (generates_seq_empty_iff.2 hvalue)))
  exact .rule (generates_firstOf (by simp) hassign)

lemma generates_statement_of_vertex {w : List Token} (h : Generates (.rule .vertex) w) :
    Generates (.rule .statement) w := by
  rcases h.vertex with h | h
  · exact .rule (generates_firstOf (by simp) h)
  · have hnode := generates_node h .none
    rwa [List.append_nil] at hnode

/-- Behind a node reference an equals sign is expected only where it makes an attribute of it. -/
lemma viable_nodeOrAttribute {ref : NodeId} {x : List Token} (hx : NodeSpan ref x) :
    (nodeOrAttribute ref).Viable 0 (fun _ z => Generates (.rule .statement) (x ++ z))
      fun z => Generates (.rule .statement) (x ++ z) := by
  have hsign : (if ref.port.isNone then optional (punct .equals) else pure none).Viable 0
      (fun o u => (o = none → u = []) ∧ (o ≠ none → Generates .id x ∧ u = [.punct .equals]))
      fun y => Generates .id x ∧ y = [.punct .equals] := by
    split
    · rename_i hport
      have hid : Generates .id x := generates_id_iff.2 (hx.2 (Option.isNone_iff_eq_none.1 hport))
      have hequals : (punct .equals).Derives 0 (.punct .equals) := derives_punct (by decide)
      refine Viable.optional (Viable.mono hequals (le_refl _) (fun _ _ h => h) fun y hy => ?_)
        ⟨fun _ => rfl, by simp⟩ fun _ u hu => ⟨by simp, fun _ => ?_⟩
      · exact ⟨hid, generates_punct_iff.1 hy⟩
      · exact ⟨hid, generates_punct_iff.1 hu⟩
    · exact viable_pure ⟨fun _ => rfl, by simp⟩
  have hsample : Generates .id [.id sample] := .terminal ⟨sample, rfl⟩
  rw [nodeOrAttribute_eq]
  refine hsign.bind (i := 0) ?_ (le_refl _) ?_
  · rintro _ ⟨hid, rfl⟩
    exact ⟨[.id sample], fits_sample, generates_assign hid hsample⟩
  · rintro (_ | _) u ⟨hnone, hsome⟩
    · rw [hnone rfl]
      have hattributes : (attributes >>= fun attrs =>
          build (Statement.makeNode ref attrs)).Derives 0 (.opt (.rule .attributeList)) :=
        derives_attributes.last fun _ => derives_build _
      exact Viable.mono hattributes (le_refl _) (fun _ _ hz => generates_node hx.1 hz) fun _ hz =>
        generates_node hx.1 hz
    · obtain ⟨hid, rfl⟩ := hsome (by simp)
      have hvalue : (id >>= fun value => pure (Statement.assign ⟨ref.id, value⟩)).Derives 0 .id :=
        derives_id.last fun _ => derives_pure _
      exact Viable.mono hvalue (le_refl _) (fun _ _ hz => generates_assign hid hz) fun _ hz =>
        generates_assign hid hz

lemma viable_afterChain {head : Vertex} {more : List Vertex} {x y : List Token}
    (hx : VertexSpan head x) (hy : ChainSpan more y) :
    (afterChain head more).Viable 0 (fun _ z => Generates (.rule .statement) (x ++ (y ++ z)))
      fun z => Generates (.rule .statement) (x ++ (y ++ z)) := by
  rcases hy with ⟨rfl, rfl⟩ | ⟨hne, hy⟩
  · cases head with
    | node ref => exact viable_nodeOrAttribute hx
    | subgraph group =>
      refine viable_pure ?_
      rw [List.append_nil, List.append_nil]
      exact .rule (generates_firstOf (by simp) hx)
  · cases more with
    | nil => exact absurd rfl hne
    | cons next more =>
      have hattributes : (attributes >>= fun attrs =>
          build (Statement.makeEdge (head :: next :: more) attrs)).Derives 0
            (.opt (.rule .attributeList)) := derives_attributes.last fun _ => derives_build _
      exact Viable.mono hattributes (le_refl _) (fun _ _ hz => generates_edge hx.generates hy hz)
        fun _ hz => generates_edge hx.generates hy hz

lemma derives_statement (hbody : body.Derives 1 (.rule .body)) :
    (statement body).Derives 1 (.rule .statement) := by
  have hdefaults : defaults.Derives 1 (.rule .statement) :=
    derives_defaults.mono (Nat.zero_le _) fun _ h => .rule (generates_firstOf (by simp) h)
  have hvertex : (vertexStatement body).Derives 1 (.rule .statement) := by
    rw [vertexStatement_eq]
    refine Viable.bind_whole (viable_vertex hbody) (fun _ => generates_statement_of_vertex) ?_
    intro head x hx
    refine Viable.bind (viable_hops hbody) (fun y hy => ⟨[], Token.fits_nil, ?_⟩) (le_refl _) ?_
    · exact generates_edge hx.generates hy .none
    intro more y hy
    exact (viable_afterChain hx hy).mono (Nat.zero_le _) (fun _ _ h => h) fun _ h => h
  exact .within _ (hdefaults.orElse hvertex)

lemma derives_terminated (hbody : body.Derives 1 (.rule .body)) :
    (terminated body).Derives 1 terminatedExpr := by
  have hsemicolon : (optional (punct .semicolon)).Derives 1 (.opt (.punct .semicolon)) :=
    ((derives_punct (by decide)).mono (Nat.zero_le _) fun _ h => h).optional
  refine (derives_statement hbody).seq (completes_opt.seq completes_empty) (le_refl _) fun _ => ?_
  exact hsemicolon.seq completes_empty (le_refl _) fun _ => derives_pure _

end Statements

lemma derives_body (room : Nat) : (body room).Derives 1 (.rule .body) := by
  have hclose : (Expr.punct .closeBrace).Completes 0 := completes_punct (by decide)
  induction room with
  | zero =>
    refine .within _ (Derives.rule ?_)
    exact derives_openBody.seq (completes_star.seq (hclose.seq completes_empty)) (le_refl _)
      fun _ => viable_gaveUp _
  | succ room ih =>
    have hend : (punct .closeBrace).Derives 1 (.punct .closeBrace) :=
      (derives_punct (by decide)).mono (Nat.zero_le _) fun _ h => h
    refine .within _ (Derives.rule ?_)
    refine derives_openBody.seq (completes_star.seq (hclose.seq completes_empty)) (le_refl _)
      fun _ => ?_
    refine (derives_terminated ih).many.seq (hclose.seq completes_empty) (le_refl _) fun _ => ?_
    exact hend.seq completes_empty (le_refl _) fun _ => derives_pure _

lemma derives_graph : graph.Derives 1 (.rule .graph) := by
  have hkind : kind.Derives 0 (.firstOf [.keyword .graph, .keyword .digraph]) :=
    .orElse (Derives.mono ((derives_keyword .digraph).last fun _ => derives_pure _) (le_refl _)
        fun _ h => generates_firstOf (by simp) h)
      (Derives.mono ((derives_keyword .graph).last fun _ => derives_pure _) (le_refl _)
        fun _ h => generates_firstOf (by simp) h)
  have hcompletes : (Expr.firstOf [.keyword .graph, .keyword .digraph]).Completes 0 :=
    ⟨[.word Keyword.graph.word], fits_keyword .graph, .left (.terminal rfl)⟩
  have hbody := completes_body.seq completes_empty
  rw [graph_eq]
  refine .within _ (Derives.rule ?_)
  refine (derives_keyword .strict).optional.seq (hcompletes.seq (completes_opt.seq hbody))
    (le_refl _) fun _ => ?_
  refine hkind.seq (completes_opt.seq hbody) (le_refl _) fun _ => ?_
  refine derives_id.optional.seq hbody (le_refl _) fun _ => ?_
  exact (derives_body maxNesting).seq completes_empty (le_refl _) fun _ => derives_pure _

lemma records_finished {frame : Frame} {ts : Tokens} {n : Nat} {e : Expectation}
    (h : (finished frame ts).trace.Records n e) : e = .endOfInput ∧ ts.offset = n := by
  rcases ts with ⟨m, tok, rest⟩ | ⟨m, reason⟩
  · exact (Trace.records_unmet.1 h).symm
  · cases reason with
    | endOfInput =>
      obtain ⟨f, hf, -⟩ := h
      cases hf
    | _ => exact (Trace.records_unmet.1 h).symm

/-- Behind a whole graph the end of the text is expected, and what is expected before can be
met. -/
lemma meets_file {frame : Frame} {ts : Tokens} {n : Nat} {e : Expectation}
    (h : (file frame ts).trace.Records n e) :
    Meets 1 (Generates (.rule .graph)) ts n e ∨
      e = .endOfInput ∧ ∃ place u, Tokens.Reaches place u ts ∧ place.offset = n ∧
        Generates (.rule .graph) u := by
  have hmeets := derives_graph.meets ⟨.file, frame.depth + 1⟩ ts n e
  have hspans := derives_graph.spans ⟨.file, frame.depth + 1⟩ ts
  unfold file Parser.within at h
  change (andThen graph _ ⟨.file, frame.depth + 1⟩ ts).trace.Records n e at h
  unfold andThen at h
  generalize graph ⟨.file, frame.depth + 1⟩ ts = outcome at h hmeets hspans
  rcases outcome with ⟨⟨g, rest⟩ | _ | cause, trace⟩
  · rcases Trace.records_join_iff.1 h with ⟨h, -⟩ | ⟨h, -⟩
    · exact Or.inl (hmeets h)
    · obtain ⟨u, hu, hgraph⟩ := hspans g rest rfl
      rw [trace_bind_pure] at h
      obtain ⟨he, hoffset⟩ := records_finished h
      exact Or.inr ⟨he, rest, u, hu, hoffset, hgraph⟩
  · exact Or.inl (hmeets h)
  · exact Or.inl (hmeets h)

end Grammar

/-! ## Documents -/

/-- Tokens written one after the other, with a blank behind each. -/
def Token.spell (w : List Token) : Text := w.flatMap fun tok => tok.render ++ [' ']

lemma Token.splits_spell {w : List Token} (h : areValid w) : Splits (spell w) w := by
  induction w with
  | nil => exact .nil
  | cons tok w ih =>
    have htok : tok.StandsBefore (' ' :: spell w) :=
      standsBefore_of_breaks (h tok List.mem_cons_self) rfl
    have hblank : Lexical.Trivia [' '] (spell w) := .blanks (by simp) (.space .nil)
    have hrest := ih fun other hother => h other (List.mem_cons_of_mem tok hother)
    have hspell : spell (tok :: w) = tok.render ++ ([' '] ++ spell w) := by
      simp [spell]
    rw [hspell]
    exact .token htok (.trivia hblank hrest)

/-- Tokens that can be derived and do not nest too deeply make a document. -/
lemma Graph.exists_parse_of_generates {source : Text} {toks : List Token}
    (hsplits : Splits source toks) (hgraph : Generates (.rule .graph) toks)
    (hnesting : Token.nesting toks ≤ Grammar.maxNesting) : ∃ g, Graph.parse source = .ok g := by
  have hfile : Generates (.rule .file) toks := by
    have hend : Generates (.terminal .endOfInput) [] := .terminal rfl
    rw [← List.append_nil toks]
    exact .rule (.seq hgraph (.seq hend .empty))
  obtain ⟨rfl, hwhy⟩ := splits_iff.1 hsplits
  have hconsumes := Grammar.consumes_file hfile
  rw [Consumes, Succeeds, List.append_nil, ← hwhy] at hconsumes
  have hfound := hconsumes (Tokens.areValid_ofText source)
  cases hans : Grammar.file.onText source with
  | found g rest => exact ⟨g, Grammar.file.result_eq_ok_iff.2 ⟨rest, hans⟩⟩
  | missing =>
    rw [onText] at hans
    rw [hans] at hfound
    exact False.elim hfound
  | gaveUp cause => exact absurd hans (file_ne_gaveUp hnesting cause)

/-- Put tokens behind those before a place, in a new line. -/
lemma Tokens.splits_cut {source : Text} {place : Tokens} {u w : List Token}
    (hu : Reaches place u (ofText source)) (hw : Token.areValid w) :
    Splits (source.take place.offset ++ '\n' :: Token.spell w) (u ++ w) ∧
      (ofText ('\n' :: Token.spell w)).toList = w := by
  have hline : Splits (['\n'] ++ Token.spell w) w :=
    .trivia (.blanks (by simp) (.line .nil)) (Token.splits_spell hw)
  obtain ⟨hlist, hwhy⟩ := splits_iff.1 hline
  obtain ⟨hlist', hwhy'⟩ := alike_cut hu (Token.spell w)
  exact ⟨splits_iff.2 ⟨hlist'.trans (congrArg (u ++ ·) hlist), hwhy'.trans hwhy⟩, hlist⟩

/-- Every expectation of a failure can be met.  If a text is rejected, and its bodies nest less deep
than allowed, then for everything that was expected there is a continuation in a new line that
starts with a token of that kind, or has no token where the end was expected, and that makes a
document of the text before the place of the failure. -/
theorem Graph.exists_parse_of_expected {source : Text} {failure : Failure} {e : Expectation}
    (h : Graph.parse source = .error (.unexpected failure))
    (hnesting : source.nesting < Grammar.maxNesting) (he : e ∈ failure.expected) :
    ∃ t g, e.Describes (Tokens.ofText ('\n' :: t)).toList.head? ∧
      Graph.parse (source.take failure.offset ++ '\n' :: t) = .ok g := by
  obtain ⟨-, hfailure⟩ := Graph.missing_of_parse h
  have hrecords : (Grammar.file.run source).trace.Records failure.offset e :=
    ⟨failure, hfailure, rfl, he⟩
  -- in both cases tokens `w` are put behind the tokens `u` before the place
  obtain ⟨place, u, w, hu, hoffset, hdescribes, hfits, hgraph⟩ :
      ∃ place u w, Tokens.Reaches place u (Tokens.ofText source) ∧ place.offset = failure.offset ∧
        e.Describes w.head? ∧ Token.Fits 1 w ∧ Generates (.rule .graph) (u ++ w) := by
    rcases Grammar.meets_file hrecords with ⟨place, u, tok, w, hu, hoffset, hdescribes, hfits, hw⟩ |
      ⟨rfl, place, u, hu, hoffset, hgraph⟩
    · exact ⟨place, u, tok :: w, hu, hoffset, hdescribes, hfits, hw⟩
    · refine ⟨place, u, [], hu, hoffset, rfl, Token.fits_nil.mono (Nat.zero_le _), ?_⟩
      rwa [List.append_nil]
  obtain ⟨hsplits, hlist⟩ := Tokens.splits_cut hu hfits.1
  have hbefore : Token.nesting u ≤ source.nesting := by
    rw [Text.nesting, hu.toList_eq]
    exact Token.nesting_le_append u _
  have hroom : Token.nesting (u ++ w) ≤ Grammar.maxNesting :=
    calc Token.nesting (u ++ w) ≤ Token.nesting u + Token.nesting w := Token.nesting_append_le u w
      _ ≤ source.nesting + 1 := Nat.add_le_add hbefore hfits.2
      _ ≤ Grammar.maxNesting := hnesting
  obtain ⟨g, hg⟩ := Graph.exists_parse_of_generates hsplits hgraph hroom
  rw [hoffset] at hg
  exact ⟨Token.spell w, g, hlist.symm ▸ hdescribes, hg⟩

/-- Behind a bare subgraph name a body can stand, as the parser hoped at first, or default
attributes, which it looked for after it had gone back to reading two nodes there. -/
theorem Graph.exists_parse_of_expected_subgraph :
    (∃ t g, (Expectation.punct .openBrace).Describes (Tokens.ofText ('\n' :: t)).toList.head? ∧
      Graph.parse ("graph \x7b a -- subgraph b".toList.take 23 ++ '\n' :: t) = .ok g) ∧
    ∃ t g, (Expectation.keyword .node).Describes (Tokens.ofText ('\n' :: t)).toList.head? ∧
      Graph.parse ("graph \x7b a -- subgraph b".toList.take 23 ++ '\n' :: t) = .ok g := by
  have herror : Graph.parse "graph \x7b a -- subgraph b".toList = .error (.unexpected
      ⟨23, ⟨.body, 3⟩, [.punct .openBrace, .punct .colon, .punct .arrow, .punct .line,
        .punct .equals, .punct .openBracket, .punct .semicolon, .keyword .graph, .keyword .node,
        .keyword .edge, .keyword .subgraph, .id, .vertex, .punct .closeBrace]⟩) :=
    parse_eq_of_error? (by decide +kernel)
  have hnesting : Text.nesting "graph \x7b a -- subgraph b".toList < Grammar.maxNesting := by
    decide +kernel
  have hbody := exists_parse_of_expected (e := .punct .openBrace) herror hnesting (by decide)
  have hdefaults := exists_parse_of_expected (e := .keyword .node) herror hnesting (by decide)
  exact ⟨hbody, hdefaults⟩

end DotNotation
