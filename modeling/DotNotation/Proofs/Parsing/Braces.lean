/-
# Braces in what is read

Only bodies take braces, and a body takes its closing brace together with its opening one.  So the
tokens from which a value is read close every body that they open.  The main results are

* `Token.nesting_le_iff`: tokens open at most so many bodies at once if no front of them opens more
  than that many more than it closes;
* `Grammar.spans_closed_body`: the tokens of a body close what they open, and by
  `Parser.Paired.spans_closed` so do those of everything that is composed of bodies.
-/
import DotNotation.Proofs.Parsing.Soundness
import DotNotation.Proofs.Parsing.Spans

namespace DotNotation

namespace Token

/-- How many more bodies the tokens open than they close. -/
def surplus (w : List Token) : ℤ := w.count (.punct .openBrace) - w.count (.punct .closeBrace)

section Surplus

variable {tok : Token} {u v : List Token}

@[simp] lemma surplus_nil : surplus [] = 0 := rfl

@[simp] lemma surplus_append (u v : List Token) : surplus (u ++ v) = surplus u + surplus v := by
  simp only [surplus, List.count_append]
  omega

@[simp] lemma surplus_openBrace (w : List Token) :
    surplus (.punct .openBrace :: w) = surplus w + 1 := by
  simp [surplus]
  omega

@[simp] lemma surplus_closeBrace (w : List Token) :
    surplus (.punct .closeBrace :: w) = surplus w - 1 := by
  simp [surplus]
  omega

lemma ne_of_isBrace_eq_false (h : tok.isBrace = false) :
    tok ≠ .punct .openBrace ∧ tok ≠ .punct .closeBrace := by
  constructor <;> rintro rfl <;> cases h

lemma isBrace_cases (tok : Token) :
    tok = .punct .openBrace ∨ tok = .punct .closeBrace ∨ tok.isBrace = false := by
  rcases tok with p | name
  · cases p <;> simp [isBrace]
  · simp [isBrace]

lemma surplus_cons (h : tok.isBrace = false) (w : List Token) : surplus (tok :: w) = surplus w := by
  obtain ⟨hopen, hclose⟩ := ne_of_isBrace_eq_false h
  rw [surplus, List.count_cons_of_ne hopen, List.count_cons_of_ne hclose, surplus]

lemma nesting_cons (h : tok.isBrace = false) (w : List Token) : nesting (tok :: w) = nesting w := by
  obtain ⟨hopen, hclose⟩ := ne_of_isBrace_eq_false h
  exact nesting.eq_4 _ _ hopen hclose

/-- The number of bodies that are open at once is the most that a front of the tokens opens more
than it closes. -/
lemma nesting_le_iff {w : List Token} {k : Nat} :
    nesting w ≤ k ↔ ∀ u, u <+: w → surplus u ≤ k := by
  induction w generalizing k with
  | nil => simp [nesting]
  | cons tok w ih =>
    have hfront : (∀ u, u <+: tok :: w → surplus u ≤ k) ↔
        ∀ u, u <+: w → surplus (tok :: u) ≤ k := by
      constructor
      · exact fun h u hu => h _ ((List.prefix_cons_inj tok).2 hu)
      · intro h u hu
        rcases List.prefix_cons_iff.1 hu with rfl | ⟨v, rfl, hv⟩
        · simp
        · exact h v hv
    rw [hfront]
    rcases isBrace_cases tok with rfl | rfl | htok
    · cases k with
      | zero =>
        -- the brace itself is one too many
        simp only [nesting, surplus_openBrace]
        constructor
        · omega
        · intro h
          have hfirst := h [] List.nil_prefix
          simp at hfirst
      | succ k =>
        simp only [nesting, surplus_openBrace, Nat.add_le_add_iff_right, ih]
        exact forall₂_congr fun u _ => by omega
    · simp only [nesting, surplus_closeBrace, Nat.sub_le_iff_le_add, ih]
      exact forall₂_congr fun u _ => by omega
    · simp only [nesting_cons htok, surplus_cons htok, ih]

/-- The tokens close what they open, so that they take no room from what stands behind them. -/
structure Closed (u : List Token) : Prop where
  surplus_eq : surplus u = 0
  nesting_le : ∀ r, nesting r ≤ nesting (u ++ r)

lemma closed_nil : Closed [] := ⟨rfl, fun _ => le_rfl⟩

lemma closed_singleton (h : tok.isBrace = false) : Closed [tok] := by
  refine ⟨surplus_cons h [], fun r => ?_⟩
  rw [List.singleton_append, nesting_cons h]

lemma Closed.append (hu : Closed u) (hv : Closed v) : Closed (u ++ v) := by
  refine ⟨?_, fun r => ?_⟩
  · rw [surplus_append, hu.surplus_eq, hv.surplus_eq]
    rfl
  · rw [List.append_assoc]
    exact (hv.nesting_le r).trans (hu.nesting_le (v ++ r))

/-- Braces around tokens that close what they open are closed too. -/
lemma Closed.braces (hu : Closed u) :
    Closed (.punct .openBrace :: (u ++ [.punct .closeBrace])) := by
  refine ⟨?_, fun r => ?_⟩
  · simp [hu.surplus_eq]
  · have hinner := hu.nesting_le (.punct .closeBrace :: r)
    simp only [List.cons_append, List.append_assoc, List.nil_append, nesting] at hinner ⊢
    omega

end Surplus

end Token

namespace Parser

variable {α : Type}

open Token

lemma spans_closed_many {p : Parser α} (hp : p.Spans fun _ u => Closed u) :
    (many p).Spans fun _ u => Closed u :=
  spans_many hp closed_nil fun _ _ => Closed.append

/-- What is composed of bodies closes what it opens if bodies do. -/
theorem Paired.spans_closed {b b' : Parser (List Statement)} {p p' : Parser α}
    (h : Paired b b' p p') (hb : b.Spans fun _ u => Closed u) : p.Spans fun _ u => Closed u := by
  induction h with
  | body => exact hb
  | look h _ hbrace =>
    refine h.spans.mono ?_
    rintro a u ⟨tok, htok, rfl⟩
    refine closed_singleton ?_
    by_contra hne
    rw [hbrace tok (Bool.not_eq_false _ ▸ hne)] at htok
    cases htok
  | pure a => exact spans_pure closed_nil
  | gaveUp cause => exact spans_gaveUp cause
  | expected e =>
    intro frame ts a rest hfound
    cases hfound
  | bind _ _ ihp ihf =>
    refine spans_bind ihp fun a u hu => (ihf a).mono fun c v hv => ?_
    exact hu.append hv
  | orElse _ _ ihp ihq => exact spans_orElse ihp ihq
  | optional _ ih => exact spans_optional ih closed_nil fun _ _ hu => hu
  | within rule _ ih => exact spans_within rule ih
  | many _ _ _ ih => exact spans_closed_many ih

end Parser

namespace Grammar

open DotNotation.Parser Token

/-- The tokens of a body close what they open. -/
theorem spans_closed_body (room : Nat) : (body room).Spans fun _ u => Closed u := by
  induction room with
  | zero => exact spans_within .body (spans_bind looks_openBody.spans fun _ _ _ => spans_gaveUp _)
  | succ room ih =>
    have hstatements := (paired_terminated (takes_body room) (takes_body room)).spans_closed ih
    refine spans_within .body (spans_bind (spans_only looks_openBody) ?_)
    rintro _ _ rfl
    refine spans_bind (spans_closed_many hstatements) fun ss u hu => ?_
    refine spans_bind (spans_only (looks_punct .closeBrace)) ?_
    rintro _ _ rfl
    exact spans_pure (by simpa using hu.braces)

lemma spans_closed_terminated (room : Nat) :
    (terminated (body room)).Spans fun _ u => Closed u :=
  (paired_terminated (takes_body room) (takes_body room)).spans_closed (spans_closed_body room)

end Grammar

end DotNotation
