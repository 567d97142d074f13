/-
# Braces that are left open

Tokens that close no more bodies than they open leave open those bodies whose closing brace does not
come.  `Token.LeavesOpen` gives the tokens before such a body.  The places of a text come in the
order of their offsets, so the tokens before a place are those with smaller offsets, and the offsets
of the opening braces are all different.  The main results are

* `Token.leavesOpen_append_iff`, `Token.leavesOpen_openBrace_iff`: which bodies tokens leave open;
* `Tokens.Ordered.exists_reaches`: of two places the later one is reached from the earlier one;
* `Tokens.Ordered.before_eq`: the tokens before a place.
-/
import DotNotation.Proofs.Parsing.Braces

namespace DotNotation

namespace Token

/-! ## Tokens that close what they open -/

/-- No front of the tokens closes more bodies than it opens. -/
def Rising (u : List Token) : Prop := ∀ v, v <+: u → 0 ≤ surplus v

/-- The tokens close the bodies that they open and no others. -/
structure Balanced (u : List Token) : Prop where
  rising : Rising u
  surplus_eq : surplus u = 0

/-- The tokens open a body behind the front and do not close it. -/
def LeavesOpen (front u : List Token) : Prop :=
  ∃ inner, u = front ++ .punct .openBrace :: inner ∧ Rising inner

section Rising

variable {tok : Token} {u v front : List Token}

lemma rising_nil : Rising [] := by
  intro v hv
  simp [List.prefix_nil.1 hv]

lemma balanced_nil : Balanced [] := ⟨rising_nil, rfl⟩

lemma Balanced.append_rising (hu : Balanced u) (hv : Rising v) : Rising (u ++ v) := by
  intro x hx
  rcases List.prefix_or_prefix_of_prefix hx (List.prefix_append u v) with hxu | ⟨y, rfl⟩
  · exact hu.rising x hxu
  · rw [surplus_append, hu.surplus_eq, Int.zero_add]
    exact hv y ((List.prefix_append_right_inj u).1 hx)

lemma Balanced.append (hu : Balanced u) (hv : Balanced v) : Balanced (u ++ v) := by
  refine ⟨hu.append_rising hv.rising, ?_⟩
  rw [surplus_append, hu.surplus_eq, hv.surplus_eq, Int.zero_add]

lemma balanced_singleton (h : tok.isBrace = false) : Balanced [tok] := by
  have hsurplus : surplus [tok] = 0 := surplus_cons h []
  refine ⟨fun v hv => ?_, hsurplus⟩
  rcases List.prefix_cons_iff.1 hv with rfl | ⟨w, rfl, hw⟩
  · simp
  · simp [List.prefix_nil.1 hw, hsurplus]

lemma balanced_of_isBrace (h : ∀ tok ∈ u, tok.isBrace = false) : Balanced u := by
  induction u with
  | nil => exact balanced_nil
  | cons tok u ih =>
    obtain ⟨htok, hu⟩ := List.forall_mem_cons.1 h
    exact (balanced_singleton htok).append (ih hu)

lemma Rising.openBrace (hu : Rising u) : Rising (.punct .openBrace :: u) := by
  intro v hv
  rcases List.prefix_cons_iff.1 hv with rfl | ⟨w, rfl, hw⟩
  · simp
  · rw [surplus_openBrace]
    exact Int.add_nonneg (hu w hw) Int.one_nonneg

lemma Balanced.braces (hu : Balanced u) :
    Balanced (.punct .openBrace :: (u ++ [.punct .closeBrace])) := by
  refine ⟨fun v hv => ?_, by simp [hu.surplus_eq]⟩
  rcases List.prefix_cons_iff.1 hv with rfl | ⟨w, rfl, hw⟩
  · simp
  · rw [surplus_openBrace]
    rcases List.prefix_concat_iff.1 hw with rfl | hw
    · simp [hu.surplus_eq]
    · exact Int.add_nonneg (hu.rising w hw) Int.one_nonneg

/-! ## Bodies that are left open -/

lemma not_leavesOpen_of_notMem (h : .punct .openBrace ∉ u) : ¬ LeavesOpen front u := by
  rintro ⟨inner, rfl, -⟩
  simp at h

/-- What closes its bodies leaves none of them open. -/
lemma leavesOpen_append_iff (hu : Balanced u) :
    LeavesOpen front (u ++ v) ↔ ∃ front', front = u ++ front' ∧ LeavesOpen front' v := by
  constructor
  · rintro ⟨inner, happend, hinner⟩
    rcases List.append_eq_append_iff.1 happend with ⟨front', rfl, hv⟩ | ⟨x, hx, hinner'⟩
    · exact ⟨front', rfl, inner, hv, hinner⟩
    · cases x with
      | nil =>
        rw [List.append_nil] at hx
        exact ⟨[], by rw [hx, List.append_nil], inner, by simpa using hinner'.symm, hinner⟩
      | cons tok x =>
        -- a brace of `u`, which closes its body before its end
        exfalso
        obtain ⟨rfl, rfl⟩ := List.cons.inj hinner'
        have hfront := hu.rising front (hx ▸ List.prefix_append _ _)
        have hx' := hinner x (List.prefix_append x v)
        have htotal := hu.surplus_eq
        rw [hx, surplus_append, surplus_openBrace] at htotal
        omega
  · rintro ⟨front', rfl, inner, rfl, hinner⟩
    exact ⟨inner, (List.append_assoc _ _ _).symm, hinner⟩

lemma leavesOpen_openBrace_iff :
    LeavesOpen front (.punct .openBrace :: v) ↔
      front = [] ∧ Rising v ∨
        ∃ front', front = .punct .openBrace :: front' ∧ LeavesOpen front' v := by
  constructor
  · rintro ⟨inner, happend, hinner⟩
    cases front with
    | nil =>
      obtain ⟨-, rfl⟩ := List.cons.inj happend
      exact Or.inl ⟨rfl, hinner⟩
    | cons tok front =>
      obtain ⟨rfl, rfl⟩ := List.cons.inj happend
      exact Or.inr ⟨front, rfl, inner, rfl, hinner⟩
  · rintro (⟨rfl, hv⟩ | ⟨front', rfl, inner, rfl, hinner⟩)
    · exact ⟨v, rfl, hv⟩
    · exact ⟨inner, rfl, hinner⟩

end Rising

end Token

/-! ## Offsets of braces -/

namespace Tokens

/-- The offsets of the opening braces. -/
def braces : Tokens → List Nat
  | next m tok rest => if tok = .punct .openBrace then m :: rest.braces else rest.braces
  | stop _ _ => []

/-- The tokens that start before an offset. -/
def before (n : Nat) : Tokens → List Token
  | next m tok rest => if m < n then tok :: before n rest else []
  | stop _ _ => []

@[simp] lemma braces_openBrace (m : Nat) (rest : Tokens) :
    (next m (.punct .openBrace) rest).braces = m :: rest.braces := if_pos rfl

lemma braces_of_ne {tok : Token} (h : tok ≠ .punct .openBrace) (m : Nat) (rest : Tokens) :
    (next m tok rest).braces = rest.braces := if_neg h

section Reaches

variable {place ts : Tokens} {u : List Token}

/-- The opening braces of the tokens before a place stand before those behind it. -/
lemma Reaches.exists_braces (h : Reaches place u ts) :
    ∃ opened, ts.braces = opened ++ place.braces ∧
      opened.length = u.count (.punct .openBrace) := by
  induction h with
  | here => exact ⟨[], rfl, rfl⟩
  | @next u ts m tok _ ih =>
    obtain ⟨opened, hbraces, hlength⟩ := ih
    by_cases htok : tok = .punct .openBrace
    · subst htok
      refine ⟨m :: opened, ?_, ?_⟩
      · rw [braces_openBrace, hbraces, List.cons_append]
      · rw [List.length_cons, hlength, List.count_cons_self]
    · refine ⟨opened, ?_, ?_⟩
      · rw [braces_of_ne htok, hbraces]
      · rw [hlength, List.count_cons_of_ne htok]

lemma Reaches.braces_subset (h : Reaches place u ts) : place.braces ⊆ ts.braces := by
  obtain ⟨opened, hbraces, -⟩ := h.exists_braces
  rw [hbraces]
  exact List.subset_append_right _ _

/-- Before a place with the same braces behind it no brace is opened. -/
lemma Reaches.openBrace_notMem (h : Reaches place u ts) (hbraces : ts.braces = place.braces) :
    .punct .openBrace ∉ u := by
  obtain ⟨opened, hopened, hlength⟩ := h.exists_braces
  rw [hbraces, List.self_eq_append_left] at hopened
  rw [← List.count_eq_zero, ← hlength, hopened, List.length_nil]

lemma Reaches.braces_eq (h : Reaches place u ts) (hu : .punct .openBrace ∉ u) :
    ts.braces = place.braces := by
  obtain ⟨opened, hbraces, hlength⟩ := h.exists_braces
  rw [List.count_eq_zero.2 hu, List.length_eq_zero_iff] at hlength
  rw [hbraces, hlength, List.nil_append]

lemma Reaches.unique {place' : Tokens} (h : Reaches place u ts) (h' : Reaches place' u ts) :
    place = place' := by
  induction h with
  | here =>
    cases h'
    rfl
  | next m tok _ ih =>
    cases h' with
    | next _ _ h' => exact ih h'

lemma Reaches.tokens_unique {v : List Token} (h : Reaches place u ts) (h' : Reaches place v ts) :
    u = v := by
  have hlist := h.toList_eq
  rw [h'.toList_eq] at hlist
  exact (List.append_cancel_right hlist).symm

lemma exists_of_mem_braces {n : Nat} (h : n ∈ ts.braces) :
    ∃ place u, Reaches place u ts ∧ place.offset = n := by
  induction ts with
  | stop m reason => cases h
  | next m tok rest ih =>
    by_cases htok : tok = .punct .openBrace
    · subst htok
      rw [braces_openBrace, List.mem_cons] at h
      rcases h with rfl | h
      · exact ⟨_, [], .here, rfl⟩
      · obtain ⟨place, u, hu, hplace⟩ := ih h
        exact ⟨place, _, .next m _ hu, hplace⟩
    · rw [braces_of_ne htok] at h
      obtain ⟨place, u, hu, hplace⟩ := ih h
      exact ⟨place, _, .next m _ hu, hplace⟩

end Reaches

/-! ## Places in order -/

/-- The offsets grow from place to place. -/
def Ordered (ts : Tokens) : Prop :=
  ∀ (m : Nat) (tok : Token) (rest : Tokens) (u : List Token),
    Reaches (.next m tok rest) u ts → rest.Beyond m

lemma ordered_ofText (source : Text) : (ofText source).Ordered :=
  fun _ _ _ _ h => beyond_of_reaches h

section Ordered

variable {place place' ts : Tokens} {u u' : List Token}

lemma Ordered.of_reaches (h : ts.Ordered) (hu : Reaches place u ts) : place.Ordered :=
  fun m tok rest v hv => h m tok rest (u ++ v) (hv.trans hu)

lemma Ordered.le_of_reaches (h : ts.Ordered) (hu : Reaches place u ts) :
    ts.offset ≤ place.offset := by
  cases hu with
  | here => exact le_rfl
  | next m tok hu => exact (h m tok _ [] .here _ _ hu).le

lemma Ordered.lt_of_mem {m n : Nat} {tok : Token} (h : (next m tok ts).Ordered)
    (hn : n ∈ ts.braces) : m < n := by
  obtain ⟨place, u, hu, rfl⟩ := exists_of_mem_braces hn
  exact h m tok ts [] .here place u hu

lemma Ordered.offset_le (h : ts.Ordered) {n : Nat} (hn : n ∈ ts.braces) : ts.offset ≤ n := by
  cases ts with
  | stop m reason => cases hn
  | next m tok rest =>
    by_cases htok : tok = .punct .openBrace
    · subst htok
      rw [braces_openBrace, List.mem_cons] at hn
      exact hn.elim (fun heq => heq.ge) fun hn => (h.lt_of_mem hn).le
    · rw [braces_of_ne htok] at hn
      exact (h.lt_of_mem hn).le

lemma Ordered.nodup_braces (h : ts.Ordered) : ts.braces.Nodup := by
  induction ts with
  | stop m reason => exact List.nodup_nil
  | next m tok rest ih =>
    have hrest := ih (h.of_reaches (.next m tok .here))
    by_cases htok : tok = .punct .openBrace
    · subst htok
      rw [braces_openBrace, List.nodup_cons]
      exact ⟨fun hm => (h.lt_of_mem hm).false, hrest⟩
    · rwa [braces_of_ne htok]

/-- Of two places the later one is reached from the earlier one. -/
lemma Ordered.exists_reaches (h : ts.Ordered) (hu : Reaches place u ts)
    (hu' : Reaches place' u' ts) (hle : place.offset ≤ place'.offset) :
    ∃ v, u' = u ++ v ∧ Reaches place' v place := by
  induction hu generalizing u' with
  | here => exact ⟨u', rfl, hu'⟩
  | next m tok hu ih =>
    cases hu' with
    | here =>
      have hlt := h m tok _ [] .here _ _ hu
      exact absurd hle hlt.not_ge
    | next _ _ hu' =>
      obtain ⟨v, rfl, hv⟩ := ih (h.of_reaches (.next m tok .here)) hu'
      exact ⟨v, rfl, hv⟩

/-- The tokens before a place are those with smaller offsets. -/
lemma Ordered.before_eq (h : ts.Ordered) (hu : Reaches place u ts) :
    ts.before place.offset = u := by
  induction hu with
  | here =>
    cases place with
    | stop m reason => rfl
    | next m tok rest => exact if_neg (lt_irrefl m)
  | next m tok hu ih =>
    have hlt := h m tok _ [] .here _ _ hu
    rw [before, if_pos hlt, ih (h.of_reaches (.next m tok .here))]

end Ordered

end Tokens

end DotNotation
