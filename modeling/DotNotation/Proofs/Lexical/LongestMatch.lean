/-
# Plain identifiers are longest matches

The scanner for plain identifiers takes a word or a number off the front of a text.  Here it
is compared with the predicate `Lexical.isPlain`, which looks at a whole text: what is taken
is a plain identifier, and no longer piece of the front is one.  The main results are

* `isPlain_iff`: a text is a plain identifier when it has the form of a word or of a number;
* `isPlain_taken`: what the scanner takes is a plain identifier;
* `length_le_of_isPlain`: every plain identifier at the front of a text is at most as long as
  the piece that the scanner takes;
* `plain_eq_some_iff`: the scanner takes exactly the longest plain identifier;
* `plain_append`: a plain identifier is taken whole when the text behind it breaks off words.
-/
import DotNotation.Lexical.Plain
import Mathlib.Tactic.Lemma
import Mathlib.Data.List.TakeWhile

namespace DotNotation.Lexical

/-! ## Runs of characters -/

lemma span_append {p : Char → Bool} {u : Text} (hu : ∀ c ∈ u, p c = true) (r : Text) :
    Cut.span p (u ++ r) = ⟨u ++ (Cut.span p r).taken, (Cut.span p r).rest⟩ := by
  simp only [Cut.span, List.takeWhile_append_of_pos hu, List.dropWhile_append_of_pos hu]

lemma span_of_all {p : Char → Bool} {u : Text} (hu : ∀ c ∈ u, p c = true) :
    Cut.span p u = ⟨u, []⟩ := by
  have h := span_append hu []
  simpa [Cut.span] using h

lemma all_of_rest_span_eq_nil {p : Char → Bool} {u : Text} (h : (Cut.span p u).rest = []) :
    ∀ c ∈ u, p c = true := by
  simpa [Cut.span, List.dropWhile_eq_nil_iff] using h

lemma mem_taken_span {p : Char → Bool} {t : Text} {c : Char} (h : c ∈ (Cut.span p t).taken) :
    p c = true := List.mem_takeWhile_imp h

/-! ## Characters of words and numbers -/

lemma isWordChar_of_isDigit {c : Char} (h : c.isDigit = true) : isWordChar c = true := by
  simp [isWordChar, Char.isAlphanum, h]

lemma isWordStart_eq_false_of_isDigit {c : Char} (h : c.isDigit = true) :
    isWordStart c = false := by
  have hc : c ≠ '_' := by
    rintro rfl
    exact absurd h (by decide)
  have ha : c.isAlpha = false := by
    rw [Bool.eq_false_iff]
    intro ha
    have hdigit : (decide (c.val ≥ '0'.val) && decide (c.val ≤ '9'.val)) = true := h
    have hletter : (decide (c.val ≥ 'A'.val ∧ c.val ≤ 'Z'.val) ||
        decide (c.val ≥ 'a'.val) && decide (c.val ≤ 'z'.val)) = true := ha
    simp only [ge_iff_le, Bool.or_eq_true, Bool.and_eq_true, decide_eq_true_eq,
      UInt32.le_iff_toNat_le] at hdigit hletter
    have h9 : '9'.val.toNat = 57 := rfl
    have hA : 'A'.val.toNat = 65 := rfl
    have ha : 'a'.val.toNat = 97 := rfl
    omega
  simp [isWordStart, ha, hc]

/-! ## Fractions and whole parts -/

/-- A fraction is a point, a digit and further digits. -/
lemma fraction_cons_cons {d : Char} (hd : d.isDigit = true) (cs : Text) :
    fraction ('.' :: d :: cs) = some (((Cut.span Char.isDigit cs).cons d).cons '.') := by
  simp [fraction, hd]

lemma exists_of_fraction {t : Text} {cut : Cut} (h : fraction t = some cut) :
    ∃ d cs, d.isDigit = true ∧ t = '.' :: d :: cs ∧
      cut = ((Cut.span Char.isDigit cs).cons d).cons '.' := by
  unfold fraction at h
  split at h
  · rename_i d cs
    split at h
    · rename_i hd
      exact ⟨d, cs, hd, rfl, by cases h; rfl⟩
    · cases h
  · cases h

/-- A whole part is a lone zero, or digits of which the first is not zero. -/
lemma exists_of_wholePart {t : Text} {cut : Cut} (h : wholePart t = some cut) :
    (∃ cs, t = '0' :: cs ∧ cut = ⟨['0'], cs⟩) ∨
      ∃ c cs, c ≠ '0' ∧ c.isDigit = true ∧ t = c :: cs ∧
        cut = (Cut.span Char.isDigit cs).cons c := by
  cases t with
  | nil => simp [wholePart] at h
  | cons c cs =>
    simp only [wholePart] at h
    split at h
    · rename_i hc
      subst hc
      exact Or.inl ⟨cs, rfl, by cases h; rfl⟩
    · rename_i hc
      split at h
      · rename_i hd
        exact Or.inr ⟨c, cs, hc, hd, rfl, by cases h; rfl⟩
      · cases h

lemma wholePart_zero (cs : Text) : wholePart ('0' :: cs) = some ⟨['0'], cs⟩ := rfl

lemma wholePart_digit {c : Char} (hc : c ≠ '0') (hd : c.isDigit = true) (cs : Text) :
    wholePart (c :: cs) = some ((Cut.span Char.isDigit cs).cons c) := by
  simp [wholePart, hc, hd]

lemma wholePart_point (cs : Text) : wholePart ('.' :: cs) = none := by
  simp [wholePart]

/-! ## Fractions and whole parts with a text behind them -/

lemma fraction_append {v : Text} (h : fraction v = some ⟨v, []⟩) (r : Text) :
    fraction (v ++ r) =
      some ⟨v ++ (Cut.span Char.isDigit r).taken, (Cut.span Char.isDigit r).rest⟩ := by
  obtain ⟨d, cs, hd, rfl, hcut⟩ := exists_of_fraction h
  have hall : ∀ c ∈ cs, c.isDigit = true := by
    apply all_of_rest_span_eq_nil
    simpa [Cut.cons] using (congrArg Cut.rest hcut).symm
  simp only [List.cons_append]
  rw [fraction_cons_cons hd, span_append hall]
  rfl

lemma wholePart_taken_append {t : Text} {cut : Cut} (h : wholePart t = some cut) {r : Text}
    (hr : ∀ c ∈ r.head?, c.isDigit = false) :
    wholePart (cut.taken ++ r) = some ⟨cut.taken, r⟩ := by
  have hspan : Cut.span Char.isDigit r = ⟨[], r⟩ := by
    cases r with
    | nil => rfl
    | cons c cs =>
      have hc : c.isDigit = false := hr c (by simp)
      simp [Cut.span, hc]
  rcases exists_of_wholePart h with ⟨cs, -, rfl⟩ | ⟨c, cs, hc, hd, -, rfl⟩
  · exact wholePart_zero r
  · simp only [Cut.taken_cons, List.cons_append]
    rw [wholePart_digit hc hd, span_append fun c hc => mem_taken_span hc, hspan]
    simp [Cut.cons]

lemma number_of_ne {t : Text} (h : ∀ cs, t ≠ '-' :: cs) : number t = magnitude t := by
  unfold number
  split
  · rename_i cs
    exact absurd rfl (h cs)
  · rfl

/-! ## Words -/

lemma word_cons {c : Char} (hc : isWordStart c = true) (cs : Text) :
    word (c :: cs) = some ((Cut.span isWordChar cs).cons c) := by
  simp [word, hc]

lemma exists_of_word {t : Text} {cut : Cut} (h : word t = some cut) :
    ∃ c cs, isWordStart c = true ∧ t = c :: cs ∧ cut = (Cut.span isWordChar cs).cons c := by
  cases t with
  | nil => simp [word] at h
  | cons c cs =>
    simp only [word] at h
    split at h
    · rename_i hc
      exact ⟨c, cs, hc, rfl, by cases h; rfl⟩
    · cases h

/-! ## Plain identifiers -/

lemma plain_of_word {t : Text} {cut : Cut} (h : word t = some cut) : plain t = some cut := by
  simp [plain, h]

lemma plain_of_not_word {t : Text} (h : word t = none) : plain t = number t := by
  simp [plain, h]

/-- A text is a plain identifier when the scanner takes it whole. -/
lemma isPlain_iff_plain {v : Text} : isPlain v = true ↔ plain v = some ⟨v, []⟩ := by
  unfold isPlain
  constructor
  · intro h
    split at h
    · rename_i cut hc
      have hw := whole_of_plain hc
      rw [List.isEmpty_iff] at h
      rw [Cut.whole, h, List.append_nil] at hw
      rw [hc, ← hw, ← h]
    · cases h
  · intro h
    rw [h]
    rfl

/-! ## The form of plain identifiers -/

/-- A point and at least one digit. -/
def IsFraction (v : Text) : Prop :=
  ∃ d ds, v = '.' :: d :: ds ∧ ∀ c ∈ d :: ds, c.isDigit = true

/-- A lone zero, or digits of which the first is not zero. -/
inductive IsWhole : Text → Prop
  | zero : IsWhole ['0']
  | digits {c : Char} {cs : Text} (hc : c ≠ '0') (h : ∀ d ∈ c :: cs, d.isDigit = true) :
      IsWhole (c :: cs)

/-- A number without sign. -/
inductive IsMagnitude : Text → Prop
  | whole {v : Text} (hv : IsWhole v) : IsMagnitude v
  | both {u v : Text} (hu : IsWhole u) (hv : IsFraction v) : IsMagnitude (u ++ v)
  | fraction {v : Text} (hv : IsFraction v) : IsMagnitude v

/-- A word, or a number with an optional minus sign. -/
inductive IsPlain : Text → Prop
  | word {c : Char} {cs : Text} (hc : isWordStart c = true)
      (hcs : ∀ d ∈ cs, isWordChar d = true) : IsPlain (c :: cs)
  | number {v : Text} (hv : IsMagnitude v) : IsPlain v
  | negative {v : Text} (hv : IsMagnitude v) : IsPlain ('-' :: v)

lemma isFraction_taken {t : Text} {cut : Cut} (h : fraction t = some cut) :
    IsFraction cut.taken := by
  obtain ⟨d, cs, hd, -, rfl⟩ := exists_of_fraction h
  exact ⟨d, _, rfl, List.forall_mem_cons.2 ⟨hd, fun c hc => mem_taken_span hc⟩⟩

lemma isWhole_taken {t : Text} {cut : Cut} (h : wholePart t = some cut) : IsWhole cut.taken := by
  rcases exists_of_wholePart h with ⟨cs, -, rfl⟩ | ⟨c, cs, hc, hd, -, rfl⟩
  · exact .zero
  · exact .digits hc (List.forall_mem_cons.2 ⟨hd, fun c hc => mem_taken_span hc⟩)

lemma isMagnitude_taken {t : Text} {cut : Cut} (h : magnitude t = some cut) :
    IsMagnitude cut.taken := by
  unfold magnitude at h
  split at h
  · rename_i digits hd
    split at h
    · rename_i places hp
      cases h
      exact .both (isWhole_taken hd) (isFraction_taken hp)
    · cases h
      exact .whole (isWhole_taken hd)
  · exact .fraction (isFraction_taken h)

/-- What the scanner takes has the form of a plain identifier. -/
lemma isPlain_form_taken {t : Text} {cut : Cut} (h : plain t = some cut) : IsPlain cut.taken := by
  cases hw : word t with
  | some w =>
    obtain rfl : w = cut := by simpa [plain, hw] using h
    obtain ⟨c, cs, hc, -, rfl⟩ := exists_of_word hw
    exact .word hc fun d hd => mem_taken_span hd
  | none =>
    rw [plain_of_not_word hw] at h
    unfold number at h
    split at h
    · obtain ⟨inner, hi, rfl⟩ := Option.map_eq_some_iff.1 h
      exact .negative (isMagnitude_taken hi)
    · exact .number (isMagnitude_taken h)

lemma fraction_of_isFraction {v : Text} (hv : IsFraction v) : fraction v = some ⟨v, []⟩ := by
  obtain ⟨d, ds, rfl, hall⟩ := hv
  obtain ⟨hd, hds⟩ := List.forall_mem_cons.1 hall
  rw [fraction_cons_cons hd, span_of_all hds]
  rfl

lemma wholePart_of_isWhole {v : Text} (hv : IsWhole v) : wholePart v = some ⟨v, []⟩ := by
  cases hv with
  | zero => rfl
  | digits hc h =>
    obtain ⟨hd, hds⟩ := List.forall_mem_cons.1 h
    rw [wholePart_digit hc hd, span_of_all hds]
    rfl

lemma magnitude_of_isMagnitude {v : Text} (hv : IsMagnitude v) :
    magnitude v = some ⟨v, []⟩ := by
  cases hv with
  | whole hv => simp [magnitude, wholePart_of_isWhole hv, fraction]
  | @both u v hu hv =>
    have hpoint : ∀ c ∈ v.head?, c.isDigit = false := by
      obtain ⟨d, ds, rfl, -⟩ := hv
      rintro c ⟨⟩
      rfl
    have hwhole := wholePart_taken_append (wholePart_of_isWhole hu) hpoint
    simp [magnitude, hwhole, fraction_of_isFraction hv]
  | fraction hv =>
    have hfraction := fraction_of_isFraction hv
    obtain ⟨d, ds, rfl, -⟩ := hv
    rw [magnitude, wholePart_point, hfraction]

/-- A number without sign starts with a digit or a point. -/
lemma IsMagnitude.head {v : Text} (hv : IsMagnitude v) :
    ∃ c cs, v = c :: cs ∧ (c.isDigit = true ∨ c = '.') := by
  have hwhole : ∀ {u : Text}, IsWhole u → ∃ c cs, u = c :: cs ∧ c.isDigit = true := by
    intro u hu
    cases hu with
    | zero => exact ⟨'0', [], rfl, rfl⟩
    | digits _ h => exact ⟨_, _, rfl, h _ List.mem_cons_self⟩
  cases hv with
  | whole hv =>
    obtain ⟨c, cs, rfl, hc⟩ := hwhole hv
    exact ⟨c, cs, rfl, Or.inl hc⟩
  | both hu _ =>
    obtain ⟨c, cs, rfl, hc⟩ := hwhole hu
    exact ⟨c, _, rfl, Or.inl hc⟩
  | fraction hv =>
    obtain ⟨d, ds, rfl, -⟩ := hv
    exact ⟨'.', _, rfl, Or.inr rfl⟩

/-- A text is a plain identifier exactly when it has the form of one. -/
theorem isPlain_iff {v : Text} : isPlain v = true ↔ IsPlain v := by
  rw [isPlain_iff_plain]
  constructor
  · intro h
    exact isPlain_form_taken h
  · intro h
    cases h with
    | word hc hcs =>
      refine plain_of_word ?_
      rw [word_cons hc, span_of_all hcs]
      rfl
    | number hv =>
      have hmagnitude := magnitude_of_isMagnitude hv
      obtain ⟨c, cs, rfl, hc⟩ := hv.head
      have hword : word (c :: cs) = none := by
        have hstart : isWordStart c = false := by
          rcases hc with hc | rfl
          · exact isWordStart_eq_false_of_isDigit hc
          · decide
        simp [word, hstart]
      have hsign : ∀ ds, c :: cs ≠ '-' :: ds := by
        rintro ds ⟨⟩
        rcases hc with hc | hc
        · exact absurd hc (by decide)
        · cases hc
      rw [plain_of_not_word hword, number_of_ne hsign, hmagnitude]
    | negative hv => simp [plain, word, isWordStart, number, magnitude_of_isMagnitude hv, Cut.cons]

/-- What the scanner takes is a plain identifier. -/
theorem isPlain_taken {t : Text} {cut : Cut} (h : plain t = some cut) :
    isPlain cut.taken = true :=
  isPlain_iff.2 (isPlain_form_taken h)

/-! ## Nothing longer is a plain identifier -/

lemma wholePart_longest {v : Text} (h : wholePart v = some ⟨v, []⟩) (r : Text) :
    ∃ cut, wholePart (v ++ r) = some cut ∧ v.length ≤ cut.taken.length := by
  rcases exists_of_wholePart h with ⟨cs, rfl, hcut⟩ | ⟨c, cs, hc, hd, rfl, hcut⟩
  · obtain rfl : cs = [] := (congrArg Cut.rest hcut).symm
    exact ⟨_, wholePart_zero r, le_refl _⟩
  · have hall : ∀ c ∈ cs, c.isDigit = true :=
      all_of_rest_span_eq_nil (congrArg Cut.rest hcut).symm
    refine ⟨_, wholePart_digit hc hd (cs ++ r), ?_⟩
    rw [span_append hall]
    simp [Cut.cons]

lemma magnitude_longest {v : Text} (h : magnitude v = some ⟨v, []⟩) (r : Text) :
    ∃ cut, magnitude (v ++ r) = some cut ∧ v.length ≤ cut.taken.length := by
  unfold magnitude at h
  split at h
  · rename_i digits hd
    split at h
    · rename_i places hp
      obtain ⟨hv, -⟩ : digits.taken ++ places.taken = v ∧ places.rest = [] := by simpa using h
      obtain ⟨d, cs, -, -, hplaces⟩ := exists_of_fraction hp
      have hwhole : wholePart (digits.taken ++ (places.taken ++ r)) =
          some ⟨digits.taken, places.taken ++ r⟩ := by
        apply wholePart_taken_append hd
        rw [hplaces]
        simp
      rw [← hv, List.append_assoc, magnitude, hwhole]
      simp [fraction_append (fraction_of_isFraction (isFraction_taken hp))]
    · obtain rfl : digits = ⟨v, []⟩ := by simpa using h
      obtain ⟨cut, hcut, hle⟩ := wholePart_longest hd r
      rw [magnitude, hcut]
      -- digits of `r` may be taken as well, and a fraction behind them
      cases hf : fraction cut.rest with
      | none => exact ⟨cut, by simp [hf], hle⟩
      | some places =>
        refine ⟨_, by simp only [hf]; rfl, ?_⟩
        rw [List.length_append]
        omega
  · obtain ⟨d, cs, -, rfl, -⟩ := exists_of_fraction h
    rw [magnitude, List.cons_append, wholePart_point]
    refine ⟨_, fraction_append h r, ?_⟩
    simp

lemma number_longest {v : Text} (h : number v = some ⟨v, []⟩) (r : Text) :
    ∃ cut, number (v ++ r) = some cut ∧ v.length ≤ cut.taken.length := by
  have hne : v ≠ [] := taken_ne_nil_of_number h
  unfold number at h
  split at h
  · rename_i cs
    obtain ⟨inner, hi, hcut⟩ := Option.map_eq_some_iff.1 h
    obtain rfl : inner = ⟨cs, []⟩ := by
      obtain ⟨taken, rest⟩ := inner
      simpa [Cut.cons] using hcut
    obtain ⟨cut, hcut, hle⟩ := magnitude_longest hi r
    refine ⟨cut.cons '-', by simp [number, hcut], ?_⟩
    simpa using hle
  · rename_i hfirst
    -- the sign would have to come from `r`, but something stands before it
    have hfirst' : ∀ cs, v ++ r ≠ '-' :: cs := by
      intro cs hcs
      cases v with
      | nil => exact hne rfl
      | cons c v' =>
        obtain ⟨rfl, -⟩ := List.cons.inj hcs
        exact hfirst v' rfl
    rw [number_of_ne hfirst']
    exact magnitude_longest h r

/-- A plain identifier at the front of a text is at most as long as the piece that the
scanner takes. -/
theorem length_le_of_isPlain {v : Text} (h : isPlain v = true) (r : Text) :
    ∃ cut, plain (v ++ r) = some cut ∧ v.length ≤ cut.taken.length := by
  rw [isPlain_iff_plain] at h
  cases hw : word v with
  | some w =>
    obtain ⟨c, cs, hc, rfl, hcut⟩ := exists_of_word hw
    have hrest : (Cut.span isWordChar cs).rest = [] := by
      rw [plain_of_word hw] at h
      obtain rfl : w = ⟨c :: cs, []⟩ := by simpa using h
      exact (congrArg Cut.rest hcut).symm
    refine ⟨_, plain_of_word (word_cons hc (cs ++ r)), ?_⟩
    rw [span_append (all_of_rest_span_eq_nil hrest)]
    simp [Cut.cons]
  | none =>
    rw [plain_of_not_word hw] at h
    -- what starts no word starts none with more text behind it
    have hnot : word (v ++ r) = none := by
      cases v with
      | nil => exact absurd rfl (taken_ne_nil_of_number h)
      | cons c cs => simpa [word] using hw
    rw [plain_of_not_word hnot]
    exact number_longest h r

/-- The scanner takes exactly the longest plain identifier. -/
theorem plain_eq_some_iff {v r : Text} :
    plain (v ++ r) = some ⟨v, r⟩ ↔
      IsPlain v ∧ ∀ w, IsPlain w → w <+: v ++ r → w.length ≤ v.length := by
  simp only [← isPlain_iff]
  constructor
  · intro h
    refine ⟨isPlain_taken h, ?_⟩
    rintro w hw ⟨s, hs⟩
    obtain ⟨cut, hcut, hle⟩ := length_le_of_isPlain hw s
    rw [hs, h] at hcut
    cases hcut
    exact hle
  · rintro ⟨hv, hmax⟩
    obtain ⟨cut, hcut, hle⟩ := length_le_of_isPlain hv r
    have hwhole := whole_of_plain hcut
    have hle' : cut.taken.length ≤ v.length :=
      hmax _ (isPlain_taken hcut) ⟨cut.rest, hwhole⟩
    -- two pieces of the same length at the front of one text are equal
    obtain ⟨htaken, hrest⟩ := List.append_inj hwhole (le_antisymm hle' hle)
    rw [hcut, ← htaken, ← hrest]

/-! ## What breaks off words -/

/-- Does the text break off a plain identifier that stands before it? -/
def breaks : Text → Bool
  | [] => true
  | c :: _ => !isWordChar c && c != '.'

@[simp] lemma breaks_nil : breaks [] = true := rfl

@[simp] lemma breaks_cons (c : Char) (cs : Text) :
    breaks (c :: cs) = (!isWordChar c && c != '.') := rfl

lemma digit_or_point_of_fraction {t : Text} {cut : Cut} (h : fraction t = some cut) :
    ∀ c ∈ cut.taken, c.isDigit = true ∨ c = '.' := by
  intro c hc
  obtain ⟨d, cs, hd, -, rfl⟩ := exists_of_fraction h
  simp only [Cut.taken_cons, List.mem_cons] at hc
  rcases hc with rfl | rfl | hc
  · exact Or.inr rfl
  · exact Or.inl hd
  · exact Or.inl (mem_taken_span hc)

lemma digit_of_wholePart {t : Text} {cut : Cut} (h : wholePart t = some cut) :
    ∀ c ∈ cut.taken, c.isDigit = true := by
  intro c hc
  rcases exists_of_wholePart h with ⟨cs, -, rfl⟩ | ⟨d, cs, -, hd, -, rfl⟩
  · obtain rfl : c = '0' := by simpa using hc
    decide
  · simp only [Cut.taken_cons, List.mem_cons] at hc
    rcases hc with rfl | hc
    · exact hd
    · exact mem_taken_span hc

lemma digit_or_point_of_magnitude {t : Text} {cut : Cut} (h : magnitude t = some cut) :
    ∀ c ∈ cut.taken, c.isDigit = true ∨ c = '.' := by
  unfold magnitude at h
  split at h
  · rename_i digits hd
    split at h
    · rename_i places hp
      cases h
      intro c hc
      rcases List.mem_append.1 hc with hc | hc
      · exact Or.inl (digit_of_wholePart hd c hc)
      · exact digit_or_point_of_fraction hp c hc
    · cases h
      exact fun c hc => Or.inl (digit_of_wholePart hd c hc)
  · exact digit_or_point_of_fraction h

/-- Behind its first character a plain identifier has no character that breaks off words. -/
lemma word_char_of_mem_tail {c d : Char} {v : Text} (h : isPlain (c :: v) = true) (hd : d ∈ v) :
    isWordChar d = true ∨ d = '.' := by
  rw [isPlain_iff_plain] at h
  have hdigit : ∀ {t : Text} {cut : Cut}, magnitude t = some cut → d ∈ cut.taken →
      isWordChar d = true ∨ d = '.' := by
    intro t cut ht hmem
    rcases digit_or_point_of_magnitude ht d hmem with hd | hd
    · exact Or.inl (isWordChar_of_isDigit hd)
    · exact Or.inr hd
  cases hw : word (c :: v) with
  | some w =>
    obtain ⟨c', cs, -, heq, hcut⟩ := exists_of_word hw
    obtain ⟨rfl, rfl⟩ := List.cons.inj heq
    rw [plain_of_word hw] at h
    obtain rfl : w = ⟨c :: v, []⟩ := by simpa using h
    exact Or.inl (all_of_rest_span_eq_nil (congrArg Cut.rest hcut).symm d hd)
  | none =>
    rw [plain_of_not_word hw] at h
    unfold number at h
    split at h
    · rename_i cs heq
      obtain ⟨rfl, rfl⟩ := List.cons.inj heq
      obtain ⟨inner, hi, hcut⟩ := Option.map_eq_some_iff.1 h
      obtain ⟨taken, rest⟩ := inner
      obtain ⟨rfl, -⟩ : taken = v ∧ rest = [] := by simpa [Cut.cons] using hcut
      exact hdigit hi hd
    · exact hdigit h (List.mem_cons_of_mem _ hd)

/-- A plain identifier is taken whole when the text behind it breaks off words. -/
theorem plain_append {v r : Text} (hv : isPlain v = true) (hr : breaks r = true) :
    plain (v ++ r) = some ⟨v, r⟩ := by
  rw [plain_eq_some_iff]
  refine ⟨isPlain_iff.1 hv, ?_⟩
  rintro w hw ⟨s, hs⟩
  by_contra hlt
  -- a longer piece has the first character of `r` behind its own first character
  obtain ⟨x, rfl, hr'⟩ : ∃ x, w = v ++ x ∧ r = x ++ s := by
    rcases List.append_eq_append_iff.1 hs with ⟨a, ha, hb⟩ | ⟨a, ha, hb⟩
    · exfalso
      rw [ha, List.length_append] at hlt
      omega
    · exact ⟨a, ha, hb⟩
  cases x with
  | nil => simp at hlt
  | cons d x =>
    cases v with
    | nil => exact absurd rfl (taken_ne_nil_of_plain (isPlain_iff_plain.1 hv))
    | cons c v =>
      have hd := word_char_of_mem_tail (c := c) (d := d) (isPlain_iff.2 hw) (by simp)
      rw [hr', List.cons_append, breaks_cons] at hr
      rcases hd with hd | rfl
      · simp [hd] at hr
      · simp at hr

/-- A word is taken whole exactly when it does not run into a further character of a word. -/
theorem plain_word_iff {v r : Text} (hv : word v = some ⟨v, []⟩) :
    plain (v ++ r) = some ⟨v, r⟩ ↔ ∀ c ∈ r.head?, isWordChar c = false := by
  obtain ⟨c, cs, hc, rfl, hcut⟩ := exists_of_word hv
  have hall : ∀ d ∈ cs, isWordChar d = true := by
    apply all_of_rest_span_eq_nil
    simpa [Cut.cons] using (congrArg Cut.rest hcut).symm
  rw [List.cons_append, plain_of_word (word_cons hc _), span_append hall]
  cases r with
  | nil => simp [Cut.span, Cut.cons]
  | cons d r =>
    cases hd : isWordChar d with
    | false => simp [Cut.span, Cut.cons, hd]
    | true => simp [Cut.span, Cut.cons, hd]

end DotNotation.Lexical
