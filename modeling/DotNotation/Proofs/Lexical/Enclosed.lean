/-
# Quoted texts and labels are read up to their own end

A quoted text ends at the first quote that no backslash guards, and a label ends at the
bracket that closes it.  What follows has no influence.  Hence scanning takes a text back out
of its quotes or brackets exactly when the text can stand there:

* `closeQuote_append`, `isQuotedBody_taken` for quoted texts;
* `closeLabel_append`, `isLabelBody_taken` for labels.

The texts that can stand there are those in which quotes are guarded, `isQuotedBody_iff`, and
those in which brackets nest, `isLabelBody_iff`.
-/
import DotNotation.Lexical.Quoted
import DotNotation.Lexical.Label
import Mathlib.Tactic.Lemma

namespace DotNotation.Lexical

/-! ## Quoted texts -/

lemma quotedBody_quote (t : Text) : quotedBody ('"' :: t) = ⟨[], '"' :: t⟩ := by
  rw [quotedBody.eq_def]
  simp

lemma quotedBody_guarded (d : Char) (t : Text) :
    quotedBody ('\\' :: d :: t) = ((quotedBody t).cons d).cons '\\' := by
  rw [quotedBody.eq_def]
  simp

lemma quotedBody_other {c : Char} (hquote : c ≠ '"') (hback : c ≠ '\\') (t : Text) :
    quotedBody (c :: t) = (quotedBody t).cons c := by
  rw [quotedBody.eq_def]
  simp [hquote, hback]

lemma quotedBody_taken_append (t : Text) {r : Text}
    (hr : r = [] ∨ ∃ cs, r = '"' :: cs) :
    quotedBody ((quotedBody t).taken ++ r) = ⟨(quotedBody t).taken, r⟩ := by
  have hnil : quotedBody r = ⟨[], r⟩ := by
    rcases hr with rfl | ⟨cs, rfl⟩
    · rfl
    · exact quotedBody_quote cs
  fun_induction quotedBody t with
  | case1 => exact hnil
  | case2 => exact hnil
  | case3 => exact hnil
  | case4 d ds _ ih =>
    simp only [Cut.taken_cons, List.cons_append]
    rw [quotedBody_guarded, ih]
    rfl
  | case5 c cs hquote hback ih =>
    simp only [Cut.taken_cons, List.cons_append]
    rw [quotedBody_other hquote hback, ih]
    rfl

lemma taken_of_isQuotedBody {v : Text} (h : isQuotedBody v = true) : (quotedBody v).taken = v := by
  have hw := whole_quotedBody v
  rw [isQuotedBody, List.isEmpty_iff] at h
  rwa [Cut.whole, h, List.append_nil] at hw

/-- A quoted text is taken back out of its quotes. -/
theorem closeQuote_append {v : Text} (h : isQuotedBody v = true) (r : Text) :
    closeQuote (v ++ '"' :: r) = some ⟨v, r⟩ := by
  have hq := quotedBody_taken_append v (r := '"' :: r) (Or.inr ⟨r, rfl⟩)
  rw [taken_of_isQuotedBody h] at hq
  simp [closeQuote, hq]

/-- What stands between the quotes can stand there. -/
theorem isQuotedBody_taken {t : Text} {cut : Cut} (h : closeQuote t = some cut) :
    isQuotedBody cut.taken = true := by
  unfold closeQuote at h
  split at h
  · cases h
    have hq := quotedBody_taken_append t (r := []) (Or.inl rfl)
    rw [List.append_nil] at hq
    simp [isQuotedBody, hq]
  · cases h

/-- A text in which every quote has a backslash before it, and every backslash a character
behind it. -/
inductive IsQuoted : Text → Prop
  | nil : IsQuoted []
  | char {c : Char} {t : Text} (hquote : c ≠ '"') (hback : c ≠ '\\') (ht : IsQuoted t) :
      IsQuoted (c :: t)
  | guarded (d : Char) {t : Text} (ht : IsQuoted t) : IsQuoted ('\\' :: d :: t)

/-- A text can stand between quotes exactly when its quotes are guarded. -/
theorem isQuotedBody_iff {v : Text} : isQuotedBody v = true ↔ IsQuoted v := by
  rw [isQuotedBody, List.isEmpty_iff]
  constructor
  · intro h
    fun_induction quotedBody v with
    | case1 => exact .nil
    | case2 => cases h
    | case3 => cases h
    | case4 d ds _ ih => exact .guarded d (ih h)
    | case5 c cs hquote hback ih => exact .char hquote hback (ih h)
  · intro h
    induction h with
    | nil => rfl
    | char hquote hback _ ih => rw [quotedBody_other hquote hback, Cut.rest_cons, ih]
    | guarded d _ ih => rw [quotedBody_guarded, Cut.rest_cons, Cut.rest_cons, ih]

/-! ## Labels -/

lemma closeLabel_open (depth : Nat) (t : Text) :
    closeLabel depth ('<' :: t) = (closeLabel (depth + 1) t).map (Cut.cons '<') := by
  rw [closeLabel.eq_def]
  simp

lemma closeLabel_close (t : Text) : closeLabel 0 ('>' :: t) = some ⟨[], t⟩ := by
  rw [closeLabel.eq_def]
  simp

lemma closeLabel_close_succ (depth : Nat) (t : Text) :
    closeLabel (depth + 1) ('>' :: t) = (closeLabel depth t).map (Cut.cons '>') := by
  rw [closeLabel.eq_def]
  simp

lemma closeLabel_other {c : Char} (hopen : c ≠ '<') (hclose : c ≠ '>') (depth : Nat) (t : Text) :
    closeLabel depth (c :: t) = (closeLabel depth t).map (Cut.cons c) := by
  rw [closeLabel.eq_def]
  simp [hopen, hclose]

/-- The end of a label does not depend on what follows it. -/
lemma closeLabel_taken_append {depth : Nat} {t : Text} {cut : Cut}
    (h : closeLabel depth t = some cut) (r : Text) :
    closeLabel depth (cut.taken ++ '>' :: r) = some ⟨cut.taken, r⟩ := by
  -- the depth varies: it goes up at an opening bracket and down at a closing one
  induction t generalizing depth cut with
  | nil => simp [closeLabel] at h
  | cons c t ih =>
    by_cases hopen : c = '<'
    · subst hopen
      rw [closeLabel_open] at h
      obtain ⟨inner, hi, rfl⟩ := Option.map_eq_some_iff.1 h
      rw [Cut.taken_cons, List.cons_append, closeLabel_open, ih hi]
      rfl
    · by_cases hclose : c = '>'
      · subst hclose
        cases depth with
        | zero =>
          rw [closeLabel_close] at h
          cases h
          exact closeLabel_close r
        | succ depth =>
          rw [closeLabel_close_succ] at h
          obtain ⟨inner, hi, rfl⟩ := Option.map_eq_some_iff.1 h
          rw [Cut.taken_cons, List.cons_append, closeLabel_close_succ, ih hi]
          rfl
      · rw [closeLabel_other hopen hclose] at h
        obtain ⟨inner, hi, rfl⟩ := Option.map_eq_some_iff.1 h
        rw [Cut.taken_cons, List.cons_append, closeLabel_other hopen hclose, ih hi]
        rfl

/-- A label is taken back out of its brackets. -/
theorem closeLabel_append {v : Text} (h : isLabelBody v = true) (r : Text) :
    closeLabel 0 (v ++ '>' :: r) = some ⟨v, r⟩ := by
  unfold isLabelBody at h
  split at h
  · rename_i cut hc
    -- the body is all that was taken, since nothing is left over
    have hv := closeLabel_eq_some hc
    rw [List.isEmpty_iff] at h
    rw [h, List.append_left_inj] at hv
    subst hv
    exact closeLabel_taken_append hc r
  · cases h

/-- What stands between the brackets can stand there. -/
theorem isLabelBody_taken {t : Text} {cut : Cut} (h : closeLabel 0 t = some cut) :
    isLabelBody cut.taken = true := by
  simp [isLabelBody, closeLabel_taken_append h []]

/-! ## Nested brackets -/

/-- A text in which angle brackets nest: characters other than brackets, and such texts between
brackets of their own. -/
inductive IsLabel : Text → Prop
  | nil : IsLabel []
  | char {c : Char} {t : Text} (hopen : c ≠ '<') (hclose : c ≠ '>') (ht : IsLabel t) :
      IsLabel (c :: t)
  | nested {u t : Text} (hu : IsLabel u) (ht : IsLabel t) : IsLabel ('<' :: (u ++ '>' :: t))

/-- The scanner passes over a text in which brackets nest, at whatever depth. -/
lemma closeLabel_of_isLabel {u : Text} (hu : IsLabel u) (depth : Nat) (t : Text) :
    closeLabel depth (u ++ t) = (closeLabel depth t).map fun cut => ⟨u ++ cut.taken, cut.rest⟩ := by
  induction hu generalizing depth t with
  | nil => simp
  | @char c u hopen hclose _ ih =>
    rw [List.cons_append, closeLabel_other hopen hclose, ih, Option.map_map]
    rfl
  | @nested u v _ _ ihu ihv =>
    rw [List.cons_append, closeLabel_open, List.append_assoc, ihu, List.cons_append,
      closeLabel_close_succ, ihv]
    simp only [Option.map_map]
    congr 1
    funext cut
    simp [Cut.cons]

/-- What the scanner takes at some depth: for each open bracket a text in which brackets nest
and its closing bracket, then a further such text. -/
def IsLabelTail : Nat → Text → Prop
  | 0, t => IsLabel t
  | depth + 1, t => ∃ u v, t = u ++ '>' :: v ∧ IsLabel u ∧ IsLabelTail depth v

lemma IsLabelTail.char {depth : Nat} {t : Text} {c : Char} (hopen : c ≠ '<') (hclose : c ≠ '>')
    (h : IsLabelTail depth t) : IsLabelTail depth (c :: t) := by
  cases depth with
  | zero => exact IsLabel.char hopen hclose h
  | succ depth =>
    obtain ⟨u, v, rfl, hu, hv⟩ := h
    exact ⟨c :: u, v, rfl, IsLabel.char hopen hclose hu, hv⟩

lemma IsLabelTail.nested {depth : Nat} {t : Text} (h : IsLabelTail (depth + 1) t) :
    IsLabelTail depth ('<' :: t) := by
  obtain ⟨u, v, rfl, hu, hv⟩ := h
  cases depth with
  | zero => exact IsLabel.nested hu hv
  | succ depth =>
    obtain ⟨u', v', rfl, hu', hv'⟩ := hv
    exact ⟨'<' :: (u ++ '>' :: u'), v', by simp, IsLabel.nested hu hu', hv'⟩

lemma isLabelTail_taken {depth : Nat} {t : Text} {cut : Cut} (h : closeLabel depth t = some cut) :
    IsLabelTail depth cut.taken := by
  induction t generalizing depth cut with
  | nil => simp [closeLabel] at h
  | cons c t ih =>
    by_cases hopen : c = '<'
    · subst hopen
      rw [closeLabel_open] at h
      obtain ⟨inner, hi, rfl⟩ := Option.map_eq_some_iff.1 h
      exact (ih hi).nested
    · by_cases hclose : c = '>'
      · subst hclose
        cases depth with
        | zero =>
          rw [closeLabel_close] at h
          cases h
          exact IsLabel.nil
        | succ depth =>
          rw [closeLabel_close_succ] at h
          obtain ⟨inner, hi, rfl⟩ := Option.map_eq_some_iff.1 h
          exact ⟨[], inner.taken, rfl, IsLabel.nil, ih hi⟩
      · rw [closeLabel_other hopen hclose] at h
        obtain ⟨inner, hi, rfl⟩ := Option.map_eq_some_iff.1 h
        exact (ih hi).char hopen hclose

/-- The brackets of a text are balanced exactly when they nest. -/
theorem isLabelBody_iff {v : Text} : isLabelBody v = true ↔ IsLabel v := by
  constructor
  · intro h
    exact isLabelTail_taken (closeLabel_append h [])
  · intro h
    rw [isLabelBody, closeLabel_of_isLabel h, closeLabel_close]
    rfl

end DotNotation.Lexical
