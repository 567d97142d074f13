/-
# The one label at a place

A label is a pair of angle brackets with characters other than brackets and further labels between
them.  The scanner knows nothing of this: it counts brackets from the place where it starts.  Here
its answers are compared with the labels that stand at that place.  There is at most one, since no
label is a proper front of another.  The main results are

* `labelLength_append`: the scanner takes a label whole, whatever follows it;
* `IsBracketed.eq_of_prefix`: a text starts with at most one label;
* `labelEnd_iff_isBracketed`: the scanner answers with the end of that label, or with nothing if
  there is none.
-/
import DotNotation.Proofs.Lexical.Enclosed
import DotNotation.Syntax.Validity

namespace DotNotation.Lexical

/-- A label with its brackets. -/
def IsBracketed (t : Text) : Prop := ∃ v, IsLabel v ∧ t = '<' :: v ++ ['>']

section Bracketed

variable {p q x : Text}

lemma IsBracketed.head? (h : IsBracketed p) (hx : p <+: x) : x.head? = some '<' := by
  obtain ⟨v, -, rfl⟩ := h
  obtain ⟨r, rfl⟩ := hx
  rfl

/-- A label is taken whole, whatever follows it. -/
lemma labelLength_append (h : IsBracketed p) (r : Text) : labelLength (p ++ r) = some p.length := by
  obtain ⟨v, hv, rfl⟩ := h
  have hclose := closeLabel_append (isLabelBody_iff.2 hv) r
  simp [labelLength, hclose]

/-- What is taken is a label. -/
lemma exists_of_labelLength {n : Nat} (h : labelLength x = some n) :
    ∃ p, p <+: x ∧ IsBracketed p ∧ p.length = n := by
  unfold labelLength at h
  split at h
  · rename_i cs
    obtain ⟨cut, hcut, rfl⟩ := Option.map_eq_some_iff.1 h
    have hlabel := isLabelBody_iff.1 (isLabelBody_taken hcut)
    refine ⟨'<' :: cut.taken ++ ['>'], ⟨cut.rest, ?_⟩, ⟨cut.taken, hlabel, rfl⟩, by simp⟩
    simp [closeLabel_eq_some hcut]
  · cases h

/-- A text starts with at most one label. -/
lemma IsBracketed.eq_of_prefix (hp : IsBracketed p) (hq : IsBracketed q) (hpx : p <+: x)
    (hqx : q <+: x) : p = q := by
  -- the scanner takes both of them whole, so they have the same length
  obtain ⟨r, rfl⟩ := hpx
  obtain ⟨s, hs⟩ := hqx
  have hlength : some p.length = some q.length := by
    rw [← labelLength_append hp r, ← labelLength_append hq s, hs]
  exact (List.append_inj hs (Option.some.inj hlength).symm).1.symm

lemma labelLength_eq_none_iff : labelLength x = none ↔ ∀ p, p <+: x → ¬IsBracketed p := by
  constructor
  · rintro h p ⟨r, rfl⟩ hp
    rw [labelLength_append hp] at h
    cases h
  · intro h
    cases hx : labelLength x with
    | none => rfl
    | some n =>
      obtain ⟨p, hpx, hp, -⟩ := exists_of_labelLength hx
      exact absurd hp (h p hpx)

lemma labelLength_eq_some_iff {n : Nat} :
    labelLength x = some n ↔ n ≤ x.length ∧ IsBracketed (x.take n) := by
  constructor
  · intro h
    obtain ⟨p, hpx, hp, rfl⟩ := exists_of_labelLength h
    rw [← List.prefix_iff_eq_take.1 hpx]
    exact ⟨hpx.length_le, hp⟩
  · rintro ⟨hn, hx⟩
    have htake := labelLength_append hx (x.drop n)
    rwa [List.take_append_drop, List.length_take_of_le hn] at htake

end Bracketed

/-- From any place of a text the scanner finds exactly the label that starts there, if there is one,
and a text that passes the check for labels is taken back out of its brackets. -/
theorem labelEnd_iff_isBracketed (u x : Text) :
    (∀ j, labelEnd (u ++ x) u.length = some j ↔ x.head? = some '<' ∧
      u.length ≤ j ∧ j ≤ (u ++ x).length ∧ IsBracketed (x.take (j - u.length))) ∧
    (∀ p q, p <+: x → q <+: x → IsBracketed p → IsBracketed q → p = q) ∧
    (labelEnd (u ++ x) u.length = none ↔ ∀ p, p <+: x → ¬IsBracketed p) ∧
    ∀ v w id, Id.make .html v = .ok id →
      labelEnd ('<' :: v ++ '>' :: w) 0 = some (v.length + 2) := by
  have hend : labelEnd (u ++ x) u.length = (labelLength x).map (u.length + ·) := by
    rw [labelEnd, List.drop_left]
  refine ⟨fun j => ?_, fun p q hpx hqx hp hq => hp.eq_of_prefix hq hpx hqx, ?_, ?_⟩
  · rw [hend, List.length_append, Option.map_eq_some_iff]
    constructor
    · rintro ⟨n, hn, rfl⟩
      obtain ⟨hle, hx⟩ := labelLength_eq_some_iff.1 hn
      rw [Nat.add_sub_cancel_left]
      exact ⟨hx.head? (List.take_prefix n x), by omega, by omega, hx⟩
    · rintro ⟨-, hlow, hhigh, hx⟩
      exact ⟨j - u.length, labelLength_eq_some_iff.2 ⟨by omega, hx⟩, by omega⟩
  · rw [hend, Option.map_eq_none_iff, labelLength_eq_none_iff]
  · intro v w id h
    obtain ⟨rfl, hvalid⟩ := Id.make_eq_ok_iff.1 h
    have hbracketed : IsBracketed ('<' :: v ++ ['>']) := ⟨v, isLabelBody_iff.1 hvalid, rfl⟩
    have hlength := labelLength_append hbracketed w
    simpa [labelEnd] using hlength

/-- A label with another one inside, found behind a further character and before a further bracket,
and the same label when its text is put between brackets. -/
theorem labelEnd_iff_isBracketed_nested :
    labelEnd "a<b<c>>>".toList 1 = some 7 ∧ labelEnd "<b<c>>>".toList 0 = some 6 := by
  have hbracketed : IsBracketed "<b<c>>".toList :=
    ⟨"b<c>".toList, .char (by decide) (by decide)
      (.nested (u := ['c']) (.char (by decide) (by decide) .nil) .nil), rfl⟩
  exact ⟨((labelEnd_iff_isBracketed ['a'] "<b<c>>>".toList).1 7).2
      ⟨rfl, by decide, by decide, hbracketed⟩,
    (labelEnd_iff_isBracketed [] []).2.2.2 "b<c>".toList ['>'] ⟨.html, "b<c>".toList⟩ rfl⟩

end DotNotation.Lexical
