/-
# Identifiers made from texts and integers

A text becomes an identifier by quoting it, or plainly where it can stand without quotes and is no
keyword.  An integer becomes its decimal numeral, which always can, unless it is too long to be
written.  The functions that make such identifiers ask for no check, so it is shown here that there
is nothing to check: quoting guards what would end the quotes and creates no guarded line end, which
would vanish, and a numeral has no leading zero.  The main results are

* `unescape_escape`: the meaning of a quoted text is the text;
* `isPlain_ofInt`: the numeral of an integer is a plain identifier, and no keyword;
* `Text.ofInt?_eq`: the integers that can be written are those below a power of ten in size;
* `Id.made_keep_text`: what the functions give, that it is accepted, means the text, and is read
  back as it is written.
-/
import DotNotation.Proofs.Parsing.Image
import Mathlib.Algebra.Group.Nat.Defs
import Mathlib.Algebra.Ring.Int.Defs

namespace DotNotation

open Lexical

/-! ## Quoting -/

namespace Lexical

/-- The meaning of a quoted text is the text. -/
lemma unescape_escape (t : Text) : unescape (escape t) = t := by
  induction t with
  | nil => rfl
  | cons c t ih =>
    by_cases hquote : c = '"'
    · subst hquote
      rw [escape, if_pos (by decide), unescape.eq_def]
      simp [ih]
    · by_cases hback : c = '\\'
      · subst hback
        rw [escape, if_pos (by decide), unescape.eq_def]
        simp [ih]
      · rw [escape, if_neg (by simp [hquote, hback]), unescape.eq_def]
        simp [hback, ih]

lemma isQuoted_escape (t : Text) : IsQuoted (escape t) := by
  induction t with
  | nil => exact .nil
  | cons c t ih =>
    rw [escape]
    split
    · exact .guarded c ih
    · rename_i hc
      rw [not_or] at hc
      exact .char hc.1 hc.2 ih

end Lexical

/-! ## Numerals -/

/-- The numeral of a positive number does not start with zero. -/
lemma exists_of_toDigits {n : Nat} (hn : 0 < n) :
    ∃ c cs, Nat.toDigits 10 n = c :: cs ∧ c ≠ '0' := by
  induction n using Nat.strong_induction_on with
  | _ n ih =>
    rcases Nat.lt_or_ge n 10 with hlt | hge
    · refine ⟨n.digitChar, [], Nat.toDigits_of_lt_base hlt, ?_⟩
      have hdigits : ∀ m < 10, 0 < m → Nat.digitChar m ≠ '0' := by decide
      exact hdigits n hlt hn
    · obtain ⟨c, cs, heq, hc⟩ := ih (n / 10) (by omega) (by omega)
      refine ⟨c, cs ++ [(n % 10).digitChar], ?_, hc⟩
      rw [Nat.toDigits_of_base_le (by decide) hge, heq, List.cons_append]

lemma isWhole_ofNat (n : Nat) : IsWhole (Text.ofNat n) := by
  have hdigits : ∀ c ∈ Nat.toDigits 10 n, c.isDigit = true := fun _ hc =>
    Nat.isDigit_of_mem_toDigits (by decide) (by decide) hc
  rcases Nat.eq_zero_or_pos n with rfl | hn
  · exact .zero
  · obtain ⟨c, cs, heq, hc⟩ := exists_of_toDigits hn
    rw [heq] at hdigits
    rw [Text.ofNat, heq]
    exact .digits hc hdigits

lemma isPlain_ofInt : ∀ n : ℤ, IsPlain (Text.ofInt n)
  | .ofNat n => .number (.whole (isWhole_ofNat n))
  | .negSucc n => .negative (.whole (isWhole_ofNat (n + 1)))

/-- A numeral has only digits behind its sign. -/
lemma digit_or_sign_of_ofInt {n : ℤ} {c : Char} (hc : c ∈ Text.ofInt n) :
    c.isDigit = true ∨ c = '-' := by
  have hdigit : ∀ {m : Nat}, c ∈ Text.ofNat m → c.isDigit = true := fun h =>
    Nat.isDigit_of_mem_toDigits (by decide) (by decide) h
  cases n with
  | ofNat n => exact Or.inl (hdigit hc)
  | negSucc n =>
    rcases List.mem_cons.1 hc with rfl | hc
    · exact Or.inr rfl
    · exact Or.inl (hdigit hc)

lemma ofInt_eq_toString (n : ℤ) : Text.ofInt n = (toString n).toList := by
  have hnat : ∀ m : Nat, Text.ofNat m = (toString m).toList := by
    intro m
    rw [Nat.toString_eq_ofList_toDigits, String.toList_ofList, Text.ofNat]
  cases n with
  | ofNat n => exact hnat n
  | negSucc n =>
    rw [Text.ofInt, hnat]
    have hsign : toString (Int.negSucc n) = "-" ++ toString (n + 1) := rfl
    rw [hsign, String.toList_append]
    rfl

/-! ## Keywords -/

lemma Keyword.isKeyword_eq_false_iff {t : Text} :
    Keyword.isKeyword t = false ↔ ∀ k : Keyword, k.word ≠ t := by
  have hall : ∀ k : Keyword, k ∈ Keyword.all := by
    intro k
    cases k <;> decide
  simp only [Keyword.isKeyword, List.any_eq_false, beq_iff_eq]
  exact ⟨fun h k => h k (hall k), fun h k _ => h k⟩

lemma Keyword.word_ne_ofInt (k : Keyword) (n : ℤ) : k.word ≠ Text.ofInt n := by
  intro heq
  have hletter : k.word.any (fun c => !(c.isDigit || c == '-')) = true := by
    cases k <;> decide
  obtain ⟨c, hc, hother⟩ := List.any_eq_true.1 hletter
  rcases digit_or_sign_of_ofInt (heq ▸ hc) with hdigit | rfl
  · simp [hdigit] at hother
  · simp at hother

/-! ## What the functions give -/

namespace Id

lemma isValid_quote (t : Text) : (Id.quote t).isValid = true :=
  isQuotedBody_iff.2 (isQuoted_escape t)

lemma text_quote (t : Text) : (Id.quote t).text = t := unescape_escape t

/-- A text stays plain exactly if it can be read as an identifier and not as a keyword. -/
lemma ofText_cases (t : Text) :
    (Id.ofText t = Id.ofPlain t ∧ IsPlain t ∧ ∀ k : Keyword, k.word ≠ t) ∨
      Id.ofText t = Id.quote t ∧ ¬(IsPlain t ∧ ∀ k : Keyword, k.word ≠ t) := by
  rw [← Keyword.isKeyword_eq_false_iff, ← isPlain_iff, Id.ofText]
  cases isPlain t <;> cases Keyword.isKeyword t <;> simp

lemma isValid_ofText (t : Text) : (Id.ofText t).isValid = true := by
  rcases ofText_cases t with ⟨heq, hplain, -⟩ | ⟨heq, -⟩
  · rw [heq]
    exact isPlain_iff.2 hplain
  · rw [heq]
    exact isValid_quote t

lemma text_ofText (t : Text) : (Id.ofText t).text = t := by
  rcases ofText_cases t with ⟨heq, -⟩ | ⟨heq, -⟩
  · rw [heq]
    rfl
  · rw [heq, text_quote]

lemma kind_ofText_eq_plain_iff (t : Text) :
    (Id.ofText t).kind = .plain ↔ IsPlain t ∧ ∀ k : Keyword, k.word ≠ t := by
  rcases ofText_cases t with ⟨heq, hplain⟩ | ⟨heq, hplain⟩
  · rw [heq]
    exact iff_of_true rfl hplain
  · rw [heq]
    exact iff_of_false nofun hplain

lemma ofText_ofInt (n : ℤ) : Id.ofText (Text.ofInt n) = ⟨.plain, (toString n).toList⟩ := by
  rcases ofText_cases (Text.ofInt n) with ⟨heq, -⟩ | ⟨-, hplain⟩
  · rw [heq, ← ofInt_eq_toString]
    rfl
  · exact absurd ⟨isPlain_ofInt n, fun k => k.word_ne_ofInt n⟩ hplain

end Id

/-- The term gives the identifier, the identifier passes its check, and the text that is written for
it is read as a node with this identifier. -/
structure Term.Makes (bindings : Bindings) (term : Term) (name : Id) : Prop where
  eval : term.eval bindings = .ok name.toValue
  accepted : Id.make name.kind name.value = .ok name
  parse : Statement.parse name.render = .ok (.node ⟨name, none⟩ [])

lemma Term.makes_of_isValid {bindings : Bindings} {term : Term} {name : Id}
    (heval : term.eval bindings = .ok name.toValue) (hvalid : name.isValid = true) :
    term.Makes bindings name :=
  ⟨heval, Id.make_eq_ok_iff.2 ⟨rfl, hvalid⟩, Id.parse_render hvalid⟩

/-! ## Integers -/

lemma Text.ofInt?_eq (n : ℤ) :
    Text.ofInt? n = if n.natAbs < 10 ^ Text.maxDigits then some (Text.ofInt n) else none := by
  have hlimit : 0 < Text.maxDigits := by decide
  rw [Text.ofInt?, Text.ofNat]
  simp only [Nat.length_toDigits_le_iff (by decide : 1 < 10) hlimit]

/-- An integer is written as its numeral, unless it has too many digits. -/
lemma Value.literal_int (n : ℤ) :
    (Value.int n).literal =
      if n.natAbs < 10 ^ Text.maxDigits then .ok (Text.ofInt n) else .error .tooManyDigits := by
  rw [Value.literal, Text.ofInt?_eq]
  by_cases hshort : n.natAbs < 10 ^ Text.maxDigits
  · rw [if_pos hshort, if_pos hshort]
  · rw [if_neg hshort, if_neg hshort]

lemma Term.eval_id_int (bindings : Bindings) (n : ℤ) :
    (Term.apply .id [.value (.int n)]).eval bindings =
      if n.natAbs < 10 ^ Text.maxDigits then .ok (Id.ofText (Text.ofInt n)).toValue
      else .error .tooManyDigits := by
  have heval : (Term.apply .id [.value (.int n)]).eval bindings =
      (do return (← (do return Id.ofText (← (Value.int n).literal) : Built Id)).toValue) := rfl
  rw [heval, Value.literal_int]
  split
  · rfl
  · rfl

lemma Term.makes_id_int_iff (bindings : Bindings) (n : ℤ) :
    (Term.apply .id [.value (.int n)]).Makes bindings ⟨.plain, (toString n).toList⟩ ↔
      n.natAbs < 10 ^ Text.maxDigits := by
  have heval := Term.eval_id_int bindings n
  constructor
  · intro hmakes
    by_contra hlong
    rw [if_neg hlong, hmakes.eval] at heval
    cases heval
  · intro hshort
    rw [if_pos hshort] at heval
    rw [← Id.ofText_ofInt]
    exact Term.makes_of_isValid heval (Id.isValid_ofText _)

/-- Identifiers that are made from a text mean this text, and one that is made from an integer is
its decimal numeral.  An integer with too many digits is refused, and truth values are made into
words.  All identifiers that are made are accepted and read back. -/
theorem Id.made_keep_text (bindings : Bindings) (t : Text) (n : ℤ) (b : Bool) :
    (Term.apply .quoteId [.value (.text t)]).Makes bindings (Id.quote t) ∧
    (Id.quote t).text = t ∧
    (Term.apply .idOfText [.value (.text t)]).Makes bindings (Id.ofText t) ∧
    (Id.ofText t).text = t ∧
    ((Id.ofText t).kind = .plain ↔ IsPlain t ∧ ∀ k : Keyword, k.word ≠ t) ∧
    ((Term.apply .id [.value (.int n)]).Makes bindings ⟨.plain, (toString n).toList⟩ ↔
      n.natAbs < 10 ^ Text.maxDigits) ∧
    ((Term.apply .id [.value (.int n)]).eval bindings = .error .tooManyDigits ↔
      10 ^ Text.maxDigits ≤ n.natAbs) ∧
    (Term.apply .id [.value (.bool b)]).Makes bindings
      ⟨.plain, if b then "true".toList else "false".toList⟩ := by
  refine ⟨Term.makes_of_isValid rfl (Id.isValid_quote t), Id.text_quote t,
    Term.makes_of_isValid rfl (Id.isValid_ofText t), Id.text_ofText t,
    Id.kind_ofText_eq_plain_iff t, Term.makes_id_int_iff bindings n, ?_, ?_⟩
  · rw [Term.eval_id_int, ← Nat.not_lt]
    split
    · rename_i hshort
      exact iff_of_false nofun fun hlong => hlong hshort
    · rename_i hlong
      exact iff_of_true rfl hlong
  · refine Term.makes_of_isValid rfl ?_
    cases b <;> decide

/-- Not everything that counts as an integer is made into its numeral: truth values are not, and
neither is the least number with too many digits. -/
theorem Id.made_of_integers_fails :
    (Value.bool true).asInt? = some 1 ∧
    ¬ (Term.apply .id [.value (.bool true)]).Makes .empty ⟨.plain, (toString (1 : ℤ)).toList⟩ ∧
    (Value.int (10 ^ Text.maxDigits)).asInt? = some (10 ^ Text.maxDigits) ∧
    ¬ (Term.apply .id [.value (.int (10 ^ Text.maxDigits))]).Makes .empty
      ⟨.plain, (toString (10 ^ Text.maxDigits : ℤ)).toList⟩ := by
  refine ⟨rfl, fun hmakes => ?_, rfl, fun hmakes => ?_⟩
  · have heval : Except.ok (Id.toValue ⟨.plain, "true".toList⟩) =
        Except.ok (Id.toValue ⟨.plain, (toString (1 : ℤ)).toList⟩) := hmakes.eval
    have hwords : "true".toList = (toString (1 : ℤ)).toList := by
      simpa [Id.toValue] using heval
    exact absurd hwords (by decide)
  · have hten : (10 : ℤ).natAbs = 10 := rfl
    have hshort := (Term.makes_id_int_iff .empty (10 ^ Text.maxDigits)).mp hmakes
    rw [Int.natAbs_pow, hten] at hshort
    exact Nat.lt_irrefl _ hshort

end DotNotation
