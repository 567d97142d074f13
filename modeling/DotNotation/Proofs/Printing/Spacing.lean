/-
# Layout is only white space

The settings decide where the lines of a document break and how far they are indented, and
nothing else.  To say so, the white space of a text is deleted, except inside quoted texts and
labels, where it has a meaning.  Deletion goes through the text once and keeps track of what
the next character stands in.  The main results are

* `Spaced.squeeze`: a text of blanks and tokens is squeezed to its tokens;
* `Graph.print_differs_in_blanks`: under any two layouts a graph is written with the same
  tokens, and the two texts differ only in white space.
-/
import DotNotation.Proofs.Printing.Tokens

namespace DotNotation

open Lexical

/-! ## Deleting white space -/

/-- What a character of a text stands in. -/
inductive Surroundings where
  /-- Outside of quoted texts and labels. -/
  | outside
  /-- In a quoted text. -/
  | quoted
  /-- In a quoted text, right behind a backslash. -/
  | guarded
  /-- In a label, with some inner brackets open. -/
  | label (depth : Nat)
deriving DecidableEq, Repr

namespace Surroundings

/-- What stands behind a character stands in. -/
def next : Surroundings → Char → Surroundings
  | outside, c => if c = '"' then quoted else if c = '<' then label 0 else outside
  | quoted, c => if c = '"' then outside else if c = '\\' then guarded else quoted
  | guarded, _ => quoted
  | label depth, c =>
    if c = '<' then label (depth + 1)
    else if c = '>' then match depth with
      | 0 => outside
      | n + 1 => label n
    else label depth

end Surroundings

/-- Is the character white space? -/
def isSpace (c : Char) : Bool := c == ' ' || c == '\t' || c == '\n' || c == '\r'

/-- Delete the white space of a text that starts in the given surroundings. -/
def squeezeFrom (place : Surroundings) : Text → Text
  | [] => []
  | c :: cs =>
    if place = .outside ∧ isSpace c = true then squeezeFrom place cs
    else c :: squeezeFrom (place.next c) cs

/-- Delete the white space outside of quoted texts and labels. -/
def Text.squeeze (t : Text) : Text := squeezeFrom .outside t

/-! ## Tokens are kept -/

lemma squeezeFrom_cons_of_kept {place : Surroundings} {c : Char} (t : Text)
    (h : place = .outside → isSpace c = false) :
    squeezeFrom place (c :: t) = c :: squeezeFrom (place.next c) t := by
  rw [squeezeFrom, if_neg]
  rintro ⟨hplace, hc⟩
  rw [h hplace] at hc
  cases hc

lemma squeezeFrom_quoted {v : Text} (hv : IsQuoted v) (t : Text) :
    squeezeFrom .quoted (v ++ '"' :: t) = v ++ '"' :: squeezeFrom .outside t := by
  induction hv with
  | nil => exact squeezeFrom_cons_of_kept t (by simp)
  | @char c v hquote hback _ ih =>
    have hnext : Surroundings.quoted.next c = .quoted := by
      simp only [Surroundings.next, if_neg hquote, if_neg hback]
    rw [List.cons_append, squeezeFrom_cons_of_kept _ (by simp), hnext, ih, List.cons_append]
  | guarded d _ ih =>
    have hback : Surroundings.quoted.next '\\' = .guarded := rfl
    have hnext : Surroundings.guarded.next d = .quoted := rfl
    rw [List.cons_append, List.cons_append, squeezeFrom_cons_of_kept _ (by simp), hback,
      squeezeFrom_cons_of_kept _ (by simp), hnext, ih, List.cons_append, List.cons_append]

/-- A text in which brackets nest is kept at every depth. -/
lemma squeezeFrom_label {v : Text} (hv : IsLabel v) (depth : Nat) (t : Text) :
    squeezeFrom (.label depth) (v ++ t) = v ++ squeezeFrom (.label depth) t := by
  induction hv generalizing depth t with
  | nil => rfl
  | @char c v hopen hclose _ ih =>
    have hnext : (Surroundings.label depth).next c = .label depth := by
      simp only [Surroundings.next, if_neg hopen, if_neg hclose]
    rw [List.cons_append, squeezeFrom_cons_of_kept _ (by simp), hnext, ih, List.cons_append]
  | @nested u v _ _ ihu ihv =>
    -- the inner label is one level deeper, up to the bracket that closes it
    have hopen : (Surroundings.label depth).next '<' = .label (depth + 1) := rfl
    have hclose : (Surroundings.label (depth + 1)).next '>' = .label depth := rfl
    rw [List.cons_append, squeezeFrom_cons_of_kept _ (by simp), hopen, List.append_assoc, ihu,
      List.cons_append, squeezeFrom_cons_of_kept _ (by simp), hclose, ihv]
    simp

/-- A text without white space, quotes and brackets is kept. -/
lemma squeeze_of_dark {v : Text}
    (h : ∀ c ∈ v, isSpace c = false ∧ Surroundings.outside.next c = .outside) (t : Text) :
    Text.squeeze (v ++ t) = v ++ t.squeeze := by
  induction v with
  | nil => rfl
  | cons c v ih =>
    obtain ⟨hc, hv⟩ := List.forall_mem_cons.1 h
    have hkept : squeezeFrom .outside (c :: (v ++ t)) =
        c :: squeezeFrom (Surroundings.outside.next c) (v ++ t) :=
      squeezeFrom_cons_of_kept _ fun _ => hc.1
    rw [hc.2] at hkept
    rw [List.cons_append, List.cons_append, ← ih hv]
    exact hkept

lemma isWordChar_or_sign_of_isPlain {v : Text} (hv : isPlain v = true) {c : Char} (hc : c ∈ v) :
    isWordChar c = true ∨ c = '.' ∨ c = '-' := by
  obtain ⟨d, ds, rfl, hd⟩ := exists_of_plain (isPlain_iff_plain.1 hv)
  rcases List.mem_cons.1 hc with rfl | hc
  · rcases hd with hd | hd | hd | ⟨hd, -⟩
    · left
      simp only [isWordStart, isWordChar, Char.isAlphanum, Bool.or_eq_true] at hd ⊢
      exact hd.imp_left Or.inl
    · exact Or.inl (isWordChar_of_isDigit hd)
    · exact Or.inr (Or.inl hd)
    · exact Or.inr (Or.inr hd)
  · rcases word_char_of_mem_tail hv hc with hc | hc
    · exact Or.inl hc
    · exact Or.inr (Or.inl hc)

lemma dark_of_isPlain {v : Text} (hv : isPlain v = true) {c : Char} (hc : c ∈ v) :
    isSpace c = false ∧ Surroundings.outside.next c = .outside := by
  have hne : ∀ x ∈ [' ', '\t', '\n', '\r', '"', '<'], c ≠ x := by
    rintro x hx rfl
    have hx' : isWordChar c = false ∧ c ≠ '.' ∧ c ≠ '-' := by
      simp only [List.mem_cons, List.not_mem_nil, or_false] at hx
      rcases hx with rfl | rfl | rfl | rfl | rfl | rfl <;> decide
    rcases isWordChar_or_sign_of_isPlain hv hc with h | h | h
    · exact absurd h (by simp [hx'.1])
    · exact hx'.2.1 h
    · exact hx'.2.2 h
  simp only [List.mem_cons, List.not_mem_nil, or_false, forall_eq_or_imp, forall_eq] at hne
  simp [isSpace, Surroundings.next, hne]

lemma dark_of_punct {p : Punct} {c : Char} (hc : c ∈ p.text) :
    isSpace c = false ∧ Surroundings.outside.next c = .outside := by
  have hall : (p.text.all fun c =>
      !isSpace c && decide (Surroundings.outside.next c = .outside)) = true := by
    cases p <;> decide
  simpa using List.all_eq_true.mp hall c hc

/-- A token is kept as it is written. -/
lemma Token.squeeze_render {tok : Token} {t : Text} (h : tok.StandsBefore t) :
    Text.squeeze (tok.render ++ t) = tok.render ++ t.squeeze := by
  match tok, h with
  | punct p, _ => exact squeeze_of_dark (fun c hc => dark_of_punct hc) t
  | id ⟨.plain, v⟩, h =>
    exact squeeze_of_dark (fun c hc => dark_of_isPlain (isPlain_iff.2 h.1) hc) t
  | id ⟨.quoted, v⟩, h =>
    have hopen : Surroundings.outside.next '"' = .quoted := rfl
    show squeezeFrom .outside ('"' :: v ++ ['"'] ++ t) = '"' :: v ++ ['"'] ++ t.squeeze
    rw [List.append_assoc, List.cons_append, squeezeFrom_cons_of_kept _ (fun _ => rfl), hopen,
      List.singleton_append, squeezeFrom_quoted h]
    simp [Text.squeeze]
  | id ⟨.html, v⟩, h =>
    have hopen : Surroundings.outside.next '<' = .label 0 := rfl
    have hclose : (Surroundings.label 0).next '>' = .outside := rfl
    show squeezeFrom .outside ('<' :: v ++ ['>'] ++ t) = '<' :: v ++ ['>'] ++ t.squeeze
    rw [List.append_assoc, List.cons_append, squeezeFrom_cons_of_kept _ (fun _ => rfl), hopen,
      squeezeFrom_label h, List.singleton_append, squeezeFrom_cons_of_kept _ (by simp), hclose]
    simp [Text.squeeze]

lemma squeeze_of_isBlank {u : Text} (hu : IsBlank u) (t : Text) :
    Text.squeeze (u ++ t) = t.squeeze := by
  induction hu with
  | nil => rfl
  | space _ ih => exact ih
  | tab _ ih => exact ih
  | line _ ih => exact ih
  | returned _ ih => exact ih

/-- A text of blanks and tokens is squeezed to its tokens. -/
theorem Spaced.squeeze {t : Text} {toks : List Token} (h : Spaced t toks) :
    t.squeeze = toks.flatMap Token.render := by
  induction h with
  | nil => rfl
  | blanks _ hu _ ih => rw [squeeze_of_isBlank hu, ih]
  | token hk _ ih => rw [Token.squeeze_render hk, ih, List.flatMap_cons]

/-! ## Layouts -/

/-- Two layouts of a graph with the same choice about semicolons have the same tokens, and
deleting the white space from them leaves exactly these tokens. -/
theorem Graph.print_differs_in_blanks {graph : Graph} {settings other : Settings}
    (hvalid : graph.isValid = true) (hsep : settings.Separates) (hother : other.Separates)
    (hsemicolons : settings.useSemicolons = other.useSemicolons) :
    (∃ toks, Splits (graph.print settings) toks ∧ Splits (graph.print other) toks ∧
      Text.squeeze (graph.print settings) = toks.flatMap Token.render) ∧
    Text.squeeze (graph.print settings) = Text.squeeze (graph.print other) := by
  have hfirst := graph.spaced_print hsep hvalid
  have hsecond := graph.spaced_print hother hvalid
  rw [← hsemicolons] at hsecond
  refine ⟨⟨_, hfirst.splits, hsecond.splits, hfirst.squeeze⟩, ?_⟩
  rw [hfirst.squeeze, hsecond.squeeze]

/-- An edge between subgraphs, one of them with a further edge inside, on one line and spread over
lines that start further to the left the deeper they nest; a quoted text and a label keep their
white space. -/
theorem Graph.print_differs_in_blanks_nested_edges :
    Text.squeeze (Graph.print ⟨-1, 7, ['\r', '\n', '\t'], false, false, 0⟩
      ⟨true, false, some ⟨.quoted, [' ', '\\', '"']⟩, [
        .edge [.subgraph (.mk none [.edge [.node ⟨⟨.html, ['\n', '<', '>']⟩, none⟩,
            .subgraph (.mk none [])] []]),
          .node ⟨⟨.plain, Keyword.subgraph.word⟩, none⟩] []]⟩) =
    Text.squeeze (Graph.print ⟨2, 0, ['\n'], true, false, 90⟩
      ⟨true, false, some ⟨.quoted, [' ', '\\', '"']⟩, [
        .edge [.subgraph (.mk none [.edge [.node ⟨⟨.html, ['\n', '<', '>']⟩, none⟩,
            .subgraph (.mk none [])] []]),
          .node ⟨⟨.plain, Keyword.subgraph.word⟩, none⟩] []]⟩) := by
  refine (Graph.print_differs_in_blanks ?_ ⟨?_, ?_⟩ ⟨?_, ?_⟩ ?_).2 <;> decide +kernel

end DotNotation
