/-
# A closing brace in a new line

A text is continued with a space and, in a new line, a closing brace.  Where the text splits into
tokens the brace becomes one more token: the space keeps words apart or belongs to a last comment,
and the line end ends that comment.  Where scanning the text stopped before its end it stops there
still, since the space, the line end and the brace close no comment, no quotation and no label.  The
main results are

* `Splits.closing`: the tokens of a text that is continued in this way;
* `Tokens.why_of_closing`: only texts that split into tokens still do so.
-/
import DotNotation.Proofs.Lexical.Places

namespace DotNotation

open Lexical

namespace Lexical

/-- Trivia stays trivia when the text behind it is cut. -/
lemma Trivia.of_append {u t r : Text} (h : Trivia u (t ++ r)) : Trivia u t := by
  have hhead : ∀ c ∈ t.head?, c ∈ (t ++ r).head? := by
    cases t <;> simp
  cases h with
  | blanks hne hu => exact .blanks hne hu
  | hash hu ht => exact .hash hu fun c hc => ht c (hhead c hc)
  | slashes hu ht => exact .slashes hu fun c hc => ht c (hhead c hc)
  | block hu => exact .block hu

/-- Trivia that is followed by a space and a new line stays trivia, or it is a last comment, to
which the space then belongs. -/
lemma Trivia.closing {u t : Text} (h : Trivia u t) (r : Text) :
    Trivia u (t ++ ' ' :: '\n' :: r) ∨ t = [] ∧ Trivia (u ++ [' ']) ('\n' :: r) := by
  have hline : ∀ (u : Text), '\n' ∉ u → '\n' ∉ u ++ [' '] := by simp
  have hhead : t ≠ [] → ∀ c ∈ (t ++ ' ' :: '\n' :: r).head?, c ∈ t.head? := by
    cases t <;> simp
  cases h with
  | blanks hne hu => exact Or.inl (.blanks hne hu)
  | hash hu ht =>
    by_cases hnil : t = []
    · exact Or.inr ⟨hnil, .hash (hline _ hu) (by simp)⟩
    · exact Or.inl (.hash hu fun c hc => ht c (hhead hnil c hc))
  | slashes hu ht =>
    by_cases hnil : t = []
    · exact Or.inr ⟨hnil, .slashes (hline _ hu) (by simp)⟩
    · exact Or.inl (.slashes hu fun c hc => ht c (hhead hnil c hc))
  | block hu => exact Or.inl (.block hu)

/-- The scanner finds trivia where trivia stands. -/
lemma trivia_ne_none {u t : Text} (h : Trivia u t) : trivia (u ++ t) ≠ none := by
  rcases trivia_append h with htrivia | ⟨hu, hne⟩
  · simp [htrivia]
  · have hblanks : blanks (u ++ t) = some (blankRun (u ++ t)) := by
      simp [blanks, blankRun_append hu, hne]
    simp [trivia, hblanks]

end Lexical

/-! ## Texts that split into tokens -/

lemma Splits.eq_nil_of_nil {toks : List Token} (h : Splits [] toks) : toks = [] :=
  (splits_iff.1 h).1.symm

/-- A text that splits into tokens and goes on in a new line splits into the tokens of both. -/
lemma Splits.append_line {s r : Text} {w v : List Token} (h : Splits s w)
    (hr : Splits ('\n' :: r) v) : Splits (s ++ ' ' :: '\n' :: r) (w ++ v) := by
  induction h with
  | nil =>
    have hspace : Trivia [' '] ('\n' :: r) := .blanks (by simp) (.space .nil)
    exact .trivia (u := [' ']) hspace hr
  | @trivia u t toks hu ht ih =>
    rw [List.append_assoc]
    rcases hu.closing r with hu' | ⟨rfl, hu'⟩
    · exact .trivia hu' ih
    · rw [ht.eq_nil_of_nil]
      have hcomment := Splits.trivia hu' hr
      rwa [List.append_assoc] at hcomment
  | @token t tok toks hk _ ih =>
    rw [← List.append_nil t] at hk
    rw [List.append_assoc]
    exact .token (hk.continued rfl) ih

/-- The closing brace in a new line becomes one more token. -/
lemma Splits.closing {s : Text} {w : List Token} (h : Splits s w) :
    Splits (s ++ " \n\x7d".toList) (w ++ [.punct .closeBrace]) := by
  have hline : Trivia ['\n'] ['}'] := .blanks (by simp) (.line .nil)
  have hbrace : (Token.punct .closeBrace).StandsBefore [] := trivial
  exact h.append_line (.trivia hline (.token hbrace .nil))

/-! ## Texts that do not -/

/-- The closing characters do not end a token of more than one character. -/
lemma Token.StandsBefore.not_mem_closing {tok : Token} {t u : Text} {c : Char}
    (h : tok.StandsBefore t) (hu : u ≠ []) (hrender : tok.render = u ++ [c]) :
    c ∉ " \n\x7d".toList := by
  match tok, h with
  | punct p, _ =>
    cases p with
    | arrow =>
      have harrow : ['-'] ++ ['>'] = u ++ [c] := hrender
      obtain ⟨-, rfl⟩ := List.append_singleton_inj.1 harrow
      decide
    | line =>
      have hline : ['-'] ++ ['-'] = u ++ [c] := hrender
      obtain ⟨-, rfl⟩ := List.append_singleton_inj.1 hline
      decide
    | _ =>
      -- a single character leaves nothing before it
      obtain ⟨d, u, rfl⟩ := List.exists_cons_of_ne_nil hu
      simp [render, Punct.text] at hrender
  | id ⟨.quoted, v⟩, _ =>
    have hquote : ('"' :: v) ++ ['"'] = u ++ [c] := hrender
    obtain ⟨-, rfl⟩ := List.append_singleton_inj.1 hquote
    decide
  | id ⟨.html, v⟩, _ =>
    have hbracket : ('<' :: v) ++ ['>'] = u ++ [c] := hrender
    obtain ⟨-, rfl⟩ := List.append_singleton_inj.1 hbracket
    decide
  | id ⟨.plain, v⟩, h =>
    obtain ⟨d, u, rfl⟩ := List.exists_cons_of_ne_nil hu
    have hplain : isPlain (d :: (u ++ [c])) = true := by
      rw [← List.cons_append, ← hrender]
      exact isPlain_iff.2 h.1
    intro hmem
    rcases word_char_of_mem_tail hplain (List.mem_append_right u (List.mem_singleton.2 rfl)) with
      hword | rfl
    · have hnot : " \n\x7d".toList.all (fun e => !isWordChar e) = true := by decide
      have hc := List.all_eq_true.1 hnot c hmem
      rw [hword] at hc
      cases hc
    · exact absurd hmem (by decide)

/-- A first piece of a text with the closing characters ends in the text, or it goes on with a space
and ends in one of them. -/
lemma Lexical.append_closing_cases {t u r : Text} (h : t ++ " \n\x7d".toList = u ++ r) :
    (∃ x, t = u ++ x ∧ r = x ++ " \n\x7d".toList) ∨
      ∃ y c, u = t ++ y ++ [c] ∧ c ∈ " \n\x7d".toList ∧ ∃ z, y ++ [c] = ' ' :: z := by
  rcases List.append_eq_append_iff.1 h with ⟨y, rfl, hy⟩ | ⟨x, ht, hr⟩
  · rcases List.eq_nil_or_concat y with rfl | ⟨y, c, rfl⟩
    · exact Or.inl ⟨[], by simp, by simpa using hy.symm⟩
    · rw [List.concat_eq_append] at hy ⊢
      have hc : c ∈ " \n\x7d".toList := by
        rw [hy]
        simp
      refine Or.inr ⟨y, c, (List.append_assoc t y [c]).symm, hc, ?_⟩
      cases y with
      | nil =>
        obtain ⟨rfl, -⟩ := List.cons.inj hy
        exact ⟨[], rfl⟩
      | cons d y =>
        obtain ⟨rfl, -⟩ := List.cons.inj hy
        exact ⟨y ++ [c], rfl⟩
  · exact Or.inl ⟨x, ht, hr⟩

/-- Where blanks reach into the closing characters, they started before. -/
lemma Lexical.blanks_ne_none {t z : Text} (h : IsBlank (t ++ ' ' :: z)) (ht : t ≠ []) :
    blanks t ≠ none := by
  obtain ⟨d, t, rfl⟩ := List.exists_cons_of_ne_nil ht
  rw [List.cons_append] at h
  generalize hrest : t ++ ' ' :: z = rest at h
  cases h with
  | space _ => simp [blanks, blankRun]
  | tab _ => simp [blanks, blankRun]
  | line _ => simp [blanks, blankRun]
  | returned _ =>
    cases t with
    | nil => cases hrest
    | cons e t =>
      obtain ⟨rfl, -⟩ := List.cons.inj hrest
      simp [blanks, blankRun]

/-- Where trivia reaches into the closing characters, it started before. -/
lemma Lexical.trivia_ne_none_of_closing {t y z r : Text} {c : Char} (h : Trivia (t ++ y ++ [c]) r)
    (ht : t ≠ []) (hc : c ∈ " \n\x7d".toList) (hy : y ++ [c] = ' ' :: z) : trivia t ≠ none := by
  have hcons : t ++ y ++ [c] = t ++ ' ' :: z := by rw [List.append_assoc, hy]
  generalize hu : t ++ y ++ [c] = u at h
  cases h with
  | blanks _ hblank =>
    rw [← hu, hcons] at hblank
    have hne := blanks_ne_none hblank ht
    unfold trivia
    split
    · simp
    · contradiction
  | hash _ _ =>
    obtain ⟨d, t, rfl⟩ := List.exists_cons_of_ne_nil ht
    obtain ⟨rfl, -⟩ := List.cons.inj hu
    simp [trivia, blankRun_of_comment_start, comment]
  | slashes _ _ =>
    obtain ⟨d, t, rfl⟩ := List.exists_cons_of_ne_nil ht
    rw [hcons] at hu
    obtain ⟨rfl, htail⟩ := List.cons.inj hu
    cases t with
    | nil => cases htail
    | cons e t =>
      obtain ⟨rfl, -⟩ := List.cons.inj htail
      simp [trivia, blankRun_of_comment_start, comment]
  | @block v _ _ =>
    -- a block comment does not end in one of the closing characters
    have hend : t ++ y ++ [c] = ('/' :: '*' :: (v ++ ['*'])) ++ ['/'] := by simp [hu]
    obtain ⟨-, rfl⟩ := List.append_singleton_inj.1 hend
    exact absurd hc (by decide)

/-- What cannot be read as a piece stays so in front of the closing characters. -/
lemma Piece.exists_stop_of_closing {t : Text} {why : Stop} (h : read t = stop why) (hne : t ≠ []) :
    ∃ why', read (t ++ " \n\x7d".toList) = stop why' := by
  have hnone : Lexical.trivia t = none := by
    cases htrivia : Lexical.trivia t with
    | none => rfl
    | some cut => simp [read, htrivia] at h
  cases hread : read (t ++ " \n\x7d".toList) with
  | stop why' => exact ⟨why', rfl⟩
  | token tok rest =>
    exfalso
    have hstands := standsBefore_of_read hread
    rcases append_closing_cases (eq_render_of_read hread) with
      ⟨x, rfl, rfl⟩ | ⟨y, c, hrender, hc, -⟩
    · -- the token stands in `t` already
      have hstands' : tok.StandsBefore (x ++ []) := hstands.continued rfl
      rw [List.append_nil] at hstands'
      rw [read_render hstands'] at h
      cases h
    · exact hstands.not_mem_closing (List.append_ne_nil_of_left_ne_nil hne y) hrender hc
  | trivia cut =>
    exfalso
    have htrivia := trivia_of_read hread
    have htaken := trivia_taken htrivia
    rcases append_closing_cases (whole_of_trivia htrivia).symm with
      ⟨x, hx, hrest⟩ | ⟨y, c, hcut, hc, z, hz⟩
    · rw [hrest] at htaken
      rw [hx] at hnone
      exact trivia_ne_none htaken.of_append hnone
    · rw [hcut] at htaken
      exact trivia_ne_none_of_closing htaken hne hc hz hnone

/-- The last place is where scanning ended. -/
lemma Tokens.exists_reaches_stop (ts : Tokens) : ∃ m, Reaches (.stop m ts.why) ts.toList ts := by
  induction ts with
  | stop m why => exact ⟨m, .here⟩
  | next offset tok rest ih =>
    obtain ⟨m, hm⟩ := ih
    exact ⟨m, .next offset tok hm⟩

/-- At a place where scanning ended no piece can be read. -/
lemma Tokens.Parts.read_eq_stop {n m : Nat} {why : Stop} {u : List Token} {before behind : Text}
    (h : Parts n (.stop m why) u before behind) : Piece.read behind = .stop why := by
  have hscan : .stop m why = scanFrom m behind := h.scan_eq
  rw [scanFrom_eq] at hscan
  cases hread : Piece.read behind with
  | trivia cut => exact absurd (Piece.trivia_of_read hread) (by simp [h.trivia_eq_none])
  | token tok rest => simp [hread] at hscan
  | stop why' =>
    simp only [hread, stop.injEq, true_and] at hscan
    rw [hscan]

/-- A text that is scanned to its end with the closing characters is scanned to its end without
them. -/
lemma Tokens.why_of_closing {s : Text} (h : (ofText (s ++ " \n\x7d".toList)).why = .endOfInput) :
    (ofText s).why = .endOfInput := by
  by_contra hwhy
  obtain ⟨m, hm⟩ := exists_reaches_stop (ofText s)
  obtain ⟨before, behind, rfl, hparts⟩ := exists_parts s 0 hm
  have hread := hparts.read_eq_stop
  have hne : behind ≠ [] := by
    rintro rfl
    exact hwhy (Piece.stop.inj hread).symm
  obtain ⟨why, hstop⟩ := Piece.exists_stop_of_closing hread hne
  have hreplaces : Replaces (behind ++ []) (behind ++ " \n\x7d".toList) := .front hne [] rfl
  rw [List.append_nil] at hreplaces
  have hscan := (hparts.kept _ hreplaces).right.why_eq
  rw [scanFrom_eq _ (behind ++ _), hstop] at hscan
  rw [List.append_assoc, ofText, hscan] at h
  obtain rfl : why = .endOfInput := h
  exact List.append_ne_nil_of_left_ne_nil hne _ (Piece.eq_nil_of_read hstop)

end DotNotation
