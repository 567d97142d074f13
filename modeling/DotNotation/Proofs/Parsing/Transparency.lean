/-
# Trivia is transparent

What is read from a text depends on its tokens alone: two texts that split into the same
tokens are both rejected, or both read as the same graph.  So blanks and comments can be put
between the segments of a text without any effect.  A text is given here as the list of its
segments, each of which can stand before those behind it.  The one place where nothing can be
put is the end of a comment that ends with its line, since what is put there belongs to the
comment.  The main results are

* `Segment.StandsBefore.congr`: whether a segment can stand where it does depends on nothing
  beyond the segment behind it;
* `Segment.Fit.insert`: trivia can be put between any two segments;
* `Graph.parse_eq_of_same_tokens`: trivia is transparent to reading.
-/
import DotNotation.Proofs.Lexical.Split
import DotNotation.Proofs.Parsing.Soundness
import Mathlib.Data.List.Basic

namespace DotNotation

open Lexical

/-! ## The front of a plain identifier -/

namespace Lexical

lemma ne_point_of_isWordChar {c : Char} (h : isWordChar c = true) : c ≠ '.' := by
  rintro rfl
  exact absurd h (by decide)

lemma ne_point_of_isDigit {c : Char} (h : c.isDigit = true) : c ≠ '.' :=
  ne_point_of_isWordChar (isWordChar_of_isDigit h)

/-- The front of a fraction is a fraction, unless it is the lone point. -/
lemma IsFraction.of_prefix {v u : Text} (hv : IsFraction v) (hu : u <+: v) (hne : u ≠ [])
    (hpoint : u ≠ ['.']) : IsFraction u := by
  obtain ⟨d, ds, rfl, hall⟩ := hv
  rcases List.prefix_cons_iff.1 hu with rfl | ⟨w, rfl, hw⟩
  · exact absurd rfl hne
  rcases List.prefix_cons_iff.1 hw with rfl | ⟨x, rfl, hx⟩
  · exact absurd rfl hpoint
  refine ⟨d, x, rfl, fun c hc => hall c ?_⟩
  exact (List.prefix_cons_inj d |>.2 hx).subset hc

lemma IsWhole.of_prefix {v u : Text} (hv : IsWhole v) (hu : u <+: v) (hne : u ≠ []) :
    IsWhole u := by
  cases hv with
  | zero =>
    rcases List.prefix_cons_iff.1 hu with rfl | ⟨w, rfl, hw⟩
    · exact absurd rfl hne
    · rw [List.prefix_nil.1 hw]
      exact .zero
  | digits hc hall =>
    rcases List.prefix_cons_iff.1 hu with rfl | ⟨w, rfl, hw⟩
    · exact absurd rfl hne
    · exact .digits hc fun d hd => hall d (hu.subset hd)

/-- The front of a number is a number, unless it ends in the point. -/
lemma IsMagnitude.of_prefix {v u : Text} (hv : IsMagnitude v) (hu : u <+: v) (hne : u ≠ [])
    (hlast : u.getLast? ≠ some '.') : IsMagnitude u := by
  have hpoint : u ≠ ['.'] := by
    rintro rfl
    exact hlast rfl
  cases hv with
  | whole hv => exact .whole (hv.of_prefix hu hne)
  | fraction hv => exact .fraction (hv.of_prefix hu hne hpoint)
  | @both w f hw hf =>
    -- the front ends in the whole part, or reaches into the fraction
    rcases List.prefix_or_prefix_of_prefix hu (List.prefix_append w f) with hshort | ⟨x, rfl⟩
    · exact .whole (hw.of_prefix hshort hne)
    · have hx : x <+: f := (List.prefix_append_right_inj w).1 hu
      by_cases hnil : x = []
      · subst hnil
        rw [List.append_nil]
        exact .whole hw
      · refine .both hw (hf.of_prefix hx hnil ?_)
        rintro rfl
        simp at hlast

/-- The front of a plain identifier is one, unless it ends in a point or is the lone sign. -/
lemma IsPlain.of_prefix {v u : Text} (hv : IsPlain v) (hu : u <+: v) (hne : u ≠ [])
    (hsign : u ≠ ['-']) (hlast : u.getLast? ≠ some '.') : IsPlain u := by
  cases hv with
  | word hc hcs =>
    rcases List.prefix_cons_iff.1 hu with rfl | ⟨w, rfl, hw⟩
    · exact absurd rfl hne
    · exact .word hc fun d hd => hcs d (hw.subset hd)
  | number hv => exact .number (hv.of_prefix hu hne hlast)
  | negative hv =>
    rcases List.prefix_cons_iff.1 hu with rfl | ⟨w, rfl, hw⟩
    · exact absurd rfl hne
    have hw' : w ≠ [] := by
      rintro rfl
      exact hsign rfl
    refine .negative (hv.of_prefix hw hw' ?_)
    rwa [List.getLast?_cons_of_ne_nil hw'] at hlast

lemma IsFraction.getLast?_ne {v : Text} (hv : IsFraction v) : v.getLast? ≠ some '.' := by
  obtain ⟨d, ds, rfl, hall⟩ := hv
  intro hlast
  rw [List.getLast?_cons_cons] at hlast
  exact ne_point_of_isDigit (hall _ (List.mem_of_getLast? hlast)) rfl

lemma IsWhole.getLast?_ne {v : Text} (hv : IsWhole v) : v.getLast? ≠ some '.' := by
  cases hv with
  | zero => decide
  | digits _ hall =>
    intro hlast
    exact ne_point_of_isDigit (hall _ (List.mem_of_getLast? hlast)) rfl

lemma IsMagnitude.getLast?_ne {v : Text} (hv : IsMagnitude v) : v.getLast? ≠ some '.' := by
  cases hv with
  | whole hv => exact hv.getLast?_ne
  | fraction hv => exact hv.getLast?_ne
  | @both w f _ hf =>
    have hne : f ≠ [] := by
      obtain ⟨d, ds, rfl, -⟩ := hf
      exact List.cons_ne_nil _ _
    rw [List.getLast?_append_of_ne_nil _ hne]
    exact hf.getLast?_ne

/-- No plain identifier ends in a point. -/
lemma IsPlain.getLast?_ne {v : Text} (hv : IsPlain v) : v.getLast? ≠ some '.' := by
  cases hv with
  | @word c cs hc hcs =>
    intro hlast
    rcases List.mem_cons.1 (List.mem_of_getLast? hlast) with rfl | hmem
    · exact absurd hc (by decide)
    · exact ne_point_of_isWordChar (hcs _ hmem) rfl
  | number hv => exact hv.getLast?_ne
  | negative hv =>
    obtain ⟨c, cs, rfl, -⟩ := hv.head
    rw [List.getLast?_cons_cons]
    exact hv.getLast?_ne

lemma IsPlain.ne_nil {v : Text} (hv : IsPlain v) : v ≠ [] := by
  rintro rfl
  exact absurd (isPlain_iff.2 hv) (by decide)

/-- Whether a plain identifier ends in front of a second one is decided by the two. -/
lemma longest_congr {v w r s : Text} (hw : IsPlain w) (hv : IsPlain v)
    (hmax : ∀ x, IsPlain x → x <+: v ++ (w ++ r) → x.length ≤ v.length) :
    ∀ x, IsPlain x → x <+: v ++ (w ++ s) → x.length ≤ v.length := by
  intro x hx hprefix
  rw [← List.append_assoc] at hprefix hmax
  have hwhole : v ++ w <+: v ++ w ++ r := List.prefix_append _ _
  rcases List.prefix_or_prefix_of_prefix hprefix (List.prefix_append (v ++ w) s) with hx' | hx'
  · exact hmax x hx (hx'.trans hwhole)
  · -- the two together would be one identifier, and it would have been taken
    exfalso
    have hlast : (v ++ w).getLast? ≠ some '.' := by
      rw [List.getLast?_append_of_ne_nil _ hw.ne_nil]
      exact hw.getLast?_ne
    have hv' := List.length_pos_iff.2 hv.ne_nil
    have hw' := List.length_pos_iff.2 hw.ne_nil
    have hsign : v ++ w ≠ ['-'] := by
      intro h
      have hlength := congrArg List.length h
      rw [List.length_append, List.length_singleton] at hlength
      omega
    have hboth := hx.of_prefix hx' (List.append_ne_nil_of_left_ne_nil hv.ne_nil w) hsign hlast
    have hle := hmax _ hboth hwhole
    rw [List.length_append] at hle
    omega

/-- Trivia breaks off words. -/
lemma Trivia.breaks_append {u t : Text} (h : Trivia u t) (r : Text) : breaks (u ++ r) = true := by
  cases h with
  | blanks hne hu =>
    cases hu with
    | nil => exact absurd rfl hne
    | space _ => rfl
    | tab _ => rfl
    | line _ => rfl
    | returned _ => rfl
  | hash _ _ => rfl
  | slashes _ _ => rfl
  | block _ => rfl

end Lexical

/-! ## Parts of a text -/

/-- A segment of a text. -/
inductive Segment where
  | trivia (u : Text)
  | token (tok : Token)

namespace Segment

/-- The text of a segment. -/
def text : Segment → Text
  | trivia u => u
  | token tok => tok.render

/-- The token that a segment is, unless it is trivia. -/
def token? : Segment → Option Token
  | trivia _ => none
  | token tok => some tok

/-- The segment can be read off a text that goes on with the given text. -/
def StandsBefore : Segment → Text → Prop
  | trivia u, t => Trivia u t
  | token tok, t => tok.StandsBefore t

/-- Is the segment a comment that ends with its line? -/
def isLineComment : Segment → Bool
  | trivia ('#' :: _) => true
  | trivia ('/' :: '/' :: _) => true
  | _ => false

/-- The text of a list of segments. -/
def textOf (ps : List Segment) : Text := ps.flatMap text

/-- The tokens in a list of segments. -/
def tokensOf (ps : List Segment) : List Token := ps.filterMap token?

/-- Each segment can stand before the text of those behind it. -/
def Fit : List Segment → Prop
  | [] => True
  | p :: ps => p.StandsBefore (textOf ps) ∧ Fit ps

@[simp] lemma textOf_append (ps qs : List Segment) : textOf (ps ++ qs) = textOf ps ++ textOf qs :=
  List.flatMap_append

@[simp] lemma tokensOf_append (ps qs : List Segment) :
    tokensOf (ps ++ qs) = tokensOf ps ++ tokensOf qs :=
  List.filterMap_append

lemma tokensOf_eq_nil {ps : List Segment} (h : ∀ p ∈ ps, p.token? = none) : tokensOf ps = [] :=
  List.filterMap_eq_nil_iff.2 h

/-- The segments of a text are pieces into which it splits. -/
lemma Fit.splits {ps : List Segment} (h : Fit ps) : Splits (textOf ps) (tokensOf ps) := by
  induction ps with
  | nil => exact .nil
  | cons p ps ih =>
    cases p with
    | trivia u => exact .trivia h.1 (ih h.2)
    | token tok => exact .token h.1 (ih h.2)

lemma exists_fit {t : Text} {toks : List Token} (h : Splits t toks) :
    ∃ ps, Fit ps ∧ textOf ps = t := by
  induction h with
  | nil => exact ⟨[], trivial, rfl⟩
  | @trivia u t toks hu _ ih =>
    obtain ⟨ps, hps, rfl⟩ := ih
    exact ⟨trivia u :: ps, ⟨hu, hps⟩, rfl⟩
  | @token t tok toks hk _ ih =>
    obtain ⟨ps, hps, rfl⟩ := ih
    exact ⟨token tok :: ps, ⟨hk, hps⟩, rfl⟩

lemma StandsBefore.text_ne_nil {p : Segment} {t : Text} (h : p.StandsBefore t) : p.text ≠ [] := by
  match p, h with
  | trivia _, .blanks hne _ => exact hne
  | trivia _, .hash _ _ => exact List.cons_ne_nil _ _
  | trivia _, .slashes _ _ => exact List.cons_ne_nil _ _
  | trivia _, .block _ => exact List.cons_ne_nil _ _
  | token tok, h => exact Piece.render_ne_nil_of_read (Piece.read_render h)

/-! ## What a segment may stand before -/

/-- A segment that does not end with its line can stand before every text that breaks off words. -/
lemma StandsBefore.of_breaks {p : Segment} {t r : Text} (h : p.StandsBefore t)
    (hline : p.isLineComment = false) (hr : breaks r = true) : p.StandsBefore r := by
  match p, h with
  | trivia _, .blanks hne hu => exact .blanks hne hu
  | trivia _, .hash _ _ => exact absurd hline (by simp [isLineComment])
  | trivia _, .slashes _ _ => exact absurd hline (by simp [isLineComment])
  | trivia _, .block hu => exact .block hu
  | token tok, h => exact Token.standsBefore_of_breaks (Token.StandsBefore.isValid h) hr

/-- A segment breaks off words, unless it is a plain identifier. -/
lemma StandsBefore.breaks_append {q : Segment} {t : Text} (h : q.StandsBefore t) (r : Text) :
    breaks (q.text ++ r) = true ∨ ∃ w, q = token (.word w) ∧ IsPlain w := by
  match q, h with
  | trivia _, h => exact Or.inl (Trivia.breaks_append h r)
  | token (.punct p), _ => cases p <;> exact Or.inl rfl
  | token (.id ⟨.plain, w⟩), h => exact Or.inr ⟨w, rfl, h.1⟩
  | token (.id ⟨.quoted, _⟩), _ => exact Or.inl rfl
  | token (.id ⟨.html, _⟩), _ => exact Or.inl rfl

/-- Whether a segment can stand where it does depends on nothing beyond the segment behind it. -/
lemma StandsBefore.congr {p q : Segment} {t r s : Text} (hq : q.StandsBefore t)
    (h : p.StandsBefore (q.text ++ r)) : p.StandsBefore (q.text ++ s) := by
  have hhead : (q.text ++ s).head? = (q.text ++ r).head? := by
    rw [List.head?_append_of_ne_nil _ hq.text_ne_nil, List.head?_append_of_ne_nil _ hq.text_ne_nil]
  match p, h with
  | trivia _, .blanks hne hu => exact .blanks hne hu
  | trivia _, .hash hu ht => exact .hash hu (hhead ▸ ht)
  | trivia _, .slashes hu ht => exact .slashes hu (hhead ▸ ht)
  | trivia _, .block hu => exact .block hu
  | token (.punct _), _ => exact trivial
  | token (.id ⟨.quoted, _⟩), h => exact h
  | token (.id ⟨.html, _⟩), h => exact h
  | token (.id ⟨.plain, v⟩), h =>
    rcases hq.breaks_append s with hbreaks | ⟨w, rfl, hw⟩
    · have hvalid : (Token.id ⟨.plain, v⟩).isValid = true := isPlain_iff.2 h.1
      exact Token.standsBefore_of_breaks hvalid hbreaks
    · exact ⟨h.1, longest_congr hw h.1 h.2⟩

/-- Trivia can be put between two segments, unless the first ends with its line. -/
lemma Fit.insert {before between behind : List Segment} (h : Fit (before ++ behind))
    (hbetween : Fit (between ++ behind)) (htrivia : ∀ p ∈ between, p.token? = none)
    (hline : ∀ p ∈ before.getLast?, p.isLineComment = false) :
    Fit (before ++ (between ++ behind)) := by
  induction before with
  | nil => exact hbetween
  | cons p before ih =>
    rw [List.cons_append] at h ⊢
    cases before with
    | nil =>
      refine ⟨?_, hbetween⟩
      cases between with
      | nil => exact h.1
      | cons q between =>
        -- the trivia behind the last segment breaks off words
        have hq : q.StandsBefore (textOf (between ++ behind)) := hbetween.1
        refine StandsBefore.of_breaks h.1 (hline p rfl) ?_
        cases q with
        | trivia u => exact Trivia.breaks_append hq _
        | token tok => exact absurd (htrivia _ List.mem_cons_self) (by simp [token?])
    | cons q before =>
      have hq : q.StandsBefore (textOf (before ++ behind)) := h.2.1
      exact ⟨StandsBefore.congr hq h.1, ih h.2 hline⟩

end Segment

/-! ## Reading -/

/-- A document is read only if scanning reaches the end of the text. -/
lemma Grammar.endOfInput_of_file {why : Stop} {w rest : List Token} {g : Graph}
    (h : Grammar.file.answer why w = .found g rest) : why = .endOfInput := by
  unfold Grammar.file at h
  rw [Parser.answer_within, Parser.answer_bind] at h
  cases hgraph : Grammar.graph.answer why w with
  | found g' mid =>
    rw [hgraph] at h
    simp only [Parser.answer_bind, Parser.answer_finished] at h
    by_contra hwhy
    simp [hwhy] at h
  | missing => simp [hgraph] at h
  | gaveUp cause => simp [hgraph] at h

/-- Every document consists of segments. -/
lemma Graph.exists_segments {t : Text} {g : Graph} (h : Graph.parse t = .ok g) :
    ∃ ps, Segment.Fit ps ∧ Segment.textOf ps = t := by
  obtain ⟨rest, hans⟩ := Grammar.file.result_eq_ok_iff.1 h
  exact Segment.exists_fit (splits_iff.2 ⟨rfl, Grammar.endOfInput_of_file hans⟩)

lemma Graph.parse_eq_ok_iff_of_splits {t t' : Text} {toks : List Token} (h : Splits t toks)
    (h' : Splits t' toks) (g : Graph) : Graph.parse t = .ok g ↔ Graph.parse t' = .ok g := by
  obtain ⟨htoks, hend⟩ := splits_iff.1 h
  obtain ⟨htoks', hend'⟩ := splits_iff.1 h'
  rw [Graph.parse, Graph.parse, Parser.result_eq_ok_iff, Parser.result_eq_ok_iff, htoks, hend,
    htoks', hend']

/-- Trivia is transparent: two texts that split into the same tokens are both rejected or both
read as the same graph.  In particular every document consists of segments, and what is read from
it stays the same when comments and blanks are put between two of them; only behind a comment
that ends with its line nothing can be put in front of the end of the line. -/
theorem Graph.parse_eq_of_same_tokens :
    (∀ (t t' : Text) (toks : List Token), Splits t toks → Splits t' toks →
      (Graph.parse t).toOption = (Graph.parse t').toOption) ∧
    ∀ (t : Text) (g : Graph), Graph.parse t = .ok g →
      (∃ ps, Segment.Fit ps ∧ Segment.textOf ps = t) ∧
      ∀ before between behind : List Segment,
        Segment.Fit (before ++ behind) → Segment.textOf (before ++ behind) = t →
        (∀ p ∈ between, p.token? = none) → Segment.Fit (between ++ behind) →
        (∀ p ∈ before.getLast?, p.isLineComment = false) →
        Graph.parse (Segment.textOf before ++ Segment.textOf between ++
          Segment.textOf behind) = .ok g := by
  constructor
  · intro t t' toks h h'
    have hsome : ∀ (s : Text) (g : Graph),
        (Graph.parse s).toOption = some g ↔ Graph.parse s = .ok g := by
      intro s g
      cases Graph.parse s <;> simp [Except.toOption]
    refine Option.ext fun g => ?_
    rw [hsome, hsome]
    exact Graph.parse_eq_ok_iff_of_splits h h' g
  · intro t g hg
    refine ⟨Graph.exists_segments hg, ?_⟩
    intro before between behind hfit htext htrivia hbetween hline
    have hold := hfit.splits
    have hnew := (hfit.insert hbetween htrivia hline).splits
    -- the trivia adds no token
    rw [Segment.tokensOf_append, Segment.tokensOf_append, Segment.tokensOf_eq_nil htrivia,
      List.nil_append, ← Segment.tokensOf_append] at hnew
    have hread := (Graph.parse_eq_ok_iff_of_splits hold hnew g).1 (htext ▸ hg)
    rwa [Segment.textOf_append, Segment.textOf_append, ← List.append_assoc] at hread

/-- Numbers and signs that touch each other are told apart in the same way when comments stand
between them. -/
theorem Graph.parse_eq_of_same_tokens_close_numbers :
    (Graph.parse "graph\x7ba---1 01\x7d".toList).toOption =
      (Graph.parse "graph/*\x7b*/\x7ba\t--#-\n-1//\r\n0 1\x7d".toList).toOption ∧
    ∃ g, Graph.parse "graph\x7b01\x7d".toList = .ok g ∧
      Graph.parse "graph\x7b0/*-*/1\x7d".toList = .ok g := by
  have hword : (Token.word "graph".toList).StandsBefore "\x7b01\x7d".toList :=
    Token.standsBefore_of_breaks (by decide) (by decide)
  have hzero : (Token.word ['0']).StandsBefore "1\x7d".toList := plain_eq_some_iff.1 (by decide)
  have hone : (Token.word ['1']).StandsBefore "\x7d".toList :=
    Token.standsBefore_of_breaks (by decide) (by decide)
  have hbehind : Segment.Fit [.token (.word ['1']), .token (.punct .closeBrace)] :=
    ⟨hone, trivial, trivial⟩
  have hfit : Segment.Fit ([.token (.word "graph".toList), .token (.punct .openBrace),
      .token (.word ['0'])] ++ [.token (.word ['1']), .token (.punct .closeBrace)]) :=
    ⟨hword, trivial, hzero, hbehind⟩
  have hcomment : Segment.Fit ([.trivia "/*-*/".toList] ++
      [.token (.word ['1']), .token (.punct .closeBrace)]) :=
    ⟨Trivia.block (u := ['-']) (by decide), hbehind⟩
  obtain ⟨g, hg⟩ := Graph.exists_of_isOk (by decide +kernel :
    (Graph.parse "graph\x7b01\x7d".toList).isOk = true)
  have hnew := (Graph.parse_eq_of_same_tokens.2 _ g hg).2 _ _ _ hfit (by decide)
    (by simp [Segment.token?]) hcomment (by simp [Segment.isLineComment])
  refine ⟨?_, g, hg, ?_⟩
  · have hfirst : Splits "graph\x7ba---1 01\x7d".toList
        (Tokens.ofText "graph\x7ba---1 01\x7d".toList).toList :=
      splits_iff.2 ⟨rfl, by decide +kernel⟩
    have hsecond : Splits "graph/*\x7b*/\x7ba\t--#-\n-1//\r\n0 1\x7d".toList
        (Tokens.ofText "graph\x7ba---1 01\x7d".toList).toList :=
      splits_iff.2 ⟨by decide +kernel, by decide +kernel⟩
    exact Graph.parse_eq_of_same_tokens.1 _ _ _ hfirst hsecond
  · rwa [show Segment.textOf [.token (.word "graph".toList), .token (.punct .openBrace),
        .token (.word ['0'])] ++ Segment.textOf [.trivia "/*-*/".toList] ++
        Segment.textOf [.token (.word ['1']), .token (.punct .closeBrace)] =
        "graph\x7b0/*-*/1\x7d".toList by decide] at hnew

end DotNotation
