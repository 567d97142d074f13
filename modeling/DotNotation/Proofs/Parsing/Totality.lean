/-
# Reading ends with a tree or with a failure at a place of the text

Tokens are split off the front of a text for as long as that is possible.  If no front of them opens
many more bodies than it closes, then reading does not give up: no repetition uses up its bound, and
no body lacks room.  The text is read as a tree, or it is rejected, and then the failure is at the
place of a token or of the end, where no trivia stands, and something was expected there.  The main
results are

* `splitsOff_iff`: the tokens that can be split off a text are the fronts of those that scanning
  finds;
* `parse_total`: how reading a document or a statement ends.
-/
import DotNotation.Proofs.Lexical.Closing
import DotNotation.Proofs.Parsing.Braces

namespace DotNotation

open Lexical

/-! ## Tokens at the front of a text -/

/-- The tokens can be split off the front of the text, with trivia between them. -/
inductive SplitsOff : Text → List Token → Prop
  | nil (t : Text) : SplitsOff t []
  | trivia {u t : Text} {toks : List Token} (hu : Trivia u t) (ht : SplitsOff t toks) :
      SplitsOff (u ++ t) toks
  | token {t : Text} {tok : Token} {toks : List Token} (hk : tok.StandsBefore t)
      (ht : SplitsOff t toks) : SplitsOff (tok.render ++ t) (tok :: toks)

lemma SplitsOff.isPrefix {t : Text} {toks : List Token} (h : SplitsOff t toks) :
    toks <+: (Tokens.ofText t).toList := by
  induction h with
  | nil t => exact List.nil_prefix
  | trivia hu _ ih => rwa [Tokens.ofText, (Tokens.alike_append_of_trivia hu 0 0).1]
  | token hk _ ih =>
    rw [Tokens.ofText, (Tokens.alike_of_token (Piece.read_render hk) 0 0 0).1]
    exact (List.prefix_cons_inj _).2 ih

/-- Whatever is scanned at the front of a text can be split off: by induction along the pieces. -/
lemma splitsOff_of_isPrefix (t : Text) (n : Nat) {toks : List Token}
    (h : toks <+: (Tokens.scanFrom n t).toList) : SplitsOff t toks := by
  rw [Tokens.scanFrom_eq] at h
  cases hread : Piece.read t with
  | trivia cut =>
    simp only [hread] at h
    have htrivia := Piece.trivia_of_read hread
    have hlt := Piece.length_lt_of_trivia hread
    have hsplit := SplitsOff.trivia (trivia_taken htrivia) (splitsOff_of_isPrefix cut.rest _ h)
    have hwhole := whole_of_trivia htrivia
    rw [Cut.whole] at hwhole
    rwa [hwhole] at hsplit
  | token tok rest =>
    simp only [hread, Tokens.toList] at h
    have hlt := Piece.length_lt_of_token hread
    rcases List.prefix_cons_iff.1 h with rfl | ⟨toks, rfl, htoks⟩
    · exact .nil t
    · rw [Piece.eq_render_of_read hread]
      exact .token (Piece.standsBefore_of_read hread) (splitsOff_of_isPrefix rest _ htoks)
  | stop why =>
    simp only [hread, Tokens.toList, List.prefix_nil] at h
    rw [h]
    exact .nil t
termination_by t.length

/-- The tokens that can be split off a text are the fronts of those that scanning finds. -/
theorem splitsOff_iff {t : Text} {toks : List Token} :
    SplitsOff t toks ↔ toks <+: (Tokens.ofText t).toList :=
  ⟨SplitsOff.isPrefix, splitsOff_of_isPrefix t 0⟩

/-- How deeply a text nests can be seen from the tokens that can be split off it. -/
lemma Text.nesting_le_iff {source : Text} {k : Nat} :
    source.nesting ≤ k ↔ ∀ toks, SplitsOff source toks → Token.surplus toks ≤ k := by
  rw [Text.nesting, Token.nesting_le_iff]
  simp only [splitsOff_iff]

/-! ## The end of scanning -/

lemma Piece.ne_unread_of_read {t : Text} {why : Stop} (h : read t = stop why) : why ≠ .unread := by
  unfold read at h
  split at h
  · cases h
  · split at h
    · cases h
      decide
    · split at h <;> cases h
      decide
    · split at h <;> cases h
      decide
    · split at h
      · cases h
      · split at h <;> cases h
        decide

/-- Scanning never uses up its bound. -/
lemma Tokens.why_ne_unread (source : Text) : (ofText source).why ≠ .unread := by
  obtain ⟨m, hm⟩ := exists_reaches_stop (ofText source)
  obtain ⟨before, behind, -, hparts⟩ := exists_parts source 0 hm
  exact Piece.ne_unread_of_read hparts.read_eq_stop

/-! ## The end of reading -/

/-- The failure is at a place of the text where neither blanks nor a comment stands, and something
was expected there. -/
structure Failure.InPlace (source : Text) (failure : Failure) : Prop where
  expected_ne_nil : failure.expected ≠ []
  offset_le : failure.offset ≤ source.length
  blanks_eq_none : blanks (source.drop failure.offset) = none
  comment_eq_none : comment (source.drop failure.offset) = none

lemma Lexical.eq_none_of_trivia {t : Text} (h : trivia t = none) :
    blanks t = none ∧ comment t = none := by
  unfold trivia at h
  split at h
  · cases h
  · rename_i hblanks
    exact ⟨hblanks, h⟩

namespace Parser

variable {α : Type} {p : Parser α} {source : Text}

/-- The furthest failure of a run is in place. -/
lemma Grounded.inPlace (h : Grounded (Tokens.ofText source) (p.run source)) {f : Failure}
    (hf : (p.run source).trace.failure = some f) : f.InPlace source := by
  obtain ⟨place, u, hu, hoffset⟩ := h.place f.offset ⟨f, hf, rfl⟩
  obtain ⟨before, behind, rfl, hparts⟩ := Tokens.exists_parts source 0 hu
  have hbefore : f.offset = before.length := by
    rw [← hoffset, hparts.offset_eq, Nat.zero_add]
  have hdrop : (before ++ behind).drop f.offset = behind := by
    rw [hbefore, List.drop_left]
  obtain ⟨hblanks, hcomment⟩ := eq_none_of_trivia hparts.trivia_eq_none
  refine ⟨h.expects f hf, ?_, ?_, ?_⟩
  · rw [hbefore, List.length_append]
    exact Nat.le_add_right _ _
  · rwa [hdrop]
  · rwa [hdrop]

/-- A run that does not give up finds something or fails in place. -/
lemma Grounded.result_cases (h : Grounded (Tokens.ofText source) (p.run source))
    (hgaveUp : ∀ cause, (p.run source).reply ≠ .gaveUp cause) :
    (∃ a, (p.run source).result = .ok a) ∨
      ∃ f, (p.run source).result = .error (.unexpected f) ∧ f.InPlace source := by
  cases hreply : (p.run source).reply with
  | found a rest =>
    left
    exact ⟨a, by rw [Outcome.result, hreply]⟩
  | missing =>
    obtain ⟨f, hf, hresult⟩ := h.exists_failure hreply
    exact Or.inr ⟨f, hresult, h.inPlace hf⟩
  | gaveUp cause => exact absurd hreply (hgaveUp cause)

/-- Where there is room enough a run does not give up. -/
lemma Keeps.ne_gaveUp [p.Uniform] {room : Nat} {P : α → Prop} (hp : p.Keeps room P)
    (h : source.nesting ≤ room) (cause : Abort) : (p.run source).reply ≠ .gaveUp cause := by
  intro hgaveUp
  rcases hp.run source with ⟨a, rest, hreply, -⟩ | hreply | ⟨-, hdeep⟩
  · rw [hreply] at hgaveUp
    cases hgaveUp
  · rw [hreply] at hgaveUp
    cases hgaveUp
  · omega

end Parser

/-- Reading is total.  If no tokens that can be split off a text open more than 81 bodies more than
they close, then the text is read as a tree, or it is rejected for a failure that is in place.  A
repetition that used up its bound or a body without room would make the whole run give up; it never
does, and scanning never uses up its bound either. -/
theorem parse_total {source : Text}
    (h : ∀ toks, SplitsOff source toks → Token.surplus toks ≤ 81) :
    ((∃ g, Graph.parse source = .ok g) ∨
      ∃ f, Graph.parse source = .error (.unexpected f) ∧ f.InPlace source) ∧
    ((∃ s, Statement.parse source = .ok s) ∨
      ∃ f, Statement.parse source = .error (.unexpected f) ∧ f.InPlace source) ∧
    (∀ cause, (Grammar.file.run source).reply ≠ .gaveUp cause) ∧
    (∀ cause, (Grammar.fragment.run source).reply ≠ .gaveUp cause) ∧
    (Tokens.ofText source).why ≠ .unread := by
  have hnesting : source.nesting ≤ Grammar.maxNesting := by
    have hsmall : source.nesting ≤ 81 := Text.nesting_le_iff.2 h
    exact hsmall.trans (by decide)
  have hfile := Grammar.keeps_file.ne_gaveUp hnesting
  have hfragment := Grammar.keeps_fragment.ne_gaveUp hnesting
  refine ⟨?_, ?_, hfile, hfragment, Tokens.why_ne_unread source⟩
  · exact Parser.Grounded.result_cases (Grammar.grounded_file _ _) hfile
  · exact Parser.Grounded.result_cases (Grammar.grounded_fragment _ _) hfragment

/-- A graph whose 81 bodies are never closed, and a comment that is not closed either. -/
theorem parse_total_open_bodies :
    ∃ f, Graph.parse ("graph ".toList ++ List.replicate 81 '{' ++ "\n/* *".toList) =
        .error (.unexpected f) ∧
      f.InPlace ("graph ".toList ++ List.replicate 81 '{' ++ "\n/* *".toList) := by
  have hnesting :
      Text.nesting ("graph ".toList ++ List.replicate 81 '{' ++ "\n/* *".toList) ≤ 81 := by
    decide +kernel
  have hrejected : (Graph.parse
      ("graph ".toList ++ List.replicate 81 '{' ++ "\n/* *".toList)).isOk = false := by
    decide +kernel
  rcases (parse_total (Text.nesting_le_iff.1 hnesting)).1 with ⟨g, hg⟩ | hfailure
  · rw [hg] at hrejected
    cases hrejected
  · exact hfailure

end DotNotation
