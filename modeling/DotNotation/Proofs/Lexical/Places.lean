/-
# Places among the tokens of a text

A place is where a token starts or where scanning ends.  `Tokens.Reaches` says which tokens stand
before a place.  The text from a place on can be replaced without any effect on the tokens before
the place, for instance by a new line: a line end does not run into anything, since words break off
there and comments that end with their line end there too.  The main results are

* `Tokens.exists_parts`: every place parts the text, and the tokens before it stay where they are
  when the text behind it is replaced;
* `Tokens.beyond_of_reaches`: the places of a text come in the order of their offsets;
* `Tokens.alike_cut`: cutting a text at a place keeps the tokens before that place.
-/
import DotNotation.Proofs.Lexical.Split

namespace DotNotation

open Lexical

namespace Tokens

/-- The tokens are the given ones and then those that stand at the place. -/
inductive Reaches (place : Tokens) : List Token → Tokens → Prop
  | here : Reaches place [] place
  | next {u : List Token} {ts : Tokens} (offset : Nat) (tok : Token) (h : Reaches place u ts) :
      Reaches place (tok :: u) (.next offset tok ts)

/-- Both start with the given tokens, at the same offsets, and go on with those that stand at their
places. -/
inductive Parallel (place place' : Tokens) : List Token → Tokens → Tokens → Prop
  | here : Parallel place place' [] place place'
  | next {u : List Token} {ts ts' : Tokens} (offset : Nat) (tok : Token)
      (h : Parallel place place' u ts ts') :
      Parallel place place' (tok :: u) (.next offset tok ts) (.next offset tok ts')

section Reaches

variable {place place' mid ts ts' : Tokens} {u v : List Token}

lemma Reaches.toList_eq (h : Reaches place u ts) : ts.toList = u ++ place.toList := by
  induction h with
  | here => rfl
  | next offset tok _ ih => exact congrArg (tok :: ·) ih

lemma Reaches.why_eq (h : Reaches place u ts) : ts.why = place.why := by
  induction h with
  | here => rfl
  | next offset tok _ ih => exact ih

lemma Reaches.trans (h : Reaches place v mid) (h' : Reaches mid u ts) :
    Reaches place (u ++ v) ts := by
  induction h' with
  | here => exact h
  | next offset tok _ ih => exact .next offset tok ih

lemma Parallel.left (h : Parallel place place' u ts ts') : Reaches place u ts := by
  induction h with
  | here => exact .here
  | next offset tok _ ih => exact .next offset tok ih

lemma Parallel.right (h : Parallel place place' u ts ts') : Reaches place' u ts' := by
  induction h with
  | here => exact .here
  | next offset tok _ ih => exact .next offset tok ih

/-- All places of the tokens lie behind an offset. -/
def Beyond (n : Nat) (ts : Tokens) : Prop :=
  ∀ (place : Tokens) (u : List Token), Reaches place u ts → n < place.offset

lemma Beyond.of_reaches {n : Nat} (h : Beyond n ts) (hmid : Reaches mid u ts) : Beyond n mid :=
  fun place v hplace => h place (u ++ v) (hplace.trans hmid)

end Reaches

end Tokens

/-! ## Replacing the end of a text -/

namespace Lexical

/-- The second text can be put in the place of the first: it starts a new line, or it goes on like
the first for a while and then breaks off words. -/
inductive Replaces : Text → Text → Prop
  | line (t r : Text) : Replaces t ('\n' :: r)
  | front {u : Text} (hu : u ≠ []) (t : Text) {r : Text} (hr : breaks r = true) :
      Replaces (u ++ t) (u ++ r)

/-- Trivia stays trivia when the text behind it is replaced. -/
lemma Trivia.replace {u before behind r : Text} (h : Trivia u (before ++ behind))
    (hr : Replaces behind r) : Trivia u (before ++ r) := by
  have hhead : ∀ c ∈ (before ++ r).head?, c = '\n' ∨ c ∈ (before ++ behind).head? := by
    cases before with
    | cons d before => simp
    | nil =>
      cases hr with
      | line t r => simp
      | front hx t _ =>
        obtain ⟨d, x, rfl⟩ := List.exists_cons_of_ne_nil hx
        simp
  cases h with
  | blanks hne hu => exact .blanks hne hu
  | hash hu ht => exact .hash hu fun c hc => (hhead c hc).elim (fun h => h) (ht c)
  | slashes hu ht => exact .slashes hu fun c hc => (hhead c hc).elim (fun h => h) (ht c)
  | block hu => exact .block hu

end Lexical

namespace Token.StandsBefore

variable {tok : Token} {before behind r : Text}

/-- A token is read as it was when the text goes on behind some piece with what breaks off words. -/
lemma continued (h : tok.StandsBefore (before ++ behind)) (hr : breaks r = true) :
    tok.StandsBefore (before ++ r) := by
  match tok, h with
  | punct _, _ => exact trivial
  | id ⟨.quoted, _⟩, h => exact h
  | id ⟨.html, _⟩, h => exact h
  | id ⟨.plain, v⟩, h =>
    refine ⟨h.1, fun w hw hprefix => h.2 w hw ?_⟩
    rw [← List.append_assoc] at hprefix ⊢
    have hcut : v ++ before <+: v ++ before ++ r := List.prefix_append _ _
    rcases List.prefix_or_prefix_of_prefix hprefix hcut with hshort | ⟨x, rfl⟩
    · exact hshort.trans (List.prefix_append _ _)
    · rw [List.prefix_append_right_inj] at hprefix
      cases x with
      | nil =>
        rw [List.append_nil]
        exact List.prefix_append _ _
      | cons d x =>
        -- a longer identifier would contain the first character of `r`, which breaks off words
        exfalso
        obtain ⟨s, rfl⟩ := hprefix
        have hplain := isPlain_iff.2 hw
        cases v with
        | nil => exact taken_ne_nil_of_plain (isPlain_iff_plain.1 (isPlain_iff.2 h.1)) rfl
        | cons c v =>
          rcases word_char_of_mem_tail (c := c) (d := d) hplain (by simp) with hd | rfl
          · simp [hd] at hr
          · simp at hr

/-- A token is read as it was when the text behind it is replaced. -/
lemma replace (h : tok.StandsBefore (before ++ behind)) (hr : Replaces behind r) :
    tok.StandsBefore (before ++ r) := by
  cases hr with
  | line t r => exact h.continued rfl
  | front _ t hr =>
    rw [← List.append_assoc] at h ⊢
    exact h.continued hr

end Token.StandsBefore

namespace Tokens

/-- The place parts a text whose first character has the given offset.  Scanning goes on at the
place with the part behind it, and the part before it gives the same tokens when the part behind it
is replaced. -/
structure Parts (n : Nat) (place : Tokens) (u : List Token) (before behind : Text) : Prop where
  scan_eq : place = scanFrom place.offset behind
  offset_eq : place.offset = n + before.length
  kept : ∀ r, Replaces behind r → Parallel place (scanFrom place.offset r) u
    (scanFrom n (before ++ behind)) (scanFrom n (before ++ r))

section Parts

variable {n : Nat} {place : Tokens} {u : List Token} {before behind : Text}

lemma parts_here {t : Text} (h : (scanFrom n t).offset = n) : Parts n (scanFrom n t) [] [] t where
  scan_eq := by rw [h]
  offset_eq := h
  kept r _ := by
    rw [h]
    exact .here

lemma Parts.trivia {taken : Text} (h : Parts (n + taken.length) place u before behind)
    (htaken : Trivia taken (before ++ behind)) : Parts n place u (taken ++ before) behind where
  scan_eq := h.scan_eq
  offset_eq := by rw [h.offset_eq, List.length_append, Nat.add_assoc]
  kept r hr := by
    rw [List.append_assoc, List.append_assoc, scanFrom_append_of_trivia htaken,
      scanFrom_append_of_trivia (htaken.replace hr)]
    exact h.kept r hr

lemma scanFrom_render {tok : Token} {t : Text} (h : tok.StandsBefore t) (n : Nat) :
    scanFrom n (tok.render ++ t) = .next n tok (scanFrom (n + tok.render.length) t) := by
  rw [scanFrom_eq, Piece.read_render h]

lemma Parts.token {tok : Token} (h : Parts (n + tok.render.length) place u before behind)
    (htok : tok.StandsBefore (before ++ behind)) :
    Parts n place (tok :: u) (tok.render ++ before) behind where
  scan_eq := h.scan_eq
  offset_eq := by rw [h.offset_eq, List.length_append, Nat.add_assoc]
  kept r hr := by
    rw [List.append_assoc, List.append_assoc, scanFrom_render htok,
      scanFrom_render (htok.replace hr)]
    exact .next n tok (h.kept r hr)

end Parts

/-- Every place parts the text: by induction along the pieces that are scanned before it. -/
lemma exists_parts (t : Text) (n : Nat) {place : Tokens} {u : List Token}
    (h : Reaches place u (scanFrom n t)) :
    ∃ before behind, t = before ++ behind ∧ Parts n place u before behind := by
  have hscan := scanFrom_eq n t
  cases hread : Piece.read t with
  | trivia cut =>
    simp only [hread] at hscan
    rw [hscan] at h
    have htrivia := Piece.trivia_of_read hread
    have hlt := Piece.length_lt_of_trivia hread
    obtain ⟨before, behind, hrest, hparts⟩ := exists_parts cut.rest _ h
    have hwhole := whole_of_trivia htrivia
    have htaken := trivia_taken htrivia
    rw [Cut.whole, hrest, ← List.append_assoc] at hwhole
    rw [hrest] at htaken
    exact ⟨cut.taken ++ before, behind, hwhole.symm, hparts.trivia htaken⟩
  | token tok rest =>
    simp only [hread] at hscan
    rw [hscan] at h
    cases h with
    | here =>
      rw [← hscan]
      exact ⟨[], t, rfl, parts_here (by rw [hscan]; rfl)⟩
    | next _ _ h =>
      have hlt := Piece.length_lt_of_token hread
      obtain ⟨before, behind, rfl, hparts⟩ := exists_parts rest _ h
      refine ⟨tok.render ++ before, behind, ?_, hparts.token (Piece.standsBefore_of_read hread)⟩
      rw [List.append_assoc]
      exact Piece.eq_render_of_read hread
  | stop why =>
    simp only [hread] at hscan
    rw [hscan] at h
    cases h
    rw [← hscan]
    exact ⟨[], t, rfl, parts_here (by rw [hscan]; rfl)⟩
termination_by t.length

lemma le_offset_of_reaches {t : Text} {n : Nat} {place : Tokens} {u : List Token}
    (h : Reaches place u (scanFrom n t)) : n ≤ place.offset := by
  obtain ⟨before, behind, -, hparts⟩ := exists_parts t n h
  rw [hparts.offset_eq]
  exact Nat.le_add_right _ _

/-- No trivia stands at a place: the token would start behind it. -/
lemma Parts.trivia_eq_none {n : Nat} {place : Tokens} {u : List Token} {before behind : Text}
    (h : Parts n place u before behind) : Lexical.trivia behind = none := by
  cases htrivia : Lexical.trivia behind with
  | none => rfl
  | some cut =>
    exfalso
    have hread : Piece.read behind = .trivia cut := by simp [Piece.read, htrivia]
    have hscan := scanFrom_eq place.offset behind
    simp only [hread, ← h.scan_eq] at hscan
    have hhere : Reaches place [] (scanFrom (place.offset + cut.taken.length) cut.rest) := by
      rw [← hscan]
      exact .here
    have hle := le_offset_of_reaches hhere
    have hpos := List.length_pos_iff.2 (taken_ne_nil_of_trivia htrivia)
    omega

/-- The places of a text come in the order of their offsets. -/
lemma beyond_of_reaches {source : Text} {m : Nat} {tok : Token} {rest : Tokens} {u : List Token}
    (h : Reaches (.next m tok rest) u (ofText source)) : Beyond m rest := by
  obtain ⟨before, behind, -, hparts⟩ := exists_parts source 0 h
  have hscan : .next m tok rest = scanFrom m behind := hparts.scan_eq
  have heq := scanFrom_eq m behind
  rw [← hscan] at heq
  cases hread : Piece.read behind with
  | trivia cut => exact absurd (Piece.trivia_of_read hread) (by simp [hparts.trivia_eq_none])
  | token tok' behind' =>
    simp only [hread, next.injEq] at heq
    obtain ⟨-, rfl, rfl⟩ := heq
    intro place v hplace
    have hle := le_offset_of_reaches hplace
    have hpos := List.length_pos_iff.2 (Piece.render_ne_nil_of_read hread)
    omega
  | stop why => simp [hread] at heq

/-- Cutting a text at a place and going on in a new line keeps the tokens before the place. -/
lemma alike_cut {source : Text} {place : Tokens} {u : List Token}
    (h : Reaches place u (ofText source)) (r : Text) :
    (ofText (source.take place.offset ++ '\n' :: r)).toList = u ++ (ofText ('\n' :: r)).toList ∧
      (ofText (source.take place.offset ++ '\n' :: r)).why = (ofText ('\n' :: r)).why := by
  obtain ⟨before, behind, rfl, hparts⟩ := exists_parts source 0 h
  have hreaches := (hparts.kept _ (.line behind r)).right
  obtain ⟨hlist, hwhy⟩ := alike_scanFrom place.offset 0 ('\n' :: r)
  rw [hparts.offset_eq, Nat.zero_add, List.take_left, ofText, ofText, hreaches.toList_eq,
    hreaches.why_eq, hlist, hwhy]
  exact ⟨rfl, rfl⟩

end Tokens

end DotNotation
