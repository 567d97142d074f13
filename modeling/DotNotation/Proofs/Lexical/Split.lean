/-
# Splitting a text into trivia and tokens

A text is split into pieces: runs of blanks, comments, and tokens.  `Splits` says so without
reference to a scanner.  A plain identifier must be a longest match, a line comment must reach
the end of its line, and a block comment must end at the first place where it can; nothing
else restricts what may stand next to what.  The main results are

* `splits_iff`: a text splits into a list of tokens exactly when scanning ends at the end of
  the text and gives this list, so there is at most one way to split a text;
* `standsBefore_of_read`: what scanning reads as a token can stand where it was read.
-/
import DotNotation.Proofs.Lexical.LongestMatch
import DotNotation.Proofs.Lexical.Enclosed
import DotNotation.Token

namespace DotNotation

namespace Lexical

/-! ## Trivia -/

/-- Is the whole text a run of blanks? -/
def isBlankRun (t : Text) : Bool := (blankRun t).rest.isEmpty

/-- Spaces, tabs, line feeds, and line feeds with a carriage return before them. -/
inductive IsBlank : Text → Prop
  | nil : IsBlank []
  | space {t : Text} (ht : IsBlank t) : IsBlank (' ' :: t)
  | tab {t : Text} (ht : IsBlank t) : IsBlank ('\t' :: t)
  | line {t : Text} (ht : IsBlank t) : IsBlank ('\n' :: t)
  | returned {t : Text} (ht : IsBlank t) : IsBlank ('\r' :: '\n' :: t)

/-- The first piece is trivia when the second follows it. -/
inductive Trivia : Text → Text → Prop
  | blanks {u t : Text} (hne : u ≠ []) (hu : IsBlank u) : Trivia u t
  | hash {u t : Text} (hu : '\n' ∉ u) (ht : ∀ c ∈ t.head?, c = '\n') : Trivia ('#' :: u) t
  | slashes {u t : Text} (hu : '\n' ∉ u) (ht : ∀ c ∈ t.head?, c = '\n') :
      Trivia ('/' :: '/' :: u) t
  | block {u t : Text} (hu : ¬ ['*', '/'] <:+: u ++ ['*']) :
      Trivia ('/' :: '*' :: (u ++ ['*', '/'])) t

lemma blankRun_append {u : Text} (hu : isBlankRun u = true) (t : Text) :
    blankRun (u ++ t) = ⟨u ++ (blankRun t).taken, (blankRun t).rest⟩ := by
  rw [isBlankRun, List.isEmpty_iff] at hu
  fun_induction blankRun u with
  | case1 cs ih => simp [blankRun, ih hu, Cut.cons]
  | case2 cs ih => simp [blankRun, ih hu, Cut.cons]
  | case3 cs ih => simp [blankRun, ih hu, Cut.cons]
  | case4 cs ih => simp [blankRun, ih hu, Cut.cons]
  | case5 cs =>
    subst hu
    simp

lemma isBlankRun_taken (t : Text) : isBlankRun (blankRun t).taken = true := by
  rw [isBlankRun, List.isEmpty_iff]
  fun_induction blankRun t with
  | case1 cs ih => simpa [blankRun] using ih
  | case2 cs ih => simpa [blankRun] using ih
  | case3 cs ih => simpa [blankRun] using ih
  | case4 cs ih => simpa [blankRun] using ih
  | case5 cs => rfl

lemma isBlankRun_iff {u : Text} : isBlankRun u = true ↔ IsBlank u := by
  rw [isBlankRun, List.isEmpty_iff]
  constructor
  · intro h
    fun_induction blankRun u with
    | case1 cs ih => exact .space (ih h)
    | case2 cs ih => exact .tab (ih h)
    | case3 cs ih => exact .line (ih h)
    | case4 cs ih => exact .returned (ih h)
    | case5 cs =>
      subst h
      exact .nil
  · intro h
    induction h with
    | nil => rfl
    | space _ ih => exact ih
    | tab _ ih => exact ih
    | line _ ih => exact ih
    | returned _ ih => exact ih

lemma restOfLine_append {u t : Text} (hu : '\n' ∉ u) (ht : ∀ c ∈ t.head?, c = '\n') :
    restOfLine (u ++ t) = ⟨u, t⟩ := by
  have hline : ∀ c ∈ u, (c != '\n') = true := by
    intro c hc
    simp only [bne_iff_ne]
    rintro rfl
    exact hu hc
  have hspan : Cut.span (· != '\n') t = ⟨[], t⟩ := by
    cases t with
    | nil => rfl
    | cons c cs =>
      obtain rfl := ht c (by simp)
      rfl
  rw [restOfLine, span_append hline, hspan, List.append_nil]

lemma head?_rest_restOfLine (t : Text) : ∀ c ∈ (restOfLine t).rest.head?, c = '\n' := by
  intro c hc
  have h := List.head?_dropWhile_not (· != '\n') t
  rw [show (restOfLine t).rest = t.dropWhile (· != '\n') from rfl, Option.mem_def] at hc
  rw [hc] at h
  simpa using h

lemma not_mem_taken_restOfLine (t : Text) : '\n' ∉ (restOfLine t).taken := by
  intro h
  simpa using mem_taken_span h

/-- A block comment ends at the first place where it can. -/
lemma closeComment_append {u : Text} (hu : ¬ ['*', '/'] <:+: u ++ ['*']) (t : Text) :
    closeComment (u ++ '*' :: '/' :: t) = some ⟨u ++ ['*', '/'], t⟩ := by
  induction u with
  | nil => rfl
  | cons c u ih =>
    rw [List.cons_append, List.infix_cons_iff, not_or] at hu
    -- the comment does not end before its first character
    have hnot : ∀ cs, c = '*' → u ++ '*' :: '/' :: t = '/' :: cs → False := by
      rintro cs rfl hcs
      cases u with
      | nil => simp at hcs
      | cons d u =>
        obtain ⟨rfl, -⟩ := List.cons.inj hcs
        exact hu.1 ⟨u ++ ['*'], rfl⟩
    rw [List.cons_append, closeComment.eq_2 _ _ hnot, ih hu.2]
    rfl

lemma exists_of_closeComment {t : Text} {cut : Cut} (h : closeComment t = some cut) :
    ∃ u, cut.taken = u ++ ['*', '/'] ∧ ¬ ['*', '/'] <:+: u ++ ['*'] := by
  fun_induction closeComment t generalizing cut with
  | case1 cs =>
    cases h
    exact ⟨[], rfl, by decide⟩
  | case2 c cs hnot ih =>
    obtain ⟨inner, hi, rfl⟩ := Option.map_eq_some_iff.1 h
    obtain ⟨u, hu, hfirst⟩ := ih hi
    refine ⟨c :: u, by simp [hu], ?_⟩
    rw [List.cons_append, List.infix_cons_iff]
    rintro (⟨s, hs⟩ | hin)
    · -- the comment would have ended right here
      obtain ⟨rfl, htail⟩ := List.cons.inj hs
      have hwhole := whole_of_closeComment hi
      rw [Cut.whole, hu] at hwhole
      cases u with
      | nil => simp at htail
      | cons d u =>
        obtain ⟨rfl, -⟩ := List.cons.inj htail
        exact hnot _ rfl hwhole.symm
    · exact hfirst hin
  | case3 => cases h

/-! ## Trivia and the scanner for trivia -/

lemma blankRun_of_comment_start {c : Char} (hc : c = '#' ∨ c = '/') (t : Text) :
    blanks (c :: t) = none := by
  rcases hc with rfl | rfl <;> simp [blanks, blankRun]

/-- The scanner takes a comment that stands at the front of a text. -/
lemma trivia_append {u t : Text} (h : Trivia u t) :
    trivia (u ++ t) = some ⟨u, t⟩ ∨ isBlankRun u = true ∧ u ≠ [] := by
  cases h with
  | blanks hne hu => exact Or.inr ⟨isBlankRun_iff.2 hu, hne⟩
  | @hash u t hu ht =>
    left
    rw [List.cons_append, trivia, blankRun_of_comment_start (Or.inl rfl)]
    simp [comment, restOfLine_append hu ht, Cut.cons]
  | @slashes u t hu ht =>
    left
    rw [List.cons_append, List.cons_append, trivia, blankRun_of_comment_start (Or.inr rfl)]
    simp [comment, restOfLine_append hu ht, Cut.cons]
  | @block u t hu =>
    left
    have hclose := closeComment_append hu t
    rw [List.cons_append, List.cons_append, trivia, blankRun_of_comment_start (Or.inr rfl)]
    simp [comment, hclose, Cut.cons]

/-- What the scanner takes as trivia is trivia. -/
lemma trivia_taken {t : Text} {cut : Cut} (h : trivia t = some cut) :
    Trivia cut.taken cut.rest := by
  have hne := taken_ne_nil_of_trivia h
  unfold trivia at h
  split at h
  · rename_i hb
    cases h
    unfold blanks at hb
    split at hb
    · cases hb
    · cases hb
      exact .blanks hne (isBlankRun_iff.1 (isBlankRun_taken t))
  · unfold comment at h
    split at h
    · cases h
      exact .hash (not_mem_taken_restOfLine _) (head?_rest_restOfLine _)
    · cases h
      exact .slashes (not_mem_taken_restOfLine _) (head?_rest_restOfLine _)
    · obtain ⟨inner, hi, rfl⟩ := Option.map_eq_some_iff.1 h
      obtain ⟨u, hu, hfirst⟩ := exists_of_closeComment hi
      simp only [Cut.taken_cons, Cut.rest_cons, hu]
      exact .block hfirst
    · cases h

end Lexical

open Lexical

/-! ## Tokens -/

namespace Token

/-- The token of a bare word. -/
def word (t : Text) : Token := id ⟨.plain, t⟩

/-- Is the token written as it is meant? -/
def isValid : Token → Bool
  | punct _ => true
  | id name => name.isValid

/-- The token can be read off a text that goes on with the given text. -/
def StandsBefore : Token → Text → Prop
  | punct _, _ => True
  | id ⟨.plain, v⟩, t => IsPlain v ∧ ∀ w, IsPlain w → w <+: v ++ t → w.length ≤ v.length
  | id ⟨.quoted, v⟩, _ => IsQuoted v
  | id ⟨.html, v⟩, _ => IsLabel v

lemma StandsBefore.isValid {tok : Token} {t : Text} (h : tok.StandsBefore t) :
    tok.isValid = true := by
  match tok, h with
  | punct _, _ => rfl
  | id ⟨.plain, _⟩, h => exact isPlain_iff.2 h.1
  | id ⟨.quoted, _⟩, h => exact isQuotedBody_iff.2 h
  | id ⟨.html, _⟩, h => exact isLabelBody_iff.2 h

/-- Before a text that breaks off words every token can stand that is written as it is meant. -/
lemma standsBefore_of_breaks {tok : Token} {t : Text} (h : tok.isValid = true)
    (ht : breaks t = true) : tok.StandsBefore t := by
  match tok, h with
  | punct _, _ => exact trivial
  | id ⟨.plain, _⟩, h => exact plain_eq_some_iff.1 (plain_append h ht)
  | id ⟨.quoted, _⟩, h => exact isQuotedBody_iff.1 h
  | id ⟨.html, _⟩, h => exact isLabelBody_iff.1 h

end Token

/-- The text splits into trivia and the given tokens. -/
inductive Splits : Text → List Token → Prop
  | nil : Splits [] []
  | trivia {u t : Text} {toks : List Token} (hu : Trivia u t) (ht : Splits t toks) :
      Splits (u ++ t) toks
  | token {t : Text} {tok : Token} {toks : List Token} (hk : tok.StandsBefore t)
      (ht : Splits t toks) : Splits (tok.render ++ t) (tok :: toks)

/-! ## One token -/

lemma exists_of_magnitude {t : Text} {cut : Cut} (h : magnitude t = some cut) :
    ∃ c cs, t = c :: cs ∧ (c.isDigit = true ∨ c = '.') := by
  have hne := taken_ne_nil_of_magnitude h
  have hw := whole_of_magnitude h
  obtain ⟨taken, rest⟩ := cut
  cases taken with
  | nil => exact absurd rfl hne
  | cons c cs => exact ⟨c, cs ++ rest, hw.symm, digit_or_point_of_magnitude h c (by simp)⟩

/-- How a plain identifier starts. -/
lemma exists_of_plain {t : Text} {cut : Cut} (h : plain t = some cut) :
    ∃ c cs, t = c :: cs ∧ (isWordStart c = true ∨ c.isDigit = true ∨ c = '.' ∨
      c = '-' ∧ ∃ d ds, cs = d :: ds ∧ (d.isDigit = true ∨ d = '.')) := by
  cases hw : word t with
  | some w =>
    obtain ⟨c, cs, hc, ht, -⟩ := exists_of_word hw
    exact ⟨c, cs, ht, Or.inl hc⟩
  | none =>
    rw [plain_of_not_word hw] at h
    unfold number at h
    split at h
    · rename_i cs
      obtain ⟨inner, hi, -⟩ := Option.map_eq_some_iff.1 h
      exact ⟨'-', cs, rfl, Or.inr (Or.inr (Or.inr ⟨rfl, exists_of_magnitude hi⟩))⟩
    · obtain ⟨c, cs, ht, hc⟩ := exists_of_magnitude h
      rcases hc with hc | hc
      · exact ⟨c, cs, ht, Or.inr (Or.inl hc)⟩
      · exact ⟨c, cs, ht, Or.inr (Or.inr (Or.inl hc))⟩

namespace Piece

/-- A plain identifier starts like no other piece. -/
lemma read_of_plain {t : Text} {cut : Cut} (h : plain t = some cut) :
    read t = token (.id ⟨.plain, cut.taken⟩) cut.rest := by
  obtain ⟨c, cs, rfl, hc⟩ := exists_of_plain h
  -- the characters with which the other pieces start
  have hne : ∀ x ∈ [' ', '\t', '\n', '\r', '#', '/', '"', '<', '{', '}', '[', ']', ';', ',', ':',
      '='], c ≠ x := by
    rintro x hx rfl
    have hx' : isWordStart c = false ∧ c.isDigit = false ∧ c ≠ '.' ∧ c ≠ '-' := by
      simp only [List.mem_cons, List.not_mem_nil, or_false] at hx
      rcases hx with rfl | rfl | rfl | rfl | rfl | rfl | rfl | rfl | rfl | rfl | rfl | rfl | rfl |
        rfl | rfl | rfl <;> decide
    rcases hc with hc | hc | hc | hc
    · exact absurd hc (by simp [hx'.1])
    · exact absurd hc (by simp [hx'.2.1])
    · exact hx'.2.2.1 hc
    · exact hx'.2.2.2 hc.1
  simp only [List.mem_cons, List.not_mem_nil, or_false, forall_eq_or_imp, forall_eq] at hne
  have htrivia : Lexical.trivia (c :: cs) = none := by
    simp [Lexical.trivia, blanks, blankRun, comment, hne]
  have hpunct : Punct.read? (c :: cs) = none := by
    cases hp : Punct.read? (c :: cs) with
    | none => rfl
    | some found =>
      exfalso
      obtain ⟨p, rest⟩ := found
      have ht := Punct.eq_of_read? hp
      -- only the two signs of an edge start as a number can, and they go on differently
      cases p with
      | arrow | line =>
        obtain ⟨rfl, rfl⟩ := List.cons.inj ht
        rcases hc with hc | hc | hc | ⟨-, d, ds, hd, hc⟩
        · exact absurd hc (by decide)
        · exact absurd hc (by decide)
        · exact absurd hc (by decide)
        · obtain ⟨rfl, -⟩ := List.cons.inj hd
          exact absurd hc (by decide)
      | _ => simp [Punct.text, hne] at ht
  simp [read, htrivia, hne, hpunct, h]

/-- A token is read where it can stand. -/
theorem read_render {tok : Token} {t : Text} (h : tok.StandsBefore t) :
    read (tok.render ++ t) = token tok t := by
  match tok, h with
  | .punct p, _ =>
    cases p <;> simp [Token.render, Punct.text, read, Lexical.trivia, blanks, blankRun, comment,
      Punct.read?]
  | .id ⟨.plain, v⟩, h => exact read_of_plain (plain_eq_some_iff.2 h)
  | .id ⟨.quoted, v⟩, h =>
    have hclose := closeQuote_append (isQuotedBody_iff.2 h) t
    simp [Token.render, Id.render, read, Lexical.trivia, blanks, blankRun, comment, hclose]
  | .id ⟨.html, v⟩, h =>
    have hclose := closeLabel_append (isLabelBody_iff.2 h) t
    simp [Token.render, Id.render, read, Lexical.trivia, blanks, blankRun, comment, hclose]

/-- What is read as a token can stand where it was read. -/
theorem standsBefore_of_read {t rest : Text} {tok : Token} (h : read t = token tok rest) :
    tok.StandsBefore rest := by
  unfold read at h
  split at h
  · cases h
  · split at h
    · cases h
    · split at h
      · rename_i cut hq
        cases h
        exact isQuotedBody_iff.1 (isQuotedBody_taken hq)
      · cases h
    · split at h
      · rename_i cut hl
        cases h
        exact isLabelBody_iff.1 (isLabelBody_taken hl)
      · cases h
    · split at h
      · cases h
        exact trivial
      · split at h
        · rename_i cut hp
          cases h
          -- the scanner took the longest identifier of its text
          have hw := whole_of_plain hp
          rw [← hw] at hp
          exact plain_eq_some_iff.1 hp
        · cases h

/-- Reading stops for want of text only at the end of the text. -/
lemma eq_nil_of_read {t : Text} (h : read t = stop .endOfInput) : t = [] := by
  unfold read at h
  split at h
  · cases h
  · split at h
    · rfl
    · split at h <;> cases h
    · split at h <;> cases h
    · split at h
      · cases h
      · split at h <;> cases h

end Piece

/-! ## All tokens -/

namespace Tokens

/-- The same tokens up to the same end, perhaps at other places. -/
def Alike (ts us : Tokens) : Prop := ts.toList = us.toList ∧ ts.why = us.why

lemma Alike.refl (ts : Tokens) : ts.Alike ts := ⟨rfl, rfl⟩

lemma Alike.symm {ts us : Tokens} (h : ts.Alike us) : us.Alike ts := ⟨h.1.symm, h.2.symm⟩

lemma Alike.trans {ts us vs : Tokens} (h : ts.Alike us) (h' : us.Alike vs) : ts.Alike vs :=
  ⟨h.1.trans h'.1, h.2.trans h'.2⟩

lemma Alike.next {ts us : Tokens} (h : ts.Alike us) (m n : Nat) (tok : Token) :
    (next m tok ts).Alike (next n tok us) :=
  ⟨congrArg (tok :: ·) h.1, h.2⟩

/-- Where a text starts has no influence on its tokens. -/
lemma alike_scanFrom (m n : Nat) (t : Text) : (scanFrom m t).Alike (scanFrom n t) := by
  -- the bound only limits the recursion and is the same on both sides
  have h : ∀ (bound t : Text) (m n : Nat),
      (scanWithin bound m t).Alike (scanWithin bound n t) := by
    intro bound
    induction bound with
    | nil =>
      intro t m n
      cases t <;> exact ⟨rfl, rfl⟩
    | cons b bound ih =>
      intro t m n
      unfold scanWithin
      split
      · exact ih _ _ _
      · exact (ih _ _ _).next _ _ _
      · exact ⟨rfl, rfl⟩
  exact h t t m n

lemma alike_of_trivia {t : Text} {cut : Cut} (h : trivia t = some cut) (m n : Nat) :
    (scanFrom m t).Alike (scanFrom n cut.rest) := by
  have hread : Piece.read t = .trivia cut := by simp [Piece.read, h]
  rw [scanFrom_eq, hread]
  exact alike_scanFrom _ _ _

lemma alike_of_token {t rest : Text} {tok : Token} (h : Piece.read t = .token tok rest)
    (k m n : Nat) : (scanFrom m t).Alike (next k tok (scanFrom n rest)) := by
  rw [scanFrom_eq, h]
  exact (alike_scanFrom _ _ _).next _ _ _

/-- Scanning goes on behind trivia. -/
lemma scanFrom_append_of_trivia {u t : Text} (h : Trivia u t) (n : Nat) :
    scanFrom n (u ++ t) = scanFrom (n + u.length) t := by
  have hscan : ∀ {s : Text} {cut : Cut} (m : Nat), trivia s = some cut →
      scanFrom m s = scanFrom (m + cut.taken.length) cut.rest := by
    intro s cut m hs
    have hread : Piece.read s = .trivia cut := by simp [Piece.read, hs]
    rw [scanFrom_eq, hread]
  rcases trivia_append h with h | ⟨hu, hne⟩
  · exact hscan n h
  · -- the scanner takes the blanks of `u` together with those that follow
    have hrun := blankRun_append hu t
    have hfirst : trivia (u ++ t) = some (blankRun (u ++ t)) := by
      have hne' : (blankRun (u ++ t)).taken ≠ [] := by simp [hrun, hne]
      simp [trivia, blanks, hne']
    rw [hscan n hfirst, hrun, List.length_append, ← Nat.add_assoc]
    -- blanks at the front of `t` are now gone on the left, and trivia on the right
    by_cases hnil : (blankRun t).taken = []
    · have hw := whole_blankRun t
      rw [Cut.whole, hnil, List.nil_append] at hw
      simp only [hnil, hw, List.length_nil, Nat.add_zero]
    · have hsecond : trivia t = some (blankRun t) := by simp [trivia, blanks, hnil]
      rw [hscan _ hsecond]

/-- Trivia leaves no token behind. -/
lemma alike_append_of_trivia {u t : Text} (h : Trivia u t) (m n : Nat) :
    (scanFrom m (u ++ t)).Alike (scanFrom n t) := by
  rw [scanFrom_append_of_trivia h]
  exact alike_scanFrom _ _ _

end Tokens

/-! ## Splitting and scanning agree -/

/-- Scanning finds the tokens into which a text splits. -/
lemma Splits.scanFrom {t : Text} {toks : List Token} (h : Splits t toks) (n : Nat) :
    (Tokens.scanFrom n t).toList = toks ∧ (Tokens.scanFrom n t).why = .endOfInput := by
  induction h generalizing n with
  | nil => exact ⟨rfl, rfl⟩
  | trivia hu _ ih =>
    obtain ⟨hlist, hwhy⟩ := Tokens.alike_append_of_trivia hu n 0
    rw [hlist, hwhy]
    exact ih 0
  | token hk _ ih =>
    obtain ⟨hlist, hwhy⟩ := Tokens.alike_of_token (Piece.read_render hk) 0 n 0
    rw [hlist, hwhy]
    exact ⟨congrArg _ (ih 0).1, (ih 0).2⟩

/-- A text whose tokens are all read splits into them. -/
lemma splits_of_scanFrom (t : Text) (n : Nat)
    (h : (Tokens.scanFrom n t).why = .endOfInput) : Splits t (Tokens.scanFrom n t).toList := by
  rw [Tokens.scanFrom_eq] at h ⊢
  cases hp : Piece.read t with
  | trivia cut =>
    simp only [hp] at h ⊢
    have ht := Piece.trivia_of_read hp
    have hlt := Piece.length_lt_of_trivia hp
    have hsplit := Splits.trivia (trivia_taken ht) (splits_of_scanFrom cut.rest _ h)
    have hw := whole_of_trivia ht
    rw [Cut.whole] at hw
    rwa [hw] at hsplit
  | token tok rest =>
    simp only [hp] at h ⊢
    have hlt := Piece.length_lt_of_token hp
    have hsplit := Splits.token (Piece.standsBefore_of_read hp) (splits_of_scanFrom rest _ h)
    rwa [← Piece.eq_render_of_read hp] at hsplit
  | stop why =>
    simp only [hp] at h ⊢
    obtain rfl : why = .endOfInput := h
    rw [Piece.eq_nil_of_read hp]
    exact .nil
termination_by t.length

/-- A text splits into a list of tokens exactly when scanning gives this list and ends at the
end of the text. -/
theorem splits_iff {t : Text} {toks : List Token} :
    Splits t toks ↔ (Tokens.ofText t).toList = toks ∧ (Tokens.ofText t).why = .endOfInput := by
  constructor
  · intro h
    exact h.scanFrom 0
  · rintro ⟨rfl, hwhy⟩
    exact splits_of_scanFrom t 0 hwhy

/-- All tokens that are read are written as they are meant. -/
lemma Tokens.isValid_of_mem_scanFrom (t : Text) (n : Nat) :
    ∀ tok ∈ (Tokens.scanFrom n t).toList, tok.isValid = true := by
  rw [Tokens.scanFrom_eq]
  cases hp : Piece.read t with
  | trivia cut =>
    have hlt := Piece.length_lt_of_trivia hp
    exact isValid_of_mem_scanFrom cut.rest _
  | token tok rest =>
    have hlt := Piece.length_lt_of_token hp
    intro k hk
    rcases List.mem_cons.1 hk with rfl | hk
    · exact (Piece.standsBefore_of_read hp).isValid
    · exact isValid_of_mem_scanFrom rest _ k hk
  | stop why => simp [Tokens.toList]
termination_by t.length

end DotNotation
