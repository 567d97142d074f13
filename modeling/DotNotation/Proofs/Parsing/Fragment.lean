/-
# A statement alone and in a graph

A statement is read from a text of its own exactly if it is the only one in the body of a graph
whose braces enclose the text.  Inside the graph a closing brace follows, and there is room for one
body less.  Both make no difference to tokens that do not open more bodies than they close: no
parser looks beyond them for the end of a body, and outside of bodies a closing brace is like the
end of the tokens.  `Parser.Overlooks` states this of two parsers, and `Parser.Paired.overlooks`
carries it from bodies to all that is composed of them.

A text from which a statement is read closes what it opens, and so does one that is read as the only
statement of a graph.  The main result is `Statement.parse_eq_ok_iff_enclosed`.
-/
import DotNotation.Proofs.Lexical.Closing
import DotNotation.Proofs.Parsing.Braces

namespace DotNotation

/-- The answer with a closing brace behind the tokens that are left. -/
def Answer.closed {α : Type} : Answer α → Answer α
  | found a rest => found a (rest ++ [.punct .closeBrace])
  | missing => missing
  | gaveUp cause => gaveUp cause

namespace Parser

open Token

variable {α β : Type}

/-- The second parser reads tokens with a closing brace behind them as the first reads them without,
provided that they open no more bodies than they close and need no more than the given room. -/
def Overlooks (room : Nat) (p p' : Parser α) : Prop :=
  ∀ w, surplus w ≤ 0 → nesting w ≤ room →
    p'.answer .endOfInput (w ++ [.punct .closeBrace]) = (p.answer .endOfInput w).closed

/-- A parser whose tokens close what they open leaves as many bodies to be closed as it found. -/
lemma Spans.surplus_eq {p : Parser α} (hp : p.Spans fun _ u => Closed u) {why : Stop}
    {w rest : List Token} {a : α} (h : p.answer why w = .found a rest) :
    surplus rest = surplus w ∧ nesting rest ≤ nesting w := by
  obtain ⟨u, rfl, hu⟩ := hp.answer h
  refine ⟨?_, hu.nesting_le rest⟩
  rw [surplus_append, hu.surplus_eq]
  omega

section Combinators

variable {room : Nat} {p p' q q' : Parser α} {f f' : α → Parser β}

lemma Looks.overlooks {select : Token → Option α} (h : p.Looks select)
    (hbrace : ∀ tok, tok.isBrace = true → select tok = none) : Overlooks room p p := by
  intro w _ _
  rw [answer_of_take h.reply_eq, answer_of_take h.reply_eq]
  cases w with
  | nil => simp [Answer.take, hbrace (.punct .closeBrace) rfl, Answer.closed]
  | cons tok w => cases htok : select tok <;> simp [Answer.take, htok, Answer.closed]

lemma Overlooks.bind [Uniform p] [Uniform p'] [∀ a, Uniform (f a)] [∀ a, Uniform (f' a)]
    (hp : Overlooks room p p') (hclosed : p.Spans fun _ u => Closed u)
    (hf : ∀ a, Overlooks room (f a) (f' a)) : Overlooks room (p >>= f) (p' >>= f') := by
  intro w hw hroom
  rw [answer_bind, answer_bind, hp w hw hroom]
  cases hfound : p.answer .endOfInput w with
  | found a rest =>
    obtain ⟨hsurplus, hnesting⟩ := hclosed.surplus_eq hfound
    exact hf a rest (hsurplus.trans_le hw) (hnesting.trans hroom)
  | missing => rfl
  | gaveUp cause => rfl

lemma Overlooks.orElse [Uniform p] [Uniform p'] [Uniform q] [Uniform q']
    (hp : Overlooks room p p') (hq : Overlooks room q q') :
    Overlooks room (orElse p q) (orElse p' q') := by
  intro w hw hroom
  rw [answer_orElse, answer_orElse, hp w hw hroom]
  cases p.answer .endOfInput w with
  | found a rest => rfl
  | missing => exact hq w hw hroom
  | gaveUp cause => rfl

lemma Overlooks.optional [Uniform p] [Uniform p'] (hp : Overlooks room p p') :
    Overlooks room (optional p) (optional p') := by
  intro w hw hroom
  rw [answer_optional, answer_optional, hp w hw hroom]
  cases p.answer .endOfInput w <;> rfl

/-- Two repetitions go on for the same number of rounds: by induction on the number of tokens. -/
lemma Overlooks.many [Uniform p] [Uniform p'] (hp : Overlooks room p p')
    (hclosed : p.Spans fun _ u => Closed u) (htakes : p.Takes 1) (htakes' : p'.Takes 1) :
    Overlooks room (many p) (many p') := by
  intro w hw hroom
  induction hn : w.length using Nat.strong_induction_on generalizing w with
  | _ n ih =>
    rw [answer_many htakes, answer_many htakes', hp w hw hroom]
    cases hfound : p.answer .endOfInput w with
    | found a rest =>
      obtain ⟨hsurplus, hnesting⟩ := hclosed.surplus_eq hfound
      have hrest := ih rest.length (hn ▸ htakes.length_lt hfound) rest (hsurplus.trans_le hw)
        (hnesting.trans hroom) rfl
      simp only [Answer.closed, answer_bind, hrest]
      cases (Parser.many p).answer .endOfInput rest <;> simp
    | missing => rfl
    | gaveUp cause => rfl

end Combinators

/-- If two parsers for bodies overlook a closing brace, so do two parsers that are composed alike
over them. -/
theorem Paired.overlooks {room : Nat} {b b' : Parser (List Statement)} {p p' : Parser α}
    (h : Paired b b' p p') (hcomposed : Composed b) (hcomposed' : Composed b')
    (hclosed : b.Spans fun _ u => Closed u) (hb : Overlooks room b b') : Overlooks room p p' := by
  induction h with
  | body => exact hb
  | look h _ hbrace => exact h.overlooks hbrace
  | pure a => exact fun w _ _ => by rw [answer_pure, answer_pure, Answer.closed]
  | gaveUp cause => exact fun _ _ _ => rfl
  | expected e => exact fun _ _ _ => rfl
  | bind hp hf ihp ihf =>
    obtain ⟨_, _⟩ := hp.uniform hcomposed hcomposed'
    have := fun a => ((hf a).uniform hcomposed hcomposed').1
    have := fun a => ((hf a).uniform hcomposed hcomposed').2
    exact ihp.bind (hp.spans_closed hclosed) ihf
  | orElse hp hq ihp ihq =>
    obtain ⟨_, _⟩ := hp.uniform hcomposed hcomposed'
    obtain ⟨_, _⟩ := hq.uniform hcomposed hcomposed'
    exact ihp.orElse ihq
  | optional hp ih =>
    obtain ⟨_, _⟩ := hp.uniform hcomposed hcomposed'
    exact ih.optional
  | within rule hp ih =>
    obtain ⟨_, _⟩ := hp.uniform hcomposed hcomposed'
    intro w hw hroom
    rw [answer_within, answer_within]
    exact ih w hw hroom
  | many hp htakes htakes' ih =>
    obtain ⟨_, _⟩ := hp.uniform hcomposed hcomposed'
    exact ih.many (hp.spans_closed hclosed) htakes htakes'

end Parser

namespace Grammar

open DotNotation.Parser Token

/-! ## Bodies -/

/-- Behind the opening brace of a body stand its statements and the closing brace. -/
lemma answer_body_cons (room : Nat) (why : Stop) (w : List Token) :
    (body (room + 1)).answer why (.punct .openBrace :: w) =
      (many (terminated (body room)) >>= fun ss => punct .closeBrace >>= fun _ => pure ss).answer
        why w := by
  have hopen : openBody.answer why (.punct .openBrace :: w) = .found () w := by
    rw [answer_openBody, take_only_cons]
  rw [body, answer_within, answer_bind_found hopen]

/-- Behind its statements a body looks at the next token only. -/
lemma overlooks_closeBrace {w : List Token} (hw : w ≠ []) (ss : List Statement) :
    (punct .closeBrace >>= fun _ => pure ss).answer .endOfInput (w ++ [.punct .closeBrace]) =
      ((punct .closeBrace >>= fun _ => pure ss).answer .endOfInput w).closed := by
  obtain ⟨tok, w, rfl⟩ := List.exists_cons_of_ne_nil hw
  rw [answer_bind, answer_bind, answer_punct, answer_punct]
  by_cases htok : tok = .punct .closeBrace
  · subst htok
    simp [Answer.take, Answer.closed]
  · simp [Answer.take, only_of_ne htok, Answer.closed]

lemma overlooks_terminated {room : Nat} (h : Overlooks room (body (room + 1)) (body room)) :
    Overlooks room (terminated (body (room + 1))) (terminated (body room)) :=
  (paired_terminated (takes_body _) (takes_body _)).overlooks (composed_body _) (composed_body _)
    (spans_closed_body _) h

/-- Bodies overlook a closing brace, and one body less is room enough then: by induction on the
room.  What stands behind an opening brace closes at least one body more than it opens, so that the
closing brace of the body is among the tokens. -/
theorem overlooks_body (room : Nat) : Overlooks room (body (room + 1)) (body room) := by
  induction room with
  | zero =>
    intro w _ hroom
    have hhead : w.head? ≠ some (.punct .openBrace) := by
      intro hw
      obtain ⟨w, rfl⟩ := List.head?_eq_some_iff.1 hw
      simp [nesting] at hroom
    rw [body_missing 1 hhead, body_missing 0 (by cases w <;> simp_all)]
    rfl
  | succ room ih =>
    intro w hw hroom
    by_cases hhead : w.head? = some (.punct .openBrace)
    · obtain ⟨w, rfl⟩ := List.head?_eq_some_iff.1 hhead
      simp only [surplus_openBrace, nesting] at hw hroom
      have hclosed := spans_closed_terminated (room + 1)
      have hmany : Overlooks room (many (terminated (body (room + 1))))
          (many (terminated (body room))) :=
        (overlooks_terminated ih).many hclosed (takes_terminated (takes_body (room + 1)))
          (takes_terminated (takes_body room))
      rw [List.cons_append, answer_body_cons, answer_body_cons, answer_bind, answer_bind,
        hmany w (by omega) (by omega)]
      cases hfound : (many (terminated (body (room + 1)))).answer .endOfInput w with
      | found ss rest =>
        have hrest : rest ≠ [] := by
          rintro rfl
          have hsurplus := ((spans_closed_many hclosed).surplus_eq hfound).1
          rw [surplus_nil] at hsurplus
          omega
        exact overlooks_closeBrace hrest ss
      | missing => rfl
      | gaveUp cause => rfl
    · rw [body_missing _ hhead, body_missing _ (by cases w <;> simp_all)]
      rfl

/-! ## One statement -/

lemma answer_many_singleton_iff {α : Type} {p : Parser α} [Uniform p] (htakes : p.Takes 1)
    {why : Stop} {w rest : List Token} {a : α} :
    (many p).answer why w = .found [a] rest ↔
      p.answer why w = .found a rest ∧ p.answer why rest = .missing := by
  constructor
  · intro h
    rw [answer_many htakes] at h
    cases hfound : p.answer why w with
    | found b mid =>
      simp only [hfound, answer_bind] at h
      cases hmore : (many p).answer why mid with
      | found as last =>
        simp only [hmore, answer_pure, Answer.found.injEq, List.cons.injEq] at h
        obtain ⟨⟨rfl, rfl⟩, rfl⟩ := h
        obtain ⟨hmissing, rfl⟩ := rest_eq_of_many_nil htakes hmore
        exact ⟨rfl, hmissing⟩
      | missing => simp [hmore] at h
      | gaveUp cause => simp [hmore] at h
    | missing => simp [hfound] at h
    | gaveUp cause => simp [hfound] at h
  · rintro ⟨hfound, hmissing⟩
    exact answer_many_found htakes hfound (answer_many_missing htakes hmissing)

/-- One statement is read from tokens exactly if it is read from them with a closing brace behind
them, in less room. -/
lemma answer_terminated_iff {room : Nat} {w : List Token} (hroom : nesting w ≤ room)
    (s : Statement) :
    (terminated (body (room + 1))).answer .endOfInput w = .found s [] ↔
      (terminated (body room)).answer .endOfInput (w ++ [.punct .closeBrace]) =
        .found s [.punct .closeBrace] := by
  have hoverlooks := overlooks_terminated (overlooks_body room)
  constructor
  · intro h
    have hsurplus := ((spans_closed_terminated (room + 1)).surplus_eq h).1
    rw [surplus_nil] at hsurplus
    rw [hoverlooks w (by omega) hroom, h]
    rfl
  · intro h
    have hsurplus := ((spans_closed_terminated room).surplus_eq h).1
    rw [surplus_append] at hsurplus
    rw [hoverlooks w (by omega) hroom] at h
    cases hfound : (terminated (body (room + 1))).answer .endOfInput w with
    | found s' rest =>
      simp only [hfound, Answer.closed, Answer.found.injEq, List.append_left_eq_self] at h
      rw [h.1, h.2]
    | missing => simp [hfound, Answer.closed] at h
    | gaveUp cause => simp [hfound, Answer.closed] at h

/-! ## The two entry points -/

/-- What is read to the end leaves no token, and scanning reached the end of the text. -/
lemma answer_finished_iff {α : Type} {p : Parser α} [Uniform p] {why : Stop} {w rest : List Token}
    {a : α} : (p >>= fun a => finished >>= fun _ => pure a).answer why w = .found a rest ↔
      (p.answer why w = .found a [] ∧ why = .endOfInput) ∧ rest = [] := by
  rw [answer_bind]
  cases p.answer why w with
  | found b mid =>
    simp only [answer_bind, answer_finished]
    by_cases h : mid = [] ∧ why = .endOfInput
    · simp [h, eq_comm]
    · rw [if_neg h]
      simp only [reduceCtorEq, Answer.found.injEq, false_iff]
      exact fun hfound => h ⟨hfound.1.1.2, hfound.1.2⟩
  | missing => simp
  | gaveUp cause => simp

/-- Behind the words of an unnamed graph its body is read. -/
lemma answer_graph_unnamed (why : Stop) (w : List Token) :
    graph.answer why (.word Keyword.graph.word :: .punct .openBrace :: w) =
      (body maxNesting >>= fun ss => pure ⟨false, false, none, ss⟩).answer why
        (.punct .openBrace :: w) := by
  have hne : Keyword.graph.word ≠ Keyword.strict.word := by decide
  have hstrict : (keyword .strict).answer why
      (.word Keyword.graph.word :: .punct .openBrace :: w) = .missing :=
    answer_keyword_missing (by simpa [Token.word] using hne)
  have hkind : kind.answer why (.word Keyword.graph.word :: .punct .openBrace :: w) =
      .found false (.punct .openBrace :: w) := answer_kind false _
  have hname : (optional id).answer why (.punct .openBrace :: w) =
      .found none (.punct .openBrace :: w) := answer_optional_missing (answer_id_missing (by simp))
  rw [graph_eq, answer_within, answer_bind_found (answer_optional_missing hstrict),
    answer_bind_found hkind, answer_bind_found hname]
  rfl

/-- A graph without a name has the statements that stand between its braces. -/
lemma exists_answer_graph_iff {room : Nat} (hmax : maxNesting = room + 1) (why : Stop)
    (w rest : List Token) (ss : List Statement) :
    (∃ g, graph.answer why (.word Keyword.graph.word :: .punct .openBrace :: w) = .found g rest ∧
        g.body = ss) ↔
      (many (terminated (body room))).answer why w = .found ss (.punct .closeBrace :: rest) := by
  rw [answer_graph_unnamed, hmax, answer_bind, answer_body_cons, answer_bind]
  cases (many (terminated (body room))).answer why w with
  | found ss' mid =>
    simp only [answer_bind, answer_punct]
    rcases mid with _ | ⟨tok, mid⟩
    · simp [Answer.take]
    by_cases htok : tok = .punct .closeBrace
    · subst htok
      simp only [Answer.take, only_self, Option.elim_some, answer_pure, Answer.found.injEq]
      constructor
      · rintro ⟨_, ⟨rfl, rfl⟩, rfl⟩
        exact ⟨rfl, rfl⟩
      · rintro ⟨rfl, hrest⟩
        cases hrest
        exact ⟨_, ⟨rfl, rfl⟩, rfl⟩
    · simp [Answer.take, only_of_ne htok, htok]
  | missing => simp
  | gaveUp cause => simp

/-- A text with the words and the opening brace of an unnamed graph before it. -/
lemma alike_graph_unnamed (t : Text) :
    (Tokens.ofText ("graph \x7b".toList ++ t)).Alike
      (.next 0 (.word Keyword.graph.word) (.next 0 (.punct .openBrace) (Tokens.ofText t))) := by
  have hspace : Lexical.Trivia [' '] ('{' :: t) := .blanks (by simp) (.space .nil)
  have hword : (Token.word Keyword.graph.word).StandsBefore (' ' :: '{' :: t) :=
    standsBefore_of_breaks (by decide) rfl
  have hbrace : (Token.punct .openBrace).StandsBefore t := trivial
  have hfirst := Tokens.alike_of_token (Piece.read_render hword) 0 0 0
  have hsecond := (Tokens.alike_append_of_trivia hspace 0 0).trans
    (Tokens.alike_of_token (Piece.read_render hbrace) 0 0 0)
  exact hfirst.trans (hsecond.next 0 0 _)

end Grammar

open DotNotation.Parser Grammar

/-- A statement is read from a text of its own if no token is left behind it. -/
lemma Statement.parse_eq_ok_iff {s : Text} {st : Statement} :
    Statement.parse s = .ok st ↔
      (terminated (body maxNesting)).answer (Tokens.ofText s).why (Tokens.ofText s).toList =
        .found st [] ∧ (Tokens.ofText s).why = .endOfInput := by
  rw [Statement.parse, result_eq_ok_iff]
  unfold fragment
  simp only [answer_within, answer_finished_iff, exists_eq_right]

/-- A statement is the only one of an unnamed graph if nothing but a closing brace is left behind
it. -/
lemma Graph.exists_parse_unnamed_iff {room : Nat} (hmax : maxNesting = room + 1) {t : Text}
    {st : Statement} :
    (∃ g, Graph.parse ("graph \x7b".toList ++ t) = .ok g ∧ g.body = [st]) ↔
      (terminated (Grammar.body room)).answer (Tokens.ofText t).why (Tokens.ofText t).toList =
        .found st [.punct .closeBrace] ∧ (Tokens.ofText t).why = .endOfInput := by
  obtain ⟨hlist, hwhy⟩ := alike_graph_unnamed t
  have htakes := takes_terminated (takes_body room)
  have hstatements :=
    exists_answer_graph_iff hmax (Tokens.ofText t).why (Tokens.ofText t).toList [] [st]
  rw [answer_many_singleton_iff htakes, and_iff_left (terminated_missing room)] at hstatements
  rw [← hstatements]
  simp only [Graph.parse, result_eq_ok_iff, hlist, hwhy, Tokens.toList, Tokens.why]
  unfold file
  simp only [answer_within, answer_finished_iff, exists_eq_right]
  constructor
  · rintro ⟨g, ⟨hg, hend⟩, hbody⟩
    exact ⟨⟨g, hg, hbody⟩, hend⟩
  · rintro ⟨⟨g, hg, hbody⟩, hend⟩
    exact ⟨g, ⟨hg, hend⟩, hbody⟩

/-- The two entry points agree.  A statement is read from a text of its own exactly if it is the
whole body of the graph that has the text between its braces, provided that the text leaves room for
one more body. -/
theorem Statement.parse_eq_ok_iff_enclosed {s : Text} (hnesting : s.nesting < maxNesting)
    (st : Statement) :
    Statement.parse s = .ok st ↔
      ∃ g, Graph.parse ("graph \x7b".toList ++ s ++ " \n\x7d".toList) = .ok g ∧
        g.body = [st] := by
  obtain ⟨room, hmax⟩ : ∃ room, maxNesting = room + 1 := ⟨119, rfl⟩
  have hroom : Token.nesting (Tokens.ofText s).toList ≤ room := by
    rw [hmax] at hnesting
    exact Nat.lt_succ_iff.1 hnesting
  rw [Statement.parse_eq_ok_iff, List.append_assoc, Graph.exists_parse_unnamed_iff hmax, hmax]
  by_cases hwhy : (Tokens.ofText s).why = .endOfInput
  · obtain ⟨hlist, hend⟩ := splits_iff.1 (splits_iff.2 ⟨rfl, hwhy⟩ : Splits s _).closing
    rw [hlist, hend, hwhy, answer_terminated_iff hroom]
  · have hclosing := mt Tokens.why_of_closing hwhy
    simp only [hwhy, hclosing, and_false]

/-- A chain with a body in it, with a semicolon and a comment that ends with the text. -/
theorem Statement.parse_eq_ok_iff_enclosed_chain :
    ∃ st g, Statement.parse "a -> \x7bb; c\x7d [d=\"\x7d\"] ; // \x7d".toList = .ok st ∧
      Graph.parse "graph \x7ba -> \x7bb; c\x7d [d=\"\x7d\"] ; // \x7d \n\x7d".toList = .ok g ∧
      g.body = [st] := by
  have hnesting : Text.nesting "a -> \x7bb; c\x7d [d=\"\x7d\"] ; // \x7d".toList < maxNesting := by
    decide +kernel
  have hok : (Statement.parse "a -> \x7bb; c\x7d [d=\"\x7d\"] ; // \x7d".toList).isOk = true := by
    decide +kernel
  cases hparse : Statement.parse "a -> \x7bb; c\x7d [d=\"\x7d\"] ; // \x7d".toList with
  | ok st =>
    obtain ⟨g, hg, hbody⟩ := (Statement.parse_eq_ok_iff_enclosed hnesting st).1 hparse
    exact ⟨st, g, rfl, hg, hbody⟩
  | error e =>
    rw [hparse] at hok
    cases hok

end DotNotation
