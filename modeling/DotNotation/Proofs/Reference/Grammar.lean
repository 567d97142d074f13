/-
# The grammar as a document

The grammar of documents is written down once more, as data: one expression for each rule, made
of tokens, sequence, choice, options and repetition.  It is read in two ways.

* `Parses` is the reading with ordered choice and possessive repetition.  It works on the
  characters of a text, skips trivia before every token, and gives the tree that the actions
  `Nonterminal.act` build.  `Parses.unique` says that it gives at most one result.
* `Generates` is the reading as a context-free grammar, with unordered choice, over lists of
  tokens.

Whatever is read in the first way can be derived in the second way: `Parses.generates`.
-/
import DotNotation.Proofs.Lexical.Split
import DotNotation.Syntax.Statement

namespace DotNotation.Reference

open Lexical

/-! ## Expressions and rules -/

/-- The tokens that a rule can ask for. -/
inductive Terminal where
  | punct (p : Punct)
  | keyword (k : Keyword)
  | compass (c : Compass)
  | id
  | endOfInput

/-- The rules. -/
inductive Nonterminal where
  | file
  | graph
  | body
  | statement
  | defaults
  | edge
  | arrow
  | vertex
  | subgraph
  | assign
  | node
  | nodeId
  | port
  | compass
  | attributeList

/-- The expressions on the right hand side of a rule. -/
inductive Expr where
  | terminal (k : Terminal)
  | rule (r : Nonterminal)
  | empty
  | fail
  | seq (e f : Expr)
  | choice (e f : Expr)
  | opt (e : Expr)
  | star (e : Expr)

namespace Expr

/-- Expressions one after the other. -/
def sequence : List Expr → Expr
  | [] => empty
  | e :: es => seq e (sequence es)

/-- Expressions of which the first is preferred. -/
def firstOf : List Expr → Expr
  | [] => fail
  | e :: es => choice e (firstOf es)

/-- An expression once or more often. -/
def plus (e : Expr) : Expr := seq e (star e)

/-- A punctuation token. -/
def punct (p : Punct) : Expr := terminal (.punct p)

/-- A keyword. -/
def keyword (k : Keyword) : Expr := terminal (.keyword k)

/-- An identifier. -/
def id : Expr := terminal .id

end Expr

/-- The right hand sides of the rules. -/
def Nonterminal.expr : Nonterminal → Expr
  | file => .sequence [.rule graph, .terminal .endOfInput]
  | graph =>
    .sequence [.opt (.keyword .strict), .firstOf [.keyword .graph, .keyword .digraph], .opt .id,
      .rule body]
  | body =>
    .sequence [.punct .openBrace,
      .star (.sequence [.rule statement, .opt (.punct .semicolon)]),
      .punct .closeBrace]
  | statement =>
    .firstOf [.rule defaults, .rule edge, .rule subgraph, .rule assign, .rule node]
  | defaults =>
    .sequence [.firstOf [.keyword .graph, .keyword .node, .keyword .edge], .rule attributeList]
  | edge =>
    .sequence [.rule vertex, .plus (.sequence [.rule arrow, .rule vertex]),
      .opt (.rule attributeList)]
  | arrow => .firstOf [.punct .arrow, .punct .line]
  | vertex => .firstOf [.rule subgraph, .rule nodeId]
  | subgraph => .sequence [.opt (.sequence [.keyword .subgraph, .opt .id]), .rule body]
  | assign => .sequence [.id, .punct .equals, .id]
  | node => .sequence [.rule nodeId, .opt (.rule attributeList)]
  | nodeId => .sequence [.id, .opt (.rule port)]
  | port =>
    .sequence [.punct .colon, .id, .opt (.sequence [.punct .colon, .rule compass])]
  | compass => .firstOf (Compass.all.map fun c => .terminal (.compass c))
  | attributeList =>
    .plus (.sequence [.punct .openBracket,
      .star (.sequence [.rule assign, .opt (.firstOf [.punct .semicolon, .punct .comma])]),
      .punct .closeBracket])

/-- An attribute inside brackets, with the separator that may follow it. -/
def itemExpr : Expr :=
  .sequence [.rule .assign, .opt (.firstOf [.punct .semicolon, .punct .comma])]

/-- The attributes between one pair of brackets. -/
def groupExpr : Expr := .sequence [.punct .openBracket, .star itemExpr, .punct .closeBracket]

/-- One step along a chain of vertices. -/
def hopExpr : Expr := .sequence [.rule .arrow, .rule .vertex]

/-- A statement and the semicolon that may follow it. -/
def terminatedExpr : Expr := .sequence [.rule .statement, .opt (.punct .semicolon)]

/-! ## Trees -/

/-- What a token or a rule contributes to the tree. -/
inductive Value where
  | keyword (k : Keyword)
  | compass (c : Compass)
  | id (name : Id)
  | port (port : Port)
  | nodeId (ref : NodeId)
  | assign (attr : Attribute)
  | attributes (attrs : List Attribute)
  | vertex (v : Vertex)
  | subgraph (group : Subgraph)
  | statement (s : Statement)
  | body (ss : List Statement)
  | graph (g : Graph)

namespace Value

/-- Select attributes. -/
def assign? : Value → Option Attribute
  | assign attr => some attr
  | _ => none

/-- Select lists of attributes. -/
def attributes? : Value → Option (List Attribute)
  | attributes attrs => some attrs
  | _ => none

/-- Select vertices. -/
def vertex? : Value → Option Vertex
  | vertex v => some v
  | _ => none

/-- Select statements. -/
def statement? : Value → Option Statement
  | statement s => some s
  | _ => none

end Value

/-- The target that a keyword names. -/
def targetOf? (k : Keyword) : Option Target := Target.all.find? (·.keyword = k)

/-- What a rule makes of the contributions of its parts.  A lone plain word for a compass point
is that compass point, and the groups of an attribute list are joined. -/
def Nonterminal.act : Nonterminal → List Value → List Value
  | graph, [.keyword k, .body ss] => [.graph ⟨false, k = .digraph, none, ss⟩]
  | graph, [.keyword k, .id name, .body ss] => [.graph ⟨false, k = .digraph, some name, ss⟩]
  | graph, [.keyword _, .keyword k, .body ss] => [.graph ⟨true, k = .digraph, none, ss⟩]
  | graph, [.keyword _, .keyword k, .id name, .body ss] =>
    [.graph ⟨true, k = .digraph, some name, ss⟩]
  | body, vs => [.body (vs.filterMap Value.statement?)]
  | statement, [.subgraph group] => [.statement (.subgraph group)]
  | statement, [.assign attr] => [.statement (.assign attr)]
  | defaults, [.keyword k, .attributes attrs] =>
    ((targetOf? k).map fun target => .statement (.defaults target attrs)).toList
  | edge, vs =>
    [.statement (.edge (vs.filterMap Value.vertex?) (vs.filterMap Value.attributes?).flatten)]
  | vertex, [.subgraph group] => [.vertex (.subgraph group)]
  | vertex, [.nodeId ref] => [.vertex (.node ref)]
  | subgraph, [.body ss] => [.subgraph (.mk none ss)]
  | subgraph, [.keyword _, .body ss] => [.subgraph (.mk none ss)]
  | subgraph, [.keyword _, .id name, .body ss] => [.subgraph (.mk (some name) ss)]
  | assign, [.id key, .id value] => [.assign ⟨key, value⟩]
  | node, [.nodeId ref] => [.statement (.node ref [])]
  | node, [.nodeId ref, .attributes attrs] => [.statement (.node ref attrs)]
  | nodeId, [.id name] => [.nodeId ⟨name, none⟩]
  | nodeId, [.id name, .port p] => [.nodeId ⟨name, some p⟩]
  | port, [.id ⟨.plain, value⟩] =>
    match Compass.ofWord? value with
    | some c => [.port ⟨none, some c⟩]
    | none => [.port ⟨some ⟨.plain, value⟩, none⟩]
  | port, [.id name] => [.port ⟨some name, none⟩]
  | port, [.id name, .compass c] => [.port ⟨some name, some c⟩]
  | attributeList, vs => [.attributes (vs.filterMap Value.assign?)]
  | _, vs => vs

/-! ## Reading tokens off a text -/

/-- Trivia is skipped for as long as there is some. -/
inductive Skips : Text → Text → Prop
  | done {t : Text} (h : trivia t = none) : Skips t t
  | more {t s : Text} {cut : Cut} (h : trivia t = some cut) (hs : Skips cut.rest s) : Skips t s

/-- The token stands at the very front of the text.  A keyword or compass point must not run
into a further character of a word. -/
def Terminal.Starts : Terminal → Text → List Value → Text → Prop
  | punct p, s, vs, rest => s = p.text ++ rest ∧ vs = []
  | keyword k, s, vs, rest =>
    s = k.word ++ rest ∧ (∀ c ∈ rest.head?, isWordChar c = false) ∧ vs = [.keyword k]
  | compass c, s, vs, rest =>
    s = c.word ++ rest ∧ (∀ d ∈ rest.head?, isWordChar d = false) ∧ vs = [.compass c]
  | id, s, vs, rest =>
    ∃ name, s = name.render ++ rest ∧ (Token.id name).StandsBefore rest ∧ vs = [.id name]
  | endOfInput, s, vs, rest => s = [] ∧ rest = [] ∧ vs = []

/-- The token stands at the front of the text, behind trivia. -/
def Terminal.Reads (k : Terminal) (t : Text) (vs : List Value) (rest : Text) : Prop :=
  ∃ s, Skips t s ∧ k.Starts s vs rest

/-! ## Ordered choice -/

/-- The expression reads a front part of the text, which contributes the given values and leaves
the given rest, or it reads none. -/
inductive Parses : Expr → Text → Option (List Value × Text) → Prop
  | terminal {k : Terminal} {t rest : Text} {vs : List Value} (h : k.Reads t vs rest) :
      Parses (.terminal k) t (some (vs, rest))
  | no_terminal {k : Terminal} {t : Text} (h : ∀ vs rest, ¬ k.Reads t vs rest) :
      Parses (.terminal k) t none
  | rule {r : Nonterminal} {t rest : Text} {vs : List Value}
      (h : Parses r.expr t (some (vs, rest))) : Parses (.rule r) t (some (r.act vs, rest))
  | no_rule {r : Nonterminal} {t : Text} (h : Parses r.expr t none) : Parses (.rule r) t none
  | empty {t : Text} : Parses .empty t (some ([], t))
  | fail {t : Text} : Parses .fail t none
  | seq {e f : Expr} {t mid rest : Text} {vs us : List Value} (he : Parses e t (some (vs, mid)))
      (hf : Parses f mid (some (us, rest))) : Parses (.seq e f) t (some (vs ++ us, rest))
  | no_first {e f : Expr} {t : Text} (he : Parses e t none) : Parses (.seq e f) t none
  | no_second {e f : Expr} {t mid : Text} {vs : List Value} (he : Parses e t (some (vs, mid)))
      (hf : Parses f mid none) : Parses (.seq e f) t none
  | choice {e f : Expr} {t : Text} {r : List Value × Text} (he : Parses e t (some r)) :
      Parses (.choice e f) t (some r)
  | otherwise {e f : Expr} {t : Text} {r : Option (List Value × Text)} (he : Parses e t none)
      (hf : Parses f t r) : Parses (.choice e f) t r
  | opt {e : Expr} {t : Text} {r : List Value × Text} (he : Parses e t (some r)) :
      Parses (.opt e) t (some r)
  | no_opt {e : Expr} {t : Text} (he : Parses e t none) : Parses (.opt e) t (some ([], t))
  | star {e : Expr} {t mid rest : Text} {vs us : List Value} (he : Parses e t (some (vs, mid)))
      (hs : Parses (.star e) mid (some (us, rest))) : Parses (.star e) t (some (vs ++ us, rest))
  | no_star {e : Expr} {t : Text} (he : Parses e t none) : Parses (.star e) t (some ([], t))

/-! ## Unordered choice -/

/-- The list of tokens that the terminal stands for. -/
def Terminal.Accepts : Terminal → List Token → Prop
  | punct p, w => w = [.punct p]
  | keyword k, w => w = [.word k.word]
  | compass c, w => w = [.word c.word]
  | id, w => ∃ name, w = [.id name]
  | endOfInput, w => w = []

/-- The list of tokens can be derived from the expression. -/
inductive Generates : Expr → List Token → Prop
  | terminal {k : Terminal} {w : List Token} (h : k.Accepts w) : Generates (.terminal k) w
  | rule {r : Nonterminal} {w : List Token} (h : Generates r.expr w) : Generates (.rule r) w
  | empty : Generates .empty []
  | seq {e f : Expr} {u v : List Token} (he : Generates e u) (hf : Generates f v) :
      Generates (.seq e f) (u ++ v)
  | left {e f : Expr} {w : List Token} (he : Generates e w) : Generates (.choice e f) w
  | right {e f : Expr} {w : List Token} (hf : Generates f w) : Generates (.choice e f) w
  | none {e : Expr} : Generates (.opt e) []
  | some {e : Expr} {w : List Token} (he : Generates e w) : Generates (.opt e) w
  | nil {e : Expr} : Generates (.star e) []
  | cons {e : Expr} {u v : List Token} (he : Generates e u) (hs : Generates (.star e) v) :
      Generates (.star e) (u ++ v)

/-! ## The tokens of a text, one by one -/

/-- The tokens of a text are those of another text behind its first one. -/
def Heads (t : Text) (tok : Token) (rest : Text) : Prop :=
  ∃ s, Skips t s ∧ Piece.read s = .token tok rest

section Heads

variable {t s s' rest : Text} {tok : Token}

lemma Skips.unique (h : Skips t s) (h' : Skips t s') : s = s' := by
  induction h with
  | done h =>
    cases h' with
    | done _ => rfl
    | more h' _ => simp [h] at h'
  | more h _ ih =>
    cases h' with
    | done h' => simp [h] at h'
    | more h' hs' =>
      rw [h] at h'
      cases h'
      exact ih hs'

lemma Skips.trivia_eq_none (h : Skips t s) : trivia s = none := by
  induction h with
  | done h => exact h
  | more _ _ ih => exact ih

/-- All trivia can be skipped. -/
lemma exists_skips (t : Text) : ∃ s, Skips t s := by
  cases h : trivia t with
  | none => exact ⟨t, .done h⟩
  | some cut =>
    have hlt := Cut.length_rest_lt (whole_of_trivia h) (taken_ne_nil_of_trivia h)
    obtain ⟨s, hs⟩ := exists_skips cut.rest
    exact ⟨s, .more h hs⟩
termination_by t.length

lemma Skips.alike (h : Skips t s) : (Tokens.ofText t).Alike (Tokens.ofText s) := by
  induction h with
  | done _ => exact .refl _
  | more h _ ih => exact (Tokens.alike_of_trivia h 0 0).trans ih

lemma Heads.alike (h : Heads t tok rest) :
    (Tokens.ofText t).toList = tok :: (Tokens.ofText rest).toList ∧
      (Tokens.ofText t).why = (Tokens.ofText rest).why := by
  obtain ⟨s, hs, hread⟩ := h
  obtain ⟨hlist, hwhy⟩ := hs.alike.trans (Tokens.alike_of_token hread 0 0 0)
  exact ⟨hlist, hwhy⟩

lemma Heads.unique {tok' : Token} {rest' : Text} (h : Heads t tok rest) (h' : Heads t tok' rest') :
    tok = tok' ∧ rest = rest' := by
  obtain ⟨s, hs, hread⟩ := h
  obtain ⟨s', hs', hread'⟩ := h'
  rw [hs.unique hs', hread'] at hread
  cases hread
  exact ⟨rfl, rfl⟩

/-- Behind trivia stands a token, or scanning ends there. -/
lemma exists_read (t : Text) :
    (∃ tok rest, Heads t tok rest) ∨ ∃ s why, Skips t s ∧ Piece.read s = .stop why := by
  obtain ⟨s, hs⟩ := exists_skips t
  cases hread : Piece.read s with
  | trivia cut =>
    have hsome := Piece.trivia_of_read hread
    rw [hs.trivia_eq_none] at hsome
    cases hsome
  | token tok rest => exact Or.inl ⟨tok, rest, s, hs, hread⟩
  | stop why => exact Or.inr ⟨s, why, hs, hread⟩

/-- A text without tokens has only trivia before the place where scanning ends. -/
lemma exists_stop (h : (Tokens.ofText t).toList = []) :
    ∃ s, Skips t s ∧ Piece.read s = .stop (Tokens.ofText t).why := by
  rcases exists_read t with ⟨tok, rest, htok⟩ | ⟨s, why, hs, hread⟩
  · rw [htok.alike.1] at h
    cases h
  · refine ⟨s, hs, ?_⟩
    rw [hs.alike.2, hread, Tokens.ofText, Tokens.scanFrom_eq, hread]
    rfl

/-- A text with tokens has its first token behind trivia. -/
lemma exists_heads {w : List Token} (h : (Tokens.ofText t).toList = tok :: w) :
    ∃ rest, Heads t tok rest ∧ (Tokens.ofText rest).toList = w := by
  rcases exists_read t with ⟨tok', rest, htok⟩ | ⟨s, why, hs, hread⟩
  · obtain ⟨hlist, -⟩ := htok.alike
    rw [h] at hlist
    obtain ⟨rfl, rfl⟩ := List.cons.inj hlist
    exact ⟨rest, htok, rfl⟩
  · rw [hs.alike.1, Tokens.ofText, Tokens.scanFrom_eq, hread] at h
    cases h

end Heads

/-! ## Terminals and tokens -/

/-- What a terminal makes of a token. -/
def Terminal.Takes : Terminal → Token → List Value → Prop
  | punct p, tok, vs => tok = .punct p ∧ vs = []
  | keyword k, tok, vs => tok = .word k.word ∧ vs = [.keyword k]
  | compass c, tok, vs => tok = .word c.word ∧ vs = [.compass c]
  | id, tok, vs => ∃ name, tok = .id name ∧ vs = [.id name]
  | endOfInput, _, _ => False

lemma read_word_iff {v s rest : Text} (hv : word v = some ⟨v, []⟩) :
    Piece.read s = .token (.word v) rest ↔
      s = v ++ rest ∧ ∀ c ∈ rest.head?, isWordChar c = false := by
  constructor
  · intro h
    refine ⟨Piece.eq_render_of_read h, (plain_word_iff hv).1 ?_⟩
    exact plain_eq_some_iff.2 (Piece.standsBefore_of_read h)
  · rintro ⟨rfl, hrest⟩
    have hstands : (Token.word v).StandsBefore rest :=
      plain_eq_some_iff.1 ((plain_word_iff hv).2 hrest)
    exact Piece.read_render hstands

lemma word_keyword (k : Keyword) : word k.word = some ⟨k.word, []⟩ := by
  cases k <;> decide

lemma word_compass (c : Compass) : word c.word = some ⟨c.word, []⟩ := by
  cases c <;> decide

/-- A terminal stands at the front of a text exactly when the first token is one of its own. -/
lemma Terminal.starts_iff {k : Terminal} (hk : k ≠ .endOfInput) {s rest : Text}
    {vs : List Value} :
    k.Starts s vs rest ↔ ∃ tok, Piece.read s = .token tok rest ∧ k.Takes tok vs := by
  cases k with
  | punct p =>
    constructor
    · rintro ⟨rfl, rfl⟩
      have hstands : (Token.punct p).StandsBefore rest := trivial
      exact ⟨_, Piece.read_render hstands, rfl, rfl⟩
    · rintro ⟨_, hread, rfl, rfl⟩
      exact ⟨Piece.eq_render_of_read hread, rfl⟩
  | keyword k =>
    constructor
    · rintro ⟨hs, hrest, rfl⟩
      exact ⟨_, (read_word_iff (word_keyword k)).2 ⟨hs, hrest⟩, rfl, rfl⟩
    · rintro ⟨_, hread, rfl, rfl⟩
      obtain ⟨hs, hrest⟩ := (read_word_iff (word_keyword k)).1 hread
      exact ⟨hs, hrest, rfl⟩
  | compass c =>
    constructor
    · rintro ⟨hs, hrest, rfl⟩
      exact ⟨_, (read_word_iff (word_compass c)).2 ⟨hs, hrest⟩, rfl, rfl⟩
    · rintro ⟨_, hread, rfl, rfl⟩
      obtain ⟨hs, hrest⟩ := (read_word_iff (word_compass c)).1 hread
      exact ⟨hs, hrest, rfl⟩
  | id =>
    constructor
    · rintro ⟨name, rfl, hstands, rfl⟩
      exact ⟨_, Piece.read_render hstands, name, rfl, rfl⟩
    · rintro ⟨_, hread, name, rfl, rfl⟩
      exact ⟨name, Piece.eq_render_of_read hread, Piece.standsBefore_of_read hread, rfl⟩
  | endOfInput => exact absurd rfl hk

lemma Terminal.reads_iff {k : Terminal} (hk : k ≠ .endOfInput) {t rest : Text}
    {vs : List Value} : k.Reads t vs rest ↔ ∃ tok, Heads t tok rest ∧ k.Takes tok vs := by
  constructor
  · rintro ⟨s, hs, hstarts⟩
    obtain ⟨tok, hread, htakes⟩ := (Terminal.starts_iff hk).1 hstarts
    exact ⟨tok, ⟨s, hs, hread⟩, htakes⟩
  · rintro ⟨tok, ⟨s, hs, hread⟩, htakes⟩
    exact ⟨s, hs, (Terminal.starts_iff hk).2 ⟨tok, hread, htakes⟩⟩

lemma Terminal.reads_endOfInput_iff {t rest : Text} {vs : List Value} :
    Terminal.endOfInput.Reads t vs rest ↔ Skips t [] ∧ rest = [] ∧ vs = [] := by
  constructor
  · rintro ⟨s, hs, rfl, rfl, rfl⟩
    exact ⟨hs, rfl, rfl⟩
  · rintro ⟨hs, rfl, rfl⟩
    exact ⟨[], hs, rfl, rfl, rfl⟩

lemma Terminal.Takes.unique {k : Terminal} {tok : Token} {vs us : List Value}
    (h : k.Takes tok vs) (h' : k.Takes tok us) : vs = us := by
  cases k with
  | punct p => rw [h.2, h'.2]
  | keyword k => rw [h.2, h'.2]
  | compass c => rw [h.2, h'.2]
  | id =>
    obtain ⟨name, rfl, rfl⟩ := h
    obtain ⟨other, hother, rfl⟩ := h'
    cases hother
    rfl
  | endOfInput => exact False.elim h

lemma Terminal.Reads.unique {k : Terminal} {t rest rest' : Text} {vs us : List Value}
    (h : k.Reads t vs rest) (h' : k.Reads t us rest') : vs = us ∧ rest = rest' := by
  -- the end of the input is the one terminal that stands for no token
  by_cases hk : k = .endOfInput
  · subst hk
    obtain ⟨-, rfl, rfl⟩ := reads_endOfInput_iff.1 h
    obtain ⟨-, rfl, rfl⟩ := reads_endOfInput_iff.1 h'
    exact ⟨rfl, rfl⟩
  · obtain ⟨tok, hheads, htakes⟩ := (reads_iff hk).1 h
    obtain ⟨tok', hheads', htakes'⟩ := (reads_iff hk).1 h'
    obtain ⟨rfl, rfl⟩ := hheads.unique hheads'
    exact ⟨htakes.unique htakes', rfl⟩

/-- There is at most one result. -/
theorem Parses.unique {e : Expr} {t : Text} {r r' : Option (List Value × Text)}
    (h : Parses e t r) (h' : Parses e t r') : r = r' := by
  -- on the first reading; `r'` varies, since the second one is only known case by case
  induction h generalizing r' with
  | terminal h =>
    cases h' with
    | terminal h' =>
      obtain ⟨rfl, rfl⟩ := h.unique h'
      rfl
    | no_terminal h' => exact absurd h (h' _ _)
  | no_terminal h =>
    cases h' with
    | terminal h' => exact absurd h' (h _ _)
    | no_terminal _ => rfl
  | rule _ ih =>
    cases h' with
    | rule h' =>
      cases ih h'
      rfl
    | no_rule h' => cases ih h'
  | no_rule _ ih =>
    cases h' with
    | rule h' => cases ih h'
    | no_rule _ => rfl
  | empty =>
    cases h'
    rfl
  | fail =>
    cases h'
    rfl
  | seq _ _ ihe ihf =>
    cases h' with
    | seq he hf =>
      cases ihe he
      cases ihf hf
      rfl
    | no_first he => cases ihe he
    | no_second he hf =>
      cases ihe he
      cases ihf hf
  | no_first _ ihe =>
    cases h' with
    | seq he _ => cases ihe he
    | no_first _ => rfl
    | no_second _ _ => rfl
  | no_second _ _ ihe ihf =>
    cases h' with
    | seq he hf =>
      cases ihe he
      cases ihf hf
    | no_first _ => rfl
    | no_second _ _ => rfl
  | choice _ ih =>
    cases h' with
    | choice he =>
      cases ih he
      rfl
    | otherwise he _ => cases ih he
  | otherwise _ _ ihe ihf =>
    cases h' with
    | choice he => cases ihe he
    | otherwise _ hf => exact ihf hf
  | opt _ ih =>
    cases h' with
    | opt he =>
      cases ih he
      rfl
    | no_opt he => cases ih he
  | no_opt _ ih =>
    cases h' with
    | opt he => cases ih he
    | no_opt _ => rfl
  | star _ _ ihe ihs =>
    cases h' with
    | star he hs =>
      cases ihe he
      cases ihs hs
      rfl
    | no_star he => cases ihe he
  | no_star _ ih =>
    cases h' with
    | star he _ => cases ih he
    | no_star _ => rfl

/-! ## From ordered to unordered choice -/

lemma Terminal.Takes.accepts {k : Terminal} {tok : Token} {vs : List Value} (h : k.Takes tok vs) :
    k.Accepts [tok] := by
  cases k with
  | punct p => exact congrArg (fun x => [x]) h.1
  | keyword k => exact congrArg (fun x => [x]) h.1
  | compass c => exact congrArg (fun x => [x]) h.1
  | id =>
    obtain ⟨name, rfl, -⟩ := h
    exact ⟨name, rfl⟩
  | endOfInput => exact False.elim h

lemma Terminal.Reads.generates {k : Terminal} {t rest : Text} {vs : List Value}
    (h : k.Reads t vs rest) : ∃ w, Generates (.terminal k) w ∧
      (Tokens.ofText t).toList = w ++ (Tokens.ofText rest).toList ∧
      (Tokens.ofText t).why = (Tokens.ofText rest).why := by
  by_cases hk : k = .endOfInput
  · subst hk
    obtain ⟨hs, rfl, -⟩ := reads_endOfInput_iff.1 h
    obtain ⟨hlist, hwhy⟩ := hs.alike
    exact ⟨[], .terminal rfl, hlist, hwhy⟩
  · obtain ⟨tok, hheads, htakes⟩ := (reads_iff hk).1 h
    obtain ⟨hlist, hwhy⟩ := hheads.alike
    exact ⟨[tok], .terminal htakes.accepts, hlist, hwhy⟩

/-- The tokens of what an expression reads can be derived from it. -/
theorem Parses.generates {e : Expr} {t : Text} {r : Option (List Value × Text)}
    (h : Parses e t r) : ∀ vs rest, r = some (vs, rest) → ∃ w, Generates e w ∧
      (Tokens.ofText t).toList = w ++ (Tokens.ofText rest).toList ∧
      (Tokens.ofText t).why = (Tokens.ofText rest).why := by
  induction h with
  | terminal h =>
    rintro vs rest ⟨⟩
    exact h.generates
  | rule _ ih =>
    rintro vs rest ⟨⟩
    obtain ⟨w, hw, htokens⟩ := ih _ _ rfl
    exact ⟨w, .rule hw, htokens⟩
  | empty =>
    rintro vs rest ⟨⟩
    exact ⟨[], .empty, rfl, rfl⟩
  | seq _ _ ihe ihf =>
    rintro vs rest ⟨⟩
    obtain ⟨u, hu, htokens, hwhy⟩ := ihe _ _ rfl
    obtain ⟨v, hv, htokens', hwhy'⟩ := ihf _ _ rfl
    refine ⟨u ++ v, .seq hu hv, ?_, hwhy.trans hwhy'⟩
    rw [htokens, htokens', List.append_assoc]
  | choice _ ih =>
    rintro vs rest ⟨⟩
    obtain ⟨w, hw, htokens⟩ := ih _ _ rfl
    exact ⟨w, .left hw, htokens⟩
  | otherwise _ _ _ ihf =>
    rintro vs rest rfl
    obtain ⟨w, hw, htokens⟩ := ihf _ _ rfl
    exact ⟨w, .right hw, htokens⟩
  | opt _ ih =>
    rintro vs rest ⟨⟩
    obtain ⟨w, hw, htokens⟩ := ih _ _ rfl
    exact ⟨w, .some hw, htokens⟩
  | no_opt _ _ =>
    rintro vs rest ⟨⟩
    exact ⟨[], .none, rfl, rfl⟩
  | star _ _ ihe ihs =>
    rintro vs rest ⟨⟩
    obtain ⟨u, hu, htokens, hwhy⟩ := ihe _ _ rfl
    obtain ⟨v, hv, htokens', hwhy'⟩ := ihs _ _ rfl
    refine ⟨u ++ v, .cons hu hv, ?_, hwhy.trans hwhy'⟩
    rw [htokens, htokens', List.append_assoc]
  | no_star _ _ =>
    rintro vs rest ⟨⟩
    exact ⟨[], .nil, rfl, rfl⟩
  -- nothing is read in these cases
  | no_terminal | no_rule | fail | no_first | no_second =>
    rintro vs rest ⟨⟩

end DotNotation.Reference
