/-
# Parsers as functions on lists of tokens

The reply of a parser does not depend on the frame in which it is applied, nor on the places
of the tokens, and the trace that it leaves plays no part in it.  So each parser has an
answer: a function of the list of tokens that are left and of the reason why scanning ended.
The class `Uniform` collects the parsers of which this holds; every combinator keeps it.  The
main results are

* `Parser.reply_eq`: the reply of a uniform parser is its answer;
* `Parser.answer_bind`, `answer_orElse`, `answer_optional`: the answers of composed parsers;
* `Parser.answer_many`: repetition goes on for as long as something is found, and its bound
  is never felt, provided that each round takes a token.
-/
import DotNotation.Parsing.Document
import DotNotation.Proofs.Lexical.Split

namespace DotNotation

/-- What a parser makes of a list of tokens. -/
inductive Answer (α : Type) where
  | found (value : α) (rest : List Token)
  | missing
  | gaveUp (why : Abort)

/-- A list of tokens, all at the same place. -/
def Tokens.ofList (why : Stop) : List Token → Tokens
  | [] => stop 0 why
  | tok :: toks => next 0 tok (ofList why toks)

@[simp] lemma Tokens.toList_ofList (why : Stop) (w : List Token) : (ofList why w).toList = w := by
  induction w with
  | nil => rfl
  | cons tok w ih => simp [ofList, toList, ih]

@[simp] lemma Tokens.why_ofList (why : Stop) (w : List Token) : (ofList why w).why = why := by
  induction w with
  | nil => rfl
  | cons tok w ih => exact ih

@[simp] lemma Tokens.length_eq (ts : Tokens) : ts.length = ts.toList.length := by
  induction ts with
  | next offset tok rest ih => simp [length, toList, ih]
  | stop offset why => rfl

/-- The reply without the places of the tokens that are left. -/
def Reply.answer {α : Type} : Reply α → Answer α
  | found a rest => .found a rest.toList
  | missing => .missing
  | gaveUp why => .gaveUp why

/-- Take the first token if it is selected. -/
def Tokens.take {α : Type} (select : Token → Option α) : Tokens → Reply α
  | next _ tok rest => (select tok).elim .missing fun a => .found a rest
  | stop _ _ => .missing

/-- Take the first token if it is selected. -/
def Answer.take {α : Type} (select : Token → Option α) : List Token → Answer α
  | [] => missing
  | tok :: rest => (select tok).elim .missing fun a => .found a rest

/-- The reply and the answer say the same; what is left ends for the given reason. -/
inductive Reply.Matches {α : Type} (why : Stop) : Reply α → Answer α → Prop
  | found (a : α) (rest : Tokens) (h : rest.why = why) :
      Matches why (.found a rest) (.found a rest.toList)
  | missing : Matches why .missing .missing
  | gaveUp (cause : Abort) : Matches why (.gaveUp cause) (.gaveUp cause)

lemma Reply.Matches.answer_eq {α : Type} {why : Stop} {reply : Reply α} {a : Answer α}
    (h : reply.Matches why a) : reply.answer = a := by
  cases h <;> rfl

namespace Token

/-- Select one token. -/
def only (tok : Token) (other : Token) : Option Unit := if other = tok then some () else none

/-- Select identifiers. -/
def id? : Token → Option Id
  | id name => some name
  | punct _ => none

/-- Select the words of compass points. -/
def compass? : Token → Option Compass
  | id ⟨.plain, value⟩ => Compass.ofWord? value
  | _ => none

@[simp] lemma only_self (tok : Token) : only tok tok = some () := by simp [only]

lemma only_of_ne {tok other : Token} (h : other ≠ tok) : only tok other = none := by
  simp [only, h]

end Token

lemma Id.isWord_iff {name : Id} {t : Text} : name.isWord t = true ↔ name = ⟨.plain, t⟩ := by
  obtain ⟨kind, value⟩ := name
  simp [Id.isWord]

namespace Parser

variable {α β : Type}

/-- What the parser makes of a list of tokens behind which scanning ended for the given
reason. -/
def answer (p : Parser α) (why : Stop) (w : List Token) : Answer α :=
  (p .outermost (Tokens.ofList why w)).reply.answer

/-- The reply of the parser depends on nothing but the tokens. -/
class Uniform (p : Parser α) : Prop where
  /-- In every frame and at every place the reply is the answer. -/
  uniform : ∀ (frame : Frame) (ts : Tokens),
    (p frame ts).reply.Matches ts.why (p.answer ts.why ts.toList)

/-- The reply of a uniform parser is its answer. -/
theorem reply_eq (p : Parser α) [h : Uniform p] (frame : Frame) (ts : Tokens) :
    (p frame ts).reply.Matches ts.why (p.answer ts.why ts.toList) := h.uniform frame ts

/-! ## Sequence and choice -/

section Combinators

variable {p q : Parser α} {f : α → Parser β} {why : Stop} {w : List Token}

@[simp] lemma answer_pure (a : α) : (pure a : Parser α).answer why w = .found a w := by
  simp [answer, pure, found, Reply.answer]

instance uniform_pure (a : α) : Uniform (pure a : Parser α) where
  uniform frame ts := by
    rw [answer_pure]
    exact .found a ts rfl

lemma reply_bind (frame : Frame) (ts : Tokens) :
    ((p >>= f) frame ts).reply = match (p frame ts).reply with
      | .found a rest => (f a frame rest).reply
      | .missing => .missing
      | .gaveUp cause => .gaveUp cause := by
  show (andThen p f frame ts).reply = _
  unfold andThen
  rcases p frame ts with ⟨⟨a, rest⟩ | _ | _, trace⟩ <;> rfl

lemma matches_bind [Uniform p] [∀ a, Uniform (f a)] (frame : Frame) (ts : Tokens) :
    ((p >>= f) frame ts).reply.Matches ts.why (match p.answer ts.why ts.toList with
      | .found a rest => (f a).answer ts.why rest
      | .missing => .missing
      | .gaveUp cause => .gaveUp cause) := by
  rw [reply_bind]
  have hp := reply_eq p frame ts
  generalize (p frame ts).reply = reply at hp
  generalize p.answer ts.why ts.toList = a at hp
  cases hp with
  | found a rest h =>
    have hf := reply_eq (f a) frame rest
    rwa [h] at hf
  | missing => exact .missing
  | gaveUp cause => exact .gaveUp cause

/-- A sequence answers as its first part does, unless that finds something. -/
theorem answer_bind [Uniform p] [∀ a, Uniform (f a)] :
    (p >>= f).answer why w = match p.answer why w with
      | .found a rest => (f a).answer why rest
      | .missing => .missing
      | .gaveUp cause => .gaveUp cause := by
  have h := matches_bind (p := p) (f := f) .outermost (Tokens.ofList why w)
  rw [Tokens.why_ofList, Tokens.toList_ofList] at h
  exact h.answer_eq

instance uniform_bind [Uniform p] [∀ a, Uniform (f a)] : Uniform (p >>= f) where
  uniform frame ts := by
    rw [answer_bind]
    exact matches_bind frame ts

lemma answer_bind_found [Uniform p] [∀ a, Uniform (f a)] {a : α} {rest : List Token}
    (h : p.answer why w = .found a rest) : (p >>= f).answer why w = (f a).answer why rest := by
  rw [answer_bind, h]

lemma answer_bind_missing [Uniform p] [∀ a, Uniform (f a)] (h : p.answer why w = .missing) :
    (p >>= f).answer why w = .missing := by
  rw [answer_bind, h]

lemma answer_bind_gaveUp [Uniform p] [∀ a, Uniform (f a)] {cause : Abort}
    (h : p.answer why w = .gaveUp cause) : (p >>= f).answer why w = .gaveUp cause := by
  rw [answer_bind, h]

lemma answer_bind_assoc {γ : Type} {g : β → Parser γ} [Uniform p] [∀ a, Uniform (f a)]
    [∀ b, Uniform (g b)] :
    (p >>= f >>= g).answer why w = (p >>= fun a => f a >>= g).answer why w := by
  rw [answer_bind, answer_bind, answer_bind]
  cases p.answer why w with
  | found a rest =>
    simp only
    rw [answer_bind]
  | missing => rfl
  | gaveUp cause => rfl

lemma reply_orElse (frame : Frame) (ts : Tokens) :
    (orElse p q frame ts).reply = match (p frame ts).reply with
      | .found a rest => .found a rest
      | .missing => (q frame ts).reply
      | .gaveUp cause => .gaveUp cause := by
  unfold orElse
  rcases p frame ts with ⟨⟨a, rest⟩ | _ | _, trace⟩ <;> rfl

lemma matches_orElse [Uniform p] [Uniform q] (frame : Frame) (ts : Tokens) :
    (orElse p q frame ts).reply.Matches ts.why (match p.answer ts.why ts.toList with
      | .found a rest => .found a rest
      | .missing => q.answer ts.why ts.toList
      | .gaveUp cause => .gaveUp cause) := by
  rw [reply_orElse]
  have hp := reply_eq p frame ts
  generalize (p frame ts).reply = reply at hp
  generalize p.answer ts.why ts.toList = a at hp
  cases hp with
  | found a rest h => exact .found a rest h
  | missing => exact reply_eq q frame ts
  | gaveUp cause => exact .gaveUp cause

/-- A choice answers as its first part does, unless that misses. -/
theorem answer_orElse [Uniform p] [Uniform q] :
    (orElse p q).answer why w = match p.answer why w with
      | .found a rest => .found a rest
      | .missing => q.answer why w
      | .gaveUp cause => .gaveUp cause := by
  have h := matches_orElse (p := p) (q := q) .outermost (Tokens.ofList why w)
  rw [Tokens.why_ofList, Tokens.toList_ofList] at h
  exact h.answer_eq

instance uniform_orElse [Uniform p] [Uniform q] : Uniform (orElse p q) where
  uniform frame ts := by
    rw [answer_orElse]
    exact matches_orElse frame ts

lemma answer_orElse_found [Uniform p] [Uniform q] {a : α} {rest : List Token}
    (h : p.answer why w = .found a rest) : (orElse p q).answer why w = .found a rest := by
  rw [answer_orElse, h]

lemma answer_orElse_missing [Uniform p] [Uniform q] (h : p.answer why w = .missing) :
    (orElse p q).answer why w = q.answer why w := by
  rw [answer_orElse, h]

lemma answer_orElse_gaveUp [Uniform p] [Uniform q] {cause : Abort}
    (h : p.answer why w = .gaveUp cause) : (orElse p q).answer why w = .gaveUp cause := by
  rw [answer_orElse, h]

lemma reply_optional (frame : Frame) (ts : Tokens) :
    (optional p frame ts).reply = match (p frame ts).reply with
      | .found a rest => .found (some a) rest
      | .missing => .found none ts
      | .gaveUp cause => .gaveUp cause := by
  unfold optional
  rcases p frame ts with ⟨⟨a, rest⟩ | _ | _, trace⟩ <;> rfl

lemma matches_optional [Uniform p] (frame : Frame) (ts : Tokens) :
    (optional p frame ts).reply.Matches ts.why (match p.answer ts.why ts.toList with
      | .found a rest => .found (some a) rest
      | .missing => .found none ts.toList
      | .gaveUp cause => .gaveUp cause) := by
  rw [reply_optional]
  have hp := reply_eq p frame ts
  generalize (p frame ts).reply = reply at hp
  generalize p.answer ts.why ts.toList = a at hp
  cases hp with
  | found a rest h => exact .found (some a) rest h
  | missing => exact .found none ts rfl
  | gaveUp cause => exact .gaveUp cause

/-- An option finds nothing where its part misses. -/
theorem answer_optional [Uniform p] :
    (optional p).answer why w = match p.answer why w with
      | .found a rest => .found (some a) rest
      | .missing => .found none w
      | .gaveUp cause => .gaveUp cause := by
  have h := matches_optional (p := p) .outermost (Tokens.ofList why w)
  rw [Tokens.why_ofList, Tokens.toList_ofList] at h
  exact h.answer_eq

instance uniform_optional [Uniform p] : Uniform (optional p) where
  uniform frame ts := by
    rw [answer_optional]
    exact matches_optional frame ts

lemma answer_optional_found [Uniform p] {a : α} {rest : List Token}
    (h : p.answer why w = .found a rest) : (optional p).answer why w = .found (some a) rest := by
  rw [answer_optional, h]

lemma answer_optional_missing [Uniform p] (h : p.answer why w = .missing) :
    (optional p).answer why w = .found none w := by
  rw [answer_optional, h]

lemma answer_optional_gaveUp [Uniform p] {cause : Abort} (h : p.answer why w = .gaveUp cause) :
    (optional p).answer why w = .gaveUp cause := by
  rw [answer_optional, h]

lemma found_of_optional_some [Uniform p] {a : α} {rest : List Token}
    (h : (optional p).answer why w = .found (some a) rest) : p.answer why w = .found a rest := by
  rw [answer_optional] at h
  cases hw : p.answer why w <;> rw [hw] at h <;> cases h
  rfl

lemma missing_of_optional_none [Uniform p] {rest : List Token}
    (h : (optional p).answer why w = .found none rest) :
    p.answer why w = .missing ∧ rest = w := by
  rw [answer_optional] at h
  cases hw : p.answer why w <;> rw [hw] at h <;> cases h
  exact ⟨rfl, rfl⟩

@[simp] lemma answer_gaveUp (cause : Abort) :
    (gaveUp cause : Parser α).answer why w = .gaveUp cause := rfl

instance uniform_gaveUp (cause : Abort) : Uniform (gaveUp cause : Parser α) where
  uniform _ _ := .gaveUp cause

@[simp] lemma answer_expected (e : Expectation) :
    (expected e : Parser α).answer why w = .missing := rfl

instance uniform_expected (e : Expectation) : Uniform (expected e : Parser α) where
  uniform _ _ := .missing

@[simp] lemma answer_build_ok (a : α) : (build (.ok a)).answer why w = .found a w :=
  answer_pure a

@[simp] lemma answer_build_error (defect : Defect) :
    (build (.error defect) : Parser α).answer why w = .gaveUp (.invalid defect) := rfl

instance uniform_build (part : Except Defect α) : Uniform (build part) := by
  cases part with
  | ok a => exact uniform_pure a
  | error defect => exact uniform_gaveUp _

@[simp] lemma answer_within [Uniform p] (rule : Rule) :
    (within rule p).answer why w = p.answer why w := by
  have h := reply_eq p ⟨rule, Frame.outermost.depth + 1⟩ (Tokens.ofList why w)
  rw [Tokens.why_ofList, Tokens.toList_ofList] at h
  exact h.answer_eq

instance uniform_within [Uniform p] (rule : Rule) : Uniform (within rule p) where
  uniform frame ts := by
    rw [answer_within]
    exact reply_eq p _ ts

instance uniform_ite (c : Prop) [Decidable c] [Uniform p] [Uniform q] :
    Uniform (if c then p else q) := by
  split <;> assumption

instance uniform_elim (o : Option β) {q : Parser α} {g : β → Parser α} [Uniform q]
    [∀ b, Uniform (g b)] : Uniform (o.elim q g) := by
  cases o with
  | none => assumption
  | some b => exact inferInstanceAs (Uniform (g b))

@[simp] lemma answer_firstOf_nil : (firstOf [] : Parser α).answer why w = .missing := rfl

instance uniform_firstOf_nil : Uniform (firstOf [] : Parser α) where
  uniform _ _ := .missing

instance uniform_firstOf_cons (ps : List (Parser α)) [Uniform p] [Uniform (firstOf ps)] :
    Uniform (firstOf (p :: ps)) :=
  uniform_orElse

lemma answer_firstOf_cons (ps : List (Parser α)) [Uniform p] [Uniform (firstOf ps)] :
    (firstOf (p :: ps)).answer why w = match p.answer why w with
      | .found a rest => .found a rest
      | .missing => (firstOf ps).answer why w
      | .gaveUp cause => .gaveUp cause :=
  answer_orElse

end Combinators

/-! ## Repetition -/

section Repetition

variable {p : Parser α} {why : Stop}

/-- Only the length of the bound matters. -/
lemma manyWithin_congr (p : Parser α) {bound other : Tokens}
    (h : bound.toList.length = other.toList.length) : manyWithin bound p = manyWithin other p := by
  induction bound generalizing other with
  | stop m reason =>
    cases other with
    | stop n reason' => rfl
    | next n tok other => simp [Tokens.toList] at h
  | next m tok bound ih =>
    cases other with
    | stop n reason' => simp [Tokens.toList] at h
    | next n tok' other =>
      simp only [Tokens.toList, List.length_cons, Nat.add_right_cancel_iff] at h
      simp only [manyWithin, ih h]

lemma manyWithin_stop (m : Nat) (reason : Stop) (p : Parser α) :
    manyWithin (.stop m reason) p =
      optional p >>= fun o => o.elim (pure []) fun _ => gaveUp .tooDeep := by
  rw [manyWithin]
  congr 1
  funext o
  cases o <;> rfl

lemma manyWithin_next (m : Nat) (tok : Token) (bound : Tokens) (p : Parser α) :
    manyWithin (.next m tok bound) p =
      optional p >>= fun o =>
        o.elim (pure []) fun a => manyWithin bound p >>= fun as => pure (a :: as) := by
  rw [manyWithin]
  congr 1
  funext o
  cases o <;> rfl

instance uniform_manyWithin (bound : Tokens) [Uniform p] : Uniform (manyWithin bound p) := by
  induction bound with
  | stop m reason =>
    rw [manyWithin_stop]
    infer_instance
  | next m tok bound ih =>
    rw [manyWithin_next]
    infer_instance

lemma answer_manyWithin_stop [Uniform p] (m : Nat) (reason : Stop) (w : List Token) :
    (manyWithin (.stop m reason) p).answer why w = match p.answer why w with
      | .found _ _ => .gaveUp .tooDeep
      | .missing => .found [] w
      | .gaveUp cause => .gaveUp cause := by
  rw [manyWithin_stop, answer_bind, answer_optional]
  cases p.answer why w <;> simp

lemma answer_manyWithin_next [Uniform p] (m : Nat) (tok : Token) (bound : Tokens)
    (w : List Token) :
    (manyWithin (.next m tok bound) p).answer why w = match p.answer why w with
      | .found a rest => (manyWithin bound p >>= fun as => pure (a :: as)).answer why rest
      | .missing => .found [] w
      | .gaveUp cause => .gaveUp cause := by
  rw [manyWithin_next, answer_bind, answer_optional]
  cases p.answer why w <;> simp

lemma answer_many_eq [Uniform p] (w : List Token) :
    (many p).answer why w = (manyWithin (Tokens.ofList why w) p).answer why w := rfl

instance uniform_many [Uniform p] : Uniform (many p) where
  uniform frame ts := by
    have hbound : manyWithin (Tokens.ofList ts.why ts.toList) p = manyWithin ts p :=
      manyWithin_congr p (by simp)
    rw [answer_many_eq, hbound]
    exact reply_eq (manyWithin ts p) frame ts

/-- Whatever the parser finds takes tokens off the front of the list, at least `n` of them. -/
def Takes (n : Nat) (p : Parser α) : Prop :=
  ∀ (why : Stop) (w : List Token) (a : α) (rest : List Token),
    p.answer why w = .found a rest → ∃ u, w = u ++ rest ∧ n ≤ u.length

lemma Takes.length_lt {why : Stop} {w : List Token} {a : α} {rest : List Token} (hp : p.Takes 1)
    (h : p.answer why w = .found a rest) : rest.length < w.length := by
  obtain ⟨u, rfl, hu⟩ := hp why w a rest h
  rw [List.length_append]
  omega

/-- A bound that is long enough makes no difference. -/
lemma answer_manyWithin_eq [Uniform p] (hp : p.Takes 1) (bound other : Tokens) (w : List Token)
    (h : w.length ≤ bound.toList.length) (h' : w.length ≤ other.toList.length) :
    (manyWithin bound p).answer why w = (manyWithin other p).answer why w := by
  induction bound generalizing other w with
  | stop m reason =>
    -- nothing can be found without a token, so the bound is never reached
    obtain rfl : w = [] := List.length_eq_zero_iff.1 (Nat.le_zero.1 h)
    cases hw : p.answer why [] with
    | found a rest => exact absurd (hp.length_lt hw) (by simp)
    | missing => cases other <;> simp [answer_manyWithin_stop, answer_manyWithin_next, hw]
    | gaveUp cause => cases other <;> simp [answer_manyWithin_stop, answer_manyWithin_next, hw]
  | next m tok bound ih =>
    cases hw : p.answer why w with
    | found a rest =>
      have hlt := hp.length_lt hw
      simp only [Tokens.toList, List.length_cons] at h
      cases other with
      | stop n reason =>
        simp only [Tokens.toList, List.length_nil] at h'
        omega
      | next n tok' other =>
        simp only [Tokens.toList, List.length_cons] at h'
        simp only [answer_manyWithin_next, hw]
        rw [answer_bind, answer_bind, ih other rest (by omega) (by omega)]
    | missing => cases other <;> simp [answer_manyWithin_stop, answer_manyWithin_next, hw]
    | gaveUp cause => cases other <;> simp [answer_manyWithin_stop, answer_manyWithin_next, hw]

/-- Repetition goes on for as long as something is found. -/
theorem answer_many [Uniform p] (hp : p.Takes 1) (w : List Token) :
    (many p).answer why w = match p.answer why w with
      | .found a rest => (many p >>= fun as => pure (a :: as)).answer why rest
      | .missing => .found [] w
      | .gaveUp cause => .gaveUp cause := by
  -- the bound is made one longer, so that the repetition can be unfolded once
  rw [answer_many_eq, answer_manyWithin_eq hp _ (.next 0 (.punct .comma) (Tokens.ofList why w)) w
    (by simp) (by simp [Tokens.toList]), answer_manyWithin_next]
  cases hw : p.answer why w with
  | found a rest =>
    have hlt := hp.length_lt hw
    simp only
    rw [answer_bind, answer_bind, answer_many_eq,
      answer_manyWithin_eq hp _ (Tokens.ofList why rest) rest (by simp; omega) (by simp)]
  | missing => rfl
  | gaveUp cause => rfl

lemma answer_many_missing [Uniform p] (hp : p.Takes 1) {w : List Token}
    (h : p.answer why w = .missing) : (many p).answer why w = .found [] w := by
  rw [answer_many hp, h]

lemma answer_many_gaveUp [Uniform p] (hp : p.Takes 1) {w : List Token} {cause : Abort}
    (h : p.answer why w = .gaveUp cause) : (many p).answer why w = .gaveUp cause := by
  rw [answer_many hp, h]

lemma answer_many_found [Uniform p] (hp : p.Takes 1) {w mid rest : List Token} {a : α}
    {as : List α} (h : p.answer why w = .found a mid)
    (h' : (many p).answer why mid = .found as rest) :
    (many p).answer why w = .found (a :: as) rest := by
  rw [answer_many hp, h]
  exact (answer_bind_found h').trans (answer_pure _)

end Repetition

/-! ## Tokens

The parsers for single tokens look at the first token and take it or miss. -/

section Tokens

variable {p : Parser α} {select : Token → Option α} {why : Stop} {w : List Token}

lemma answer_of_take (h : ∀ frame ts, (p frame ts).reply = ts.take select) :
    p.answer why w = Answer.take select w := by
  rw [answer, h]
  cases w with
  | nil => rfl
  | cons tok w => cases hs : select tok <;> simp [Tokens.ofList, Tokens.take, Answer.take, hs,
      Reply.answer]

lemma uniform_of_take (h : ∀ frame ts, (p frame ts).reply = ts.take select) : Uniform p where
  uniform frame ts := by
    rw [answer_of_take h, h]
    cases ts with
    | stop m reason => exact .missing
    | next m tok rest =>
      simp only [Tokens.take, Tokens.toList, Answer.take]
      cases select tok with
      | none => exact .missing
      | some a => exact .found a rest rfl

lemma reply_punct (p : Punct) (frame : Frame) (ts : Tokens) :
    (punct p frame ts).reply = ts.take (Token.only (.punct p)) := by
  rcases ts with ⟨m, q | name, rest⟩ | ⟨m, reason⟩
  · by_cases h : p = q
    · simp [punct, Tokens.take, Token.only, h]
    · simp [punct, Tokens.take, Token.only, h, Ne.symm h, expected]
  · simp [punct, Tokens.take, Token.only, expected]
  · rfl

lemma reply_openBody (frame : Frame) (ts : Tokens) :
    (openBody frame ts).reply = ts.take (Token.only (.punct .openBrace)) := by
  rw [← reply_punct .openBrace frame ts]
  unfold openBody
  rcases punct .openBrace frame ts with ⟨⟨a, rest⟩ | _ | _, trace⟩ <;> rfl

lemma reply_keyword (k : Keyword) (frame : Frame) (ts : Tokens) :
    (keyword k frame ts).reply = ts.take (Token.only (.word k.word)) := by
  rcases ts with ⟨m, q | name, rest⟩ | ⟨m, reason⟩
  · simp [keyword, Tokens.take, Token.only, Token.word, expected]
  · by_cases h : name.isWord k.word = true
    · simp [keyword, Tokens.take, Token.only, Token.word, ← Id.isWord_iff, h]
    · simp [keyword, Tokens.take, Token.only, Token.word, ← Id.isWord_iff, h, expected]
  · rfl

lemma reply_anyId (frame : Frame) (ts : Tokens) : (anyId frame ts).reply = ts.take Token.id? := by
  rcases ts with ⟨m, q | name, rest⟩ | ⟨m, reason⟩
  · rfl
  · rfl
  · cases reason <;> rfl

lemma reply_compassPoint (frame : Frame) (ts : Tokens) :
    (compassPoint frame ts).reply = ts.take Token.compass? := by
  rcases ts with ⟨m, q | ⟨kind, value⟩, rest⟩ | ⟨m, reason⟩
  · rfl
  · cases kind with
    | plain =>
      cases h : Compass.ofWord? value <;>
        simp [compassPoint, Tokens.take, Token.compass?, h, expected]
    | quoted => rfl
    | html => rfl
  · rfl

instance uniform_punct (p : Punct) : Uniform (punct p) := uniform_of_take (reply_punct p)

instance uniform_openBody : Uniform openBody := uniform_of_take reply_openBody

instance uniform_keyword (k : Keyword) : Uniform (keyword k) := uniform_of_take (reply_keyword k)

instance uniform_anyId : Uniform anyId := uniform_of_take reply_anyId

instance uniform_compassPoint : Uniform compassPoint := uniform_of_take reply_compassPoint

@[simp] lemma answer_punct (p : Punct) :
    (punct p).answer why w = Answer.take (Token.only (.punct p)) w :=
  answer_of_take (reply_punct p)

@[simp] lemma answer_openBody :
    openBody.answer why w = Answer.take (Token.only (.punct .openBrace)) w :=
  answer_of_take reply_openBody

@[simp] lemma answer_keyword (k : Keyword) :
    (keyword k).answer why w = Answer.take (Token.only (.word k.word)) w :=
  answer_of_take (reply_keyword k)

@[simp] lemma answer_anyId : anyId.answer why w = Answer.take Token.id? w :=
  answer_of_take reply_anyId

@[simp] lemma answer_compassPoint : compassPoint.answer why w = Answer.take Token.compass? w :=
  answer_of_take reply_compassPoint

lemma take_only_missing {tok : Token} (h : w.head? ≠ some tok) :
    Answer.take (Token.only tok) w = .missing := by
  cases w with
  | nil => rfl
  | cons other w => simp [Answer.take, Token.only_of_ne (by simpa using h : other ≠ tok)]

lemma take_only_cons (tok : Token) : Answer.take (Token.only tok) (tok :: w) = .found () w := by
  simp [Answer.take]

lemma answer_punct_cons (p : Punct) : (punct p).answer why (.punct p :: w) = .found () w := by
  rw [answer_punct, take_only_cons]

lemma answer_punct_missing {p : Punct} (h : w.head? ≠ some (.punct p)) :
    (punct p).answer why w = .missing := by
  rw [answer_punct, take_only_missing h]

lemma answer_keyword_cons (k : Keyword) :
    (keyword k).answer why (.word k.word :: w) = .found () w := by
  rw [answer_keyword, take_only_cons]

lemma answer_keyword_missing {k : Keyword} (h : w.head? ≠ some (.word k.word)) :
    (keyword k).answer why w = .missing := by
  rw [answer_keyword, take_only_missing h]

@[simp] lemma answer_finished :
    finished.answer why w =
      if w = [] ∧ why = .endOfInput then .found () [] else .missing := by
  cases w with
  | nil => cases why <;> rfl
  | cons tok w => rfl

instance uniform_finished : Uniform finished where
  uniform frame ts := by
    rw [answer_finished]
    cases ts with
    | stop m reason =>
      cases reason with
      | endOfInput => exact .found () _ rfl
      | _ => exact .missing
    | next m tok rest => exact .missing

end Tokens

/-! ## Progress -/

section Progress

variable {p q : Parser α} {f : α → Parser β} {m n : Nat}

lemma Takes.mono (hp : p.Takes n) (h : m ≤ n) : p.Takes m := by
  intro why w a rest hw
  obtain ⟨u, hu, hn⟩ := hp why w a rest hw
  exact ⟨u, hu, h.trans hn⟩

lemma takes_pure (a : α) : (pure a : Parser α).Takes 0 := by
  intro why w b rest h
  rw [answer_pure] at h
  cases h
  exact ⟨[], rfl, le_refl _⟩

lemma takes_gaveUp (cause : Abort) : (gaveUp cause : Parser α).Takes n := by
  intro why w b rest h
  cases h

lemma takes_expected (e : Expectation) : (expected e : Parser α).Takes n := by
  intro why w b rest h
  cases h

lemma takes_build (part : Except Defect α) : (build part).Takes 0 := by
  cases part with
  | ok a => exact takes_pure a
  | error defect => exact takes_gaveUp _

lemma takes_bind [Uniform p] [∀ a, Uniform (f a)] (hp : p.Takes m) (hf : ∀ a, (f a).Takes n) :
    (p >>= f).Takes (m + n) := by
  intro why w b rest h
  rw [answer_bind] at h
  cases hw : p.answer why w with
  | found a mid =>
    rw [hw] at h
    obtain ⟨u, rfl, hu⟩ := hp why w a mid hw
    obtain ⟨v, rfl, hv⟩ := hf a why mid b rest h
    refine ⟨u ++ v, (List.append_assoc u v rest).symm, ?_⟩
    rw [List.length_append]
    omega
  | missing => simp [hw] at h
  | gaveUp cause => simp [hw] at h

lemma takes_orElse [Uniform p] [Uniform q] (hp : p.Takes n) (hq : q.Takes n) :
    (orElse p q).Takes n := by
  intro why w a rest h
  rw [answer_orElse] at h
  cases hw : p.answer why w with
  | found b mid =>
    rw [hw] at h
    cases h
    exact hp why w _ _ hw
  | missing =>
    rw [hw] at h
    exact hq why w a rest h
  | gaveUp cause => simp [hw] at h

lemma takes_optional [Uniform p] (hp : p.Takes n) : (optional p).Takes 0 := by
  intro why w a rest h
  rw [answer_optional] at h
  cases hw : p.answer why w with
  | found b mid =>
    rw [hw] at h
    cases h
    obtain ⟨u, hu, -⟩ := hp why w _ _ hw
    exact ⟨u, hu, Nat.zero_le _⟩
  | missing =>
    rw [hw] at h
    cases h
    exact ⟨[], rfl, le_refl _⟩
  | gaveUp cause => simp [hw] at h

lemma takes_within [Uniform p] (rule : Rule) (hp : p.Takes n) : (within rule p).Takes n := by
  intro why w a rest h
  rw [answer_within] at h
  exact hp why w a rest h

lemma takes_elim {g : β → Parser α} (o : Option β) (hq : q.Takes n) (hg : ∀ b, (g b).Takes n) :
    (o.elim q g).Takes n := by
  cases o with
  | none => exact hq
  | some b => exact hg b

lemma takes_many [Uniform p] (hp : p.Takes 1) : (many p).Takes 0 := by
  intro why w
  induction hn : w.length using Nat.strong_induction_on generalizing w with
  | _ n ih =>
    intro as rest h
    rw [answer_many hp] at h
    cases hw : p.answer why w with
    | found a mid =>
      have hlt := hp.length_lt hw
      obtain ⟨u, rfl, -⟩ := hp why w a mid hw
      rw [hw] at h
      simp only [answer_bind] at h
      cases hmid : (many p).answer why mid with
      | found bs last =>
        rw [hmid] at h
        simp only [answer_pure] at h
        cases h
        obtain ⟨v, rfl, -⟩ := ih mid.length (hn ▸ hlt) mid rfl bs _ hmid
        exact ⟨u ++ v, (List.append_assoc u v _).symm, Nat.zero_le _⟩
      | missing => simp [hmid] at h
      | gaveUp cause => simp [hmid] at h
    | missing =>
      rw [hw] at h
      cases h
      exact ⟨[], rfl, le_refl _⟩
    | gaveUp cause => simp [hw] at h

lemma takes_of_take {select : Token → Option α}
    (h : ∀ why w, p.answer why w = Answer.take select w) : p.Takes 1 := by
  intro why w a rest hw
  rw [h] at hw
  cases w with
  | nil => cases hw
  | cons tok w =>
    cases hs : select tok with
    | none => simp [Answer.take, hs] at hw
    | some b =>
      simp only [Answer.take, hs, Option.elim_some, Answer.found.injEq] at hw
      exact ⟨[tok], by simp [hw.2], le_refl _⟩

lemma takes_punct (p : Punct) : (punct p).Takes 1 := takes_of_take fun _ _ => answer_punct p

lemma takes_openBody : openBody.Takes 1 := takes_of_take fun _ _ => answer_openBody

lemma takes_keyword (k : Keyword) : (keyword k).Takes 1 := takes_of_take fun _ _ => answer_keyword k

lemma takes_anyId : anyId.Takes 1 := takes_of_take fun _ _ => answer_anyId

lemma takes_compassPoint : compassPoint.Takes 1 := takes_of_take fun _ _ => answer_compassPoint

end Progress

end Parser

end DotNotation
