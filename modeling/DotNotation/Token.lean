/-
# Tokens

Between trivia a document is a sequence of tokens: punctuation and identifiers.  Keywords
and compass points are plain identifiers with a certain spelling; only their place gives
them their meaning.  Scanning takes the longest word or number and prefers a comment to
anything else.  It ends at the end of the text, or where no token can be read, and says why.

The main statement is `Tokens.scanFrom_eq`: scanning reads one piece after the other, and
the bound on the number of pieces is never felt.
-/
import DotNotation.Lexical.Trivia
import DotNotation.Syntax.Id

namespace DotNotation

/-- Punctuation. -/
inductive Punct where
  | openBrace
  | closeBrace
  | openBracket
  | closeBracket
  | semicolon
  | comma
  | colon
  | equals
  | arrow
  | line
deriving DecidableEq, Repr

namespace Punct

/-- The characters of a punctuation token. -/
def text : Punct → Text
  | openBrace => ['{']
  | closeBrace => ['}']
  | openBracket => ['[']
  | closeBracket => [']']
  | semicolon => [';']
  | comma => [',']
  | colon => [':']
  | equals => ['=']
  | arrow => ['-', '>']
  | line => ['-', '-']

/-- Read punctuation off the front of a text. -/
def read? : Text → Option (Punct × Text)
  | '{' :: cs => some (openBrace, cs)
  | '}' :: cs => some (closeBrace, cs)
  | '[' :: cs => some (openBracket, cs)
  | ']' :: cs => some (closeBracket, cs)
  | ';' :: cs => some (semicolon, cs)
  | ',' :: cs => some (comma, cs)
  | ':' :: cs => some (colon, cs)
  | '=' :: cs => some (equals, cs)
  | '-' :: '>' :: cs => some (arrow, cs)
  | '-' :: '-' :: cs => some (line, cs)
  | _ => none

theorem eq_of_read? {t rest : Text} {p : Punct} (h : read? t = some (p, rest)) :
    t = p.text ++ rest := by
  unfold read? at h
  split at h <;> cases h <;> rfl

theorem text_ne_nil (p : Punct) : p.text ≠ [] := by
  cases p <;> simp [text]

end Punct

/-- A token. -/
inductive Token where
  | punct (p : Punct)
  | id (name : Id)
deriving DecidableEq, Repr

namespace Token

/-- The written form of a token. -/
def render : Token → Text
  | punct p => p.text
  | id name => name.render

end Token

/-- Why scanning ended. -/
inductive Stop where
  | endOfInput
  | stray
  | openQuote
  | openLabel
  | unread
deriving DecidableEq, Repr

/-! ## One piece -/

/-- What stands at the front of a text. -/
inductive Piece where
  | trivia (cut : Lexical.Cut)
  | token (token : Token) (rest : Text)
  | stop (why : Stop)
deriving DecidableEq, Repr

namespace Piece

/-- Read what stands at the front of a text. -/
def read (t : Text) : Piece :=
  match Lexical.trivia t with
  | some cut => trivia cut
  | none =>
    match t with
    | [] => stop .endOfInput
    | '"' :: cs => match Lexical.closeQuote cs with
      | some cut => token (.id ⟨.quoted, cut.taken⟩) cut.rest
      | none => stop .openQuote
    | '<' :: cs => match Lexical.closeLabel 0 cs with
      | some cut => token (.id ⟨.html, cut.taken⟩) cut.rest
      | none => stop .openLabel
    | _ => match Punct.read? t with
      | some (p, rest) => token (.punct p) rest
      | none => match Lexical.plain t with
        | some cut => token (.id ⟨.plain, cut.taken⟩) cut.rest
        | none => stop .stray

/-- A token is read off exactly as it is written. -/
theorem eq_render_of_read {t rest : Text} {tok : Token} (h : read t = token tok rest) :
    t = tok.render ++ rest := by
  unfold read at h
  split at h
  · cases h
  · split at h
    · cases h
    · split at h
      · rename_i cut hq
        cases h
        simp [Token.render, Id.render, Lexical.closeQuote_eq_some hq]
      · cases h
    · split at h
      · rename_i cut hl
        cases h
        simp [Token.render, Id.render, Lexical.closeLabel_eq_some hl]
      · cases h
    · split at h
      · rename_i hp
        cases h
        exact Punct.eq_of_read? hp
      · split at h
        · rename_i cut hp
          cases h
          exact (Lexical.whole_of_plain hp).symm
        · cases h

/-- No token is written as the empty text. -/
theorem render_ne_nil_of_read {t rest : Text} {tok : Token} (h : read t = token tok rest) :
    tok.render ≠ [] := by
  unfold read at h
  split at h
  · cases h
  · split at h
    · cases h
    · split at h
      · cases h
        simp [Token.render, Id.render]
      · cases h
    · split at h
      · cases h
        simp [Token.render, Id.render]
      · cases h
    · split at h
      · cases h
        exact Punct.text_ne_nil _
      · split at h
        · rename_i cut hp
          cases h
          exact Lexical.taken_ne_nil_of_plain hp
        · cases h

/-- Trivia is read off exactly as it is written, and is not empty. -/
theorem trivia_of_read {t : Text} {cut : Lexical.Cut} (h : read t = trivia cut) :
    Lexical.trivia t = some cut := by
  unfold read at h
  split at h
  · cases h
    assumption
  · split at h
    · cases h
    · split at h <;> cases h
    · split at h <;> cases h
    · split at h
      · cases h
      · split at h <;> cases h

/-- After a token a shorter text is left. -/
theorem length_lt_of_token {t rest : Text} {tok : Token} (h : read t = token tok rest) :
    rest.length < t.length := by
  have hpos := List.length_pos_iff.2 (render_ne_nil_of_read h)
  have := congrArg List.length (eq_render_of_read h)
  rw [List.length_append] at this
  omega

/-- After trivia a shorter text is left. -/
theorem length_lt_of_trivia {t : Text} {cut : Lexical.Cut} (h : read t = trivia cut) :
    cut.rest.length < t.length :=
  Lexical.Cut.length_rest_lt (Lexical.whole_of_trivia (trivia_of_read h))
    (Lexical.taken_ne_nil_of_trivia (trivia_of_read h))

end Piece

/-! ## All pieces -/

/-- The tokens of a text, each with the offset at which it starts, up to the place where
scanning ended. -/
inductive Tokens where
  | next (offset : Nat) (token : Token) (rest : Tokens)
  | stop (offset : Nat) (why : Stop)
deriving DecidableEq, Repr

namespace Tokens

/-- The offset of the first token, or of the place where scanning ended. -/
def offset : Tokens → Nat
  | next offset _ _ => offset
  | stop offset _ => offset

/-- The number of tokens. -/
def length : Tokens → Nat
  | next _ _ rest => rest.length + 1
  | stop _ _ => 0

/-- The tokens without their offsets. -/
def toList : Tokens → List Token
  | next _ token rest => token :: rest.toList
  | stop _ _ => []

/-- Why scanning ended. -/
def why : Tokens → Stop
  | next _ _ rest => rest.why
  | stop _ why => why

/-- Scan `t`, whose first character has the given offset.  Each piece takes at least one
character, so a text no shorter than `t` bounds their number. -/
def scanWithin (bound : Text) (offset : Nat) (t : Text) : Tokens :=
  match bound with
  | [] => if t.isEmpty then stop offset .endOfInput else stop offset .unread
  | _ :: bound =>
    match Piece.read t with
    | .trivia cut => scanWithin bound (offset + cut.taken.length) cut.rest
    | .token token rest =>
      next offset token (scanWithin bound (offset + token.render.length) rest)
    | .stop why => stop offset why

/-- A bound that is long enough makes no difference. -/
theorem scanWithin_eq (bound other : Text) (offset : Nat) (t : Text)
    (h : t.length ≤ bound.length) (h' : t.length ≤ other.length) :
    scanWithin bound offset t = scanWithin other offset t := by
  induction bound generalizing other offset t with
  | nil =>
    obtain rfl : t = [] := List.length_eq_zero_iff.1 (Nat.le_zero.1 h)
    cases other with
    | nil => rfl
    | cons c other => rfl
  | cons b bound ih =>
    cases other with
    | nil =>
      obtain rfl : t = [] := List.length_eq_zero_iff.1 (Nat.le_zero.1 h')
      rfl
    | cons c other =>
      unfold scanWithin
      simp only [List.length_cons] at h h'
      split
      · rename_i cut hp
        have := Piece.length_lt_of_trivia hp
        exact ih _ _ _ (by omega) (by omega)
      · rename_i tok rest hp
        have := Piece.length_lt_of_token hp
        rw [ih other _ rest (by omega) (by omega)]
      · rfl

/-- The tokens of a text whose first character has the given offset. -/
def scanFrom (offset : Nat) (t : Text) : Tokens := scanWithin t offset t

/-- The tokens of a text. -/
def ofText (t : Text) : Tokens := scanFrom 0 t

/-- Scanning reads one piece and goes on behind it. -/
theorem scanFrom_eq (offset : Nat) (t : Text) :
    scanFrom offset t =
      match Piece.read t with
      | .trivia cut => scanFrom (offset + cut.taken.length) cut.rest
      | .token token rest => next offset token (scanFrom (offset + token.render.length) rest)
      | .stop why => stop offset why := by
  rw [scanFrom, scanWithin_eq t (' ' :: t) offset t (Nat.le_refl _) (by simp), scanWithin]
  split
  · rename_i cut hp
    have := Piece.length_lt_of_trivia hp
    exact scanWithin_eq _ _ _ _ (by omega) (Nat.le_refl _)
  · rename_i tok rest hp
    have := Piece.length_lt_of_token hp
    rw [scanFrom, scanWithin_eq t rest _ rest (by omega) (Nat.le_refl _)]
  · rfl

end Tokens

end DotNotation
