/-
# Parsers

A parser is applied in the frame of a rule to the tokens that are left.  It finds a value
and leaves the rest of the tokens, or it misses and leaves all of them, or it gives up
because its input nests too deeply or because a part that it builds is not well formed;
giving up ends the whole parse.  Whatever the reply, the outcome has a trace of what was
expected in vain.

Repetition is bounded by the tokens that are left, since every round takes at least one.
-/
import DotNotation.Parsing.Trace
import DotNotation.Syntax.Validity

namespace DotNotation

/-- Why a parse is given up: bodies nest too deeply, or a part has a defect. -/
inductive Abort where
  | tooDeep
  | invalid (defect : Defect)
deriving DecidableEq, Repr

/-- The reply of a parser. -/
inductive Reply (α : Type) where
  | found (value : α) (rest : Tokens)
  | missing
  | gaveUp (why : Abort)
deriving DecidableEq, Repr

/-- The reply of a parser with the trace that it leaves. -/
structure Outcome (α : Type) where
  /-- What the parser replied. -/
  reply : Reply α
  /-- What it expected in vain, and which bodies it opened. -/
  trace : Trace
deriving DecidableEq, Repr

/-- A parser for values of type `α`. -/
def Parser (α : Type) : Type := Frame → Tokens → Outcome α

namespace Parser

variable {α β : Type}

/-- The outcome with an earlier trace in front of its own. -/
def after (earlier : Trace) (outcome : Outcome α) : Outcome α :=
  { outcome with trace := earlier.join outcome.trace }

/-! ## Sequence and choice -/

/-- Find a value without taking a token. -/
def found (a : α) : Parser α := fun _ ts => ⟨.found a ts, .empty⟩

/-- Apply a parser, then the one chosen by its value. -/
def andThen (p : Parser α) (f : α → Parser β) : Parser β := fun frame ts =>
  match p frame ts with
  | ⟨.found a rest, trace⟩ => after trace (f a frame rest)
  | ⟨.missing, trace⟩ => ⟨.missing, trace⟩
  | ⟨.gaveUp why, trace⟩ => ⟨.gaveUp why, trace⟩

instance : Monad Parser where
  pure := found
  bind := andThen

/-- Miss because an expectation is not met. -/
def expected (e : Expectation) : Parser α := fun frame ts =>
  ⟨.missing, .unmet frame ts.offset e⟩

/-- Give up. -/
def gaveUp (why : Abort) : Parser α := fun _ _ => ⟨.gaveUp why, .empty⟩

/-- Find a part that was checked, or give up because of its defect. -/
def build : Except Defect α → Parser α
  | .ok a => found a
  | .error defect => gaveUp (.invalid defect)

/-- Apply a parser, and a second one in the same place if the first misses. -/
def orElse (p q : Parser α) : Parser α := fun frame ts =>
  match p frame ts with
  | ⟨.missing, trace⟩ => after trace (q frame ts)
  | outcome => outcome

/-- Apply a parser; if it misses, go on without its value. -/
def optional (p : Parser α) : Parser (Option α) := fun frame ts =>
  match p frame ts with
  | ⟨.found a rest, trace⟩ => ⟨.found (some a) rest, trace⟩
  | ⟨.missing, trace⟩ => ⟨.found none ts, trace⟩
  | ⟨.gaveUp why, trace⟩ => ⟨.gaveUp why, trace⟩

/-- Apply a parser as often as it finds something, at most once per token of `bound` and once
more in vain. -/
def manyWithin (bound : Tokens) (p : Parser α) : Parser (List α) :=
  match bound with
  | .stop _ _ => do
    match ← optional p with
    | some _ => gaveUp .tooDeep
    | none => return []
  | .next _ _ bound => do
    match ← optional p with
    | some a => return a :: (← manyWithin bound p)
    | none => return []

/-- Apply a parser as often as it finds something. -/
def many (p : Parser α) : Parser (List α) := fun frame ts => manyWithin ts p frame ts

/-- Apply the parsers in turn until one does not miss.  Without any parser nothing is found. -/
def firstOf : List (Parser α) → Parser α
  | [] => fun _ _ => ⟨.missing, .empty⟩
  | p :: ps => orElse p (firstOf ps)

/-- Apply a parser in the frame of a rule inside the present one. -/
def within (rule : Rule) (p : Parser α) : Parser α := fun frame ts =>
  p ⟨rule, frame.depth + 1⟩ ts

/-! ## Tokens -/

/-- Take a punctuation token. -/
def punct (p : Punct) : Parser Unit := fun frame ts =>
  match ts with
  | .next _ (.punct q) rest =>
    if p = q then ⟨.found () rest, .empty⟩ else expected (.punct p) frame ts
  | _ => expected (.punct p) frame ts

/-- Take the opening brace of a body, and record it. -/
def openBody : Parser Unit := fun frame ts =>
  match punct .openBrace frame ts with
  | ⟨.found a rest, _⟩ => ⟨.found a rest, .opening ts.offset⟩
  | outcome => outcome

/-- Take a keyword. -/
def keyword (k : Keyword) : Parser Unit := fun frame ts =>
  match ts with
  | .next _ (.id id) rest =>
    if id.isWord k.word then ⟨.found () rest, .empty⟩ else expected (.keyword k) frame ts
  | _ => expected (.keyword k) frame ts

/-- Take any identifier.  A quoted text or label that is never closed is reported as such. -/
def anyId : Parser Id := fun frame ts =>
  match ts with
  | .next _ (.id id) rest => ⟨.found id rest, .empty⟩
  | .stop _ .openQuote => expected .closingQuote frame ts
  | .stop _ .openLabel => expected .closingBracket frame ts
  | _ => expected .id frame ts

/-- Take the word of a compass point. -/
def compassPoint : Parser Compass := fun frame ts =>
  match ts with
  | .next _ (.id id) rest =>
    if id.kind = .plain then
      match Compass.ofWord? id.value with
      | some c => ⟨.found c rest, .empty⟩
      | none => expected .compassPoint frame ts
    else expected .compassPoint frame ts
  | _ => expected .compassPoint frame ts

/-- Nothing may be left. -/
def finished : Parser Unit := fun frame ts =>
  match ts with
  | .stop _ .endOfInput => ⟨.found () ts, .empty⟩
  | _ => expected .endOfInput frame ts

end Parser

end DotNotation
