/-
# Traces

A parser leaves a trace of what it looked for in vain.  Only failures at the furthest place
matter: the trace keeps that place, everything that was expected there, and the outermost
grammar rule that expected something there.  A trace also records where bodies were opened.
Traces are joined in the order of the attempts; `Trace.empty` is neutral and `Trace.join` is
associative.
-/
import DotNotation.Token
import DotNotation.Text.Literal

namespace DotNotation

/-- What a parser can look for. -/
inductive Expectation where
  | punct (p : Punct)
  | keyword (k : Keyword)
  | id
  | vertex
  | compassPoint
  | endOfInput
  | closingQuote
  | closingBracket
deriving DecidableEq, Repr

namespace Expectation

/-- How an expectation is reported: a fixed token in literal form, anything else by a name. -/
def text : Expectation → Text
  | punct p => p.text.literal
  | keyword k => k.word.literal
  | id => "id".toList
  | vertex => "vertex".toList
  | compassPoint => "compass point".toList
  | endOfInput => "end of input".toList
  | closingQuote => "closing '\"'".toList
  | closingBracket => "closing '>'".toList

end Expectation

/-- The rules of the grammar. -/
inductive Rule where
  | file
  | fragment
  | graph
  | body
  | subgraph
  | statement
  | defaults
  | edge
  | vertex
  | nodeId
  | port
  | compass
  | assign
  | attributeList
  | id
deriving DecidableEq, Repr

namespace Rule

/-- How a rule is reported. -/
def name : Rule → Text
  | file => "file".toList
  | fragment => "fragment".toList
  | graph => "graph".toList
  | body => "body".toList
  | subgraph => "subgraph".toList
  | statement => "stmt".toList
  | defaults => "attr_stmt".toList
  | edge => "edge_stmt".toList
  | vertex => "vertex".toList
  | nodeId => "node_id".toList
  | port => "port".toList
  | compass => "compass".toList
  | assign => "bare_attr".toList
  | attributeList => "attr_list".toList
  | id => "id".toList

end Rule

/-- The rule that is being applied, and how many rules enclose it. -/
structure Frame where
  /-- The rule. -/
  rule : Rule
  /-- The number of rules on the way down to it. -/
  depth : Nat
deriving DecidableEq, Repr

/-- The failures at one place. -/
structure Failure where
  /-- The place. -/
  offset : Nat
  /-- The outermost rule that failed there, the first one of those at its depth. -/
  frame : Frame
  /-- What was expected there. -/
  expected : List Expectation
deriving DecidableEq, Repr

namespace Failure

/-- Add what is not yet there. -/
def unite (old new : List Expectation) : List Expectation :=
  old ++ new.filter fun e => !old.contains e

/-- Join an earlier failure with a later one: the further place wins, and at the same place
the expectations unite under the outer frame. -/
def join (earlier later : Failure) : Failure :=
  if earlier.offset < later.offset then later
  else if later.offset < earlier.offset then earlier
  else
    { offset := earlier.offset
      frame := if later.frame.depth < earlier.frame.depth then later.frame else earlier.frame
      expected := unite earlier.expected later.expected }

theorem mem_unite {e : Expectation} {old new : List Expectation} :
    e ∈ unite old new ↔ e ∈ old ∨ e ∈ new := by
  by_cases h : e ∈ old <;> simp [unite, h]

theorem unite_assoc (a b c : List Expectation) : unite (unite a b) c = unite a (unite b c) := by
  simp only [unite, List.append_assoc, List.filter_append, List.filter_filter]
  congr 2
  apply List.filter_congr
  intro e _
  by_cases ha : e ∈ a <;> by_cases hb : e ∈ b <;> simp [ha, hb]

theorem join_assoc (f g h : Failure) : (f.join g).join h = f.join (g.join h) := by
  unfold join
  grind [unite_assoc]

end Failure

/-- The trace of an attempt to parse. -/
structure Trace where
  /-- The failures at the furthest place, if anything failed. -/
  failure : Option Failure
  /-- The places at which a body was opened, in order. -/
  opened : List Nat
deriving DecidableEq, Repr

namespace Trace

/-- Nothing failed and nothing was opened. -/
def empty : Trace := ⟨none, []⟩

/-- The trace of one expectation that was not met. -/
def unmet (frame : Frame) (offset : Nat) (e : Expectation) : Trace :=
  ⟨some ⟨offset, frame, [e]⟩, []⟩

/-- The trace of opening a body. -/
def opening (offset : Nat) : Trace := ⟨none, [offset]⟩

/-- Join the traces of two successive attempts. -/
def join (earlier later : Trace) : Trace where
  failure := match earlier.failure, later.failure with
    | some f, some g => some (f.join g)
    | some f, none => some f
    | none, g => g
  opened := earlier.opened ++ later.opened

@[simp] theorem empty_join (t : Trace) : empty.join t = t := by
  simp [empty, join]

@[simp] theorem join_empty (t : Trace) : t.join empty = t := by
  obtain ⟨failure, opened⟩ := t
  cases failure <;> simp [empty, join]

theorem join_assoc (s t u : Trace) : (s.join t).join u = s.join (t.join u) := by
  obtain ⟨f, xs⟩ := s
  obtain ⟨g, ys⟩ := t
  obtain ⟨h, zs⟩ := u
  cases f <;> cases g <;> cases h <;> simp [join, Failure.join_assoc]

end Trace

end DotNotation
