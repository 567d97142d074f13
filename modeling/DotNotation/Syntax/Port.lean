/-
# Ports and node references

A node is referred to by its identifier and, at an end of an edge, by an optional port on
its border: a named port, a compass point, or a named port with a compass point.
-/
import DotNotation.Syntax.Id

namespace DotNotation

/-- The places on the border of a node. -/
inductive Compass where
  | north
  | northEast
  | east
  | southEast
  | south
  | southWest
  | west
  | northWest
  | center
  | any
deriving DecidableEq, Repr

namespace Compass

/-- All compass points, clockwise from the north; the centre and the free choice come last. -/
def all : List Compass :=
  [north, northEast, east, southEast, south, southWest, west, northWest, center, any]

/-- The word for a compass point. -/
def word : Compass → Text
  | north => ['n']
  | northEast => ['n', 'e']
  | east => ['e']
  | southEast => ['s', 'e']
  | south => ['s']
  | southWest => ['s', 'w']
  | west => ['w']
  | northWest => ['n', 'w']
  | center => ['c']
  | any => ['_']

/-- The compass point with the given word. -/
def ofWord? (t : Text) : Option Compass := all.find? (·.word == t)

theorem mem_all (c : Compass) : c ∈ all := by
  cases c <;> decide

@[simp] theorem ofWord?_word (c : Compass) : ofWord? c.word = some c := by
  cases c <;> rfl

theorem word_of_ofWord? {t : Text} {c : Compass} (h : ofWord? t = some c) : c.word = t := by
  have := List.find?_some h
  simpa using this

end Compass

/-- A port: a named port of the node, a compass point, or both. -/
structure Port where
  /-- The name of the port. -/
  id : Option Id := none
  /-- The compass point. -/
  compass : Option Compass := none
deriving DecidableEq, Repr

/-- A reference to a node, with the port that is meant. -/
structure NodeId where
  /-- The identifier of the node. -/
  id : Id
  /-- The port. -/
  port : Option Port := none
deriving DecidableEq, Repr

namespace NodeId

/-- Is this the reference by the given bare word, without a port? -/
def isWord (node : NodeId) (word : Text) : Bool := node.port.isNone && node.id.isWord word

end NodeId

end DotNotation
