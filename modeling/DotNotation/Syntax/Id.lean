/-
# Identifiers

An identifier is written plainly, between double quotes, or between angle brackets.  It
keeps what was written: the plain text, the still guarded text between the quotes, or the
text inside the outer brackets.  Two identifiers name the same thing when their meanings,
`Id.text`, agree.
-/
import DotNotation.Lexical.Plain
import DotNotation.Lexical.Quoted
import DotNotation.Lexical.Label

namespace DotNotation

/-- The three ways to write an identifier. -/
inductive IdKind where
  | plain
  | quoted
  | html
deriving DecidableEq, Repr

/-- An identifier as it is written. -/
structure Id where
  /-- How it is written. -/
  kind : IdKind
  /-- What is written, without the enclosing quotes or brackets. -/
  value : Text
deriving DecidableEq, Repr

/-- The words with a meaning of their own at the start of a graph or a statement. -/
inductive Keyword where
  | strict
  | graph
  | digraph
  | subgraph
  | node
  | edge
deriving DecidableEq, Repr

namespace Keyword

/-- All keywords. -/
def all : List Keyword := [strict, graph, digraph, subgraph, node, edge]

/-- The spelling of a keyword. -/
def word : Keyword → Text
  | strict => "strict".toList
  | graph => "graph".toList
  | digraph => "digraph".toList
  | subgraph => "subgraph".toList
  | node => "node".toList
  | edge => "edge".toList

/-- Is the text a keyword? -/
def isKeyword (t : Text) : Bool := all.any (·.word == t)

end Keyword

namespace Id

/-- The plain identifier with the given text. -/
def ofPlain (value : Text) : Id := ⟨.plain, value⟩

/-- The quoted identifier that means the given text. -/
def quote (raw : Text) : Id := ⟨.quoted, Lexical.escape raw⟩

/-- The identifier that means the given text: plain when that can be read back, quoted
otherwise.  Keywords are quoted. -/
def ofText (t : Text) : Id :=
  if Lexical.isPlain t && !Keyword.isKeyword t then ofPlain t else quote t

/-- What an identifier means: guarding backslashes of quoted text are resolved. -/
def text (id : Id) : Text :=
  match id.kind with
  | .quoted => Lexical.unescape id.value
  | _ => id.value

/-- The written form of an identifier. -/
def render (id : Id) : Text :=
  match id.kind with
  | .plain => id.value
  | .quoted => '"' :: id.value ++ ['"']
  | .html => '<' :: id.value ++ ['>']

/-- Can the value be written in this way? -/
def isValid (id : Id) : Bool :=
  match id.kind with
  | .plain => Lexical.isPlain id.value
  | .quoted => Lexical.isQuotedBody id.value
  | .html => Lexical.isLabelBody id.value

/-- Is this the plain identifier with the given text? -/
def isWord (id : Id) (word : Text) : Bool := id.kind == .plain && id.value == word

end Id

end DotNotation
