/-
# The grammar of documents

Each rule of the grammar is a parser.  A statement is tried as default attributes first;
otherwise its first vertex is read once, and what follows decides whether it is an edge, a
subgraph, an attribute of the enclosing graph, or a node.  Alternatives are tried in this
order, and the first that matches is taken.  Parts that can have a defect are checked as they
are built.

Bodies nest in subgraphs.  The parser of a body takes the number of further bodies that may
be opened inside it; at the limit it gives up.  The limit is the one thing here that is chosen
(`Grammar.maxNesting`).
-/
import DotNotation.Parsing.Parser
import DotNotation.Syntax.Statement

namespace DotNotation

namespace Grammar

open DotNotation.Parser

/-! ## Identifiers and ports -/

/-- An identifier. -/
def id : Parser Id := within .id do
  let name ← anyId
  build (Id.make name.kind name.value)

/-- The port that two written parts mean: a lone plain word for a compass point is that
compass point. -/
def portOf (first : Id) (compass : Option Compass) : Except Defect Port :=
  match compass with
  | some c => Port.make (some first) (some c)
  | none =>
    match first.kind, Compass.ofWord? first.value with
    | .plain, some c => Port.make none (some c)
    | _, _ => Port.make (some first) none

/-- A port: a colon and an identifier, then perhaps a colon and a compass point. -/
def port : Parser Port := within .port do
  punct .colon
  let first ← id
  let compass ← optional do
    punct .colon
    within .compass compassPoint
  build (portOf first compass)

/-- A node reference. -/
def nodeId : Parser NodeId := within .nodeId do
  let name ← id
  let port ← optional port
  return ⟨name, port⟩

/-! ## Attributes -/

/-- An attribute: two identifiers with an equals sign between them. -/
def assignment : Parser Attribute := within .assign do
  let key ← id
  punct .equals
  let value ← id
  return ⟨key, value⟩

/-- The attributes between one pair of brackets, each with an optional separator after it. -/
def attributeGroup : Parser (List Attribute) := do
  punct .openBracket
  let attrs ← many do
    let attr ← assignment
    let _ ← optional (orElse (punct .semicolon) (punct .comma))
    return attr
  punct .closeBracket
  return attrs

/-- One or more bracketed groups, as one list. -/
def attributeList : Parser (List Attribute) := within .attributeList do
  let first ← attributeGroup
  let others ← many attributeGroup
  return first ++ others.flatten

/-- An attribute list that may be left out. -/
def attributes : Parser (List Attribute) := do
  return (← optional attributeList).getD []

/-- Default attributes for one target. -/
def defaultsFor (target : Target) : Parser Statement := do
  keyword target.keyword
  let attrs ← attributeList
  return .defaults target attrs

/-- Default attributes. -/
def defaults : Parser Statement := within .defaults (firstOf (Target.all.map defaultsFor))

/-! ## Statements, given a parser for bodies -/

/-- A subgraph: a body, with the keyword and a name before it or not. -/
def subgraph (body : Parser (List Statement)) : Parser Subgraph := within .subgraph do
  let marked ← optional (keyword .subgraph)
  let name ← if marked.isSome then optional id else pure none
  let statements ← body
  return .mk name statements

/-- A vertex: a subgraph or a node reference. -/
def vertex (body : Parser (List Statement)) : Parser Vertex := within .vertex <|
  firstOf [
    do return .subgraph (← subgraph body),
    do return .node (← nodeId),
    expected .vertex]

/-- One step along an edge chain. -/
def hop (body : Parser (List Statement)) : Parser Vertex := do
  orElse (punct .arrow) (punct .line)
  vertex body

/-- The steps that follow the first vertex of an edge chain; there may be none. -/
def hops (body : Parser (List Statement)) : Parser (List Vertex) := within .edge (many (hop body))

/-- What follows a node reference that starts no edge: an equals sign and a value make it an
attribute, anything else leaves it a node. -/
def nodeOrAttribute (name : NodeId) : Parser Statement := do
  let assigned ← if name.port.isNone then optional (punct .equals) else pure none
  match assigned with
  | some _ => return .assign ⟨name.id, ← id⟩
  | none => build (Statement.makeNode name (← attributes))

/-- A statement that starts with a vertex. -/
def vertexStatement (body : Parser (List Statement)) : Parser Statement := do
  let head ← vertex body
  let more ← hops body
  if more.isEmpty then
    match head with
    | .subgraph group => return .subgraph group
    | .node name => nodeOrAttribute name
  else
    build (Statement.makeEdge (head :: more) (← attributes))

/-- A statement. -/
def statement (body : Parser (List Statement)) : Parser Statement :=
  within .statement (orElse defaults (vertexStatement body))

/-- A statement with an optional semicolon after it. -/
def terminated (body : Parser (List Statement)) : Parser Statement := do
  let s ← statement body
  let _ ← optional (punct .semicolon)
  return s

/-! ## Bodies and documents -/

/-- A body inside which at most `room` further bodies may be open at once. -/
def body : (room : Nat) → Parser (List Statement)
  | 0 => within .body do
    openBody
    gaveUp .tooDeep
  | room + 1 => within .body do
    openBody
    let statements ← many (terminated (body room))
    punct .closeBrace
    return statements

/-- The number of bodies that may be open at once.  There is no such constant in the nature of a
recursive reader, which goes on until the room for its calls is used up: a body in a chain takes
more of it than a body that is a statement, and the caller has taken some already, so the depth at
which it gives up differs from path to path.  The limit stands for all of these.  It is more than
the 81 bodies that have to be read on every path, and less than the 600 that are given up on every
path. -/
def maxNesting : Nat := 120

/-- A graph. -/
def graph : Parser Graph := within .graph do
  let strict ← optional (keyword .strict)
  let directed ← orElse
    (do keyword .digraph; return true)
    (do keyword .graph; return false)
  let name ← optional id
  let statements ← body maxNesting
  return ⟨strict.isSome, directed, name, statements⟩

/-- A document: one graph and nothing else. -/
def file : Parser Graph := within .file do
  let g ← graph
  finished
  return g

/-- A single statement and nothing else. -/
def fragment : Parser Statement := within .fragment do
  let s ← terminated (body maxNesting)
  finished
  return s

end Grammar

/-! ## Entry points -/

/-- Why a text is not a document. -/
inductive ParseError where
  | tooDeep
  | unexpected (failure : Failure)
deriving DecidableEq, Repr

/-- The frame in which a parse starts: no rule encloses it. -/
def Frame.outermost : Frame := ⟨.file, 0⟩

namespace Outcome

/-- The failure to report when nothing was found. -/
def failure {α : Type} (outcome : Outcome α) : Failure :=
  outcome.trace.failure.getD ⟨0, .outermost, []⟩

/-- The value found, or why there is none.  No part that is read has a defect, so whatever is
given up nests too deeply. -/
def result {α : Type} (outcome : Outcome α) : Except ParseError α :=
  match outcome.reply with
  | .found a _ => .ok a
  | .missing => .error (.unexpected outcome.failure)
  | .gaveUp _ => .error .tooDeep

end Outcome

/-- Apply a parser to a whole text. -/
def Parser.run {α : Type} (p : Parser α) (source : Text) : Outcome α :=
  p .outermost (Tokens.ofText source)

/-- Read a document. -/
def Graph.parse (source : Text) : Except ParseError Graph := (Grammar.file.run source).result

/-- Read a single statement. -/
def Statement.parse (source : Text) : Except ParseError Statement :=
  (Grammar.fragment.run source).result

/-- The places at which a body is opened while a document is read, in order. -/
def Graph.openings (source : Text) : List Nat := (Grammar.file.run source).trace.opened

end DotNotation
