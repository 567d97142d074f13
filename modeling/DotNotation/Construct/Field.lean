/-
# Fields and displays

What a part of a tree holds can be asked for by the name of the field; a value without that
field is at fault.  A value can also be displayed: a text as it is, an identifier as it is
written, and anything else by name or in literal form.
-/
import DotNotation.Construct.Literal

namespace DotNotation

/-- The fields that parts of trees are asked for. -/
inductive Field where
  | id
  | kind
  | value
  | text
  | port
  | compass
  | key
  | chain
  | body
  | directed
deriving DecidableEq, Repr

/-- The name of a field. -/
def Field.name : Field → Text
  | id => "id".toList
  | kind => "kind".toList
  | value => "value".toList
  | text => "text".toList
  | port => "port".toList
  | compass => "compass".toList
  | key => "key".toList
  | chain => "chain".toList
  | body => "body".toList
  | directed => "directed".toList

namespace Value

/-- What an identifier means: guarding backslashes of quoted text are resolved, and anything else
is taken as it is. -/
def meaning (kind value : Value) : Value :=
  match kind.idKind?, value with
  | some .quoted, text t => text (Lexical.unescape t)
  | _, _ => value

/-- What a value has in a field. -/
def field? : Field → Value → Option Value
  | .id, port name _ => some name
  | .id, nodeId name _ => some name
  | .id, node ref _ => some ref
  | .id, subgraph name _ => some name
  | .id, graph _ _ name _ => some name
  | .kind, id kind _ => some kind
  | .value, id _ value => some value
  | .value, attr _ value => some value
  | .value, member m => some m.content
  | .value, argument .custom content => some content
  | .text, id kind value => some (meaning kind value)
  | .port, nodeId _ place => some place
  | .compass, port _ compass => some compass
  | .key, attr key _ => some key
  | .chain, edge chain _ => some (tuple chain)
  | .body, subgraph _ body => some (tuple body)
  | .body, graph _ _ _ body => some (tuple body)
  | .directed, graph _ directed _ _ => some directed
  | _, _ => none

/-- The fault of using a value that lacks a field. -/
def lacks {α : Type} (v : Value) (f : Field) : Built α := .error (.noField v.typeName f.name)

/-- What a value has in a field that it must have. -/
def field (v : Value) (f : Field) : Built Value :=
  match v.field? f with
  | some w => .ok w
  | none => v.lacks f

/-- The written form of an identifier.  When it is not written in one of the known ways its
value must be a text. -/
def written (kind value : Value) : Built Text :=
  match kind.idKind?, value with
  | some kind, text t => .ok (Id.mk kind t).render
  | some .html, other => do return '<' :: (← other.literal) ++ ['>']
  | _, text t => .ok t
  | _, other => .error (.notWritten other.typeName)

/-- The text that a value displays as. -/
def display : Value → Built Text
  | text t => .ok t
  | id kind value => written kind value
  | member m => .ok m.path
  | other => other.literal

end Value

end DotNotation
