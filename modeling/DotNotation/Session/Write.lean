/-
# Writing values

A printer writes loosely typed values.  It takes a value for the part that its caller says it
is and asks it for the fields of such a part, so a value that lacks one of them, here or
anywhere inside, is at fault at the moment when it is asked.
-/
import DotNotation.Construct.Build
import DotNotation.Session.Printer

namespace DotNotation.Value

/-! ## Parts without a body -/

/-- Write a value as itself. -/
def shown (v : Value) : Work Text := Work.given v.display

/-- Write a value between two texts, or nothing if it is absent. -/
def enclosed (before after : Text) (v : Value) : Work Text :=
  if v.isAbsent then return [] else do return before ++ (← v.shown) ++ after

/-- Write a value as a port. -/
def writePort (v : Value) : Work Text := do
  let name ← (← Work.given (v.field .id)).enclosed [':'] []
  let compass ← Work.given (v.field .compass)
  if compass.isAbsent then return name
  let point ← Work.given (compass.field .value)
  return name ++ ':' :: (← point.shown)

/-- Write a value as a node reference. -/
def writeNodeId (v : Value) : Work Text := do
  let port ← Work.given (v.field .port)
  let name ← (← Work.given (v.field .id)).shown
  if port.isAbsent then return name
  return name ++ (← port.writePort)

/-- Write a value as an attribute. -/
def writeAttribute (v : Value) : Work Text := do
  let key ← (← Work.given (v.field .key)).shown
  return key ++ '=' :: (← (← Work.given (v.field .value)).shown)

/-- Write values as a bracketed attribute list. -/
def writeBrackets (attrs : List Value) : Work Text := do
  let sep ← Work.look fun printer => printer.pen.separator
  let texts ← attrs.mapM writeAttribute
  return '[' :: Text.join sep texts ++ [']']

/-- Write values as an attribute list, which is left out when there are none. -/
def writeAttributes (attrs : List Value) : Work Text :=
  if attrs.isEmpty then return [] else writeBrackets attrs

/-! ## Statements -/

/-- Is the value a node reference by the bare word for a subgraph? -/
def isBareSubgraph (v : Value) : Built Bool :=
  match v with
  | nodeId _ _ => do return (← v.bareWord?) == some Keyword.subgraph.word
  | _ => .ok false

/-- Would an identifier or body right after the statement be read as its name or body? -/
def endsInBareSubgraph : Value → Built Bool
  | node ref [] => ref.isBareSubgraph
  | edge chain [] => match chain.getLast? with
    | some v => v.isBareSubgraph
    | none => .ok false
  | _ => .ok false

/-- Put a semicolon after a written statement, where one is wanted or needed. -/
def terminate (v : Value) (text : Text) : Work Text := do
  if ← Work.look (·.settings.useSemicolons) then return text ++ [';']
  if ← Work.given v.endsInBareSubgraph then return text ++ [';']
  return text

/-- Write the head of a subgraph and its body, given the work for its statements. -/
def writeGroup (name : Value) (statements : List (Work Text)) : Work Text := do
  let title ← name.enclosed [] [' ']
  return "subgraph ".toList ++ title ++ (← Work.braces statements)

/-- Write a chain with its attributes, given the work for each vertex. -/
def writeChain (vertices : List (Work Text)) (attrs : List Value) : Work Text := do
  let arrow ← Work.look fun printer => printer.pen.arrow
  let texts ← vertices.mapM fun w => w
  let list ← writeAttributes attrs
  return Text.join arrow texts ++ ' ' :: list

/-- Write default attributes. -/
def writeDefaults (target : Value) (attrs : List Value) : Work Text := do
  let word ← Work.given (target.field .value)
  let list ← writeBrackets attrs
  match word with
  | text t => return t ++ list
  | other => Work.fail (.notJoined other.typeName (text []).typeName)

mutual

/-- Write a value as a statement without a semicolon after it. -/
def writeBare : Value → Work Text
  | node ref attrs => do return (← ref.writeNodeId) ++ (← writeAttributes attrs)
  | edge chain attrs => Work.edge (writeChain (vertexWork chain) attrs)
  | subgraph name body => writeGroup name (statementWork body)
  | attr key value => (attr key value).writeAttribute
  | defaults target attrs => writeDefaults target attrs
  | other => Work.fail (.unprintable other.typeName)

/-- The work for the statements of a body. -/
def statementWork : List Value → List (Work Text)
  | [] => []
  | s :: rest => (do s.terminate (← s.writeBare)) :: statementWork rest

/-- Write a vertex of a chain. -/
def writeVertex : Value → Work Text
  | subgraph name body => writeGroup name (statementWork body)
  | other => other.writeNodeId

/-- The work for the vertices of a chain. -/
def vertexWork : List Value → List (Work Text)
  | [] => []
  | v :: rest => v.writeVertex :: vertexWork rest

end

/-- Write a value as a statement. -/
def writeStatement (v : Value) : Work Text := do v.terminate (← v.writeBare)

/-! ## Parts that a printer is called for -/

/-- Write a value as an edge. -/
def writeEdge : Value → Work Text
  | edge chain attrs => Work.edge (writeChain (vertexWork chain) attrs)
  | other => Work.given (other.lacks .chain)

/-- Write a value as a subgraph; a graph has all that this takes. -/
def writeSubgraph : Value → Work Text
  | subgraph name body => writeGroup name (statementWork body)
  | graph _ _ name body => writeGroup name (statementWork body)
  | other => do
    let name ← Work.given (other.field .id)
    let _ ← name.shown
    Work.given (other.lacks .body)

/-- Write a value as a body. -/
def writeBody (v : Value) : Work Text :=
  if v.truth then do Work.braces (statementWork (← Work.given v.items)) else Work.braces []

/-- Write a value as an attribute list; an empty one is left out unless it is wanted. -/
def writeAttributeList (v : Value) (always : Bool) : Work Text :=
  if v.truth || always then do writeBrackets (← Work.given v.items) else return []

/-- Write a value as a graph; from then on edges are directed as in that graph. -/
def writeGraph : Value → Work Text
  | graph strict directed name body => do
    Work.direct directed.truth
    let mark := if strict.truth then "strict ".toList else []
    let title ← name.enclosed [] [' ']
    let head := mark ++ Graph.kindWord directed.truth ++ ' ' :: title
    return head ++ (← Work.braces (statementWork body))
  | other => Work.given (other.lacks .directed)

/-- Write a value by what it is. -/
def write : Value → Work Text
  | graph strict directed name body => (graph strict directed name body).writeGraph
  | nodeId name place => (nodeId name place).writeNodeId
  | port name compass => (port name compass).writePort
  | id kind value => (id kind value).shown
  | other => other.writeStatement

end DotNotation.Value
