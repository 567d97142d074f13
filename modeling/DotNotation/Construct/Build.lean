/-
# Building trees by hand

The functions that build parts of trees from loosely typed values.  Some take their arguments
as they are and make only the checks that keep a part writable; others first turn numbers,
truth values, texts and members of vocabularies into identifiers, and anything that is no
vertex into a node reference.
-/
import DotNotation.Construct.Field
import DotNotation.Construct.Signature
import DotNotation.Construct.Tree
import DotNotation.Parsing.Document

namespace DotNotation

/-! ## Turning values into parts -/

namespace Value

/-- The identifier that a value stands for when it is not one already. -/
def coerced : Value → Built Id
  | text t => .ok (Id.ofText t)
  | bool b => .ok (Id.ofPlain (if b then "true".toList else "false".toList))
  | member m => .ok (Id.ofText m.valueText)
  | other => do return Id.ofText (← other.literal)

/-- The value as an identifier. -/
def toId : Value → Built Value
  | id kind value => .ok (id kind value)
  | other => do return (← other.coerced).toValue

/-- The value as an identifier, if it is not absent. -/
def toName : Value → Built Value
  | absent => .ok absent
  | other => other.toId

/-- The value as a node reference. -/
def toNodeId : Value → Built Value
  | nodeId name place => .ok (nodeId name place)
  | other => do return nodeId (← other.toId) absent

/-- The value as a vertex. -/
def toVertex (v : Value) : Built Value := if v.isVertex then .ok v else v.toNodeId

/-- The values in a sequence; the members of a text are its characters. -/
def items : Value → Built (List Value)
  | list vs => .ok vs
  | tuple vs => .ok vs
  | text t => .ok (t.map fun c => text [c])
  | other => .error (.notIterable other.typeName)

/-- The number of values in a sequence. -/
def size : Value → Built Nat
  | list vs => .ok vs.length
  | tuple vs => .ok vs.length
  | text t => .ok t.length
  | other => .error (.noLength other.typeName)

/-- Values all of which must pass a test. -/
def allOf (wanted : Wanted) (test : Value → Bool) (vs : List Value) : Built (List Value) :=
  match vs.find? fun v => !test v with
  | some v => .error (.wrongType wanted v.typeName)
  | none => .ok vs

/-- Values that must be attributes. -/
def attributes (vs : List Value) : Built (List Value) := allOf .attribute isAttribute vs

/-- Values that must be statements. -/
def statements (vs : List Value) : Built (List Value) := allOf .statement isStatement vs

/-- A value that must be a text. -/
def asText : Value → Built Text
  | text t => .ok t
  | other => .error (.notText other.typeName)

/-- The member of a vocabulary, given itself or by its word. -/
def asMember (v : Vocabulary) (w : Value) : Built Value :=
  let found := match w with
    | member m => if m.vocabulary = v then some m else none
    | text t => v.memberOf? t
    | _ => none
  match found with
  | some m => .ok (member m)
  | none => do throw (.notMember (← w.literal) v)

end Value

/-! ## Checked parts -/

namespace Value

/-- An identifier written in the given way. -/
def makeId (kind : IdKind) (v : Value) : Built Value :=
  match kind, v with
  | kind, text t => do return (← Built.checked (Id.make kind t)).toValue
  | .html, other => do
    let shown ← other.display
    let size ← other.size
    if Lexical.labelLength ('<' :: shown ++ ['>']) = some (size + 2) then
      return id (member kind.member) other
    else throw (.looseLabel (← other.literal))
  | _, other => .error (.notText other.typeName)

/-- A port, which needs a name or a compass point. -/
def makePort (name compass : Value) : Built Value :=
  if name.isAbsent && compass.isAbsent then .error (.defect .emptyPort)
  else .ok (port name compass)

/-- The word that names a node, if it is a plain one and there is no port. -/
def bareWord? (v : Value) : Built (Option Text) := do
  if !(← v.field .port).isAbsent then return none
  let name ← v.field .id
  let kind ← name.field .kind
  match kind.idKind?, ← name.field .value with
  | some .plain, text t => return some t
  | _, _ => return none

/-- A node statement, unless it would read as default attributes. -/
def makeNode (name : Value) (attrs : List Value) : Built Value := do
  let attrs ← attributes attrs
  if attrs.isEmpty then return node name attrs
  match ← name.bareWord? with
  | some word =>
    if (Target.ofWord? word).isSome then throw (.defect (.keywordNode word))
    return node name attrs
  | none => return node name attrs

/-- An edge statement: first the length of its chain is checked, then its vertices, then its
attributes. -/
def makeEdge (chain : List Value) (attrs : Built (List Value)) : Built Value := do
  if chain.length < 2 then throw (.defect (.shortChain chain.length))
  let chain ← allOf .vertex isVertex chain
  return edge chain (← attributes (← attrs))

/-- Add statements to a graph or subgraph. -/
def extend (v : Value) (more : List Value) : Built Value :=
  match v with
  | graph strict directed name body => do
    return graph strict directed name (body ++ (← statements more))
  | subgraph name body => do return subgraph name (body ++ (← statements more))
  | other => .error (.noField other.typeName "extended".toList)

end Value

/-! ## Functions -/

/-- The functions that build values. -/
inductive Function where
  | id
  | escaped
  | html
  | attr
  | port
  | nodeId
  | node
  | edge
  | subgraph
  | defaults
  | graph
  | exactId
  | exactPort
  | exactNodeId
  | exactAttribute
  | exactNode
  | exactSubgraph
  | exactEdge
  | exactDefaults
  | exactGraph
  | plainId
  | quotedId
  | htmlId
  | quoteId
  | idOfText
  | extended
  | parseGraph
  | parseStatement
  | compassPoint
  | helper (e : Element) (name : Text)
  | argument (kind : ArgumentKind)
deriving DecidableEq, Repr

namespace Function

/-- The empty sequence. -/
def nothing : Value := .tuple []

/-- The parameters of a function. -/
def signature : Function → Signature
  | id => { title := "id_", required := ["value"] }
  | escaped => { title := "esc", required := ["text"] }
  | html => { title := "html", required := ["text"] }
  | attr => { title := "attr", required := ["key", "value"] }
  | port => { title := "port", optional := [("id", .absent), ("compass", .absent)] }
  | nodeId => { title := "node_id", required := ["id"], optional := [("port", .absent)] }
  | node => { title := "node", required := ["id"], variadic := true }
  | edge => { title := "edge", variadic := true, named := [("attrs", nothing)] }
  | subgraph => { title := "subgraph", optional := [("id", .absent)], variadic := true }
  | defaults => { title := "attr_stmt", required := ["target"], variadic := true }
  | graph =>
    { title := "graph", optional := [("id", .absent)], variadic := true,
      named := [("strict", .bool false), ("directed", .bool false)] }
  | exactId => { title := "Id.__init__", receivers := 1, required := ["kind", "value"] }
  | exactPort =>
    { title := "Port.__init__", receivers := 1,
      optional := [("id", .absent), ("compass", .absent)] }
  | exactNodeId =>
    { title := "NodeId.__init__", receivers := 1, required := ["id"],
      optional := [("port", .absent)] }
  | exactAttribute =>
    { title := "Attribute.__init__", receivers := 1, required := ["key", "value"] }
  | exactNode =>
    { title := "Node.__init__", receivers := 1, required := ["id"],
      optional := [("attrs", nothing)] }
  | exactSubgraph =>
    { title := "Subgraph.__init__", receivers := 1,
      optional := [("id", .absent), ("body", nothing)] }
  | exactEdge =>
    { title := "Edge.__init__", receivers := 1, required := ["chain"],
      optional := [("attrs", nothing)] }
  | exactDefaults =>
    { title := "AttributeStatement.__init__", receivers := 1, required := ["target"],
      optional := [("attrs", nothing)] }
  | exactGraph =>
    { title := "Graph.__init__", receivers := 1,
      optional := [("strict", .bool false), ("directed", .bool false), ("id", .absent),
        ("body", nothing)] }
  | plainId => { title := "Id.plain", receivers := 1, required := ["value"] }
  | quotedId => { title := "Id.quoted", receivers := 1, required := ["value"] }
  | htmlId => { title := "Id.html", receivers := 1, required := ["value"] }
  | quoteId => { title := "Id.quote", receivers := 1, required := ["raw"] }
  | idOfText => { title := "Id.of", receivers := 1, required := ["text"] }
  | extended => { title := "extended", required := ["value"], variadic := true }
  | parseGraph => { title := "parse", required := ["src"] }
  | parseStatement => { title := "parse_statement", required := ["src"] }
  | compassPoint => { title := "CompassPoint.parse", receivers := 1, required := ["text"] }
  | helper _ _ => { title := "_named.<locals>.helper", required := ["value"] }
  | argument kind =>
    { title := String.ofList (kind.typeName ++ ".__init__".toList), receivers := 1,
      required := [kind.fieldName] }

/-- The attribute with the given key and a value for it. -/
def attributeOf (key value : Value) : Built Value := do
  let key ← key.toId
  return .attr key (← value.toId)

/-- Build a port from a name and a compass point, which may be given by its word. -/
def buildPort (name compass : Value) : Built Value := do
  let compass ← match compass with
    | .text t => Value.asMember .compassPoint (.text t)
    | other => pure other
  Value.makePort (← name.toName) compass

/-- Check an identifier when it is to be written in one of the known ways. -/
def checkId (kind value : Value) : Built Value :=
  match kind.idKind? with
  | some kind => Value.makeId kind value
  | none => .ok (.id kind value)

/-- Build a quoted identifier that means the given text. -/
def quote (v : Value) : Built Value := do return (Id.quote (← v.asText)).toValue

/-- Read a document. -/
def readGraph (v : Value) : Built Value := do
  let source ← v.asText
  match Graph.parse source with
  | .ok g => return g.toValue
  | .error e => throw (.parse source e)

/-- Read a statement. -/
def readStatement (v : Value) : Built Value := do
  let source ← v.asText
  match Statement.parse source with
  | .ok s => return s.toValue
  | .error e => throw (.parse source e)

/-- Find the compass point with the given word; there may be none. -/
def readCompass (v : Value) : Value :=
  match Value.asMember .compassPoint v with
  | .ok found => found
  | .error _ => .absent

/-- Do what a function does with the values of its parameters. -/
def build (f : Function) (b : Bound) : Built Value :=
  match f with
  | id => (b.get "value").toId
  | escaped => quote (b.get "text")
  | html => Value.makeId .html (b.get "text")
  | attr => attributeOf (b.get "key") (b.get "value")
  | port => buildPort (b.get "id") (b.get "compass")
  | nodeId => do return .nodeId (← (b.get "id").toId) (b.get "port")
  | node => do Value.makeNode (← (b.get "id").toNodeId) b.rest
  | edge => do
    let vertices ← b.rest.mapM Value.toVertex
    let attrs ← (b.get "attrs").items
    Value.makeEdge vertices (.ok attrs)
  | subgraph => do
    let name ← (b.get "id").toName
    return .subgraph name (← Value.statements b.rest)
  | defaults => do
    let target ← Value.asMember .attributeTarget (b.get "target")
    return .defaults target (← Value.attributes b.rest)
  | graph => do
    let name ← (b.get "id").toName
    return .graph (b.get "strict") (b.get "directed") name (← Value.statements b.rest)
  | exactId => checkId (b.get "kind") (b.get "value")
  | exactPort => Value.makePort (b.get "id") (b.get "compass")
  | exactNodeId => .ok (.nodeId (b.get "id") (b.get "port"))
  | exactAttribute => .ok (.attr (b.get "key") (b.get "value"))
  | exactNode => do Value.makeNode (b.get "id") (← (b.get "attrs").items)
  | exactSubgraph => do
    return .subgraph (b.get "id") (← Value.statements (← (b.get "body").items))
  | exactEdge => do Value.makeEdge (← (b.get "chain").items) (b.get "attrs").items
  | exactDefaults => do
    return .defaults (b.get "target") (← Value.attributes (← (b.get "attrs").items))
  | exactGraph => do
    return .graph (b.get "strict") (b.get "directed") (b.get "id")
      (← Value.statements (← (b.get "body").items))
  | plainId => Value.makeId .plain (b.get "value")
  | quotedId => Value.makeId .quoted (b.get "value")
  | htmlId => Value.makeId .html (b.get "value")
  | quoteId => quote (b.get "raw")
  | idOfText => do return (Id.ofText (← (b.get "text").asText)).toValue
  | extended => (b.get "value").extend b.rest
  | parseGraph => readGraph (b.get "src")
  | parseStatement => readStatement (b.get "src")
  | compassPoint => .ok (readCompass (b.get "text"))
  | helper e name =>
    match e.helped? name with
    | some key => attributeOf (.text key) (b.get "value")
    | none => .error (.unknownHelper e name)
  | argument kind => .ok (.argument kind (b.get kind.fieldName))

/-- Does the function exist?  An attribute table has only some helpers. -/
def exists? : Function → Built Unit
  | helper e name => if (e.helped? name).isSome then .ok () else .error (.unknownHelper e name)
  | _ => .ok ()

/-- Call a function. -/
def apply (f : Function) (args : Arguments) : Built Value := do
  f.exists?
  f.build (← f.signature.bind args)

end Function

/-! ## Attribute tables and arguments of the tool -/

namespace Value

/-- Has the target, given itself or by its word, an attribute with the given name?  The fault of an
unknown target shows it in literal form, if it has one. -/
def hasAttribute (target : Value) (name : Text) : Built Bool :=
  let key : Value := match target with
    | member m => if m.vocabulary = .attributeTarget then m.content else target
    | other => other
  match key with
  | text t => match Element.ofWord? t with
    | some e => .ok (e.hasAttribute name)
    | none => .error (.unknownTarget t.literal)
  | list _ => .error (.unusableKey key.typeName)
  | other => .error (.unknownTarget (other.literal.toOption.getD []))

/-- What an argument for the layout tool becomes on the command line. -/
def prepare : Value → Built Value
  | argument .format content => do
    return text ("-T".toList ++ (← (← content.field .value).display))
  | argument .layout content => do
    return text ("-K".toList ++ (← (← content.field .value).display))
  | argument .output content => do return text ("-o".toList ++ (← content.display))
  | argument .custom content => .ok content
  | other => .error (.noField other.typeName "prepare".toList)

/-- The words of a command line, which must all be texts. -/
def words (position : Nat) : List Value → Built (List Text)
  | [] => .ok []
  | text t :: rest => do return t :: (← words (position + 1) rest)
  | other :: _ => .error (.notWord position other.typeName)

end Value

end DotNotation
