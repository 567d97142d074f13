/-
# Writing documents

A tree is written with a pen.  A body has one statement on each line, two steps further in
than its braces, unless the pen keeps everything on one line.  An edge statement is written
on one line whenever that fits the threshold, and the subgraphs in its chain with it.  The
sign between two vertices follows the kind of the graph that is written.
-/
import DotNotation.Printing.Settings
import DotNotation.Syntax.Statement

namespace DotNotation

/-! ## Parts without a body -/

/-- The written form of a port. -/
def Port.render (port : Port) : Text :=
  (port.id.map fun id => ':' :: id.render).getD [] ++
    (port.compass.map fun c => ':' :: c.word).getD []

/-- The written form of a node reference. -/
def NodeId.render (node : NodeId) : Text :=
  node.id.render ++ (node.port.map Port.render).getD []

/-- The written form of an attribute. -/
def Attribute.render (attr : Attribute) : Text := attr.key.render ++ '=' :: attr.value.render

namespace Pen

/-- A bracketed attribute list. -/
def brackets (pen : Pen) (attrs : List Attribute) : Text :=
  '[' :: Text.join pen.separator (attrs.map Attribute.render) ++ [']']

/-- An attribute list that is left out when there is no attribute. -/
def attributes (pen : Pen) (attrs : List Attribute) : Text :=
  if attrs.isEmpty then [] else pen.brackets attrs

/-- A body, given its statements as they are written inside it. -/
def braces (pen : Pen) (statements : List Text) : Text :=
  if statements.isEmpty then "\x7b\x7d".toList
  else if pen.inline then
    '{' :: Text.join [' '] (statements.map Text.dropTrailingSpaces) ++ ['}']
  else
    let sep := pen.settings.lineSeparator
    let pad := Text.spaces pen.inside.indent
    '{' :: sep ++ Text.join sep (statements.map (pad ++ ·)) ++ sep ++
      Text.spaces pen.indent ++ ['}']

/-- A chain with its attributes, given its vertices as they are written. -/
def chain (pen : Pen) (vertices : List Text) (attrs : List Attribute) : Text :=
  Text.join pen.arrow vertices ++ ' ' :: pen.attributes attrs

/-- The first form if it fits on one line, the second form otherwise. -/
def fit (pen : Pen) (short long : Text) : Text :=
  if (short.length : Int) ≤ pen.settings.inlineThreshold then short else long

end Pen

/-- The head of a subgraph, up to its body. -/
def Subgraph.header : Option Id → Text
  | none => "subgraph ".toList
  | some id => "subgraph ".toList ++ id.render ++ [' ']

/-- Would an identifier or body right after the statement be read as its name or body?  That
is so when the statement ends in a node named by the bare word for a subgraph. -/
def Statement.endsInBareSubgraph : Statement → Bool
  | .node id attrs => attrs.isEmpty && id.isWord Keyword.subgraph.word
  | .edge chain attrs =>
    attrs.isEmpty && match chain.getLast? with
      | some (.node id) => id.isWord Keyword.subgraph.word
      | _ => false
  | _ => false

/-- The written statement with a semicolon after it, where one is wanted or needed. -/
def Pen.terminate (pen : Pen) (s : Statement) (text : Text) : Text :=
  if pen.settings.useSemicolons || s.endsInBareSubgraph then text ++ [';'] else text

/-! ## Parts with a body -/

mutual

/-- The written form of a subgraph. -/
def Subgraph.render (pen : Pen) : Subgraph → Text
  | .mk id body => Subgraph.header id ++ pen.braces (Statement.renderAll pen.inside body)

/-- The written form of a statement, without a semicolon after it. -/
def Statement.bare (pen : Pen) : Statement → Text
  | .node id attrs => id.render ++ pen.attributes attrs
  | .edge chain attrs =>
    let long := pen.chain (Vertex.renderAll pen chain) attrs
    if pen.inline then long
    else pen.fit (pen.chain (Vertex.renderAll pen.oneLine chain) attrs) long
  | .subgraph group => group.render pen
  | .assign attr => attr.render
  | .defaults target attrs => target.word ++ pen.brackets attrs

/-- The written forms of the statements of a body. -/
def Statement.renderAll (pen : Pen) : List Statement → List Text
  | [] => []
  | s :: rest => pen.terminate s (s.bare pen) :: Statement.renderAll pen rest

/-- The written form of a vertex. -/
def Vertex.render (pen : Pen) : Vertex → Text
  | .node id => id.render
  | .subgraph group => group.render pen

/-- The written forms of the vertices of a chain. -/
def Vertex.renderAll (pen : Pen) : List Vertex → List Text
  | [] => []
  | v :: rest => v.render pen :: Vertex.renderAll pen rest

end

/-- The written form of a statement. -/
def Statement.render (pen : Pen) (s : Statement) : Text := pen.terminate s (s.bare pen)

/-- The written form of a body. -/
def Statement.renderBody (pen : Pen) (body : List Statement) : Text :=
  pen.braces (Statement.renderAll pen.inside body)

/-- The head of a graph, up to its body. -/
def Graph.header (graph : Graph) : Text :=
  (if graph.strict then "strict ".toList else []) ++ Graph.kindWord graph.directed ++ [' '] ++
    (graph.id.map fun id => id.render ++ [' ']).getD []

/-- The written form of a graph, in the layout of a pen; edges follow the kind of the graph. -/
def Graph.render (pen : Pen) (graph : Graph) : Text :=
  graph.header ++ Statement.renderBody { pen with directed := graph.directed } graph.body

/-- Write a document. -/
def Graph.print (settings : Settings) (graph : Graph) : Text :=
  graph.render (Pen.start settings graph.directed)

end DotNotation
