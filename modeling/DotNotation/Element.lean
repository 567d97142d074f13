/-
# Attribute tables

Each kind of element has a table of the attributes that may be set on it.  A table offers one
helper per attribute; a helper has the name of its attribute, with an underscore after it
where the bare name is reserved.  The tables name attributes only: no value is refused.
-/
import DotNotation.Syntax.Statement

namespace DotNotation

/-- The kinds of elements that have attributes. -/
inductive Element where
  | graph
  | subgraph
  | node
  | edge
deriving DecidableEq, Repr

namespace Element

/-- All kinds of elements. -/
def all : List Element := [graph, subgraph, node, edge]

/-- The word for a kind of element. -/
def word : Element → Text
  | graph => "graph".toList
  | subgraph => "subgraph".toList
  | node => "node".toList
  | edge => "edge".toList

/-- The kind of element with the given word. -/
def ofWord? (t : Text) : Option Element := all.find? (·.word == t)

/-- The name of the attribute table of a kind of element. -/
def tableName : Element → Text
  | graph => "GraphAttributes".toList
  | subgraph => "SubgraphAttributes".toList
  | node => "NodeAttributes".toList
  | edge => "EdgeAttributes".toList

/-- The attributes of every kind of element. -/
def commonAttributes : List String :=
  ["class", "colorscheme", "comment", "fontcolor", "fontname", "fontsize", "href", "id", "label",
     "tooltip", "URL"]

/-- The attributes of one kind of element beside the common ones. -/
def ownAttributes : Element → List String
  | graph =>
    ["bgcolor", "center", "charset", "compound", "concentrate", "dpi", "labelloc", "labeljust",
       "layout", "margin", "nodesep", "ordering", "outputorder", "overlap", "pad", "rank",
       "rankdir", "ranksep", "ratio", "rotate", "size", "splines", "style"]
  | subgraph =>
    ["bgcolor", "cluster", "color", "fillcolor", "labelloc", "labeljust", "pencolor", "penwidth",
       "rank", "style"]
  | node =>
    ["color", "fillcolor", "fixedsize", "group", "height", "image", "margin", "orientation",
       "penwidth", "peripheries", "pos", "regular", "shape", "sides", "style", "width", "xlabel"]
  | edge =>
    ["arrowhead", "arrowsize", "arrowtail", "color", "constraint", "decorate", "dir",
       "headlabel", "headport", "lhead", "ltail", "minlen", "penwidth", "style", "taillabel",
       "tailport", "weight", "xlabel"]

/-- The attributes of a kind of element. -/
def attributes (e : Element) : List Text := (commonAttributes ++ e.ownAttributes).map String.toList

/-- The attributes whose helpers have an underscore after the name. -/
def reserved : List Text := ["class".toList, "id".toList]

/-- The name of the helper for an attribute. -/
def helperName (name : Text) : Text :=
  if reserved.contains name then name ++ ['_'] else name

/-- The attribute that a helper of the table sets. -/
def helped? (e : Element) (helper : Text) : Option Text :=
  e.attributes.find? fun name => helperName name == helper

/-- Is the attribute in the table? -/
def hasAttribute (e : Element) (name : Text) : Bool := e.attributes.contains name

end Element

end DotNotation
