/-
# Reformatting

Reading a document and writing it again gives it a uniform layout.
-/
import DotNotation.Parsing.Document
import DotNotation.Printing.Layout

namespace DotNotation

/-- Read a document and write it under the given settings. -/
def reformat (settings : Settings) (source : Text) : Except ParseError Text :=
  (Graph.parse source).map (Graph.print settings)

end DotNotation
