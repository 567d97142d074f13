/-
# Sessions

In a session one printer writes loosely typed values, one after the other.  Its user may
call it for a part of any kind, may change the settings in between, and may write a graph
with a new printer on the same settings.  Every step has an answer, and leaves the printer
in some state.
-/
import DotNotation.Construct.Term
import DotNotation.Session.Write

namespace DotNotation

/-- The parts for which a printer can be called. -/
inductive Part where
  | edge
  | statement
  | subgraph
  | body
  | attributeList
  | attr
  | nodeId
  | port
  | graph
deriving DecidableEq, Repr

/-- The fields that can be set in a session. -/
inductive Setting where
  | indentStep (n : Int)
  | currentIndent (n : Int)
  | lineSeparator (t : Text)
  | alwaysInline (b : Bool)
  | useSemicolons (b : Bool)
  | inlineThreshold (n : Int)
  | directed (b : Bool)
deriving DecidableEq, Repr

/-- One step of a session. -/
inductive Action where
  | print (term : Term)
  | printAnew (term : Term)
  | call (part : Part) (args : List Term) (named : List (Text × Term))
  | assign (setting : Setting)

namespace Part

/-- How messages name the call for a part. -/
def title : Part → String
  | edge => "DotPrinter.edge"
  | statement => "DotPrinter.statement"
  | subgraph => "DotPrinter.subgraph"
  | body => "DotPrinter.body"
  | attributeList => "DotPrinter.attr_list"
  | attr => "DotPrinter.attribute"
  | nodeId => "DotPrinter.node_id"
  | port => "DotPrinter.port"
  | graph => "DotPrinter.graph"

/-- The parameter for the value that is written. -/
def parameter : Part → String
  | edge => "edge"
  | statement => "stmt"
  | subgraph => "subgraph"
  | body => "stmts"
  | attributeList => "attrs"
  | attr => "attr"
  | nodeId => "node_id"
  | port => "port"
  | graph => "graph"

/-- The parameters of the call for a part. -/
def signature (part : Part) : Signature :=
  { title := part.title, receivers := 1, required := [part.parameter]
    optional := match part with
      | attributeList => [("always", .bool false)]
      | _ => [] }

end Part

/-- Call a printer for a part.  A list among the arguments is a fixed sequence by then. -/
def Part.write (part : Part) (args : Bound) : Work Text :=
  let v := args.get part.parameter
  match part with
  | .edge => v.writeEdge
  | .statement => v.writeStatement
  | .subgraph => v.writeSubgraph
  | .body => v.writeBody
  | .attributeList => v.writeAttributeList (args.get "always").truth
  | .attr => v.writeAttribute
  | .nodeId => v.writeNodeId
  | .port => v.writePort
  | .graph => v.writeGraph

/-! ## Steps -/

/-- Do work with a new printer on the settings of the present one, which it gives back. -/
def Work.anew {α : Type} (w : Work α) : Work α := fun printer =>
  let (result, other) := w (Printer.create printer.settings false)
  (result, { printer with settings := other.settings })

/-- The printer after a field was set. -/
def Setting.apply (setting : Setting) (printer : Printer) : Printer :=
  let change (f : Settings → Settings) : Printer :=
    { printer with settings := f printer.settings }
  match setting with
  | .indentStep n => change fun s => { s with indentStep := n }
  | .currentIndent n => change fun s => { s with currentIndent := n }
  | .lineSeparator t => change fun s => { s with lineSeparator := t }
  | .alwaysInline b => change fun s => { s with alwaysInline := b }
  | .useSemicolons b => change fun s => { s with useSemicolons := b }
  | .inlineThreshold n => change fun s => { s with inlineThreshold := n }
  | .directed b => { printer with directed := b }

/-- A list as a fixed sequence. -/
def Value.fixed : Value → Value
  | list items => tuple items
  | other => other

/-- Do one step.  A step that sets a field answers nothing. -/
def Action.perform : Action → Work (Option Text)
  | print term => do
    let v ← Work.given (term.eval .empty)
    return some (← v.write)
  | printAnew term => do
    let v ← Work.given (term.eval .empty)
    return some (← Work.anew v.writeGraph)
  | call part args named => do
    let positional ← Work.given (Term.evalAll .empty args)
    let named ← Work.given (Term.evalNamed .empty named)
    let bound ← Work.given (part.signature.bind ⟨positional.map Value.fixed, named⟩)
    return some (← part.write bound)
  | assign setting => fun printer => (.ok none, setting.apply printer)

/-- Do all steps: the answer to each, with the printer after it. -/
def runSession (printer : Printer) : List Action → List (Built (Option Text) × Printer)
  | [] => []
  | action :: rest =>
    let result := action.perform printer
    result :: runSession result.2 rest

end DotNotation
