import DotNotation.CommandLine.Invocation
import DotNotation.CommandLine.Options
import DotNotation.CommandLine.Run
import DotNotation.CommandLine.Workspace
import DotNotation.Construct.Build
import DotNotation.Construct.Fault
import DotNotation.Construct.Field
import DotNotation.Construct.Literal
import DotNotation.Construct.Signature
import DotNotation.Construct.Term
import DotNotation.Construct.Tree
import DotNotation.Construct.Value
import DotNotation.Decimal.Binary
import DotNotation.Decimal.Nearest
import DotNotation.Decimal.Numeral
import DotNotation.Decimal.Shortest
import DotNotation.Decimal.Written
import DotNotation.Dictionary
import DotNotation.Element
import DotNotation.Lexical.Cut
import DotNotation.Lexical.Label
import DotNotation.Lexical.Plain
import DotNotation.Lexical.Quoted
import DotNotation.Lexical.Trivia
import DotNotation.Main
import DotNotation.Network.Basic
import DotNotation.Network.Event
import DotNotation.Network.Listing
import DotNotation.Network.Loose
import DotNotation.Parsing.Diagnostic
import DotNotation.Parsing.Document
import DotNotation.Parsing.Parser
import DotNotation.Parsing.Trace
import DotNotation.Printing.Layout
import DotNotation.Printing.Reformat
import DotNotation.Printing.Settings
import DotNotation.Rendering
import DotNotation.Session.Printer
import DotNotation.Session.Run
import DotNotation.Session.Write
import DotNotation.Syntax.Equality
import DotNotation.Syntax.Id
import DotNotation.Syntax.Port
import DotNotation.Syntax.Statement
import DotNotation.Syntax.Validity
import DotNotation.Text
import DotNotation.Text.Blank
import DotNotation.Text.Literal
import DotNotation.Text.Numeral
import DotNotation.Text.Printable
import DotNotation.Text.Utf8
import DotNotation.Token
import DotNotation.Vocabulary
import DotNotation.Proofs.Lexical.Enclosed
import DotNotation.Proofs.Lexical.LongestMatch
import DotNotation.Proofs.Lexical.Split
import DotNotation.Proofs.Parsing.Answer
import DotNotation.Proofs.Parsing.Rules
import DotNotation.Proofs.Syntax.Shape
import DotNotation.Proofs.Parsing.Soundness
import DotNotation.Proofs.Parsing.Transparency
import DotNotation.Proofs.Printing.Tokens
import DotNotation.Proofs.Printing.RoundTrip
import DotNotation.Proofs.Printing.Spacing
import DotNotation.Proofs.Reference.Grammar
import DotNotation.Proofs.Reference.Agreement
import DotNotation.Proofs.Reference.OrderedChoice
import DotNotation.Proofs.Reference.Continuation
import DotNotation.Proofs.Reference.Derivations
import DotNotation.Proofs.Construct.Acceptance
import DotNotation.Proofs.Parsing.Image
import DotNotation.Proofs.Network.Members
import DotNotation.Proofs.Network.Linking
import DotNotation.Proofs.Network.Ends
import DotNotation.Proofs.Network.Degrees
import DotNotation.Proofs.Network.Hops
import DotNotation.Proofs.Network.Pairs
import DotNotation.Proofs.Network.Occurrences
import DotNotation.Proofs.Network.Mentions
import DotNotation.Proofs.Network.Attributes
import DotNotation.Proofs.Network.Growth
import DotNotation.Proofs.Network.Ports
import DotNotation.Proofs.Parsing.Spans
import DotNotation.Proofs.Printing.Arrows
import DotNotation.Proofs.Parsing.Complete
import DotNotation.Proofs.Reference.Viable
import DotNotation.Proofs.Session.Frame
import DotNotation.Proofs.Session.Printing
import DotNotation.Proofs.Parsing.Locality
import DotNotation.Proofs.Parsing.Braces
import DotNotation.Proofs.Lexical.Closing
import DotNotation.Proofs.Parsing.Fragment
import DotNotation.Proofs.Parsing.Totality
import DotNotation.Proofs.Printing.OneLine
import DotNotation.Proofs.Printing.Indentation
import DotNotation.Proofs.Lexical.Bracketed
import DotNotation.Proofs.Printing.LineCount
import DotNotation.Proofs.Parsing.Location
import DotNotation.Proofs.Construct.Coercion
import DotNotation.Proofs.Parsing.OpenBraces
import DotNotation.Proofs.Parsing.Flat
import DotNotation.Proofs.Parsing.Openings
import DotNotation.Proofs.Parsing.Ending
import DotNotation.Proofs.Parsing.Conduct
import DotNotation.Proofs.Parsing.Straying
import DotNotation.Proofs.Parsing.Reopening
import DotNotation.Proofs.Parsing.Doubling
