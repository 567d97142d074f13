/-
# Running a command

A command works through a host, which gives access to files, to the standard streams and to
the layout tool.  Texts that are printed lose the escape sequences that control a terminal;
texts that are written to a file, and drawings, stay as they are.
-/
import DotNotation.CommandLine.Invocation
import DotNotation.Parsing.Diagnostic
import DotNotation.Printing.Layout

namespace DotNotation.CommandLine

/-! ## Hosts -/

/-- Why the system refuses an operation on a file. -/
structure SystemError where
  /-- The number of the error. -/
  code : Nat
  /-- Its description. -/
  reason : Text
deriving DecidableEq, Repr

namespace SystemError

/-- The description of an error with the path that it is about. -/
def describe (e : SystemError) (path : Text) : Text :=
  "[Errno ".toList ++ Text.ofNat e.code ++ "] ".toList ++ e.reason ++ ": ".toList ++ path.literal

end SystemError

/-- What a command needs from its surroundings. -/
structure Host (m : Type → Type) where
  /-- Is there a file or directory with this path? -/
  pathExists : Text → m Bool
  /-- Read a file. -/
  readFile : Text → m (Except SystemError Bytes)
  /-- Write a file. -/
  writeFile : Text → Bytes → m (Except SystemError Unit)
  /-- Read standard input to its end. -/
  readInput : m Bytes
  /-- Write to standard output. -/
  output : Bytes → m Unit
  /-- Write to the standard error stream. -/
  complain : Bytes → m Unit
  /-- Start the layout tool on a temporary file with the given text. -/
  launch : List Text → Text → m ToolOutcome

/-- How a command ends when it does not succeed: it reports why, its command line is unusable,
its document is no text, or a path has a zero character and so cannot be a path. -/
inductive Exit where
  | failure
  | usage
  | undecodable
  | impossiblePath
deriving DecidableEq, Repr

/-- Steps of a command. -/
abbrev Steps (m : Type → Type) (α : Type) : Type := ExceptT Exit m α

/-! ## Printing -/

/-- Is the character a parameter of an escape sequence? -/
def isParameterChar (c : Char) : Bool := '0' ≤ c && c ≤ '?'

/-- May the character stand between the parameters and the end of an escape sequence? -/
def isIntermediateChar (c : Char) : Bool := ' ' ≤ c && c ≤ '/'

/-- Does the character end an escape sequence? -/
def isFinalChar (c : Char) : Bool := '@' ≤ c && c ≤ '~'

/-- The rest of the text after an escape sequence at its front: parameters, then intermediate
characters, then one final character. -/
def afterSequence? : Text → Option Text
  | '\x1b' :: '[' :: cs =>
    match (cs.dropWhile isParameterChar).dropWhile isIntermediateChar with
    | c :: rest => if isFinalChar c then some rest else none
    | [] => none
  | _ => none

/-- Remove escape sequences.  Each takes at least one character, so a text no shorter than `t`
bounds their number. -/
def plainWithin (bound t : Text) : Text :=
  match bound, t with
  | _, [] => []
  | [], t => t
  | _ :: bound, c :: cs =>
    match afterSequence? (c :: cs) with
    | some rest => plainWithin bound rest
    | none => c :: plainWithin bound cs

/-- The text without escape sequences. -/
def plainText (t : Text) : Text := plainWithin t t

variable {m : Type → Type} [Monad m]

namespace Host

/-- Print a line. -/
def say (host : Host m) (t : Text) : Steps m Unit :=
  host.output (plainText (t ++ ['\n'])).toBytes

/-- Print a line about an error. -/
def warn (host : Host m) (t : Text) : Steps m Unit :=
  host.complain (plainText (t ++ ['\n'])).toBytes

/-- Report about the work, if that is wanted. -/
def report (host : Host m) (verbose : Bool) (t : Text) : Steps m Unit := do
  if verbose then host.complain (t ++ ['\n']).toBytes

/-! ## Commands -/

/-- Refuse a path that cannot be one. -/
def checkPath (path : Text) : Steps m Unit := do
  if path.contains '\x00' then throw .impossiblePath

/-- Read the document that a command works on. -/
def readSource (host : Host m) (input : Option Text) : Steps m Text := do
  let bytes ← match input with
    | none => host.readInput
    | some path => do
      match ← host.readFile path with
      | .ok bytes => pure bytes
      | .error e => do
        host.warn ("error: cannot read '".toList ++ path ++ "': ".toList ++ e.describe path)
        throw .failure
  match Text.ofBytes? bytes with
  | some t => return t.unifyLineEnds
  | none => throw .undecodable

/-- Read the graph that a command works on. -/
def readGraph (host : Host m) (verbose : Bool) (input : Option Text) : Steps m Graph := do
  let source ← host.readSource input
  match Graph.parse source with
  | .ok g => do
    let name := (g.id.map Id.render).getD "<anonymous>".toList
    host.report verbose
      ("dotlang.parsers.dot: parsed ".toList ++ Graph.kindWord g.directed ++ [' '] ++ name ++
        " with ".toList ++ Text.ofNat g.body.length ++ " top-level statements".toList)
    return g
  | .error (.unexpected failure) => do
    let d := failure.diagnostic source
    host.warn ("parse error: ".toList ++ d.message ++ ['\n'] ++ d.snippet)
    throw .failure
  | .error .tooDeep => do
    host.warn "parse error: expected shallower nesting in body".toList
    throw .failure

/-- Write a graph and report about it. -/
def printGraph (host : Host m) (verbose : Bool) (settings : Settings) (g : Graph) :
    Steps m Text := do
  let text := g.print settings
  host.report verbose
    ("dotlang.printer: printed ".toList ++ Text.ofNat g.body.length ++
      " top-level statements into ".toList ++ Text.ofNat text.length ++ " characters".toList)
  return text

/-- Write a text and a line end to a file, or print it. -/
def writeText (host : Host m) (output : Option Text) (text : Text) : Steps m Unit := do
  match output with
  | none => host.say text
  | some path => do
    checkPath path
    match ← host.writeFile path (text ++ ['\n']).toBytes with
    | .ok () => return ()
    | .error e => do
      host.warn ("error: cannot write '".toList ++ path ++ "': ".toList ++ e.describe path)
      throw .failure

/-- Draw a graph. -/
def draw (host : Host m) (verbose : Bool) (g : Graph) (args : List Argument)
    (config : ToolConfig) : Steps m Unit := do
  let source ← host.printGraph verbose {} g
  let command := config.command (args.map Argument.word) temporaryPath
  host.report verbose ("dotlang.cmd: running ".toList ++ Text.join [' '] command)
  match config.drawing (← host.launch command source) with
  | .ok bytes => host.output bytes
  | .error e => do
    host.warn ("error: ".toList ++ e.message)
    throw .failure

/-- Do what an invocation asks for. -/
def perform (host : Host m) (invocation : Invocation) : Steps m Unit := do
  let verbose := invocation.verbose
  if let some path := invocation.input then
    checkPath path
    unless ← host.pathExists path do throw .usage
  let g ← host.readGraph verbose invocation.input
  match invocation.command with
  | .format settings output => do
    let text ← host.printGraph verbose settings g
    host.writeText output text
  | .check =>
    host.say ("ok: ".toList ++ Graph.kindWord g.directed ++ " with ".toList ++
      Text.ofNat g.body.length ++ " top-level statements".toList)
  | .render args config => host.draw verbose g args config

/-- Run a command line. -/
def run (host : Host m) (words : List Text) : m (Except Exit Unit) :=
  match Invocation.read? words with
  | none => pure (.error .usage)
  | some invocation => (host.perform invocation).run

end Host

end DotNotation.CommandLine
