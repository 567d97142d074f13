/-
# Rendering with a layout tool

A graph is drawn by a layout tool that runs beside this program.  The graph is written to a
temporary file, and the tool is started with its arguments and the path of that file.  The
tool may be missing, may not start, may take too long, or may end with a status other than
zero; each of these is an error with a message.
-/
import DotNotation.Text.Blank
import DotNotation.Text.Utf8
import DotNotation.Vocabulary

namespace DotNotation

/-- An argument for the layout tool. -/
inductive Argument where
  | format (m : Member)
  | layout (m : Member)
  | output (path : Text)
  | custom (text : Text)
deriving DecidableEq, Repr

/-- The word of the command line for an argument of the tool. -/
def Argument.word : Argument → Text
  | .format m => "-T".toList ++ m.valueText
  | .layout m => "-K".toList ++ m.valueText
  | .output path => "-o".toList ++ path
  | .custom text => text

/-- How the tool is run. -/
structure ToolConfig where
  /-- The name of the program. -/
  binary : Text := "dot".toList
  /-- The text of the longest time that the tool may take. -/
  timeout : Text := "None".toList
deriving DecidableEq, Repr

/-- How a run of the tool ended. -/
inductive ToolOutcome where
  | exited (status : Int) (output errors : Bytes)
  | notFound
  | timedOut
  | refused (code : Int) (reason : Text)
deriving DecidableEq, Repr

/-- The code with which the system refuses to run a program that does not exist. -/
def ToolOutcome.missingCode : Int := 2

/-- Why there is no drawing. -/
inductive RenderError where
  | notFound (binary : Text)
  | timedOut (binary timeout : Text)
  | refused (binary : Text) (code : Int) (reason : Text)
  | failed (binary : Text) (status : Int) (errors : Bytes)
deriving DecidableEq, Repr

namespace RenderError

/-- The message for an error. -/
def message : RenderError → Text
  | notFound binary => "graphviz binary '".toList ++ binary ++ "' not found".toList
  | timedOut binary timeout =>
    '\'' :: binary ++ "' timed out after ".toList ++ timeout ++ ['s']
  | refused binary code reason =>
    "cannot run '".toList ++ binary ++ "': [Errno ".toList ++ Text.ofInt code ++ "] ".toList ++
      reason
  | failed binary status errors =>
    '\'' :: binary ++ "' exited with status ".toList ++ Text.ofInt status ++ ": ".toList ++
      Text.trim (Text.ofBytesLossy errors)

/-- The status with which the tool ended, if it ended by itself. -/
def status? : RenderError → Option Int
  | failed _ status _ => some status
  | _ => none

/-- What the tool wrote about its errors. -/
def errors : RenderError → Bytes
  | failed _ _ errors => errors
  | _ => []

end RenderError

namespace ToolConfig

/-- The words that start the tool on a file, given the words of its arguments. -/
def command (config : ToolConfig) (args : List Text) (path : Text) : List Text :=
  config.binary :: args ++ [path]

/-- The drawing that a run of the tool gave. -/
def drawing (config : ToolConfig) : ToolOutcome → Except RenderError Bytes
  | .exited status output errors =>
    if status = 0 then .ok output else .error (.failed config.binary status errors)
  | .notFound => .error (.notFound config.binary)
  | .timedOut => .error (.timedOut config.binary config.timeout)
  | .refused code reason =>
    if code = ToolOutcome.missingCode then .error (.notFound config.binary)
    else .error (.refused config.binary code reason)

end ToolConfig

/-- The path that stands for the temporary file. -/
def temporaryPath : Text := "<tmp>.gv".toList

end DotNotation
