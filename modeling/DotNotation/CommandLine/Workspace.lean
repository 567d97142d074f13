/-
# Workspaces

A workspace is a directory with files and directories in it, held in memory, together with
what a command reads from standard input, what the layout tool would do, and what the
command has printed.  It is a host for commands without any effect on the outside.
-/
import DotNotation.CommandLine.Run
import DotNotation.Dictionary

namespace DotNotation.CommandLine

/-- A path inside a workspace, as the names on the way down. -/
abbrev Path := List Text

/-- A workspace. -/
structure Workspace where
  /-- The files with their contents, by path. -/
  files : List (Path × Bytes) := []
  /-- The directories that were made. -/
  directories : List Path := []
  /-- What stands on standard input. -/
  input : Bytes := []
  /-- How a run of the layout tool ends. -/
  tool : ToolOutcome := .exited 0 [] []
  /-- What was printed. -/
  printed : Bytes := []
  /-- What was printed about errors. -/
  complaints : Bytes := []
  /-- The words and the text with which the tool was started. -/
  launched : Option (List Text × Text) := none
deriving DecidableEq, Repr

/-- What a path leads to: a file, a directory, nothing in a directory that is there, a name with
a slash after it that is no directory, nothing because the way there is missing, nothing because
a file is in the way, or nothing because a name is too long. -/
inductive Place where
  | file (contents : Bytes)
  | directory
  | free
  | slashed
  | missing
  | blocked
  | tooLong
deriving DecidableEq, Repr

/-- Split a path at its slashes. -/
def splitPath : Text → List Text
  | [] => [[]]
  | c :: cs =>
    if c = '/' then [] :: splitPath cs
    else match splitPath cs with
      | name :: names => (c :: name) :: names
      | [] => [[c]]

namespace Workspace

/-- Is there a directory with this path?  Directories on the way to something are there. -/
def isDirectory (w : Workspace) (path : Path) : Bool :=
  path.isEmpty || w.directories.any (path.isPrefixOf ·) ||
    w.files.any fun file => path.isPrefixOf file.1 && file.1 != path

/-- The contents of the file with this path. -/
def contents? (w : Workspace) (path : Path) : Option Bytes := w.files.lookup path

/-- Does the name leave the directory where it stands? -/
def isStay (name : Text) : Bool := name.isEmpty || name == ['.']

/-- What a path outside of the workspace leads to.  Nothing is known of what is there but the
directories around the workspace. -/
def outside (names : List Text) : Place :=
  if names.all fun name => isStay name || name == ['.', '.'] then .directory else .missing

/-- The most bytes of a name. -/
def longestName : Nat := 255

/-- The most bytes of a path. -/
def longestPath : Nat := 4095

/-- What a path leads to once the names `names` are followed down from the directory `here`,
and where it ends. -/
def follow (w : Workspace) (here : Path) : List Text → Place × Path
  | [] => (.directory, here)
  | name :: names =>
    if isStay name then w.follow here names
    else if name = ['.', '.'] then
      if here.isEmpty then (outside names, []) else w.follow here.dropLast names
    else
      let there := here ++ [name]
      if w.isDirectory there then w.follow there names
      else if !names.isEmpty && names.all List.isEmpty then (.slashed, there)
      else if name.toBytes.length > longestName then (.tooLong, there)
      else match w.contents? there with
        | some bytes => (if names.isEmpty then .file bytes else .blocked, there)
        | none => (if names.isEmpty then .free else .missing, there)

/-- What a path leads to, and where it ends. -/
def resolve (w : Workspace) (path : Text) : Place × Path :=
  if path.toBytes.length > longestPath then (.tooLong, [])
  else match path with
    | [] => (.missing, [])
    | '/' :: rest => (outside (splitPath rest), [])
    | _ => w.follow [] (splitPath path)

/-- There is nothing with that path. -/
def noSuchFile : SystemError := ⟨2, "No such file or directory".toList⟩

/-- Something on the way is not a directory. -/
def notDirectory : SystemError := ⟨20, "Not a directory".toList⟩

/-- A directory stands where a file is wanted. -/
def isADirectory : SystemError := ⟨21, "Is a directory".toList⟩

/-- A name on the way has more bytes than names may have. -/
def nameTooLong : SystemError := ⟨36, "File name too long".toList⟩

/-- Is there something with this path? -/
def has (w : Workspace) (path : Text) : Bool :=
  match (w.resolve path).1 with
  | .file _ => true
  | .directory => true
  | _ => false

/-- Read a file. -/
def read (w : Workspace) (path : Text) : Except SystemError Bytes :=
  match (w.resolve path).1 with
  | .file bytes => .ok bytes
  | .directory => .error isADirectory
  | .free => .error noSuchFile
  | .slashed => .error notDirectory
  | .missing => .error noSuchFile
  | .blocked => .error notDirectory
  | .tooLong => .error nameTooLong

/-- Replace or add the contents of a file. -/
def setContents (path : Path) (bytes : Bytes) : List (Path × Bytes) → List (Path × Bytes)
  | [] => [(path, bytes)]
  | file :: rest =>
    if file.1 = path then (path, bytes) :: rest else file :: setContents path bytes rest

/-- Write a file. -/
def write (w : Workspace) (path : Text) (bytes : Bytes) : Except SystemError Workspace :=
  match w.resolve path with
  | (.file _, there) => .ok { w with files := setContents there bytes w.files }
  | (.free, there) => .ok { w with files := setContents there bytes w.files }
  | (.directory, _) => .error isADirectory
  | (.slashed, _) => .error isADirectory
  | (.missing, _) => .error noSuchFile
  | (.blocked, _) => .error notDirectory
  | (.tooLong, _) => .error nameTooLong

/-- The workspace as a host for commands. -/
def host : Host (StateM Workspace) where
  pathExists path := do return (← get).has path
  readFile path := do return (← get).read path
  writeFile path bytes := do
    match (← get).write path bytes with
    | .ok w => set w; return .ok ()
    | .error e => return .error e
  readInput := do return (← get).input
  output bytes := modify fun w => { w with printed := w.printed ++ bytes }
  complain bytes := modify fun w => { w with complaints := w.complaints ++ bytes }
  launch command source := do
    modify fun w => { w with launched := some (command, source) }
    return (← get).tool

/-- Run a command line in a workspace. -/
def run (w : Workspace) (words : List Text) : Except Exit Unit × Workspace :=
  (host.run words).run w

/-- The files of `after` that are new or changed since `before`, with their paths as texts. -/
def changed (before after : Workspace) : List (Text × Bytes) :=
  (after.files.filter fun file => before.contents? file.1 != some file.2).map fun file =>
    (Text.join ['/'] file.1, file.2)

end Workspace

end DotNotation.CommandLine
