/-
# The program

The command line on the real system: files are read and written, and texts go to the
standard streams.  The program starts no other program, so that a drawing is always refused
as if the layout tool were not installed.
-/
import DotNotation.CommandLine.Run

namespace DotNotation.CommandLine

/-- The bytes of an array. -/
def bytesOf (bytes : ByteArray) : Bytes := bytes.toList

/-- The array of a sequence of bytes. -/
def arrayOf (bytes : Bytes) : ByteArray := ⟨bytes.toArray⟩

/-- The error that the system reported. -/
def systemError : IO.Error → SystemError
  | .noFileOrDirectory _ code _ => ⟨code.toNat, "No such file or directory".toList⟩
  | .inappropriateType _ code details => ⟨code.toNat, details.toList⟩
  | .permissionDenied _ code details => ⟨code.toNat, details.toList⟩
  | other => ⟨5, (toString other).toList⟩

/-- Read a stream to its end. -/
partial def readAll (stream : IO.FS.Stream) (read : Bytes) : IO Bytes := do
  let chunk ← stream.read 65536
  if chunk.isEmpty then return read else readAll stream (read ++ bytesOf chunk)

/-- The real system as a host for commands. -/
def systemHost : Host IO where
  pathExists path := do
    match ← (IO.FS.readBinFile (String.ofList path)).toBaseIO with
    | .error (.noFileOrDirectory _ _ _) => return false
    | _ => return true
  readFile path := do
    match ← (IO.FS.readBinFile (String.ofList path)).toBaseIO with
    | .ok bytes => return .ok (bytesOf bytes)
    | .error e => return .error (systemError e)
  writeFile path bytes := do
    match ← (IO.FS.writeBinFile (String.ofList path) (arrayOf bytes)).toBaseIO with
    | .ok () => return .ok ()
    | .error e => return .error (systemError e)
  readInput := do readAll (← IO.getStdin) []
  output bytes := do (← IO.getStdout).write (arrayOf bytes)
  complain bytes := do (← IO.getStderr).write (arrayOf bytes)
  launch _ _ := return .notFound

end DotNotation.CommandLine

/-- Run the command line. -/
def main (args : List String) : IO UInt32 := do
  match ← DotNotation.CommandLine.systemHost.run (args.map String.toList) with
  | .ok () => return 0
  | .error .usage => return 2
  | .error _ => return 1
