import Highlighter.Command.Run

/-!
The command on a real system: files, standard input and the environment.
-/

namespace Highlighter.Main

/-- What it means that a file could not be read. -/
def fault : IO.Error → ReadFault
  | .noFileOrDirectory .. => .notFound
  | .inappropriateType .. => .isDirectory
  | e => .other (toString e)

def readFile (path : String) : IO (Except ReadFault ByteArray) := do
  try return .ok (← IO.FS.readBinFile path)
  catch e => return .error (fault e)

/-- All of the standard input. -/
partial def readInput (stream : IO.FS.Stream) (read : ByteArray) : IO ByteArray := do
  let bytes ← stream.read 65536
  if bytes.isEmpty then return read else readInput stream (read ++ bytes)

def world : IO (Command.World IO) := do
  return ⟨readFile, do readInput (← IO.getStdin) .empty, ← IO.getEnv "RUST_LOG"⟩

end Highlighter.Main

def main (args : List String) : IO UInt32 := do
  let report ← Highlighter.Command.run (← Highlighter.Main.world) args
  (← IO.getStdout).putStr report.output
  (← IO.getStderr).putStr report.errors
  return UInt32.ofNat report.status
