/-
# The program

Runs a command line against a recording that is read from standard input, and prints what the
command line prints.  The log goes to standard error, unless it is kept in a file.
-/
import UpgradeAudit.CommandLine.Run
import UpgradeAudit.Recording.Reader

open UpgradeAudit

/-- Prints a text. -/
def printOn (stream : IO.FS.Stream) (s : String) : IO Unit :=
  stream.write ⟨(Text.Utf8.encode s).toArray⟩

/-- Runs the command line of the process. -/
def main (arguments : List String) : IO UInt32 := do
  let arguments := arguments.map fun a => Text.ofChars a.toList
  let text ← (← IO.getStdin).readToEnd
  let some recording := (Json.read (Text.ofChars text.toList)).toOption >>= Recording.ofJson
    | (← IO.getStderr).putStrLn "the recording on standard input cannot be read"
      return 1
  match CommandLine.run arguments recording.environment recording.host recording.world with
  | (.ok outcome, world) =>
    if let some log := outcome.log then
      if log.file.isNone then
        for record in log.kept world.history do
          (← IO.getStderr).putStrLn (log.line record)
    printOn (← IO.getStdout) outcome.stdout
    printOn (← IO.getStderr) outcome.stderr
    if let some f := outcome.unexpected then (← IO.getStderr).putStrLn f.message
    return outcome.exitCode.toUInt32
  | (.error f, _) =>
    (← IO.getStderr).putStrLn f.message
    return 1
