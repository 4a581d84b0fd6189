/-
# Running a command line

A command line ends with an exit code and two texts.  Results go to standard output, as a
report or as JSON.  A failure of the audit is worded on standard error with its notes, and a
dependency that could not be audited is a warning there; anything else that goes wrong is not
worded at all but handed on as it is.
-/
import UpgradeAudit.Audit.Workspace
import UpgradeAudit.CommandLine.Log
import UpgradeAudit.CommandLine.Printed
import UpgradeAudit.CommandLine.Request
import UpgradeAudit.Report.Record
import UpgradeAudit.Report.Text

namespace UpgradeAudit.CommandLine

/-- How a command line ends. -/
structure Outcome where
  exitCode : Nat
  stdout : String
  stderr : String
  /-- A failure that is not the audit's own. -/
  unexpected : Option Failure
  /-- The log, when it was set up. -/
  log : Option Log

namespace Outcome

/-- The end with a text. -/
def success (stdout : String) : Outcome := ⟨0, stdout, "", none, none⟩

/-- Lines for standard error. -/
def errorLines (lines : List String) : String :=
  String.join (lines.map fun l => Printed.onError l ++ "\n")

/-- The end with a failure. -/
def ofFailure (f : Failure) : Outcome :=
  if f.isOfAudit then
    ⟨1, "", errorLines (("Error: " ++ f.message) :: f.notes.map ("  " ++ ·)), none, none⟩
  else ⟨1, "", "", some f, none⟩

/-- The end with a result, and warnings after it; without the result there are no warnings. -/
def ofResult (result : String) (warnings : List String) : Outcome :=
  match Printed.onOutput result with
  | .ok text => { success (text ++ "\n") with stderr := errorLines warnings }
  | .error fault => ofFailure (.ofCause (.unwritable fault))

/-- The end of a command line that cannot be understood. -/
def ofMisuse (m : Misuse) : Outcome := ⟨2, "", "Error: " ++ m.message ++ "\n", none, none⟩

end Outcome

/-- The name and the version of the program. -/
def versionText : String := "dep-inspector, version 0.1.0\n"

/-- What the program can be asked. -/
def helpText : String := String.join <| List.map (· ++ "\n")
  ["Usage: dep-inspector [OPTIONS] COMMAND [ARGS]...",
   "",
   "  Dep Inspector: inspect what changes when a Go dependency is upgraded.",
   "",
   "Commands:",
   "  inspect DEP VERSION                  Report the findings of one version.",
   "  compare [-r] DEP OLD NEW             Report what an upgrade changes."]

/-- A result as the options ask for it. -/
def render (options : Options) (r : AuditResult) : Except Cause String :=
  if options.json then Report.Record.print r else .ok (Report.result r)

/-- The warning about a dependency that could not be audited. -/
def warning (f : DependencyFailure) : String :=
  "Warning: " ++ f.dep.path ++ " was not analyzed: " ++ f.error

/-- Performs a task. -/
def Task.perform (options : Options) (settings : Settings) (env : Environment) (task : Task) :
    Action Outcome := do
  let ws ← Workspace.prepare settings env
  match task with
  | .inspect dep version =>
    let r ← ws.inspect dep version
    return .ofResult (← Action.ofCauses (render options (.inspection r))) []
  | .compare dep old new =>
    let r ← ws.compare dep old new
    return .ofResult (← Action.ofCauses (render options (.comparison r))) []
  | .compareFully dep old new =>
    let r ← ws.compareFully dep old new
    return .ofResult (← Action.ofCauses (render options (.full r)))
      (r.others.failures.map warning)

/-- An action whose failure is the end of the command line. -/
def settle (x : Action Outcome) : Action Outcome := do
  match ← Action.attempt x with
  | .ok outcome => return outcome
  | .error f => return .ofFailure f

/-- Performs what a command asks for once the log is set up. -/
def perform (options : Options) (env : Environment) (verb : Verb) (arguments : List String) :
    Action Outcome := do
  let log ← Log.setUp env options.verbose options.logFile
  let outcome ← match Task.read verb arguments with
    | .error m => pure (Outcome.ofMisuse m)
    | .ok none => pure (Outcome.success helpText)
    | .ok (some task) =>
      let work := task.perform options (options.override (.ofEnvironment env)) env
      settle (work.keepingRecords log.addToFile)
  return { outcome with log := some log }

/-- Runs a command line. -/
def run (arguments : List String) (env : Environment) : Action Outcome := do
  let files := (← Action.world).files
  match Request.read files.isDirectory arguments with
  | .error m => return .ofMisuse m
  | .ok .version => return .success versionText
  | .ok .help => return .success helpText
  | .ok (.hopeless cause) => return .ofFailure (.ofCause cause)
  | .ok (.perform options verb arguments) => settle (perform options env verb arguments)

end UpgradeAudit.CommandLine
