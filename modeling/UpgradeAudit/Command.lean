/-
# Running commands

Programs are started in one directory with an environment of exactly the variables given.  A
command fails when its program cannot be started or its exit code is not accepted.  One that
cannot even be put to the system, because an argument is no text the system takes, fails as
bad input and not as a command.  When the audit is cancelled while a program runs, the program
is killed and its end awaited first.
-/
import UpgradeAudit.Host.Action

namespace UpgradeAudit

/-- Where and how programs are run. -/
structure Runner where
  cwd : String
  environment : Table String String
  /-- Whether every command is logged for the user to see. -/
  verbose : Bool
  deriving DecidableEq, Repr

/-- The outcome of a program that was run to its end. -/
structure CommandResult where
  argv : List String
  exitCode : Int
  stdout : Bytes
  stderr : String
  deriving DecidableEq, Repr

/-- The output of a command as text. -/
def CommandResult.text (r : CommandResult) : String := Text.Utf8.decodeLossy r.stdout

/-- A program that has been started. -/
structure Running where
  /-- How many commands were started before it. -/
  number : Nat
  command : Command
  behaviour : Behaviour

namespace Runner

/-- The part of the program that the log names. -/
def origin : String := "dep_inspector.command"

/-- The exit code reported for a program that could not be started. -/
def notStarted : Int := 127

/-- The exit code reported when none is known. -/
def unknownExit : Int := -1

/-- The directory of a command: the one given, or that of the runner. -/
def directory (r : Runner) (cwd : Option String) : String :=
  match cwd with
  | none | some "" => r.cwd
  | some cwd => cwd

/-- Starts a program. -/
def start (r : Runner) (argv : List String) (cwd : Option String) (attachment : Option Bytes) :
    Action Running := do
  let command : Command := ⟨argv, r.directory cwd, r.environment, attachment⟩
  Action.log (if r.verbose then .info else .debug) origin "command.run"
    [("argv", .texts argv), ("cwd", .text command.cwd)]
  let before := (← Action.world).started
  Action.record (.started command)
  match (← Action.host).respond before (← Action.world).files command with
  | .refused error => Action.failFor (.command argv notStarted error.message)
  | .barred fault => Action.failFor fault.cause
  | .interrupted => Action.failFor .cancelled
  | .runs behaviour =>
    Action.change fun w => { w with files := behaviour.files }
    return ⟨before.length, command, behaviour⟩

/-- Waits for the end of a started program. -/
def wait (running : Running) (accepted : List Int) : Action CommandResult := do
  let argv := running.command.argv
  match running.behaviour.ending with
  | .interrupted =>
    Action.log .warning origin "command.killed" [("argv", .texts argv)]
    Action.record (.killed running.number)
    Action.failFor .cancelled
  | .exited code =>
    let exitCode := code.getD unknownExit
    Action.record (.ended running.number exitCode running.behaviour.stdout)
    let stderr := Text.Utf8.decodeLossy running.behaviour.stderr
    if accepted.contains exitCode then
      return ⟨argv, exitCode, running.behaviour.stdout, stderr⟩
    else Action.failFor (.command argv exitCode stderr)

/-- Runs a program to its end. -/
def run (r : Runner) (argv : List String) (accepted : List Int) (cwd : Option String) :
    Action CommandResult := do
  wait (← r.start argv cwd none) accepted

end Runner
end UpgradeAudit
