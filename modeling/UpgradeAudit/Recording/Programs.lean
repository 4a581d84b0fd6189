/-
# Recorded programs

A host whose programs behave as written down beforehand.  Each recorded program answers the
command lines that start with its words, the first one that fits being asked; one that was
recorded a limited number of times is passed over when it is used up.  What nothing answers
cannot be started.

A program makes its changes to the files when it is started, so that what runs beside it finds
them made.  It runs for a number of turns, or until it is killed; an audit whose patience ends
by then is cancelled while the program runs.
-/
import UpgradeAudit.Host.World

namespace UpgradeAudit

/-- What a recorded program does. -/
structure RecordedRun where
  /-- Files it writes, and what it removes. -/
  changes : List (String × Option Bytes)
  /-- How many turns it runs; without a number, until it is killed. -/
  turns : Option Nat
  /-- Its exit code, when one is known. -/
  code : Option Int
  stdout : Bytes
  stderr : Bytes
  deriving DecidableEq, Repr

/-- How a program ends when the audit is cancelled in a turn, if it is: only a program that is
done before this turn exits by itself. -/
def RecordedRun.ending (patience : Option Nat) (r : RecordedRun) : Ending :=
  match r.turns, patience with
  | none, _ => .interrupted
  | some turns, some patience => if turns < patience then .exited r.code else .interrupted
  | some _, none => .exited r.code

/-- A program as it was recorded. -/
structure RecordedProgram where
  /-- The words that the command lines it answers start with. -/
  words : List String
  /-- How often it can still be started; without a number, any number of times. -/
  uses : Option Nat
  /-- What it does; nothing when it is not installed. -/
  run : Option RecordedRun
  deriving DecidableEq, Repr

namespace RecordedProgram

/-- Whether a program answers a command line. -/
def answers (p : RecordedProgram) (argv : List String) : Bool :=
  p.words.isPrefixOf argv && p.uses ≠ some 0

/-- A program after one more start. -/
def used (p : RecordedProgram) : RecordedProgram := { p with uses := p.uses.map (· - 1) }

/-- The program that a command line starts. -/
def find? (programs : List RecordedProgram) (argv : List String) : Option RecordedProgram :=
  programs.find? (answers · argv)

/-- The programs after a command line has been answered. -/
def afterStart : List RecordedProgram → List String → List RecordedProgram
  | [], _ => []
  | p :: rest, argv => if p.answers argv then p.used :: rest else p :: afterStart rest argv

/-- What becomes of a command, given those started before it (latest first). -/
def respond (programs : List RecordedProgram) (patience : Option Nat) (before : List Command)
    (files : FileTree) (command : Command) : Start :=
  let left := before.foldr (fun c programs => afterStart programs c.argv) programs
  match (find? left command.argv).bind run with
  | some r => .runs ⟨files.apply r.changes, r.ending patience, r.stdout, r.stderr⟩
  | none => .refused (.at .missing (command.argv.head?.getD ""))

end RecordedProgram

/-- What a recording says about private directories. -/
inductive PrivateDirectories where
  | usable
  /-- None can be made. -/
  | refused
  /-- They are made and are gone at once. -/
  | vanishing
  deriving DecidableEq, Repr

/-- A recording of everything that an audit meets outside itself. -/
structure Recording where
  files : FileTree
  environment : Table String String
  programs : List RecordedProgram
  directories : PrivateDirectories
  /-- What others do to the files each time one has been put back. -/
  meddling : List (String × Option Bytes)
  deriving DecidableEq, Repr

namespace Recording

/-- The name under which every private directory is shown. -/
def directoryName : String := "<tmp>"

/-- The host that behaves as recorded and cancels the audit when a program runs for so many
turns. -/
def hostWith (patience : Option Nat) (r : Recording) : Host where
  respond := RecordedProgram.respond r.programs patience
  readFault _ _ := none
  writeFault _ _ := none
  meddle _ files := files.apply r.meddling
  directoryName _ := directoryName
  directoryFault _ :=
    match r.directories with
    | .refused => some (.at .missing directoryName)
    | .usable | .vanishing => none
  privateFault _ _ :=
    match r.directories with
    | .vanishing => some .missing
    | .usable | .refused => none
  removalFault _ := none
  nesting _ := Json.usualRoom
  finishOrder _ := []
  interrupts _ := false
  keepRecord _ files := files

/-- The host that behaves as recorded and never cancels the audit. -/
def host (r : Recording) : Host := r.hostWith none

/-- The world before the audit. -/
def world (r : Recording) : World := .ofFiles r.files

end Recording
end UpgradeAudit
