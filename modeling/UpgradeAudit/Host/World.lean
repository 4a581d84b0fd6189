/-
# The host

What an audit meets outside itself, and what it has done there so far.

`Host` is everything the surroundings decide: how a started program behaves, which operations
fail and how, what others do to the files meanwhile, in which order programs end, when a wait
is broken off, how deep a document may nest, and where log records are kept.  `World` is the
state that an audit reads and changes: the files, the private directories it has made, and the
events so far.

A statement about every host is one about every behaviour of the surroundings that these
choices can express.  Three things they cannot:

* A file is a name and its contents, and no two names lead to one file.  Where a program leaves
  a link in place of a file, what is written through it reaches another one too; a host can
  only tell this as something that others do after the write (`Host.meddle`).
* Private directories are reached by their number and not through the file tree, so nobody but
  the audit changes what they hold.  The host chooses the names under which they are shown, and
  whether making one, writing in it or removing it fails.
* The program is whole: the configurations that come with it can be read, and there are memory
  and threads enough.
-/
import UpgradeAudit.Host.FileTree
import UpgradeAudit.Json.Basic

namespace UpgradeAudit

/-! ## 1. Commands -/

/-- A program to be started. -/
structure Command where
  argv : List String
  cwd : String
  environment : Table String String
  /-- The contents of the private file that an argument names, when there is one. -/
  attachment : Option Bytes
  deriving DecidableEq, Repr

/-- How a started program ends. -/
inductive Ending where
  /-- By itself, with an exit code when one is known. -/
  | exited (code : Option Int)
  /-- The audit is cancelled while the program runs. -/
  | interrupted
  deriving DecidableEq, Repr

/-- What a started program does. -/
structure Behaviour where
  /-- The files once it has done its work. -/
  files : FileTree
  ending : Ending
  stdout : Bytes
  stderr : Bytes

/-- Why a command cannot be put to the system at all. -/
inductive CommandFault where
  /-- An argument, the directory or a variable holds a null character. -/
  | nullCharacter
  /-- An argument, the directory or a variable has no bytes. -/
  | unwritable (fault : Text.WritingFault)
  deriving DecidableEq, Repr

/-- The cause that a command fails for which cannot be put to the system. -/
def CommandFault.cause : CommandFault → Cause
  | .nullCharacter => .invalidValue "embedded null byte"
  | .unwritable fault => .unwritable fault

/-- What becomes of an attempt to start a program. -/
inductive Start where
  | refused (error : FileError)
  /-- The system is not even asked. -/
  | barred (fault : CommandFault)
  /-- The audit is cancelled before the program runs. -/
  | interrupted
  | runs (behaviour : Behaviour)

/-! ## 2. Analyzers -/

/-- The analyzers that run side by side. -/
inductive Tool where
  | capslock
  | golangciLint
  | staticcheck
  deriving DecidableEq, Repr

/-- The name of an analyzer in failures. -/
def Tool.name : Tool → String
  | .capslock => "capslock"
  | .golangciLint => "golangci-lint"
  | .staticcheck => "staticcheck"

/-! ## 3. File operations -/

/-- How writing a file fails. -/
inductive WriteFault where
  /-- Before anything is written. -/
  | refused (fault : FileFault)
  /-- After part of the file has been written. -/
  | torn (fault : FileFault) (left : Bytes)
  deriving DecidableEq, Repr

/-- What was wrong. -/
def WriteFault.fault : WriteFault → FileFault
  | .refused fault | .torn fault _ => fault

/-! ## 4. Log records -/

/-- How much a log record matters. -/
inductive Severity where
  | debug
  | info
  | warning
  | error
  deriving DecidableEq, Repr

/-- The name of a severity. -/
def Severity.name : Severity → String
  | .debug => "debug"
  | .info => "info"
  | .warning => "warning"
  | .error => "error"

/-- The rank of a severity among the levels of a log. -/
def Severity.rank : Severity → Nat
  | .debug => 10
  | .info => 20
  | .warning => 30
  | .error => 40

/-- A log record: what happened, in which part of the program, and the details. -/
structure LogRecord where
  severity : Severity
  origin : String
  event : String
  details : List (String × Json)

/-! ## 5. The host -/

/-- The choices of the surroundings.  A number stands for the moment of an operation. -/
structure Host where
  /-- The behaviour of a command, given those started before it (latest first) and the files. -/
  respond : List Command → FileTree → Command → Start
  /-- The fault that reading a file meets. -/
  readFault : Nat → String → Option FileFault
  /-- The fault that writing a file meets. -/
  writeFault : Nat → String → Option WriteFault
  /-- What others do to the files between the moment a file is put back and its check; what a
  write does to further files through links counts as done by others. -/
  meddle : Nat → FileTree → FileTree
  /-- The name under which a private directory is shown. -/
  directoryName : Nat → String
  /-- The fault that making a private directory meets. -/
  directoryFault : Nat → Option FileError
  /-- The fault that writing a file in a private directory meets. -/
  privateFault : Nat → String → Option FileFault
  /-- The fault that removing a private directory meets. -/
  removalFault : Nat → Option FileError
  /-- How many collections inside one another there is room for in a document. -/
  nesting : Nat → Nat
  /-- The order in which analyzers that run side by side end. -/
  finishOrder : Nat → List Tool
  /-- Whether the audit is cancelled while it waits for work of its own. -/
  interrupts : Nat → Bool
  /-- What keeping a log record does to the files. -/
  keepRecord : LogRecord → FileTree → FileTree

/-! ## 6. Events -/

/-- The exact contents of the two manifest files at one moment. -/
structure ManifestContents where
  manifest : Bytes
  lock : Bytes
  deriving DecidableEq, Repr

/-- What an audit did, as far as it can be told from outside. -/
inductive Event where
  | started (command : Command)
  /-- The command with this number ended by itself. -/
  | ended (number : Nat) (exitCode : Int) (stdout : Bytes)
  /-- The command with this number was killed and its end awaited. -/
  | killed (number : Nat)
  | logged (record : LogRecord)
  /-- Both manifest files were read. -/
  | read (contents : ManifestContents)
  /-- A transaction began: the contents it will put back and its private directory. -/
  | opened (directory : Nat) (contents : ManifestContents)
  /-- The attempt to put the contents of a transaction back, and the paths of the files for which
  it failed. -/
  | restored (directory : Nat) (missed : List String)
  /-- A transaction ended. -/
  | closed (directory : Nat)

/-! ## 7. The world -/

/-- The state that an audit reads and changes. -/
structure World where
  files : FileTree
  /-- The private directories that exist, each with its files by name. -/
  directories : Table Nat (Table String Bytes)
  /-- How many private directories have been made. -/
  made : Nat
  /-- How many operations have been carried out. -/
  clock : Nat
  /-- The events, latest first. -/
  events : List Event

namespace World

/-- A world in which nothing has happened. -/
def ofFiles (files : FileTree) : World := ⟨files, [], 0, 0, []⟩

/-- The commands started so far, latest first. -/
def started (w : World) : List Command :=
  w.events.filterMap fun
    | .started c => some c
    | _ => none

/-- The events in the order in which they happened. -/
def history (w : World) : List Event := w.events.reverse

/-- The world after one more event. -/
def record (e : Event) (w : World) : World := { w with events := e :: w.events }

end World
end UpgradeAudit
