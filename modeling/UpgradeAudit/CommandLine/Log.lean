/-
# The log

Which log records are kept, where they go, and how one is written.  Two variables of the
process decide: `DEP_INSPECTOR_LOG_LEVEL` names the least severity, and
`DEP_INSPECTOR_LOG_FORMAT` asks for records as JSON.

A log file is opened when the log is set up, before the level is looked at; one that is there
already is added to.
-/
import UpgradeAudit.Audit.Settings
import UpgradeAudit.Json.Writer

namespace UpgradeAudit

/-- A log record as JSON. -/
def LogRecord.json (r : LogRecord) : Json :=
  .object (r.details ++
    [("event", .text r.event), ("level", .text r.severity.name), ("logger", .text r.origin)])

namespace CommandLine

/-- Where log records go and which are kept. -/
structure Log where
  /-- The rank of the least severity. -/
  threshold : Nat
  asJson : Bool
  /-- The file that records are added to; without one they go to standard error. -/
  file : Option String
  deriving DecidableEq, Repr

namespace Log

/-- The ranks of the levels by name. -/
def levels : List (String × Nat) :=
  [("CRITICAL", 50), ("FATAL", 50), ("ERROR", 40), ("WARN", 30), ("WARNING", 30), ("INFO", 20),
   ("DEBUG", 10), ("NOTSET", 0)]

/-- The capital of a letter, with the two letters beyond ASCII whose capitals are ASCII. -/
def capital (c : Char) : Char :=
  if c = 'ı' then 'I' else if c = 'ſ' then 'S' else c.toUpper

/-- The rank of the level that the environment names. -/
def threshold? (env : Environment) (verbose : Bool) : Option Nat :=
  let name := (Table.get? "DEP_INSPECTOR_LOG_LEVEL" env).getD (if verbose then "DEBUG" else "INFO")
  levels.lookup (name.map capital)

/-- Whether the environment asks for JSON. -/
def wantsJson (env : Environment) : Bool :=
  ((Table.get? "DEP_INSPECTOR_LOG_FORMAT" env).getD "").map Char.toLower = "json"

/-- The failure of a set-up. -/
def unusable (what : String) : Cause := .invalidValue ("Unable to configure " ++ what)

/-- Opens a log file. -/
def openFile (path : String) : Action Unit := do
  match (← Action.world).files.hold (Path.ofText path).normalise.text with
  | .ok files => Action.change fun w => { w with files }
  | .error _ => Action.failFor (unusable "handler 'default'")

/-- Sets the log up. -/
def setUp (env : Environment) (verbose : Bool) (file : Option String) : Action Log := do
  let file := file.filter (· ≠ "")
  if let some path := file then openFile path
  match threshold? env verbose with
  | some threshold => return { threshold, asJson := wantsJson env, file }
  | none => Action.failFor (unusable "logger 'dep_inspector'")

/-- Whether a record is kept. -/
def keeps (log : Log) (r : LogRecord) : Bool := log.threshold ≤ r.severity.rank

/-- A record as a line. -/
def line (log : Log) (r : LogRecord) : String :=
  if log.asJson then r.json.compact
  else
    let details := r.details.map fun d => d.1 ++ "=" ++ d.2.compact
    " ".intercalate (("[" ++ r.severity.name ++ "]") :: r.event :: details)

/-- Adds a record to the log file. -/
def addToFile (log : Log) (r : LogRecord) (files : FileTree) : FileTree :=
  if log.file.isSome && log.keeps r then files.append (Text.Utf8.encode (log.line r ++ "\n"))
  else files

/-- The records that are kept. -/
def kept (log : Log) (events : List Event) : List LogRecord :=
  events.filterMap fun
    | .logged r => if log.keeps r then some r else none
    | _ => none

end Log
end CommandLine
end UpgradeAudit
