/-
# Requests

What a command line asks for.  Switches for the whole program stand before the command; the
command has arguments and switches of its own, which are read only once the log is set up.
-/
import UpgradeAudit.CommandLine.Switches
import UpgradeAudit.Audit.Settings

namespace UpgradeAudit.CommandLine

/-! ## 1. The whole program -/

/-- The switches before the command. -/
inductive GeneralSwitch where
  | version
  | verbose
  | logFile
  | json
  | allPackages
  | matchColumns
  | moduleDir
  | help
  deriving DecidableEq, Repr

/-- How the switches before the command are written. -/
def generalSwitches : List (Switch GeneralSwitch) :=
  [⟨.version, none, "--version", false⟩,
   ⟨.verbose, some 'v', "--verbose", false⟩,
   ⟨.logFile, none, "--log-file", true⟩,
   ⟨.json, none, "--json", false⟩,
   ⟨.allPackages, some 'a', "--all-packages", false⟩,
   ⟨.matchColumns, none, "--match-columns", false⟩,
   ⟨.moduleDir, some 'C', "--module-dir", true⟩,
   ⟨.help, none, "--help", false⟩]

/-- What the switches before the command say. -/
structure Options where
  verbose : Bool
  logFile : Option String
  json : Bool
  allPackages : Bool
  matchColumns : Bool
  moduleDir : Option String
  deriving DecidableEq, Repr

/-- The options of a line. -/
def Options.ofLine (l : Line GeneralSwitch) : Options where
  verbose := l.has .verbose
  logFile := l.value? .logFile
  json := l.has .json
  allPackages := l.has .allPackages
  matchColumns := l.has .matchColumns
  moduleDir := l.value? .moduleDir

/-- Settings with the options that were given in place of what they say. -/
def Options.override (o : Options) (s : Settings) : Settings :=
  { s with
    verbose := o.verbose
    allPackages := o.allPackages || s.allPackages
    matchColumns := o.matchColumns || s.matchColumns
    moduleDir := o.moduleDir.getD s.moduleDir }

/-! ## 2. Commands -/

/-- The commands. -/
inductive Verb where
  | inspect
  | compare
  deriving DecidableEq, Repr

/-- The command with a name. -/
def Verb.ofName? : String → Option Verb
  | "inspect" => some .inspect
  | "compare" => some .compare
  | _ => none

/-- The switches of a command. -/
inductive CommandSwitch where
  | recursive
  | help
  deriving DecidableEq, Repr

/-- How the switches of a command are written. -/
def Verb.switches : Verb → List (Switch CommandSwitch)
  | .inspect => [⟨.help, none, "--help", false⟩]
  | .compare => [⟨.recursive, some 'r', "--recursive", false⟩, ⟨.help, none, "--help", false⟩]

/-- The names of a command's arguments. -/
def Verb.arguments : Verb → List String
  | .inspect => ["DEP", "VERSION"]
  | .compare => ["DEP", "OLD_VERSION", "NEW_VERSION"]

/-- What is to be done. -/
inductive Task where
  | inspect (dep version : String)
  | compare (dep old new : String)
  | compareFully (dep old new : String)
  deriving DecidableEq, Repr

/-- What a command and its arguments ask for: a task, or nothing but help. -/
def Task.read (verb : Verb) (arguments : List String) : Except Misuse (Option Task) := do
  let line ← Line.read verb.switches true arguments
  if line.has .help then return none
  match verb, line.words with
  | .inspect, [dep, version] => return some (.inspect dep version)
  | .compare, [dep, old, new] =>
    return some (if line.has .recursive then .compareFully dep old new else .compare dep old new)
  | verb, words =>
    match verb.arguments[words.length]? with
    | some name => throw (.missingArgument name)
    | none => throw (.unexpectedArguments (words.drop verb.arguments.length))

/-! ## 3. Command lines -/

/-- What a command line asks for, as far as it is known before the log is set up. -/
inductive Request where
  | version
  | help
  | perform (options : Options) (verb : Verb) (arguments : List String)
  /-- Nothing that can be done: a switch names a path that no file can have. -/
  | hopeless (cause : Cause)
  deriving DecidableEq, Repr

/-- The first of the switches that are answered at once. -/
def immediate? (l : Line GeneralSwitch) : Option Request :=
  l.switches.findSome? fun s =>
    match s.1 with
    | .version => some .version
    | .help => some .help
    | _ => none

/-- What can be wrong with a path that a switch names. -/
inductive Objection where
  | misuse (m : Misuse)
  | cause (c : Cause)
  deriving DecidableEq, Repr

/-- What is wrong with the value of a switch. -/
def objection? (isDirectory : String → Bool) (key : GeneralSwitch) (path : String) :
    Option Objection :=
  match key, Cause.ofFileName? path with
  | .logFile, some c | .moduleDir, some c => some (.cause c)
  | .logFile, none =>
    if isDirectory path then
      some (.misuse (.badValue "--log-file" ("File " ++ path ++ " is a directory.")))
    else none
  | .moduleDir, none =>
    if isDirectory path then none
    else some (.misuse (.badValue "--module-dir" ("Directory " ++ path ++ " does not exist.")))
  | _, _ => none

/-- What is wrong with the values of a line: the switch that was given first decides, with the
last of its values. -/
def Line.objection? (l : Line GeneralSwitch) (isDirectory : String → Bool) : Option Objection :=
  (l.switches.map Prod.fst).eraseDups.findSome? fun key =>
    (l.value? key).bind (CommandLine.objection? isDirectory key)

/-- What the switches of a line ask for before any command is looked at, if they decide. -/
def Line.request? (l : Line GeneralSwitch) (isDirectory : String → Bool) :
    Except Misuse (Option Request) :=
  match immediate? l, l.objection? isDirectory with
  | some request, _ => .ok (some request)
  | none, some (.misuse m) => .error m
  | none, some (.cause c) => .ok (some (.hopeless c))
  | none, none => .ok none

/-- Reads a command line.  A word in place of a command that is written like a switch is read
as one, and may still decide what is asked for. -/
def Request.read (isDirectory : String → Bool) (arguments : List String) :
    Except Misuse Request := do
  if arguments.isEmpty then throw .missingCommand
  let line ← Line.read generalSwitches false arguments
  if let some request ← line.request? isDirectory then return request
  match line.words with
  | [] => throw .missingCommand
  | name :: rest =>
    match Verb.ofName? name with
    | some verb => return .perform (.ofLine line) verb rest
    | none =>
      let words ← Line.read generalSwitches false line.words
      if let some request ← words.request? isDirectory then return request
      throw (.unknownCommand name)

end UpgradeAudit.CommandLine
