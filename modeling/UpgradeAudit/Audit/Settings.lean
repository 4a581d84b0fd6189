/-
# Settings

What an audit is told to do and with which programs, and what it takes from the process
environment: defaults come from variables of its own, and programs are given only the
variables on a list.
-/
import UpgradeAudit.Command
import UpgradeAudit.Text.Blank

namespace UpgradeAudit

/-- The variables of a process. -/
abbrev Environment := Table String String

/-- The settings of an audit. -/
structure Settings where
  /-- The directory of the module to audit. -/
  moduleDir : String
  /-- Whether every package of a dependency is analyzed, not only the used ones. -/
  allPackages : Bool
  /-- Whether lint issues must agree in their column to match. -/
  matchColumns : Bool
  /-- The variables that programs are given. -/
  forwarded : List String
  verbose : Bool
  buildTool : String
  capslock : String
  golangciLint : String
  staticcheck : String
  /-- The checks that staticcheck runs. -/
  checks : String
  deriving DecidableEq, Repr

namespace Settings

/-- The variables that programs are always given. -/
def alwaysForwarded : List String := ["HOME", "PATH"]

/-- The settings when nothing is said. -/
def standard : Settings where
  moduleDir := "."
  allPackages := false
  matchColumns := false
  forwarded := alwaysForwarded
  verbose := false
  buildTool := "go"
  capslock := "capslock"
  golangciLint := "golangci-lint"
  staticcheck := "staticcheck"
  checks := "SA1*,SA2*,SA4*,SA5*,SA9*"

/-- The words that switch a setting on. -/
def switchedOn : List String := ["1", "true", "yes", "on"]

/-- Whether a variable switches a setting on. -/
def flag (env : Environment) (name : String) : Bool :=
  match Table.get? name env with
  | some value => switchedOn.contains ((Text.strip value).map Char.toLower)
  | none => false

/-- The items of a variable, set apart by commas; empty ones do not count. -/
def items (env : Environment) (name : String) : List String :=
  ((Text.pieces ',' ((Table.get? name env).getD "")).map Text.strip).filter (· ≠ "")

/-- The settings that the process environment gives. -/
def ofEnvironment (env : Environment) : Settings :=
  let value (name standard : String) : String := (Table.get? name env).getD standard
  { moduleDir := value "DEP_INSPECTOR_MODULE_DIR" standard.moduleDir
    allPackages := flag env "DEP_INSPECTOR_ALL_PACKAGES"
    matchColumns := flag env "DEP_INSPECTOR_MATCH_COLUMNS"
    forwarded := alwaysForwarded ++ (items env "DEP_INSPECTOR_FORWARD_ENV").filter
      fun name => ! alwaysForwarded.contains name
    verbose := false
    buildTool := value "DEP_INSPECTOR_GO" standard.buildTool
    capslock := value "DEP_INSPECTOR_CAPSLOCK" standard.capslock
    golangciLint := value "DEP_INSPECTOR_GOLANGCI_LINT" standard.golangciLint
    staticcheck := value "DEP_INSPECTOR_STATICCHECK" standard.staticcheck
    checks := value "DEP_INSPECTOR_STATICCHECK_CHECKS" standard.checks }

/-- The environment of programs: the variables on the list that are set. -/
def processEnvironment (s : Settings) (env : Environment) : Environment :=
  .ofEntries (s.forwarded.filterMap fun name =>
    (Table.get? name env).map fun value => (name, value))

/-- How programs are run. -/
def runner (s : Settings) (env : Environment) : Runner :=
  ⟨s.moduleDir, s.processEnvironment env, s.verbose⟩

end Settings
end UpgradeAudit
