/-
# Analysis

The three analyzers run side by side on one version of a dependency.  Each is launched in its
turn: its private directory is made, its configuration written and its program started.  Then
they end in whatever order the host lets them; at its end each one's private directory is
removed and its output decoded.

Every analyzer is carried through to its own end, whatever becomes of the others, and only
then are the outcomes put together.
-/
import UpgradeAudit.Audit.Configs
import UpgradeAudit.Audit.Settings
import UpgradeAudit.FanIn
import UpgradeAudit.Output.CallPaths
import UpgradeAudit.Output.CheckStream
import UpgradeAudit.Output.LintReport

namespace UpgradeAudit

/-- What the analyzers look at. -/
structure Target where
  dep : String
  version : String
  /-- Import paths or patterns, for analyzers that load packages themselves. -/
  scope : List String
  /-- Package directories, for analyzers that take paths. -/
  dirs : List String
  moduleCache : String
  workDir : String
  deriving DecidableEq, Repr

/-- The name of a target in messages. -/
def Target.name (t : Target) : String := ModulePath.versioned t.dep t.version

/-- The analyzers as they are called. -/
structure Analyzers where
  runner : Runner
  capslock : String
  golangciLint : String
  staticcheck : String
  checks : String
  deriving DecidableEq, Repr

/-- The analyzers that the settings name. -/
def Settings.analyzers (s : Settings) (env : Environment) : Analyzers :=
  ⟨s.runner env, s.capslock, s.golangciLint, s.staticcheck, s.checks⟩

/-- Work that has been launched: it failed at once, or this is what is left to do when its
program has ended. -/
abbrev Launched (α : Type) := Except Failure (Action α)

/-- Carries launched work through to its end. -/
def Launched.conclude : Launched α → Action (Except Failure α)
  | .error f => return .error f
  | .ok rest => Action.attempt rest

namespace Analyzers

/-! ## 1. Single analyzers -/

/-- The part of the program that the log names for capabilities. -/
def capabilityOrigin : String := "dep_inspector.analyzers.capslock"

/-- The part of the program that the log names for lint issues. -/
def lintOrigin : String := "dep_inspector.analyzers.lint"

/-- The exit codes of a linter that did its work, with issues or without. -/
def issuesFound : List Int := [0, 1]

/-- Launches a program with a configuration file in a private directory of its own, which is
removed when the program has ended or could not be launched.  A removal that fails takes the
place of what came of the program. -/
def withConfig (tool : Tool) (what name : String) (content : Bytes)
    (launch : String → Action Running) (accepted : List Int) : Action (Action CommandResult) := do
  let directory ← Action.makeDirectory
  let start : Action Running := do
    (Action.writePrivate directory name content).onFileError fun e =>
      .analyzer tool.name ("writing " ++ what ++ ": " ++ e.message)
    launch (← Action.privateName directory name)
  match ← Action.attempt start with
  | .error f =>
    Action.removeDirectory directory
    Action.fail f
  | .ok running =>
    return do
      let ended ← Action.attempt (Runner.wait running accepted)
      Action.removeDirectory directory
      Action.ofExcept ended

/-- A command failure of an analyzer as a failure of the analyzer. -/
def blame (tool : Tool) (x : Action α) : Action α := x.onCommandFailure (.analyzer tool.name)

/-- Launches the capability analyzer. -/
def launchCapslock (a : Analyzers) (target : Target) : Action (Action CapabilityReport) := do
  if target.scope.isEmpty then
    Action.failFor (.analyzer Tool.capslock.name
      ("no packages to analyze for " ++ target.name))
  let content := Configs.ofLines Configs.capabilityMap
  let launch (path : String) : Action Running := do
    Action.log .info capabilityOrigin "capslock.start"
      [("dep", .text target.name), ("packages", .nat target.scope.length)]
    a.runner.start [a.capslock, "-packages", ",".intercalate target.scope, "-capability_map", path,
      "-output=json"] (some target.workDir) (some content)
  let ending ← blame .capslock
    (withConfig .capslock "capability map" Configs.capabilityMapName content launch [0])
  return do
    let result ← blame .capslock ending
    let report ← Action.ofCauses
      (Output.CallPaths.decode (.bytes result.stdout) target.moduleCache (← Action.room))
    Action.log .info capabilityOrigin "capslock.done"
      [("dep", .text target.name), ("capabilities", .nat report.capabilities.length),
       ("modules", .nat report.modules.length)]
    return report

/-- Launches golangci-lint. -/
def launchGolangciLint (a : Analyzers) (target : Target) : Action (Action (List Issue)) := do
  let content := Configs.ofLines Configs.linterConfig
  let launch (path : String) : Action Running := do
    Action.log .info lintOrigin "lint.golangci_start"
      [("dep", .text target.name), ("dirs", .nat target.dirs.length)]
    a.runner.start ([a.golangciLint, "run", "-c", path, "--out-format=json"] ++ target.dirs)
      (some target.workDir) (some content)
  let ending ← blame .golangciLint
    (withConfig .golangciLint "config file" Configs.linterConfigName content launch issuesFound)
  return do
    let result ← blame .golangciLint ending
    Action.ofCauses (Output.LintReport.decode (.bytes result.stdout) target.moduleCache
      (some target.workDir) (← Action.room))

/-- Launches staticcheck. -/
def launchStaticcheck (a : Analyzers) (target : Target) : Action (Action (List Issue)) := do
  Action.log .info lintOrigin "lint.staticcheck_start"
    [("dep", .text target.name), ("dirs", .nat target.dirs.length)]
  let running ← blame .staticcheck
    (a.runner.start ([a.staticcheck, "-checks=" ++ a.checks, "-f=json", "-tests=false"]
      ++ target.dirs) (some target.workDir) none)
  return do
    let result ← blame .staticcheck (Runner.wait running issuesFound)
    Action.checkpoint
    Output.CheckStream.decode (.bytes result.stdout) target.moduleCache (some target.workDir)

/-! ## 2. The linters together -/

/-- Both linters, launched. -/
structure Linters where
  golangciLint : Launched (List Issue)
  staticcheck : Launched (List Issue)

/-- The outcomes of the linters, absent while they run. -/
structure LintOutcomes where
  golangciLint : Option (Except Failure (List Issue))
  staticcheck : Option (Except Failure (List Issue))

/-- Launches both linters, one after the other. -/
def launchLinters (a : Analyzers) (target : Target) : Action Linters := do
  let golangciLint ← Action.attempt (a.launchGolangciLint target)
  let staticcheck ← Action.attempt (a.launchStaticcheck target)
  return { golangciLint, staticcheck }

/-- The outcomes after the end of one analyzer; what has ended does not end again. -/
def Linters.conclude (l : Linters) (o : LintOutcomes) : Tool → Action LintOutcomes
  | .capslock => return o
  | .golangciLint =>
    match o.golangciLint with
    | some _ => return o
    | none => return { o with golangciLint := some (← Launched.conclude l.golangciLint) }
  | .staticcheck =>
    match o.staticcheck with
    | some _ => return o
    | none => return { o with staticcheck := some (← Launched.conclude l.staticcheck) }

/-- The failure of work whose end was never awaited; no run meets it. -/
def underWay : Failure := .ofCause (.defect "still under way")

/-- The issues of both linters in their order, or what went wrong. -/
def LintOutcomes.issues (o : LintOutcomes) : Except Failure (List Issue) :=
  (FanIn.both (o.golangciLint.getD (.error underWay)) (o.staticcheck.getD (.error underWay))).map
    fun (a, b) => Issue.sort (a ++ b)

/-- Reports the issues of a target. -/
def reportIssues (target : Target) (outcome : Except Failure (List Issue)) : Action Unit :=
  match outcome with
  | .ok issues => Action.log .info lintOrigin "lint.done"
      [("dep", .text target.name), ("issues", .nat issues.length)]
  | .error _ => pure ()

/-- Reports that there is nothing for the linters to look at. -/
def reportNoDirs (target : Target) : Action Unit :=
  Action.log .warning lintOrigin "lint.no_package_dirs" [("dep", .text target.name)]

/-! ## 3. All analyzers -/

/-- The capabilities of a target. -/
def findCapabilities (a : Analyzers) (target : Target) : Action CapabilityReport := do
  let rest ← a.launchCapslock target
  rest

/-- The lint issues of a target. -/
def findIssues (a : Analyzers) (target : Target) : Action (List Issue) := do
  if target.dirs.isEmpty then
    reportNoDirs target
    return []
  let linters ← a.launchLinters target
  let order := (← Action.host).finishOrder (← Action.moment)
  let outcomes ← (order ++ [Tool.golangciLint, Tool.staticcheck]).foldlM linters.conclude
    ⟨none, none⟩
  reportIssues target outcomes.issues
  Action.ofExcept outcomes.issues

/-- The outcomes of all three analyzers, absent while they run. -/
structure Outcomes where
  capslock : Option (Except Failure CapabilityReport)
  lint : LintOutcomes

/-- The outcomes after the end of one analyzer. -/
def concludeOne (capslock : Launched CapabilityReport) (linters : Linters) (o : Outcomes)
    (tool : Tool) : Action Outcomes := do
  match tool, o.capslock with
  | .capslock, none => return { o with capslock := some (← Launched.conclude capslock) }
  | .capslock, some _ => return o
  | tool, _ => return { o with lint := ← linters.conclude o.lint tool }

/-- The capabilities and the lint issues of a target. -/
def analyze (a : Analyzers) (target : Target) : Action (CapabilityReport × List Issue) := do
  let capslock ← Action.attempt (a.launchCapslock target)
  if target.dirs.isEmpty then
    reportNoDirs target
    Action.ofExcept (FanIn.both (← Launched.conclude capslock) (.ok []))
  else
    let linters ← a.launchLinters target
    let order := (← Action.host).finishOrder (← Action.moment)
    let outcomes ← (order ++ [Tool.capslock, Tool.golangciLint, Tool.staticcheck]).foldlM
      (concludeOne capslock linters) ⟨none, ⟨none, none⟩⟩
    reportIssues target outcomes.lint.issues
    Action.ofExcept
      (FanIn.both (outcomes.capslock.getD (.error underWay)) outcomes.lint.issues)

end Analyzers
end UpgradeAudit
