/-
# The workspace

The module that is audited: where its manifest and its module cache are, and what the manifest
said before the audit.  `prepare` finds this out once; nothing is looked up again while
inspections change the manifest.

An inspection pins one version inside a manifest transaction, checks that exactly this version
was pinned, lists the packages, and runs the analyzers on those in scope.  The two versions of
a comparison are inspected one after the other.
-/
import UpgradeAudit.Audit.Analysis
import UpgradeAudit.Audit.Resolution
import UpgradeAudit.Change
import UpgradeAudit.Manifest.Transaction
import UpgradeAudit.Package.Scope

namespace UpgradeAudit

/-- A module that is ready to be audited. -/
structure Workspace where
  settings : Settings
  runner : Runner
  analyzers : Analyzers
  moduleCache : String
  modulePath : String
  manifest : ManifestFiles
  /-- The manifest as it was before the audit. -/
  baseline : Snapshot
  deriving DecidableEq, Repr

/-- The directory of the module, before anything is known about it. -/
def Settings.workDir (s : Settings) : String := (Path.ofText s.moduleDir).text

/-- The cause of a listing that cannot be decoded. -/
def listingCause (fault : Json.Fault) : Cause :=
  match fault with
  | .malformed | .unexpected | .longInteger _ =>
    .resolution ("decoding package list: " ++ fault.message)
  | .tooDeep _ => .exhausted fault.message

/-- The packages reachable from patterns, as the build tool lists them. -/
def PackageGraph.list (r : Runner) (buildTool : String) (patterns : List String) :
    Action PackageGraph := do
  let result ← r.run ([buildTool, "list", "-deps", "-json"] ++ patterns) [0] none
  match Package.ofListing result.text (← Action.room) with
  | .ok graph => return graph
  | .error fault => Action.failFor (listingCause fault)

namespace Workspace

/-- The part of the program that the log names. -/
def origin : String := "dep_inspector.orchestrator"

/-! ## 1. Preparation -/

/-- Asks the build tool for the module cache and the manifest. -/
def ask (r : Runner) (buildTool : String) : Action (CommandResult × Path) := do
  let cache ← r.run [buildTool, "env", "GOMODCACHE"] [0] none
  return (cache, ← locateManifest r buildTool)

/-- Finds the module cache and the manifest, and reads the manifest as it is. -/
def prepare (settings : Settings) (env : Environment) : Action Workspace := do
  let runner := settings.runner env
  let (cache, path) ← (ask runner settings.buildTool).onCommandFailure fun m =>
    .setup ("querying the go environment: " ++ m)
  let moduleCache := Text.strip cache.text
  if moduleCache = "" then Action.failFor (.setup "GOMODCACHE is empty")
  let manifest ← Action.ofCauses (ManifestFiles.ofPaths path.text none)
  let baseline ← Snapshot.read manifest
  match baseline.modulePath? with
  | none | some "" =>
    Action.failFor (.setup (path.text ++ " does not declare a module path"))
  | some modulePath =>
    Action.log .info origin "inspector.setup"
      [("module", .text modulePath), ("manifest", .text path.text),
       ("module_cache", .text moduleCache)]
    return { settings, runner, analyzers := settings.analyzers env, moduleCache, modulePath
             manifest, baseline }

/-- The directory that the manifest is in. -/
def workDir (ws : Workspace) : String := ws.manifest.manifest.parent.text

/-! ## 2. One version -/

/-- The manifest as it was pinned, and what the analyzers found. -/
abbrev Findings := Snapshot × CapabilityReport × List Issue

/-- Whether the module does not use a dependency. -/
def isUnused (ws : Workspace) (dep : String) : Bool := (ws.baseline.versionOf? dep).isNone

/-- Rewrites the manifest so that it requires a version.  Tidying would drop a dependency that
no package imports, so one that the module does not use is fetched with all its packages and
left untidied. -/
def pin (ws : Workspace) (dep version : String) : Action Unit := do
  let name := ModulePath.versioned dep version
  let go := ws.settings.buildTool
  let unused := ws.isUnused dep
  let pattern := if unused then ModulePath.versioned (dep ++ "/...") version else name
  let _ ← (ws.runner.run [go, "get", pattern] [0] none).onCommandFailure fun m =>
    .pin ("downloading " ++ name ++ ": " ++ m)
  if unused then return
  let _ ← (ws.runner.run [go, "mod", "tidy"] [0] none).onCommandFailure fun m =>
    .pin ("tidying modules for " ++ name ++ ": " ++ m)

/-- Which packages of a dependency are analyzed. -/
def scopeMode (ws : Workspace) (dep : String) : ScopeMode :=
  if ws.isUnused dep || ws.settings.allPackages then .all else .used

/-- The pattern for every package of the module itself. -/
def ownPackages : String := "./..."

/-- The patterns whose packages are listed. -/
def patterns (dep : String) : ScopeMode → List String
  | .all => [ownPackages, dep ++ "/..."]
  | .used => [ownPackages]

/-- The work of an inspection inside its transaction. -/
def examine (ws : Workspace) (dep version : String) : Action Findings := do
  let mode := ws.scopeMode dep
  let pinned ← ws.manifest.mutate (ws.pin dep version)
  Action.ofCauses (checkPinned pinned.requirements dep version)
  let graph ← PackageGraph.list ws.runner ws.settings.buildTool (patterns dep mode)
  let scope ← Action.ofCauses (PackageGraph.scope dep graph mode (some ws.modulePath))
  let target : Target :=
    { dep, version, scope, dirs := PackageGraph.dirs dep graph
      moduleCache := ws.moduleCache, workDir := ws.workDir }
  return (pinned, ← ws.analyzers.analyze target)

/-- A failure of the audit with the version at hand as a note. -/
def inContext (dep version : String) (f : Failure) : Failure :=
  if f.isOfAudit then f.addNote ("while inspecting " ++ ModulePath.versioned dep version) else f

/-- Reports that an inspection begins. -/
def announce (ws : Workspace) (dep version : String) : Action Unit := do
  if ws.isUnused dep then Action.log .info origin "inspect.dep_unused" [("dep", .text dep)]
  Action.log .info origin "inspect.start"
    [("dep", .text (ModulePath.versioned dep version)), ("mode", .text (ws.scopeMode dep).name)]

/-- The inspection that findings amount to, with the manifest as it was pinned. -/
def concluded (dep version : String) (found : Findings) : Inspection × Snapshot :=
  (.ofFindings dep version found.2.1.capabilities found.2.2 found.2.1.modules, found.1)

/-- Reports an inspection that has ended, and gives the manifest as it was pinned. -/
def conclude (dep version : String) (found : Findings) : Action (Inspection × Snapshot) := do
  let result := concluded dep version found
  Action.log .info origin "inspect.done"
    [("dep", .text (ModulePath.versioned dep version)),
     ("capabilities", .int result.1.totals.capabilityTotal),
     ("issues", .int result.1.totals.issueTotal)]
  return result

/-- Inspects one version, and gives the manifest as it was pinned. -/
def inspectPinned (ws : Workspace) (dep version : String) : Action (Inspection × Snapshot) := do
  ws.announce dep version
  let found ← (ws.manifest.transaction fun _ => ws.examine dep version).mapFailure
    (inContext dep version)
  conclude dep version found

/-- Inspects one version of a dependency. -/
def inspect (ws : Workspace) (dep version : String) : Action Inspection := do
  return (← ws.inspectPinned dep version).1

/-! ## 3. Two versions -/

/-- Compares two versions, and gives the manifests as they were pinned. -/
def comparePinned (ws : Workspace) (dep old new : String) :
    Action (Comparison × Snapshot × Snapshot) := do
  let (oldInspection, oldPinned) ← ws.inspectPinned dep old
  let (newInspection, newPinned) ← ws.inspectPinned dep new
  let comparison :=
    Comparison.ofInspections dep ws.settings.matchColumns oldInspection newInspection
  return (comparison, oldPinned, newPinned)

/-- Compares two versions of a dependency. -/
def compare (ws : Workspace) (dep old new : String) : Action Comparison := do
  return (← ws.comparePinned dep old new).1

/-- Compares two versions of a dependency, and audits every other dependency that moving from
one to the other changes. -/
def compareFully (ws : Workspace) (dep old new : String) : Action FullComparison := do
  let (root, oldPinned, newPinned) ← ws.comparePinned dep old new
  let changed := changedDependencies oldPinned.requirements newPinned.requirements [dep]
  Action.log .info origin "recursive.changed"
    [("dep", .text dep), ("changed", .nat changed.length)]
  let others ← Resolution.ofChanges ws.inspect ws.compare changed
  if ! others.failures.isEmpty then
    Action.log .warning origin "recursive.incomplete"
      [("dep", .text dep), ("failed", .nat others.failures.length)]
  return { root, others }

end Workspace
end UpgradeAudit
