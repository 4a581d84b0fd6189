/-
# Inspections and comparisons

The findings for one version of a dependency, what changed between two versions, and the
comparison of an upgrade together with every other dependency that it moves.
-/
import UpgradeAudit.Diff
import UpgradeAudit.Totals

namespace UpgradeAudit

/-- The findings for one version of a dependency. -/
@[ext] structure Inspection where
  dep : String
  version : String
  capabilities : List Capability
  issues : List Issue
  modules : List CapabilityModule
  totals : Totals
  deriving DecidableEq, Repr

/-- An inspection with the totals of its findings. -/
def Inspection.ofFindings (dep version : String) (capabilities : List Capability)
    (issues : List Issue) (modules : List CapabilityModule) : Inspection where
  dep := dep
  version := version
  capabilities := capabilities
  issues := issues
  modules := modules
  totals := .ofFindings capabilities issues

/-- What changed between two versions of a dependency. -/
@[ext] structure Comparison where
  dep : String
  oldVersion : String
  newVersion : String
  capabilities : Diff Capability
  issues : Diff Issue
  oldModules : List CapabilityModule
  newModules : List CapabilityModule
  removedTotals : Totals
  staleTotals : Totals
  addedTotals : Totals
  totals : Totals
  deriving DecidableEq, Repr

/-- The comparison of two inspections of a dependency. -/
def Comparison.ofInspections (dep : String) (matchColumn : Bool) (old new : Inspection) :
    Comparison :=
  let capabilities := diff Capability.same old.capabilities new.capabilities
  let issues := diff (Issue.same dep matchColumn) old.issues new.issues
  let removed := Totals.ofFindings capabilities.removed issues.removed
  let stale := Totals.ofFindings capabilities.stale issues.stale
  let added := Totals.ofFindings capabilities.added issues.added
  { dep, oldVersion := old.version, newVersion := new.version, capabilities, issues
    oldModules := old.modules, newModules := new.modules
    removedTotals := removed, staleTotals := stale, addedTotals := added
    totals := .combine removed stale added }

/-- A dependency whose required version differs between two manifests. -/
@[ext] structure ChangedDependency where
  path : String
  newVersion : String
  /-- The version before; none for a dependency that is new. -/
  oldVersion : Option String
  deriving DecidableEq, Repr

/-- Whether a changed dependency was not required before. -/
def ChangedDependency.isNew (change : ChangedDependency) : Bool := change.oldVersion.isNone

/-- A changed dependency that could not be audited, and why. -/
@[ext] structure DependencyFailure where
  dep : ChangedDependency
  error : String
  deriving DecidableEq, Repr

/-- What became of the changed dependencies: comparisons of those that moved, inspections of
those that are new, and failures. -/
@[ext] structure Resolution (α β : Type) where
  changed : List ChangedDependency
  comparisons : List α
  inspections : List β
  failures : List DependencyFailure
  deriving DecidableEq, Repr

/-- The comparison of an upgrade with every other dependency that it moves. -/
@[ext] structure FullComparison where
  root : Comparison
  others : Resolution Comparison Inspection
  deriving DecidableEq, Repr

/-- A result that can be reported. -/
inductive AuditResult where
  | inspection (r : Inspection)
  | comparison (r : Comparison)
  | full (r : FullComparison)
  deriving DecidableEq, Repr

end UpgradeAudit
