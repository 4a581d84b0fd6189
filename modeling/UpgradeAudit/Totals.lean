/-
# Totals

How many findings there are in each category, and how the numbers changed between versions.
-/
import UpgradeAudit.Capability
import UpgradeAudit.Issue
import UpgradeAudit.Table

namespace UpgradeAudit

/-- Numbers by category. -/
abbrev Counts := Table String Int

namespace Counts

/-- The number of a category; a category without an entry counts zero. -/
def count (category : String) (counts : Counts) : Int := (Table.get? category counts).getD 0

/-- Names in ascending order, each once. -/
def sortedNames (names : List String) : List String :=
  names.eraseDups.mergeSort fun a b => (Text.order a b).isLE

/-- How often each category occurs, categories in ascending order. -/
def ofCategories (categories : List String) : Counts :=
  (sortedNames categories).map fun name => (name, (categories.count name : Int))

/-- The counts after an upgrade, and the change it makes. -/
structure Current where
  total : Int
  counts : Counts
  deltas : Counts

/-- Counts after an upgrade from those of the three parts of a difference: what is stale or
added is there now, and the change is what was added less what was removed. -/
def current (removed stale added : Counts) : Current :=
  let names := sortedNames (Table.keys removed ++ Table.keys stale ++ Table.keys added)
  let counts := names.map fun name => (name, count name stale + count name added)
  { total := (counts.map Prod.snd).foldr (· + ·) 0
    counts
    deltas := names.map fun name => (name, count name added - count name removed) }

end Counts

/-- The numbers of findings of one set, with changes when it results from a comparison. -/
@[ext] structure Totals where
  capabilityTotal : Int
  capabilities : Counts
  issueTotal : Int
  issues : Counts
  hasDeltas : Bool
  capabilityDeltas : Counts
  issueDeltas : Counts
  deriving DecidableEq, Repr

namespace Totals

/-- The numbers of a set of findings. -/
def ofFindings (capabilities : List Capability) (issues : List Issue) : Totals where
  capabilityTotal := capabilities.length
  capabilities := Counts.ofCategories (capabilities.map Capability.category)
  issueTotal := issues.length
  issues := Counts.ofCategories (issues.map Issue.category)
  hasDeltas := false
  capabilityDeltas := []
  issueDeltas := []

/-- The numbers after an upgrade from those of the three parts of a difference. -/
def combine (removed stale added : Totals) : Totals :=
  let capabilities := Counts.current removed.capabilities stale.capabilities added.capabilities
  let issues := Counts.current removed.issues stale.issues added.issues
  { capabilityTotal := capabilities.total
    capabilities := capabilities.counts
    issueTotal := issues.total
    issues := issues.counts
    hasDeltas := true
    capabilityDeltas := capabilities.deltas
    issueDeltas := issues.deltas }

end Totals
end UpgradeAudit
