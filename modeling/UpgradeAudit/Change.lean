/-
# Changed dependencies

Which dependencies differ between the requirements of two manifests.  What the new manifest
no longer requires is not reported: there is nothing left to audit.
-/
import UpgradeAudit.Comparison
import UpgradeAudit.Manifest.Directives

namespace UpgradeAudit

/-- The requirements of `new` that `old` lacks or has at another version, in ascending order of
path, without the excluded ones. -/
def changedDependencies (old new : Requirements) (excluded : List String) :
    List ChangedDependency :=
  let moved := (new.mergeSort fun a b => (Text.order a.1 b.1).isLE).filter fun entry =>
    ! excluded.contains entry.1 && Table.get? entry.1 old ≠ some entry.2
  moved.map fun entry => ⟨entry.1, entry.2, Table.get? entry.1 old⟩

end UpgradeAudit
