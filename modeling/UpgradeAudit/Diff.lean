/-
# Differences of findings

Findings of different runs are never the same objects, so they are compared by content.  An
old finding without an equal new one was removed; one with an equal new one is stale, and the
first such new finding stands for it; a new finding equal to no old one was added.
-/
import UpgradeAudit.Capability
import UpgradeAudit.Issue

namespace UpgradeAudit

/-! ## 1. The three parts -/

/-- What became of the findings between two versions. -/
@[ext] structure Diff (α : Type) where
  removed : List α
  /-- For each finding of both versions, the record of the new version. -/
  stale : List α
  added : List α
  deriving DecidableEq, Repr

/-- The differences between two lists of findings under an equality. -/
def diff (equal : α → α → Bool) (old new : List α) : Diff α where
  removed := old.filter fun o => ! new.any (equal o)
  stale := old.filterMap fun o => new.find? (equal o)
  added := new.filter fun n => ! old.any (equal · n)

/-- Every old finding is either removed or stale. -/
theorem length_removed_add_length_stale (equal : α → α → Bool) (old new : List α) :
    (diff equal old new).removed.length + (diff equal old new).stale.length = old.length := by
  simp only [diff]
  induction old with
  | nil => rfl
  | cons o old ih =>
    cases h : new.find? (equal o) with
    | none =>
      have : new.any (equal o) = false := by
        simpa using List.find?_eq_none.1 h
      simp [this, h]
      omega
    | some n =>
      have : new.any (equal o) = true :=
        List.any_eq_true.2 ⟨n, List.mem_of_find?_eq_some h, List.find?_some h⟩
      simp [this, h]
      omega

/-! ## 2. Equality of capabilities -/

/-- Whether two capabilities are the same finding: same package, kind and type, and the same
call path. -/
def Capability.same (a b : Capability) : Bool :=
  a.packageDir = b.packageDir && a.packageName = b.packageName && a.kind = b.kind
    && a.type = b.type && a.path = b.path

/-! ## 3. Equality of issues -/

/-- Whether two issues of a dependency report the same problem in the same code.  Files are
compared below the dependency's versioned directory and source lines without the blanks around
them; columns count only when asked for. -/
def Issue.same (dep : String) (matchColumn : Bool) (a b : Issue) : Bool :=
  a.linter = b.linter && a.text = b.text && a.position.line = b.position.line
    && (! matchColumn || a.position.column = b.position.column)
    && a.sourceLines.map Text.strip = b.sourceLines.map Text.strip
    && ModulePath.relativeFile dep a.position.filename
        = ModulePath.relativeFile dep b.position.filename

end UpgradeAudit
