/-
# The dependencies that an upgrade moves

Every changed dependency is audited in its turn: one that is new is inspected, one that moved
is compared.  A failure that concerns the one dependency is recorded and the others are still
audited; a failure that leaves the working tree in an unknown state, and anything that is no
failure of the audit, ends the run.
-/
import UpgradeAudit.Comparison
import UpgradeAudit.Host.Action

namespace UpgradeAudit.Resolution

/-- The part of the program that the log names. -/
def origin : String := "dep_inspector.changes"

/-- What one dependency adds. -/
inductive Finding (α β : Type) where
  | comparison (a : α)
  | inspection (b : β)
  | failure (f : DependencyFailure)

/-- A resolution with one more finding. -/
def add (r : Resolution α β) : Finding α β → Resolution α β
  | .comparison a => { r with comparisons := r.comparisons ++ [a] }
  | .inspection b => { r with inspections := r.inspections ++ [b] }
  | .failure f => { r with failures := r.failures ++ [f] }

/-- What a change asks for: an inspection of a dependency that is new, or a comparison. -/
def examine (inspect : String → String → Action β)
    (compare : String → String → String → Action α) (change : ChangedDependency) :
    Action (Finding α β) :=
  match change.oldVersion with
  | none => do return .inspection (← inspect change.path change.newVersion)
  | some old => do return .comparison (← compare change.path old change.newVersion)

/-- Records a failure that concerns one dependency, and passes on one that ends the run. -/
def settle (change : ChangedDependency) : Except Failure (Finding α β) → Action (Finding α β)
  | .ok finding => return finding
  | .error f => do
    if ! f.isOfAudit || f.isFatal then Action.fail f
    Action.log .warning origin "recursive.dep_failed"
      [("dep", .text change.path), ("error", .text f.message)]
    return .failure ⟨change, f.message⟩

/-- Audits one dependency. -/
def audit (inspect : String → String → Action β) (compare : String → String → String → Action α)
    (change : ChangedDependency) : Action (Finding α β) := do
  Action.log .info origin "recursive.dep_start"
    [("dep", .text change.path), ("old_version", .orNull .text change.oldVersion),
     ("new_version", .text change.newVersion)]
  settle change (← Action.attempt (examine inspect compare change))

/-- Audits dependencies one after the other. -/
def auditAll (inspect : String → String → Action β)
    (compare : String → String → String → Action α) (r : Resolution α β) :
    List ChangedDependency → Action (Resolution α β)
  | [] => return r
  | change :: rest => do
    let finding ← audit inspect compare change
    auditAll inspect compare (r.add finding) rest

/-- What becomes of every changed dependency. -/
def ofChanges (inspect : String → String → Action β)
    (compare : String → String → String → Action α) (changed : List ChangedDependency) :
    Action (Resolution α β) :=
  auditAll inspect compare ⟨changed, [], [], []⟩ changed

end UpgradeAudit.Resolution
