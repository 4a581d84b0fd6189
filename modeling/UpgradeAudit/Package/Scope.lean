/-
# Scope

Which packages of a dependency the analyzers look at: all of them, or those that the
consumer's packages use.  Analyzing a package covers what it depends on, so a package that
another one of the scope depends on is left out.
-/
import UpgradeAudit.Failure
import UpgradeAudit.Package.Listing
import UpgradeAudit.Totals

namespace UpgradeAudit

/-- Which packages of a dependency the analyzers look at. -/
inductive ScopeMode where
  | all
  | used
  deriving DecidableEq, Repr

/-- The name of a mode. -/
def ScopeMode.name : ScopeMode → String
  | .all => "all"
  | .used => "used"

namespace PackageGraph

/-- The packages of a module, the standard library apart, in the order of the graph. -/
def ofModule (module : String) (graph : PackageGraph) : List Package :=
  (Table.values graph).filter fun p => ! p.standard && p.modulePath = module

/-- The packages of a module in ascending order of import path. -/
def sortedOfModule (module : String) (graph : PackageGraph) : List Package :=
  (ofModule module graph).mergeSort fun a b => (Text.order a.importPath b.importPath).isLE

/-- The import that stands for foreign code and is never listed. -/
def foreignImport : String := "C"

/-- What a package imports or depends on, foreign code apart. -/
def needs (p : Package) : List String := (p.imports ++ p.deps).filter (· ≠ foreignImport)

/-- The imports of a package that belong to a module, in order. -/
def usedBy (dep : String) (graph : PackageGraph) (p : Package) : Except Cause (List String) :=
  (needs p).foldlM (fun used path =>
    match Table.get? path graph with
    | none => .error (.resolution
        ("package " ++ path ++ " imported by " ++ p.importPath
          ++ " is missing from the package graph"))
    | some q => .ok (if ! q.standard && q.modulePath = dep then used ++ [path] else used)) []

/-- The packages of a dependency that the packages of the consumer use, in ascending order. -/
def usedPackages (dep consumer : String) (graph : PackageGraph) : Except Cause (List String) := do
  let used ← (ofModule consumer graph).mapM (usedBy dep graph)
  return Counts.sortedNames used.flatten

/-- Whether `other` depends on `path`. -/
def dependsOn (graph : PackageGraph) (other path : String) : Bool :=
  match Table.get? other graph with
  | some p => p.deps.contains path
  | none => false

/-- The paths of a set that no other of them depends on, in ascending order. -/
def minimise (paths : List String) (graph : PackageGraph) : Except Cause (List String) :=
  match paths.find? fun path => (Table.get? path graph).isNone with
  | some path => .error (.resolution ("could not find package " ++ path))
  | none => .ok (Counts.sortedNames (paths.filter fun path =>
      ! paths.any fun other => other ≠ path && dependsOn graph other path))

/-- What the analyzers are given to look at. -/
def scope (dep : String) (graph : PackageGraph) (mode : ScopeMode) (consumer : Option String) :
    Except Cause (List String) :=
  match mode with
  | .all => .ok [dep ++ "/..."]
  | .used =>
    match consumer with
    | none | some "" =>
      .error (.resolution "consumer module path is required to find used packages")
    | some consumer => do
      let used ← usedPackages dep consumer graph
      if used.isEmpty then
        .error (.resolution (dep ++ " is not imported by " ++ consumer))
      else minimise used graph

/-- The directories of a module's packages, in ascending order. -/
def dirs (dep : String) (graph : PackageGraph) : List String :=
  Counts.sortedNames (((ofModule dep graph).map Package.dir).filter (· ≠ ""))

end PackageGraph
end UpgradeAudit
