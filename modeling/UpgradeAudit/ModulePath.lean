/-
# Module paths

A module path names a module; with a version it names the directory in the module cache that
holds its files.  The cache stores upper-case letters as a mark and the lower-case letter,
because some file systems do not tell the two cases apart.

`relativeFile` names a file of a dependency by its place below that versioned directory, so
that it has the same name in every version.
-/
import UpgradeAudit.Path

namespace UpgradeAudit.ModulePath

/-- A module path with a version. -/
def versioned (dep version : String) : String := dep ++ "@" ++ version

/-- One character as the cache stores it. -/
def escapeChar (c : Char) : List Char :=
  if 'A' ≤ c && c ≤ 'Z' then ['!', c.toLower] else [c]

/-- A module path as the cache stores it. -/
def escape (path : String) : String := String.ofList (path.toList.flatMap escapeChar)

/-- The part of a file name from the first slash on that stands after the first occurrence of
`root`; `none` when the root does not occur. -/
def after? (root file : String) : Option String :=
  (Text.splitFirst? (Text.points root) (Text.points file)).map fun p =>
    String.ofList ((Text.ofPoints p.2).toList.dropWhile (· ≠ '/'))

/-- The part of a file name below the versioned directory of a dependency.  The directory is
found by the escaped path, or else by the path itself; a file elsewhere keeps its name. -/
def relativeFile (dep file : String) : String :=
  match (after? (escape dep) file).or (after? dep file) with
  | none | some "" => file
  | some rest => rest

end UpgradeAudit.ModulePath
