/-
# Package listings

The build tool lists packages as a stream of JSON records.  A listing becomes a graph: one
package for each import path, in order of first appearance, the last record of a path being
the one that counts.
-/
import UpgradeAudit.Json.Stream
import UpgradeAudit.Json.Schema

namespace UpgradeAudit

/-- A package of the consumer's package graph. -/
structure Package where
  importPath : String
  dir : String
  name : String
  modulePath : String
  moduleVersion : String
  standard : Bool
  imports : List String
  /-- Every import path that the package needs, directly or through others. -/
  deps : List String
  incomplete : Bool
  deriving DecidableEq, Repr

/-- Packages by import path. -/
abbrev PackageGraph := Table String Package

/-- The values of a stream, each read in its turn: the first that cannot be read decides. -/
def Json.Stream.decode (value : Json.Reader α) (s : Json.Stream) : Except Json.Fault (List α) :=
  match s.values.mapM value, s.fault with
  | none, _ => .error .unexpected
  | some _, some fault => .error fault
  | some values, none => .ok values

namespace Package

/-- The graph of a list of packages. -/
def graph (packages : List Package) : PackageGraph :=
  .ofEntries (packages.map fun p => (p.importPath, p))

/-- How the fields of a listing are spelled. -/
def spellings (name : Json.Name) : List String := [name.pascal, name.snake]

/-- The module a package belongs to: its path and version. -/
def moduleOfJson : Json.Reader (String × String) := fun v => do
  let fields ← Json.asFields v
  let path ← fields.optional (spellings ["path"]) Json.asText ""
  let version ← fields.optional (spellings ["version"]) Json.asText ""
  return (path, version)

/-- The package of a record. -/
def ofJson : Json.Reader Package := fun v => do
  let fields ← Json.asFields v
  let dir ← fields.optional (spellings ["dir"]) Json.asText ""
  let importPath ← fields.required (spellings ["import", "path"]) Json.asText
  let name ← fields.optional (spellings ["name"]) Json.asText ""
  let module ← fields.optional (spellings ["module"]) (Json.orAbsent moduleOfJson) none
  let standard ← fields.optional (spellings ["standard"]) Json.asBool false
  let imports ← fields.optional (spellings ["imports"]) (Json.asList Json.asText) []
  let deps ← fields.optional (spellings ["deps"]) (Json.asList Json.asText) []
  let incomplete ← fields.optional (spellings ["incomplete"]) Json.asBool false
  let (modulePath, moduleVersion) := module.getD ("", "")
  return { importPath, dir, name, modulePath, moduleVersion, standard, imports, deps, incomplete }

/-- The graph of a listing. -/
def ofListing (text : String) (room : Nat := Json.usualRoom) : Except Json.Fault PackageGraph :=
  ((Json.stream text room).decode ofJson).map graph

end Package
end UpgradeAudit
