/-
# The output of capslock

One document with the capabilities found and the modules loaded.  A call site without a file
name is no site; file names inside the module cache are made relative to it, so that a site
has the same name whichever cache holds the module.
-/
import UpgradeAudit.Capability
import UpgradeAudit.Output.Document

namespace UpgradeAudit

/-- What capslock found, capabilities in their order. -/
structure CapabilityReport where
  capabilities : List Capability
  modules : List CapabilityModule
  deriving DecidableEq, Repr

namespace Output.CallPaths

/-- A capability as it is reported, its call path possibly empty. -/
structure Entry where
  packageName : String
  packageDir : String
  kind : CapabilityKind
  type : CapabilityType
  path : List Hop
  deriving DecidableEq, Repr

/-- A call site. -/
def siteOfJson : Json.Reader CallSite := fun v => do
  let fields ← Json.asFields v
  let filename ← optional fields ["filename"] Json.asText ""
  let line ← optional fields ["line"] (Json.orAbsent Json.asInt) none
  let column ← optional fields ["column"] (Json.orAbsent Json.asInt) none
  return ⟨filename, line, column⟩

/-- A hop of a call path. -/
def hopOfJson : Json.Reader Hop := fun v => do
  let fields ← Json.asFields v
  let name ← required fields ["name"] Json.asText
  let site ← optional fields ["site"] (Json.orAbsent siteOfJson) none
  return ⟨name, site⟩

/-- A capability. -/
def entryOfJson : Json.Reader Entry := fun v => do
  let fields ← Json.asFields v
  let packageName ← optional fields ["package", "name"] Json.asText ""
  let kind ← required fields ["capability"] (Json.asNamed CapabilityKind.ofCode?)
  let path ← optional fields ["path"] (Json.asList hopOfJson) []
  let packageDir ← optional fields ["package", "dir"] Json.asText ""
  let type ← optional fields ["capability", "type"] (Json.asNamed CapabilityType.ofCode?)
    .unspecified
  return { packageName, packageDir, kind, type, path }

/-- A module. -/
def moduleOfJson : Json.Reader CapabilityModule := fun v => do
  let fields ← Json.asFields v
  let path ← required fields ["path"] Json.asText
  let version ← optional fields ["version"] Json.asText ""
  return ⟨path, version⟩

/-- The whole document. -/
def reportOfJson : Json.Reader (List Entry × List CapabilityModule) := fun v => do
  let fields ← Json.asFields v
  let entries ← optional fields ["capability", "info"] (Json.asList entryOfJson) []
  let modules ← optional fields ["module", "info"] (Json.asList moduleOfJson) []
  return (entries, modules)

/-- A hop with its file named below the module cache. -/
def locateHop (moduleCache : String) (hop : Hop) : Hop :=
  { hop with site := hop.site.bind fun site =>
      if site.filename = "" then none
      else some { site with filename := Path.relativeToRoot site.filename moduleCache none } }

/-- The capability of an entry; its call path must not be empty. -/
def Entry.capability (moduleCache : String) (e : Entry) : Except Cause Capability :=
  let path := e.path.map (locateHop moduleCache)
  if h : path = [] then
    .error (.analyzer Tool.capslock.name
      ("capability " ++ e.kind.code ++ " has an empty call path"))
  else .ok ⟨e.packageName, e.packageDir, e.kind, e.type, path, h⟩

/-- The report of a document. -/
def decode (d : Document) (moduleCache : String) (room : Nat := Json.usualRoom) :
    Except Cause CapabilityReport := do
  let (entries, modules) ← d.decode .capslock reportOfJson room
  let capabilities ← entries.mapM (Entry.capability moduleCache)
  return ⟨Capability.sort capabilities, modules⟩

end Output.CallPaths
end UpgradeAudit
