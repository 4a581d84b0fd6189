/-
# Manifest snapshots

Where the manifest and its lock file are, and their exact contents at one moment.
-/
import UpgradeAudit.Command
import UpgradeAudit.Manifest.Directives

namespace UpgradeAudit

/-- The paths of a manifest and its lock file. -/
structure ManifestFiles where
  manifest : Path
  lock : Path
  deriving DecidableEq, Repr

namespace ManifestFiles

/-- The name of the lock file beside a manifest. -/
def lockName : String := "go.sum"

/-- The files for a manifest; without a lock file of its own the one beside it is meant. -/
def ofPaths (manifest : String) (lock : Option String) : Except Cause ManifestFiles :=
  let path := Path.ofText manifest
  match lock with
  | none | some "" =>
    match path.name? with
    | some _ => .ok ⟨path, path.withName lockName⟩
    | none => .error (.unnamedManifest path.text)
  | some lock => .ok ⟨path, .ofText lock⟩

end ManifestFiles

/-- The two manifest files and their contents at one moment. -/
structure Snapshot where
  files : ManifestFiles
  contents : ManifestContents
  deriving DecidableEq, Repr

namespace Snapshot

/-- Reads both files as they are. -/
def read (files : ManifestFiles) : Action Snapshot := do
  let read (what : String) (path : String) : Action Bytes :=
    (Action.readFile path).onFileError fun e =>
      .setup ("reading " ++ what ++ " " ++ path ++ ": " ++ e.message)
  let manifest ← read "manifest" files.manifest.text
  let lock ← read "lock file" files.lock.text
  Action.record (.read ⟨manifest, lock⟩)
  return ⟨files, manifest, lock⟩

/-- The manifest as text. -/
def text (s : Snapshot) : String := Text.Utf8.decodeLossy s.contents.manifest

/-- The module path that the manifest declares. -/
def modulePath? (s : Snapshot) : Option String := Manifest.modulePath? s.text

/-- The requirements that the manifest declares. -/
def requirements (s : Snapshot) : Requirements := Manifest.requirements s.text

/-- The version required of a dependency. -/
def versionOf? (s : Snapshot) (dep : String) : Option String := Table.get? dep s.requirements

end Snapshot

/-- Checks that a manifest requires a dependency at exactly one version. -/
def checkPinned (requirements : Requirements) (dep requested : String) : Except Cause Unit :=
  let actual := Table.get? dep requirements
  if actual = some requested then .ok () else .error (.versionMismatch dep requested actual)

/-- The path of the manifest of the module that a directory belongs to, as the build tool tells
it. -/
def locateManifest (r : Runner) (buildTool : String) : Action Path := do
  let result ← r.run [buildTool, "env", "GOMOD"] [0] none
  let answer := Text.strip result.text
  if answer = "" || answer = "/dev/null" then
    Action.failFor (.setup (r.cwd ++ " is not inside a Go module"))
  else return .ofText answer

end UpgradeAudit
