/-
# Reading recordings

A recording is a JSON object.  `files` holds the contents of files by path, `env` the
variables, `exec` the programs, and `tmp` says whether private directories can be used.
Contents are text or an object with the bytes in hexadecimal; null in a list of changes means
that a path is removed.
-/
import UpgradeAudit.Json.Schema
import UpgradeAudit.Recording.Programs
import UpgradeAudit.Text.Hex

namespace UpgradeAudit.Recording

open Json

/-- Bytes: the text they stand for, or their hexadecimal digits. -/
def asBytes : Reader Bytes
  | .text s => some (Text.Utf8.encode s)
  | .object fields => do Text.Hex.toBytes? (← Fields.required fields ["hex"] asText).toList
  | _ => none

/-- An object with values of one type. -/
def asTable (value : Reader α) : Reader (List (String × α)) := fun v => do
  (← asFields v).mapM fun (name, v) => do return (name, ← value v)

/-- Changes to files. -/
def asChanges : Reader (List (String × Option Bytes)) := asTable (orAbsent asBytes)

/-- A recorded program. -/
def asProgram : Reader RecordedProgram := fun v => do
  let fields ← asFields v
  let words ← fields.required ["match"] (asList asText)
  let uses ← fields.optional ["times"] (orAbsent asInt) none
  let missing ← fields.optional ["missing"] asBool false
  let changes ← fields.optional ["write"] asChanges []
  let code ← fields.optional ["rc"] (orAbsent asInt) (some 0)
  let hangs ← fields.optional ["hang"] asBool false
  let ticks ← fields.optional ["ticks"] asInt 0
  let stdout ← fields.optional ["stdout"] asBytes []
  let stderr ← fields.optional ["stderr"] asBytes []
  let run : RecordedRun :=
    { changes, turns := if hangs then none else some ticks.toNat, code, stdout, stderr }
  return ⟨words, uses.map Int.toNat, if missing then none else some run⟩

/-- Whether private directories can be used. -/
def asDirectories : Reader PrivateDirectories := fun v =>
  match asText v with
  | some "missing" => some .refused
  | some "vanish" => some .vanishing
  | _ => none

/-- A recording. -/
def ofJson : Reader Recording := fun v => do
  let fields ← asFields v
  let files ← fields.optional ["files"] asChanges []
  let environment ← fields.optional ["env"] (asTable asText) []
  let programs ← fields.optional ["exec"] (asList asProgram) []
  let directories ← fields.optional ["tmp"] asDirectories .usable
  let meddling ← fields.optional ["after_fsync"] asChanges []
  return ⟨FileTree.empty.apply files, environment, programs, directories, meddling⟩

end UpgradeAudit.Recording
