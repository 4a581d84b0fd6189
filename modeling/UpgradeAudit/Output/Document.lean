/-
# Analyzer output

What an analyzer wrote, as text or as bytes, and how its records are read: a field may be
spelled `snake_case`, `camelCase` or `PascalCase`.
-/
import UpgradeAudit.Failure
import UpgradeAudit.Host.World
import UpgradeAudit.Json.Encoding
import UpgradeAudit.Package.Listing

namespace UpgradeAudit.Output

/-- A document to be decoded. -/
inductive Document where
  | text (s : String)
  | bytes (b : Bytes)
  deriving DecidableEq, Repr

/-- The cause of a document that cannot be decoded.  What is only too long or too deep is not
laid to the analyzer. -/
def decodingCause (tool : Tool) (fault : Json.Fault) : Cause :=
  match fault with
  | .malformed | .unexpected => .analyzer tool.name ("decoding results: " ++ fault.message)
  | .longInteger _ => .invalidValue fault.message
  | .tooDeep _ => .exhausted fault.message

/-- The text of a document in any encoding of JSON. -/
def Document.jsonText : Document → Except Cause String
  | .text s => .ok s
  | .bytes b =>
    match Json.textOfBytes b with
    | .ok s => .ok s
    | .error fault => .error (.undecodable fault)

/-- The text of a document in UTF-8, faults replaced. -/
def Document.lossyText : Document → String
  | .text s => s
  | .bytes b => Text.Utf8.decodeLossy b

/-- The record that a whole document stands for. -/
def Document.decode (tool : Tool) (record : Json.Reader α) (d : Document) (room : Nat) :
    Except Cause α := do
  let s ← d.jsonText
  match Json.read s room with
  | .error fault => .error (decodingCause tool fault)
  | .ok v =>
    match record v with
    | none => .error (decodingCause tool .unexpected)
    | some a => .ok a

/-- How the fields of analyzer records are spelled. -/
def spellings (name : Json.Name) : List String := [name.snake, name.camel, name.pascal]

/-- A field that must be present. -/
def required (fields : Json.Fields) (name : Json.Name) (value : Json.Reader α) : Option α :=
  fields.required (spellings name) value

/-- A field that may be left out. -/
def optional (fields : Json.Fields) (name : Json.Name) (value : Json.Reader α) (absent : α) :
    Option α :=
  fields.optional (spellings name) value absent

end UpgradeAudit.Output
