/-
# Streams of JSON values

Values written one after the other, with or without blanks between them.  Between values any
blank character of Unicode may stand.  `stream` gives the values up to the end of the text, or
up to the first place where no value can be read, with the fault found there.

Each round reads a value, and so at least one character, or ends; the fuel is the number of
characters.
-/
import UpgradeAudit.Json.Reader
import UpgradeAudit.Text.Blank

namespace UpgradeAudit.Json

/-- The values of a stream. -/
structure Stream where
  values : List Json
  /-- What ended the stream before the end of the text. -/
  fault : Option Fault

/-- The values from one place on, after those in `seen` (last first). -/
def streamFrom (room : Nat) : (fuel : Nat) → (seen : List Json) → List Char → Stream
  | 0, seen, s =>
    ⟨seen.reverse, if (Text.trimStart s).isEmpty then none else some .malformed⟩
  | fuel + 1, seen, s =>
    match Text.trimStart s with
    | [] => ⟨seen.reverse, none⟩
    | s =>
      match value room s with
      | .error fault => ⟨seen.reverse, some fault⟩
      | .ok (v, rest) => streamFrom room fuel (v :: seen) rest

/-- The values of a text. -/
def stream (s : String) (room : Nat := usualRoom) : Stream := streamFrom room s.length [] s.toList

end UpgradeAudit.Json
