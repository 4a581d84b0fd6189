/-
# Writing JSON

Two layouts of the same text: on one line (`compact`), and with every item and field on a line
of its own, two blanks deeper than what holds it (`indented`).  Only ASCII is written; every
other code point is an escape, one beyond the first plane a pair of escapes.
-/
import UpgradeAudit.Json.Basic
import UpgradeAudit.Text.Hex
import UpgradeAudit.Text.Points

namespace UpgradeAudit.Json

/-! ## 1. Strings and numbers -/

/-- One code unit as an escape. -/
def escapeUnit (n : Nat) : List Char := '\\' :: 'u' :: Text.Hex.fixed 4 n

/-- One code point inside a string. -/
def writePoint (n : Nat) : List Char :=
  if n = 0x22 then ['\\', '"']
  else if n = 0x5c then ['\\', '\\']
  else if n = 0x0a then ['\\', 'n']
  else if n = 0x0d then ['\\', 'r']
  else if n = 0x09 then ['\\', 't']
  else if n = 0x08 then ['\\', 'b']
  else if n = 0x0c then ['\\', 'f']
  else if 0x20 ≤ n && n ≤ 0x7e then [Char.ofNat n]
  else if n < 0x10000 then escapeUnit n
  else escapeUnit (0xd800 + (n - 0x10000) / 0x400) ++ escapeUnit (0xdc00 + (n - 0x10000) % 0x400)

/-- A string with its quotes. -/
def writeText (s : String) : List Char := '"' :: (Text.points s).flatMap writePoint ++ ['"']

/-- An integer in decimal. -/
def writeInt (n : Int) : List Char :=
  if n < 0 then '-' :: Nat.toDigits 10 n.natAbs else Nat.toDigits 10 n.natAbs

/-- Whether an integer has no more digits than may be written. -/
def isShort (n : Int) : Bool := (Nat.toDigits 10 n.natAbs).length ≤ digitLimit

/-- A number of floating point: its shortest decimal, or one of the three words. -/
def writeFloat : Decimal.Binary64 → List Char
  | .notANumber => "NaN".toList
  | .infinite negative => (if negative then "-Infinity" else "Infinity").toList
  | x => (x.text .standard).toList

/-! ## 2. Layouts -/

/-- How the parts of a value are set apart. -/
structure Layout where
  /-- What stands before a part at a depth. -/
  lineStart : Nat → List Char
  /-- What stands between two parts. -/
  separator : List Char
  /-- What stands between a name and its value. -/
  colon : List Char

/-- Everything on one line, one blank after a comma or a colon. -/
def Layout.oneLine : Layout := ⟨fun _ => [], [',', ' '], [':', ' ']⟩

/-- Each part on a line of its own, two blanks for each level. -/
def Layout.indented : Layout :=
  ⟨fun depth => '\n' :: List.replicate (2 * depth) ' ', [','], [':', ' ']⟩

mutual

/-- A value at a depth. -/
def write (layout : Layout) (depth : Nat) : Json → List Char
  | .null => "null".toList
  | .bool b => (if b then "true" else "false").toList
  | .int n => writeInt n
  | .float x => writeFloat x
  | .text s => writeText s
  | .array items =>
    match items with
    | [] => ['[', ']']
    | items => '[' :: writeItems layout (depth + 1) items ++ layout.lineStart depth ++ [']']
  | .object fields =>
    match fields with
    | [] => ['\x7b', '\x7d']
    | fields =>
      '\x7b' :: writeFields layout (depth + 1) fields ++ layout.lineStart depth ++ ['\x7d']

/-- Items with separators between them. -/
def writeItems (layout : Layout) (depth : Nat) : List Json → List Char
  | [] => []
  | [item] => layout.lineStart depth ++ write layout depth item
  | item :: rest =>
    layout.lineStart depth ++ write layout depth item ++ layout.separator
      ++ writeItems layout depth rest

/-- Fields with separators between them. -/
def writeFields (layout : Layout) (depth : Nat) : List (String × Json) → List Char
  | [] => []
  | [(name, value)] =>
    layout.lineStart depth ++ writeText name ++ layout.colon ++ write layout depth value
  | (name, value) :: rest =>
    layout.lineStart depth ++ writeText name ++ layout.colon ++ write layout depth value
      ++ layout.separator ++ writeFields layout depth rest

end

/-- Whether every integer inside a value may be written. -/
def isWritable (v : Json) : Bool :=
  v.leaves.all fun
    | .int n => isShort n
    | _ => true

/-- The text of a value on one line. -/
def compact (v : Json) : String := String.ofList (write .oneLine 0 v)

/-- The text of a value, one part a line. -/
def indented (v : Json) : String := String.ofList (write .indented 0 v)

end UpgradeAudit.Json
