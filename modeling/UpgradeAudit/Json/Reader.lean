/-
# Reading JSON

`value` reads one value from the front of a text and gives it with the rest.  Beyond the
standard grammar it accepts `NaN`, `Infinity` and `-Infinity`; a number ends where the grammar
no longer goes on, so `1.` is the number `1` with a point left over.

An escape can name a surrogate.  Two escapes in a row that name the halves of a pair stand for
one code point; a half that stands alone, or next to a half that is no escape, is a code point
of its own.

Nested values are read with fuel: every call takes one unit, and a text of `n` characters
never needs more than `2 * n + 1` of them, which is what `value` gives.  Beside it goes the
room that is left for opening arrays and objects inside one another.  How much there is of it
depends on where a reader is called from, so every reader is told.
-/
import UpgradeAudit.Json.Basic
import UpgradeAudit.Text.Hex
import UpgradeAudit.Text.Points

namespace UpgradeAudit.Json

/-- One thing read from the front of a text, and the rest. -/
abbrev Found (α : Type) := Except Fault (α × List Char)

/-! ## 1. Strings -/

/-- The character that a one-letter escape names. -/
def escape? : Char → Option Char
  | '"' => some '"'
  | '\\' => some '\\'
  | '/' => some '/'
  | 'b' => some '\x08'
  | 'f' => some '\x0c'
  | 'n' => some '\n'
  | 'r' => some '\r'
  | 't' => some '\t'
  | _ => none

/-- The number of four hexadecimal digits. -/
def unit? (a b c d : Char) : Option Nat := do
  let a ← Text.Hex.value? a
  let b ← Text.Hex.value? b
  let c ← Text.Hex.value? c
  let d ← Text.Hex.value? d
  return ((a * 16 + b) * 16 + c) * 16 + d

/-- What a string is made of. -/
inductive Piece where
  /-- A character as it stands, or one that a one-letter escape names. -/
  | char (c : Char)
  /-- A number that an escape names. -/
  | unit (n : Nat)
  deriving DecidableEq, Repr

/-- The characters of a string. -/
def joinPieces : List Piece → List Char
  | [] => []
  | .char c :: rest => c :: joinPieces rest
  | [.unit n] => Text.spell n
  | .unit n :: .unit m :: rest =>
    if Text.isHighSurrogate n && Text.isLowSurrogate m then
      Text.spell (Text.joinSurrogates n m) ++ joinPieces rest
    else Text.spell n ++ joinPieces (.unit m :: rest)
  | .unit n :: .char c :: rest => Text.spell n ++ c :: joinPieces rest

/-- The rest of a string after its opening quote: the pieces up to the closing quote, the last
of those read before in `seen` first, and what follows. -/
def piecesFrom (seen : List Piece) : List Char → Found (List Piece)
  | [] => .error .malformed
  | '"' :: rest => .ok (seen.reverse, rest)
  | '\\' :: 'u' :: a :: b :: c :: d :: rest =>
    match unit? a b c d with
    | some n => piecesFrom (.unit n :: seen) rest
    | none => .error .malformed
  | '\\' :: e :: rest =>
    match escape? e with
    | some c => piecesFrom (.char c :: seen) rest
    | none => .error .malformed
  | c :: rest =>
    if c = '\\' || c.toNat < 0x20 then .error .malformed else piecesFrom (.char c :: seen) rest

/-- The text of a string after its opening quote. -/
def string (s : List Char) : Found String :=
  (piecesFrom [] s).map fun found => (String.ofList (joinPieces found.1), found.2)

/-! ## 2. Numbers -/

/-- The digits at the front, and the rest. -/
def digits (s : List Char) : List Char × List Char :=
  (s.takeWhile Char.isDigit, s.dropWhile Char.isDigit)

/-- The number that decimal digits stand for. -/
def digitsValue (ds : List Char) : Nat := ds.foldl (fun n d => 10 * n + (d.toNat - 0x30)) 0

/-- The integer part of a number: a zero, or digits that do not start with one. -/
def wholePart? : List Char → Option (List Char × List Char)
  | '0' :: rest => some (['0'], rest)
  | s =>
    match digits s with
    | ([], _) => none
    | found => some found

/-- The digits after a point, when there are any; otherwise nothing is read. -/
def fraction (s : List Char) : List Char × List Char :=
  match s with
  | '.' :: rest =>
    match digits rest with
    | ([], _) => ([], s)
    | found => found
  | _ => ([], s)

/-- The sign of an exponent: whether it is negative. -/
def exponentSign : List Char → Bool × List Char
  | '-' :: rest => (true, rest)
  | '+' :: rest => (false, rest)
  | rest => (false, rest)

/-- The exponent, when there is one; otherwise nothing is read. -/
def exponent (s : List Char) : Option Int × List Char :=
  match s with
  | e :: rest =>
    if e = 'e' || e = 'E' then
      let (negative, rest) := exponentSign rest
      match digits rest with
      | ([], _) => (none, s)
      | (ds, rest) => (some (if negative then -(digitsValue ds : Int) else digitsValue ds), rest)
    else (none, s)
  | [] => (none, s)

/-- A number without its sign. -/
def unsigned (negative : Bool) (s : List Char) : Found Json :=
  match wholePart? s with
  | none => .error .malformed
  | some (whole, rest) =>
    let (part, rest) := fraction rest
    let (power, rest) := exponent rest
    if part.isEmpty && power.isNone then
      if whole.length > digitLimit then .error (.longInteger whole.length)
      else
        let n : Int := digitsValue whole
        .ok (.int (if negative then -n else n), rest)
    else
      let power := power.getD 0 - part.length
      .ok (.float (.ofDecimal negative (digitsValue (whole ++ part)) power), rest)

/-- A number. -/
def number : List Char → Found Json
  | '-' :: rest => unsigned true rest
  | s => unsigned false s

/-! ## 3. Values -/

/-- The values that are written as words. -/
def words : List (String × Json) :=
  [("null", .null), ("true", .bool true), ("false", .bool false), ("NaN", .float .notANumber),
   ("Infinity", .float (.infinite false)), ("-Infinity", .float (.infinite true))]

/-- A word at the front of a text. -/
def word? (s : List Char) : Option (Json × List Char) :=
  words.findSome? fun w => (w.1.toList.isPrefixOf? s).map fun rest => (w.2, rest)

/-- The blanks between the tokens of a value. -/
def isSpace (c : Char) : Bool := c = ' ' || c = '\t' || c = '\n' || c = '\r'

/-- Drops the blanks before a token. -/
def skipSpace (s : List Char) : List Char := s.dropWhile isSpace

mutual

/-- One value at the front of a text, with room for so many collections inside one another. -/
def valueFrom : (fuel room : Nat) → List Char → Found Json
  | 0, _, _ => .error .malformed
  | fuel + 1, room, s =>
    match s with
    | '"' :: rest => (string rest).map fun found => (.text found.1, found.2)
    | '[' :: rest =>
      if room = 0 then .error (.tooDeep .array)
      else match skipSpace rest with
        | ']' :: rest => .ok (.array [], rest)
        | rest => itemsFrom fuel (room - 1) [] rest
    | '{' :: rest =>
      if room = 0 then .error (.tooDeep .object)
      else match skipSpace rest with
        | '}' :: rest => .ok (.object [], rest)
        | rest => fieldsFrom fuel (room - 1) [] rest
    | s =>
      match word? s with
      | some found => .ok found
      | none => number s

/-- The items of an array from one of them on, after those in `seen` (last first). -/
def itemsFrom : (fuel room : Nat) → (seen : List Json) → List Char → Found Json
  | 0, _, _, _ => .error .malformed
  | fuel + 1, room, seen, s =>
    match valueFrom fuel room s with
    | .error fault => .error fault
    | .ok (item, rest) =>
      match skipSpace rest with
      | ',' :: rest => itemsFrom fuel room (item :: seen) (skipSpace rest)
      | ']' :: rest => .ok (.array (item :: seen).reverse, rest)
      | _ => .error .malformed

/-- The fields of an object from one of them on, after those in `seen`. -/
def fieldsFrom : (fuel room : Nat) → (seen : Fields) → List Char → Found Json
  | 0, _, _, _ => .error .malformed
  | fuel + 1, room, seen, s =>
    match s with
    | '"' :: rest =>
      match string rest with
      | .error fault => .error fault
      | .ok (name, rest) =>
        match skipSpace rest with
        | ':' :: rest =>
          match valueFrom fuel room (skipSpace rest) with
          | .error fault => .error fault
          | .ok (value, rest) =>
            let seen := Table.set name value seen
            match skipSpace rest with
            | ',' :: rest => fieldsFrom fuel room seen (skipSpace rest)
            | '}' :: rest => .ok (.object seen, rest)
            | _ => .error .malformed
        | _ => .error .malformed
    | _ => .error .malformed

end

/-- One value at the front of a text, and the rest. -/
def value (room : Nat) (s : List Char) : Found Json := valueFrom (2 * s.length + 1) room s

/-- The value that a whole text stands for.  A byte order mark is no part of a text. -/
def read (s : String) (room : Nat := usualRoom) : Except Fault Json :=
  match s.toList with
  | '\ufeff' :: _ => .error .malformed
  | cs =>
    match value room (skipSpace cs) with
    | .error fault => .error fault
    | .ok (v, rest) => if (skipSpace rest).isEmpty then .ok v else .error .malformed

end UpgradeAudit.Json
