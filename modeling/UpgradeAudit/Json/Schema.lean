/-
# Reading records from JSON values

Readers from a value to the type a field has.  A reader answers `none` when the value does not
have the form it asks for; a record is read field by field.

A name of several words can be spelled in three ways, and a field is looked up under a list of
spellings: the first that is present decides, even when its value has the wrong form.
-/
import UpgradeAudit.Json.Reader
import UpgradeAudit.Text.Blank

namespace UpgradeAudit.Json

/-! ## 1. Names -/

/-- The words of a field's name, in lower case. -/
abbrev Name := List String

/-- A word with its first letter in upper case. -/
def capitalised (word : String) : String :=
  match word.toList with
  | [] => ""
  | c :: rest => String.ofList (c.toUpper :: rest)

/-- The spelling `two_words`. -/
def Name.snake (name : Name) : String := "_".intercalate name

/-- The spelling `TwoWords`. -/
def Name.pascal (name : Name) : String := String.join (name.map capitalised)

/-- The spelling `twoWords`. -/
def Name.camel : Name → String
  | [] => ""
  | word :: rest => word ++ Name.pascal rest

/-! ## 2. Single values -/

/-- A reader for values of one type. -/
abbrev Reader (α : Type) := Json → Option α

/-- Text. -/
def asText : Reader String
  | .text s => some s
  | _ => none

/-- The blanks that may surround an integer in a text. -/
def surroundsInteger (c : Char) : Bool :=
  Text.isBlank c && ! (0x1c ≤ c.toNat && c.toNat ≤ 0x1f)

/-- Whether a text starts with a sign. -/
def startsWithSign : List Char → Bool
  | '+' :: _ | '-' :: _ => true
  | _ => false

/-- The minus sign that a text starts with, if any, and what follows a sign; no second sign may
follow the first. -/
def signed? : List Char → Option (List Char × List Char)
  | '+' :: rest => if startsWithSign rest then none else some ([], rest)
  | '-' :: rest => if startsWithSign rest then none else some (['-'], rest)
  | s => some ([], s)

/-- What is left of a number when the zeros and underscores at its front, the last of them
being `last`, are dropped.  One stays when nothing or a point follows, and a minus sign may
follow. -/
def afterZeros? (last : Char) : List Char → Option (List Char)
  | [] => some [last]
  | c :: rest =>
    if c = '0' || c = '_' then afterZeros? c rest
    else if c = '.' then some (last :: c :: rest)
    else if c = '-' || c.isDigit then some (c :: rest)
    else none

/-- A number without a sign and without needless zeros at its front. -/
def withoutZeros? : List Char → Option (List Char)
  | [] => none
  | c :: rest =>
    if c = '0' then afterZeros? c rest
    else if c.isDigit then some (c :: rest)
    else none

/-- A number without its fraction when this is nothing but zeros, one at least. -/
def withoutFraction (s : List Char) : List Char :=
  match s.dropWhile (· ≠ '.') with
  | [] => s
  | _ :: zeros => if ! zeros.isEmpty && zeros.all (· = '0') then s.takeWhile (· ≠ '.') else s

/-- A number without the underscores between its groups; no group may be empty. -/
def ungroup (s : List Char) : List Char :=
  let groups := s.splitOn '_'
  if groups.any List.isEmpty then s else groups.flatten

/-- The integer that a text stands for: what is left without blanks at the ends, a plus sign,
zeros at the front, a fraction of zeros and grouping is an integer as documents write it. -/
def integerOfText? (s : String) : Option Int := do
  let cs := s.toList.dropWhile surroundsInteger
  let (sign, cs) ← signed? (cs.reverse.dropWhile surroundsInteger).reverse
  let cs ← withoutZeros? cs
  match number (sign ++ ungroup (withoutFraction cs)) with
  | .ok (.int n, []) => some n
  | _ => none

/-- The least number that takes more than 63 bits. -/
def integerLimit : Int := 0x8000000000000000

/-- An integer: written as one, as a truth value, as a floating-point number without a fraction
that 63 bits hold, or as text. -/
def asInt : Reader Int
  | .int n => some n
  | .bool b => some (if b then 1 else 0)
  | .float x => do
    let n ← x.toInt?
    if -integerLimit < n ∧ n < integerLimit then some n else none
  | .text s => integerOfText? s
  | _ => none

/-- The words for a truth value, in lower case. -/
def truthWords : List (String × Bool) :=
  [("0", false), ("off", false), ("f", false), ("false", false), ("n", false), ("no", false),
   ("1", true), ("on", true), ("t", true), ("true", true), ("y", true), ("yes", true)]

/-- A truth value: written as one, as zero or one, or as one of the words in any case. -/
def asBool : Reader Bool
  | .bool b => some b
  | .int n => if n = 0 then some false else if n = 1 then some true else none
  | .float x =>
    match x.toInt? with
    | some n => if n = 0 then some false else if n = 1 then some true else none
    | none => none
  | .text s => truthWords.lookup (s.map Char.toLower)
  | _ => none

/-- A list of values of one type. -/
def asList (item : Reader α) : Reader (List α)
  | .array items => items.mapM item
  | _ => none

/-- A value or null. -/
def orAbsent (value : Reader α) : Reader (Option α)
  | .null => some none
  | v => (value v).map some

/-- Text that names one of several values. -/
def asNamed (find? : String → Option α) : Reader α := fun v => asText v >>= find?

/-! ## 3. Records -/

/-- The fields of an object. -/
def asFields : Reader Fields
  | .object fields => some fields
  | _ => none

/-- The value of a field under the first of its spellings that is present. -/
def Fields.find? (spellings : List String) (fields : Fields) : Option Json :=
  spellings.findSome? fun s => Table.get? s fields

/-- A field that must be present. -/
def Fields.required (fields : Fields) (spellings : List String) (value : Reader α) : Option α :=
  fields.find? spellings >>= value

/-- A field that may be left out. -/
def Fields.optional (fields : Fields) (spellings : List String) (value : Reader α) (absent : α) :
    Option α :=
  match fields.find? spellings with
  | some v => value v
  | none => some absent

end UpgradeAudit.Json
