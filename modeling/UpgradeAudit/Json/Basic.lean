/-
# JSON values

Values as a document holds them: integers apart from binary floating point, and the fields of
an object in order of first appearance.
-/
import UpgradeAudit.Decimal.Shortest
import UpgradeAudit.Table

namespace UpgradeAudit

/-- A JSON value. -/
inductive Json where
  | null
  | bool (b : Bool)
  | int (n : Int)
  | float (x : Decimal.Binary64)
  | text (s : String)
  | array (items : List Json)
  | object (fields : List (String × Json))

namespace Json

/-- The fields of an object. -/
abbrev Fields := Table String Json

/-- A natural number as a value. -/
def nat (n : Nat) : Json := .int n

/-- A list of texts as a value. -/
def texts (ss : List String) : Json := .array (ss.map text)

/-- A value that may be absent. -/
def orNull (encode : α → Json) : Option α → Json
  | none => .null
  | some a => encode a

mutual

/-- The values inside a value that hold no others, from left to right; the name of a field is a
text before its value. -/
def leaves : Json → List Json
  | .array items => itemLeaves items
  | .object fields => fieldLeaves fields
  | v => [v]

/-- The leaves of items. -/
def itemLeaves : List Json → List Json
  | [] => []
  | item :: rest => leaves item ++ itemLeaves rest

/-- The leaves of fields. -/
def fieldLeaves : List (String × Json) → List Json
  | [] => []
  | (name, value) :: rest => .text name :: leaves value ++ fieldLeaves rest

end

/-! ## Faults -/

/-- The values that hold others. -/
inductive Collection where
  | array
  | object
  deriving DecidableEq, Repr

/-- The name of a kind of collection. -/
def Collection.name : Collection → String
  | .array => "array"
  | .object => "object"

/-- What is wrong with a document. -/
inductive Fault where
  /-- The text is no JSON. -/
  | malformed
  /-- An integer has more digits than may be read. -/
  | longInteger (digits : Nat)
  /-- A collection is opened inside more others than may be open. -/
  | tooDeep (collection : Collection)
  /-- A value does not have the form asked for. -/
  | unexpected
  deriving DecidableEq, Repr

/-- How many digits an integer may have, read or written. -/
def digitLimit : Nat := 4300

/-- How many collections there is room for inside one another, where nothing else is said. -/
def usualRoom : Nat := 985

/-- The wording of a fault. -/
def Fault.message : Fault → String
  | .malformed => "<json>"
  | .unexpected => "<schema>"
  | .longInteger digits =>
    "Exceeds the limit (" ++ toString digitLimit ++ " digits) for integer string conversion: "
      ++ "value has " ++ toString digits
      ++ " digits; use sys.set_int_max_str_digits() to increase the limit"
  | .tooDeep collection =>
    "maximum recursion depth exceeded while decoding a JSON " ++ collection.name
      ++ " from a unicode string"

end Json
end UpgradeAudit
