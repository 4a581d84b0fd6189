/-
# Lint issues

What a linter found, where, and the source lines it points at.
-/
import UpgradeAudit.ModulePath
import UpgradeAudit.Text.Blank

namespace UpgradeAudit

/-- A place in a source file. -/
@[ext] structure Position where
  filename : String
  line : Int
  column : Int
  offset : Int
  deriving DecidableEq, Repr

/-- A finding of a linter. -/
@[ext] structure Issue where
  linter : String
  text : String
  position : Position
  sourceLines : List String
  deriving DecidableEq, Repr

namespace Issue

/-- The category under which an issue is counted: its linter, all checks of staticcheck being
one. -/
def category (issue : Issue) : String :=
  if "staticcheck".toList.isPrefixOf issue.linter.toList then "staticcheck" else issue.linter

/-- By linter, then by file, line and column. -/
def order (a b : Issue) : Ordering :=
  (Text.order a.linter b.linter).then <|
  (Text.order a.position.filename b.position.filename).then <|
  (compare a.position.line b.position.line).then <|
  compare a.position.column b.position.column

/-- Issues in their order; those that the order does not tell apart keep theirs. -/
def sort (issues : List Issue) : List Issue := issues.mergeSort fun a b => (order a b).isLE

/-- A message without blanks at its ends and without one full stop at its end. -/
def trimMessage (s : String) : String :=
  let cs := Text.trim s.toList
  String.ofList (if cs.getLast? = some '.' then cs.dropLast else cs)

/-- Source lines with the same indentation, one tab. -/
def normaliseLines (lines : List String) : List String := lines.map fun l => "\t" ++ Text.strip l

end Issue
end UpgradeAudit
