/-
# The output of golangci-lint

One document with the issues found.  Source lines come with the issues; they are given the
same indentation, and file names inside the module cache are made relative to it.
-/
import UpgradeAudit.Issue
import UpgradeAudit.Output.Document

namespace UpgradeAudit.Output.LintReport

/-- A place in a source file. -/
def positionOfJson : Json.Reader Position := fun v => do
  let fields ← Json.asFields v
  let filename ← optional fields ["filename"] Json.asText ""
  let offset ← optional fields ["offset"] Json.asInt 0
  let line ← optional fields ["line"] Json.asInt 0
  let column ← optional fields ["column"] Json.asInt 0
  return { filename, line, column, offset }

/-- An issue. -/
def issueOfJson : Json.Reader Issue := fun v => do
  let fields ← Json.asFields v
  let linter ← required fields ["from", "linter"] Json.asText
  let text ← optional fields ["text"] Json.asText ""
  let lines ← optional fields ["source", "lines"] (Json.orAbsent (Json.asList Json.asText)) none
  let position ← required fields ["pos"] positionOfJson
  return ⟨linter, text, position, lines.getD []⟩

/-- The whole document. -/
def reportOfJson : Json.Reader (List Issue) := fun v => do
  let fields ← Json.asFields v
  let issues ← optional fields ["issues"] (Json.orAbsent (Json.asList issueOfJson)) none
  return issues.getD []

/-- An issue with its file named below the module cache and its source lines indented alike. -/
def place (moduleCache : String) (workDir : Option String) (issue : Issue) : Issue :=
  { issue with
    position := { issue.position with
      filename := Path.relativeToRoot issue.position.filename moduleCache workDir }
    sourceLines := Issue.normaliseLines issue.sourceLines }

/-- The issues of a document. -/
def decode (d : Document) (moduleCache : String) (workDir : Option String)
    (room : Nat := Json.usualRoom) : Except Cause (List Issue) :=
  (d.decode .golangciLint reportOfJson room).map fun issues =>
    issues.map (place moduleCache workDir)

end UpgradeAudit.Output.LintReport
