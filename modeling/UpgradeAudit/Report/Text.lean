/-
# Reports as text

One block for each finding, under a title for each kind of change, and the totals at the end.
A section without findings is left out.
-/
import UpgradeAudit.Comparison

namespace UpgradeAudit.Report

/-- Lines as one text, without a line end after the last. -/
def ofLines (lines : List String) : String := "\n".intercalate lines

/-! ## 1. Findings -/

/-- One hop after the first: the function, and where it is called when that is known. -/
def hopLine (hop : Hop) : String :=
  match hop.site with
  | some site => "  " ++ hop.name ++ " " ++ site.text
  | none => "  " ++ hop.name

/-- A capability: its kind and type, then the call path, one hop a line. -/
def capability (cap : Capability) : String :=
  let path := match cap.path with
    | [] => []
    | first :: rest => first.name :: rest.map hopLine
  ofLines ((cap.category ++ " (" ++ cap.type.displayName ++ ")") :: path)

/-- An issue: the linter, the message and the place, then the source lines. -/
def issue (i : Issue) : String :=
  ofLines (("(" ++ i.linter ++ ") " ++ i.text ++ ": " ++ i.position.filename ++ ":"
    ++ toString i.position.line ++ ":" ++ toString i.position.column ++ ":") :: i.sourceLines)

/-! ## 2. Totals -/

/-- An integer with its sign, zero counting as positive. -/
def signed (n : Int) : String := if n < 0 then toString n else "+" ++ toString n

/-- One line for each category, with the change when changes are known. -/
def countLines (counts : Counts) (deltas : Option Counts) : List String :=
  counts.map fun (name, n) =>
    "  " ++ name ++ ": " ++ toString n ++
      match deltas with
      | some deltas => " (" ++ signed (Counts.count name deltas) ++ ")"
      | none => ""

/-- The lines of a table of totals. -/
def totalsLines (t : Totals) : List String :=
  let deltas (counts : Counts) : Option Counts := if t.hasDeltas then some counts else none
  ["total:", "capabilities: " ++ toString t.capabilityTotal]
    ++ countLines t.capabilities (deltas t.capabilityDeltas)
    ++ ["issues: " ++ toString t.issueTotal]
    ++ countLines t.issues (deltas t.issueDeltas)

/-- A table of totals. -/
def totals (t : Totals) : String := ofLines (totalsLines t)

/-! ## 3. Results -/

/-- A title and the blocks under it, an empty line after each; nothing without blocks. -/
def titled (title : String) (blocks : List String) : List String :=
  if blocks.isEmpty then [] else (title ++ ":") :: blocks.flatMap fun block => [block, ""]

/-- The report of an inspection. -/
def inspection (r : Inspection) : String :=
  ofLines ([ModulePath.versioned r.dep r.version, ""]
    ++ titled "capabilities" (r.capabilities.map capability)
    ++ titled "issues" (r.issues.map issue)
    ++ [totals r.totals])

/-- The report of a comparison. -/
def comparison (r : Comparison) : String :=
  ofLines ([r.dep ++ " " ++ r.oldVersion ++ " -> " ++ r.newVersion, ""]
    ++ titled "removed capabilities" (r.capabilities.removed.map capability)
    ++ titled "stale capabilities" (r.capabilities.stale.map capability)
    ++ titled "added capabilities" (r.capabilities.added.map capability)
    ++ titled "fixed issues" (r.issues.removed.map issue)
    ++ titled "stale issues" (r.issues.stale.map issue)
    ++ titled "new issues" (r.issues.added.map issue)
    ++ [totals r.totals])

/-- The line of a dependency that could not be audited. -/
def failureLine (f : DependencyFailure) : String :=
  "  " ++ ModulePath.versioned f.dep.path f.dep.newVersion ++ ": " ++ f.error

/-- The report of an upgrade with all that it moves: one report after the other, the failures
last. -/
def full (r : FullComparison) : String :=
  "\n\n".intercalate (comparison r.root :: r.others.comparisons.map comparison
    ++ r.others.inspections.map inspection
    ++ (if r.others.failures.isEmpty then []
      else [ofLines ("failed dependencies:" :: r.others.failures.map failureLine)]))

/-- The report of a result. -/
def result : AuditResult → String
  | .inspection r => inspection r
  | .comparison r => comparison r
  | .full r => full r

end UpgradeAudit.Report
