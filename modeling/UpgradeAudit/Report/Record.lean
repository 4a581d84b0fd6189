/-
# Reports as JSON

Every result as a JSON record: the fields in a fixed order, kinds by their codes, what is
unknown as null, and counts as objects with a field for each category.
-/
import UpgradeAudit.Comparison
import UpgradeAudit.Failure
import UpgradeAudit.Json.Writer

namespace UpgradeAudit.Report.Record

/-! ## 1. Findings -/

/-- A call site. -/
def callSite (s : CallSite) : Json :=
  .object [("filename", .text s.filename), ("line", .orNull .int s.line),
    ("column", .orNull .int s.column)]

/-- A hop of a call path. -/
def hop (h : Hop) : Json := .object [("name", .text h.name), ("site", .orNull callSite h.site)]

/-- A capability. -/
def capability (c : Capability) : Json :=
  .object [("package_name", .text c.packageName), ("package_dir", .text c.packageDir),
    ("capability", .text c.kind.code), ("capability_type", .text c.type.code),
    ("path", .array (c.path.map hop))]

/-- A module that the capability analyzer loaded. -/
def module (m : CapabilityModule) : Json :=
  .object [("path", .text m.path), ("version", .text m.version)]

/-- A place in a source file. -/
def position (p : Position) : Json :=
  .object [("filename", .text p.filename), ("line", .int p.line), ("column", .int p.column),
    ("offset", .int p.offset)]

/-- A lint issue. -/
def issue (i : Issue) : Json :=
  .object [("from_linter", .text i.linter), ("text", .text i.text), ("pos", position i.position),
    ("source_lines", .texts i.sourceLines)]

/-! ## 2. Results -/

/-- The three parts of a difference. -/
def diff (finding : α → Json) (d : Diff α) : Json :=
  .object [("removed", .array (d.removed.map finding)), ("stale", .array (d.stale.map finding)),
    ("added", .array (d.added.map finding))]

/-- Numbers by category. -/
def counts (c : Counts) : Json := .object (c.map fun e => (e.1, .int e.2))

/-- A table of totals. -/
def totals (t : Totals) : Json :=
  .object [("total_caps", .int t.capabilityTotal), ("caps", counts t.capabilities),
    ("total_issues", .int t.issueTotal), ("issues", counts t.issues),
    ("has_deltas", .bool t.hasDeltas), ("cap_deltas", counts t.capabilityDeltas),
    ("issue_deltas", counts t.issueDeltas)]

/-- An inspection. -/
def inspection (r : Inspection) : Json :=
  .object [("dep", .text r.dep), ("version", .text r.version),
    ("capabilities", .array (r.capabilities.map capability)),
    ("issues", .array (r.issues.map issue)), ("cap_modules", .array (r.modules.map module)),
    ("totals", totals r.totals)]

/-- A comparison. -/
def comparison (r : Comparison) : Json :=
  .object [("dep", .text r.dep), ("old_version", .text r.oldVersion),
    ("new_version", .text r.newVersion), ("capabilities", diff capability r.capabilities),
    ("issues", diff issue r.issues), ("old_cap_modules", .array (r.oldModules.map module)),
    ("new_cap_modules", .array (r.newModules.map module)),
    ("removed_totals", totals r.removedTotals), ("stale_totals", totals r.staleTotals),
    ("added_totals", totals r.addedTotals), ("totals", totals r.totals)]

/-- A changed dependency. -/
def changedDependency (c : ChangedDependency) : Json :=
  .object [("path", .text c.path), ("new_version", .text c.newVersion),
    ("old_version", .orNull .text c.oldVersion)]

/-- A dependency that could not be audited. -/
def failure (f : DependencyFailure) : Json :=
  .object [("dep", changedDependency f.dep), ("error", .text f.error)]

/-- An upgrade with all that it moves. -/
def full (r : FullComparison) : Json :=
  .object [("root", comparison r.root),
    ("changed", .array (r.others.changed.map changedDependency)),
    ("comparisons", .array (r.others.comparisons.map comparison)),
    ("inspections", .array (r.others.inspections.map inspection)),
    ("failures", .array (r.others.failures.map failure))]

/-- A result. -/
def result : AuditResult → Json
  | .inspection r => inspection r
  | .comparison r => comparison r
  | .full r => full r

/-! ## 3. Texts -/

/-- What is said of an integer that has too many digits to be written. -/
def longIntegerMessage : String :=
  "Exceeds the limit (" ++ toString Json.digitLimit ++ " digits) for integer string conversion; "
    ++ "use sys.set_int_max_str_digits() to increase the limit"

/-- The text of a result.  A result with an integer that has too many digits has none. -/
def print (r : AuditResult) : Except Cause String :=
  if (result r).isWritable then .ok (result r).indented
  else .error (.invalidValue longIntegerMessage)

end UpgradeAudit.Report.Record
