/-
# Version bumps without lint changes

When a new version only moves the files of a dependency, the comparison of its lint issues must
show nothing: what was there is stale, and nothing was removed or added.  An issue of the new
version may lie in another directory of another cache, at another column, and its source lines may
have other blanks at their ends (`Issue.Moved`).

Such an issue is the same as the old one once both were placed (`same_place`): the file is named
below the directory of its version, and the lines are stripped.  The rest is about lists of
findings that are matched (`Matched`), in whatever order they come, and so **a version bump that
only moves issues shows no lint changes** (`comparison_of_bump`).
-/
import UpgradeAudit.Output.LintReport
import UpgradeAudit.Proofs.Agreement
import UpgradeAudit.Proofs.ModulePaths
import UpgradeAudit.Proofs.Output.Readers
import UpgradeAudit.Proofs.Report.Records

namespace UpgradeAudit

/-! ## 1. Comparisons without lint changes -/

/-- A comparison that shows no change in the lint issues. -/
structure Comparison.LintUnchanged (comparison : Comparison) (old : Inspection) : Prop where
  removed : comparison.issues.removed = []
  added : comparison.issues.added = []
  stale : comparison.issues.stale.length = old.issues.length
  /-- No number by category changed. -/
  deltas : ∀ entry ∈ comparison.totals.issueDeltas, entry.2 = 0
  /-- The numbers are those of the categories of the issues. -/
  categories : ∀ category, category ∈ Table.keys comparison.totals.issueDeltas ↔
    category ∈ old.issues.map Issue.category

/-- **Matched issues show no lint change.** -/
theorem Comparison.lintUnchanged_of_matched {dep : String} {matchColumn : Bool}
    {old new : Inspection} (h : Matched (Issue.same dep matchColumn) old.issues new.issues) :
    (ofInspections dep matchColumn old new).LintUnchanged old := by
  have hdeltas : (ofInspections dep matchColumn old new).totals.issueDeltas
      = Counts.unchanged (Counts.ofCategories (old.issues.map Issue.category)) :=
    congrArg Counts.Current.deltas
      (Counts.ofDiff_of_matched (Issue.category_eq_of_same dep matchColumn) h)
  refine ⟨h.removed_eq_nil, h.added_eq_nil, ?_, ?_, ?_⟩
  · show (diff _ _ _).stale.length = _
    rw [length_stale, h.lasting_eq]
  · intro entry hentry
    rw [hdeltas] at hentry
    exact Counts.eq_zero_of_mem_unchanged hentry
  · intro category
    rw [hdeltas, Counts.keys_unchanged, Counts.keys_ofCategories, Counts.mem_sortedNames]

/-! ## 2. Issues that moved -/

/-- An issue of a file in one directory, and the issue of the same file in another directory.  The
columns and the offsets may differ, and the blanks at the ends of the source lines. -/
structure Issue.Moved (directory directory' : String) (a b : Issue) : Prop where
  linter : a.linter = b.linter
  text : a.text = b.text
  line : a.position.line = b.position.line
  file : ∃ file, Path.Tidy file ∧ a.position.filename = directory ++ "/" ++ file ∧
    b.position.filename = directory' ++ "/" ++ file
  sourceLines : List.Forall₂ Text.SameInside a.sourceLines b.sourceLines

namespace Output.LintReport

/-! ## 3. Documents -/

/-- The document that issues are written as. -/
def written (issues : List Issue) : Json :=
  .object [("issues", .array (issues.map Report.Record.issue))]

theorem positionOfJson_position (p : Position) :
    positionOfJson (Report.Record.position p) = some p := by
  unfold positionOfJson Report.Record.position
  simp only [Json.asFields, Option.bind_eq_bind, Option.bind_some]
  rw [optional_of_get? "filename" (by decide) rfl, optional_of_get? "offset" (by decide) rfl,
    optional_of_get? "line" (by decide) rfl, optional_of_get? "column" (by decide) rfl]
  rfl

theorem issueOfJson_issue (i : Issue) : issueOfJson (Report.Record.issue i) = some i := by
  have hlines : Json.orAbsent (Json.asList Json.asText) (.texts i.sourceLines)
      = some (some i.sourceLines) :=
    congrArg (Option.map some) (Json.asList_texts i.sourceLines)
  unfold issueOfJson Report.Record.issue
  simp only [Json.asFields, Option.bind_eq_bind, Option.bind_some]
  rw [required_of_get? "from_linter" (by decide) rfl, optional_of_get? "text" (by decide) rfl,
    optional_of_get? "source_lines" (by decide) rfl, required_of_get? "pos" (by decide) rfl,
    hlines, positionOfJson_position]
  rfl

/-- Issues that were written are decoded as they are. -/
theorem decode_written {issues : List Issue}
    (htexts : ∀ s, .text s ∈ (written issues).leaves → Text.Whole s)
    (hints : (written issues).isWritable = true) {room : Nat} (hroom : 4 ≤ room) :
    (Document.text (written issues).indented).decode .golangciLint reportOfJson room
      = .ok issues := by
  have hshape : Json.Shaped 4 (written issues) := by
    refine .object (by simp [Table.keys]) ?_
    simp [Report.Record.shaped_list Report.Record.shaped_issue]
  have hreport : reportOfJson (written issues) = some issues := by
    unfold reportOfJson written
    simp only [Json.asFields, Option.bind_eq_bind, Option.bind_some]
    rw [optional_of_get? "issues" (by decide) rfl]
    have hissues : Json.asList issueOfJson (.array (issues.map Report.Record.issue))
        = some (issues.map id) := Json.asList_map fun i _ => issueOfJson_issue i
    rw [List.map_id] at hissues
    simp [Json.orAbsent, hissues]
  rw [eq_ok_iff, Document.toOption_decode,
    Document.value?_indented (hshape.mono hroom) htexts hints, Option.bind_eq_bind,
    Option.bind_some, hreport]

/-! ## 4. Version bumps -/

section moved

variable {dep version version' root root' : String} (hdep : Path.Tidy dep)
  (hversion : '/' ∉ version.toList) (hversion' : '/' ∉ version'.toList)
  (hroot : Path.Settled root) (hroot' : Path.Settled root')

include hdep hversion hroot

/-- A file of a version is placed below the directory of the version. -/
theorem relativeFile_placed {file : String} (hfile : Path.Tidy file) (workDir : Option String) :
    ModulePath.relativeFile dep (Path.relativeToRoot
        (root ++ "/" ++ ModulePath.directory dep version ++ "/" ++ file) root workDir)
      = Text.ofPoints (Text.points ("/" ++ file)) := by
  have hbelow : Path.Tidy (ModulePath.directory dep version ++ "/" ++ file) :=
    (ModulePath.tidy_directory hdep hversion).append hfile
  have hname : root ++ "/" ++ ModulePath.directory dep version ++ "/" ++ file
      = root ++ "/" ++ (ModulePath.directory dep version ++ "/" ++ file) := by
    simp only [String.append_assoc]
  rw [hname, Path.relativeToRoot_below hroot hbelow, ModulePath.relativeFile_directory hversion]

include hversion' hroot'

/-- **An issue that moved is the same once it is placed.** -/
theorem same_place {a b : Issue}
    (h : a.Moved (root ++ "/" ++ ModulePath.directory dep version)
      (root' ++ "/" ++ ModulePath.directory dep version') b) (workDir workDir' : Option String) :
    Issue.same dep false (place root workDir a) (place root' workDir' b) = true := by
  obtain ⟨file, hfile, ha, hb⟩ := h.file
  have hlines := Issue.map_strip_of_sameInside h.sourceLines
  have hfiles : ModulePath.relativeFile dep (place root workDir a).position.filename
      = ModulePath.relativeFile dep (place root' workDir' b).position.filename := by
    simp only [place, ha, hb]
    rw [relativeFile_placed hdep hversion hroot hfile,
      relativeFile_placed hdep hversion' hroot' hfile]
  refine Issue.same_iff.2 (Issue.Content.ext h.linter h.text h.line rfl ?_ hfiles)
  simp only [Issue.content, place, Issue.map_strip_normaliseLines, hlines]

/-- **A version bump that only moves issues shows no lint changes**, in whatever order the issues
come. -/
theorem comparison_of_bump {d d' : Document} {issues moved issues' : List Issue} {room room' : Nat}
    (hd : d.decode .golangciLint reportOfJson room = .ok issues)
    (hd' : d'.decode .golangciLint reportOfJson room' = .ok issues')
    (hmoved : List.Forall₂ (Issue.Moved (root ++ "/" ++ ModulePath.directory dep version)
      (root' ++ "/" ++ ModulePath.directory dep version')) issues moved)
    (hperm : issues'.Perm moved) (workDir workDir' : Option String) :
    decode d root workDir room = .ok (issues.map (place root workDir)) ∧
      decode d' root' workDir' room' = .ok (issues'.map (place root' workDir')) ∧
      ∀ old new : Inspection, old.issues.Perm (issues.map (place root workDir)) →
        new.issues.Perm (issues'.map (place root' workDir')) →
          (Comparison.ofInspections dep false old new).LintUnchanged old := by
  refine ⟨?_, ?_, ?_⟩
  · rw [decode, hd]
    rfl
  · rw [decode, hd']
    rfl
  · intro old new hold hnew
    have hsame : List.Forall₂ (fun a b => Issue.same dep false a b = true)
        (issues.map (place root workDir)) (moved.map (place root' workDir')) := by
      rw [List.forall₂_map_left_iff, List.forall₂_map_right_iff]
      exact hmoved.imp fun a b hab =>
        same_place hdep hversion hversion' hroot hroot' hab workDir workDir'
    exact Comparison.lintUnchanged_of_matched
      ((Matched.of_forall₂ hsame).perm hold (hnew.trans (hperm.map _)))

end moved

/-- Two issues of a module, in a directory of a cache, with columns and blanks of their own. -/
def twoIssues (directory : String) (column : Int) (blanks : String) : List Issue :=
  [⟨"errcheck", "unchecked error", ⟨directory ++ "/decode.go", 3, column, 0⟩,
      [blanks ++ "f.Close()" ++ blanks]⟩,
    ⟨"staticcheck SA1", "deprecated", ⟨directory ++ "/internal/tz.go", 7, column, column⟩, []⟩]

/-- The two issues of one version of the module. -/
def oldIssues : List Issue := twoIssues "/go/github.com/!burnt!sushi/toml@v1.0.0" 2 "\t"

/-- The issues of the next version, in another cache, and as another run may list them. -/
def newIssues : List Issue :=
  (twoIssues "/home/me/go/github.com/!burnt!sushi/toml@v1.1.0" 5 "  ").reverse

theorem comparison_of_bump_toml :
    decode (.text (written oldIssues).indented) "/go" none
        = .ok (oldIssues.map (place "/go" none)) ∧
      decode (.text (written newIssues).indented) "/home/me/go" (some "/src")
        = .ok (newIssues.map (place "/home/me/go" (some "/src"))) ∧
      ∀ old new : Inspection, old.issues.Perm (oldIssues.map (place "/go" none)) →
        new.issues.Perm (newIssues.map (place "/home/me/go" (some "/src"))) →
          (Comparison.ofInspections "github.com/BurntSushi/toml" false old new).LintUnchanged
            old := by
  have hpadded (blanks : String) (h : blanks.toList.all Text.isBlank = true) :
      Text.Padded "f.Close()".toList (blanks ++ "f.Close()" ++ blanks).toList :=
    ⟨blanks.toList, blanks.toList, List.all_eq_true.1 h, List.all_eq_true.1 h,
      by simp [String.toList_append]⟩
  have hmoved : List.Forall₂
      (Issue.Moved ("/go" ++ "/" ++ ModulePath.directory "github.com/BurntSushi/toml" "v1.0.0")
        ("/home/me/go" ++ "/" ++ ModulePath.directory "github.com/BurntSushi/toml" "v1.1.0"))
      oldIssues newIssues.reverse := by
    refine .cons ⟨rfl, rfl, rfl, ⟨"decode.go", by decide +kernel, by decide +kernel,
      by decide +kernel⟩, ?_⟩ (.cons ⟨rfl, rfl, rfl, ⟨"internal/tz.go", by decide +kernel,
      by decide +kernel, by decide +kernel⟩, .nil⟩ .nil)
    exact .cons ⟨_, hpadded "\t" (by decide), hpadded "  " (by decide)⟩ .nil
  have htexts : ∀ s, .text s ∈ (written oldIssues).leaves → Text.WellFormed s := by
    decide +kernel
  have htexts' : ∀ s, .text s ∈ (written newIssues).leaves → Text.WellFormed s := by
    decide +kernel
  exact comparison_of_bump (by decide +kernel) (by decide) (by decide) (by decide +kernel)
    (by decide +kernel)
    (decode_written (fun s hs => (htexts s hs).whole) (by decide +kernel) (by decide))
    (decode_written (fun s hs => (htexts' s hs).whole) (by decide +kernel) (by decide)) hmoved
    (List.reverse_perm _).symm none (some "/src")

end Output.LintReport
end UpgradeAudit
