/-
# A downgrade mirrors the upgrade

Read in the other direction, a comparison shows what was removed as added and what was added as
removed, and the opposite change in the number of each category (`Comparison.Mirrors`).

The lists are mirrored because each part of a difference asks its question of an old and a new
finding in that order, and the answer does not depend on the order.  The numbers are mirrored
because both directions name the same categories.  A record that stands for a stale finding is of
the other version then, but it is of the same category (`mem_lasting_swap`).

A version that is compared with itself shows no change, and its own numbers
(`Comparison.Unchanged`).
-/
import UpgradeAudit.Proofs.Matching

namespace UpgradeAudit

variable {α : Type}

/-! ## 1. Opposite changes -/

/-- The opposite change in each category. -/
def Counts.opposite (deltas : Counts) : Counts := deltas.map fun entry => (entry.1, -entry.2)

/-- What is stale counts for the names alone, so it may be counted differently. -/
theorem Counts.deltas_current_swap {removed stale stale' added : Counts}
    (hstale : ∀ c, c ∈ Table.keys stale' ↔ c ∈ Table.keys stale) :
    (current added stale' removed).deltas = opposite (current removed stale added).deltas := by
  have hnames : sortedNames (Table.keys added ++ Table.keys stale' ++ Table.keys removed)
      = sortedNames (Table.keys removed ++ Table.keys stale ++ Table.keys added) := by
    refine sortedNames_congr fun c => ?_
    simp only [List.mem_append, hstale]
    tauto
  simp only [current, hnames]
  rw [opposite, List.map_map]
  refine List.map_congr_left fun c _ => ?_
  simp only [Function.comp_apply, Int.neg_sub]

/-! ## 2. Differences -/

/-- Two differences, each of which shows as removed what the other shows as added. -/
structure Diff.Mirrors (d d' : Diff α) : Prop where
  removed : d.removed = d'.added
  added : d.added = d'.removed

section swap

variable {equal : α → α → Bool} (hequal : Equivalence fun a b => equal a b = true)

include hequal

theorem equal_comm (a b : α) : equal a b = equal b a :=
  Bool.eq_iff_iff.2 ⟨hequal.symm, hequal.symm⟩

/-- **Swapping the versions swaps what was removed and what was added.** -/
theorem diff_mirrors (old new : List α) : (diff equal new old).Mirrors (diff equal old new) := by
  constructor
  · refine List.filter_congr fun n _ => ?_
    rw [funext (equal_comm hequal n)]
  · refine List.filter_congr fun o _ => ?_
    rw [funext (equal_comm hequal o)]

variable {category : α → String}
  (hcategory : ∀ a b, equal a b = true → category a = category b)

include hcategory

/-- A category of what lasts is one of what it lasts as. -/
theorem mem_lasting_swap {old new : List α} {c : String}
    (hc : c ∈ (lasting equal old new).map category) :
    c ∈ (lasting equal new old).map category := by
  obtain ⟨o, ho, rfl⟩ := List.mem_map.1 hc
  obtain ⟨hold, hany⟩ := List.mem_filter.1 ho
  obtain ⟨n, hnew, hsame⟩ := List.any_eq_true.1 hany
  refine List.mem_map.2 ⟨n, List.mem_filter.2 ⟨hnew, ?_⟩, (hcategory o n hsame).symm⟩
  exact List.any_eq_true.2 ⟨o, hold, hequal.symm hsame⟩

theorem mem_stale_swap (old new : List α) (c : String) :
    c ∈ (diff equal new old).stale.map category ↔ c ∈ (diff equal old new).stale.map category := by
  rw [map_stale new old hcategory, map_stale old new hcategory]
  exact ⟨mem_lasting_swap hequal hcategory, mem_lasting_swap hequal hcategory⟩

/-- **Swapping the versions turns each change into its opposite.** -/
theorem Counts.deltas_ofDiff_swap (old new : List α) :
    (ofDiff category (diff equal new old)).deltas
      = opposite (ofDiff category (diff equal old new)).deltas := by
  have hparts := diff_mirrors hequal old new
  rw [ofDiff, ofDiff, hparts.removed, hparts.added]
  refine deltas_current_swap fun c => ?_
  rw [keys_ofCategories, keys_ofCategories, mem_sortedNames, mem_sortedNames]
  exact mem_stale_swap hequal hcategory old new c

end swap

/-! ## 3. Comparisons -/

/-- The numbers of findings that stayed as they were. -/
def Totals.unchanged (totals : Totals) : Totals :=
  { totals with
    hasDeltas := true
    capabilityDeltas := Counts.unchanged totals.capabilities
    issueDeltas := Counts.unchanged totals.issues }

namespace Comparison

/-- A comparison that shows another one from the other side. -/
structure Mirrors (comparison other : Comparison) : Prop where
  capabilities : comparison.capabilities.Mirrors other.capabilities
  issues : comparison.issues.Mirrors other.issues
  removedTotals : comparison.removedTotals = other.addedTotals
  addedTotals : comparison.addedTotals = other.removedTotals
  /-- The same categories in the same order, and of each the opposite change. -/
  capabilityDeltas :
    comparison.totals.capabilityDeltas = Counts.opposite other.totals.capabilityDeltas
  issueDeltas : comparison.totals.issueDeltas = Counts.opposite other.totals.issueDeltas

/-- A comparison that shows no change in the findings of a version. -/
structure Unchanged (comparison : Comparison) (version : Inspection) : Prop where
  removedCapabilities : comparison.capabilities.removed = []
  addedCapabilities : comparison.capabilities.added = []
  removedIssues : comparison.issues.removed = []
  addedIssues : comparison.issues.added = []
  totals :
    comparison.totals = (Totals.ofFindings version.capabilities version.issues).unchanged

theorem mirrors_swap (dep : String) (matchColumn : Bool) (a b : Inspection) :
    (ofInspections dep matchColumn b a).Mirrors (ofInspections dep matchColumn a b) := by
  have hcapabilities := diff_mirrors Capability.same_equivalence a.capabilities b.capabilities
  have hissues := diff_mirrors (Issue.same_equivalence dep matchColumn) a.issues b.issues
  refine ⟨hcapabilities, hissues, ?_, ?_, ?_, ?_⟩
  · exact congrArg₂ Totals.ofFindings hcapabilities.removed hissues.removed
  · exact congrArg₂ Totals.ofFindings hcapabilities.added hissues.added
  · exact Counts.deltas_ofDiff_swap Capability.same_equivalence Capability.category_eq_of_same _ _
  · exact Counts.deltas_ofDiff_swap (Issue.same_equivalence dep matchColumn)
      (Issue.category_eq_of_same dep matchColumn) _ _

/-- Findings that are matched show no change. -/
theorem unchanged_of_matched {dep : String} {matchColumn : Bool} {a b : Inspection}
    (hcapabilities : Matched Capability.same a.capabilities b.capabilities)
    (hissues : Matched (Issue.same dep matchColumn) a.issues b.issues) :
    (ofInspections dep matchColumn a b).Unchanged a := by
  have htotals : (ofInspections dep matchColumn a b).totals
      = (Totals.ofFindings a.capabilities a.issues).unchanged := by
    have capabilities := Counts.ofDiff_of_matched Capability.category_eq_of_same hcapabilities
    have issues := Counts.ofDiff_of_matched (Issue.category_eq_of_same dep matchColumn) hissues
    rw [Counts.ofDiff] at capabilities issues
    simp only [ofInspections, Totals.combine, Totals.ofFindings, capabilities, issues,
      Totals.unchanged]
  exact ⟨hcapabilities.removed_eq_nil, hcapabilities.added_eq_nil, hissues.removed_eq_nil,
    hissues.added_eq_nil, htotals⟩

/-- **Swapping the versions mirrors the comparison, and a version that is compared with itself shows
no change.** -/
theorem ofInspections_mirrored (dep : String) (matchColumn : Bool) (a b : Inspection) :
    (ofInspections dep matchColumn b a).Mirrors (ofInspections dep matchColumn a b) ∧
      (ofInspections dep matchColumn a a).Unchanged a :=
  ⟨mirrors_swap dep matchColumn a b, unchanged_of_matched (.self Capability.same_equivalence _)
    (.self (Issue.same_equivalence dep matchColumn) _)⟩

end Comparison
end UpgradeAudit
