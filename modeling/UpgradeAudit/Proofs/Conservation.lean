/-
# What becomes of the old findings

Each old finding is counted once in a comparison: with what was removed, or with what is stale.  A
stale finding is shown by a record of the new version, but that record is of the same category
(`map_stale`).  So **in each category what was removed and what is stale make up the old numbers**.

The combined numbers are made from those of the three parts.  They name each category of a part
once, in order, and both their numbers and the changes add up to what the lists hold
(`Counts.Conserves`): what is stale or added is there now, and the change is what was added less
what was removed.
-/
import UpgradeAudit.Proofs.Comparisons
import UpgradeAudit.Proofs.Text.Order

namespace UpgradeAudit

variable {α : Type}

namespace Counts

/-! ## 1. Names and changes -/

/-- The numbers of all categories added up. -/
def sum (counts : Counts) : Int := (Table.values counts).foldr (· + ·) 0

theorem foldr_map_sub {β : Type} (f g : β → Int) (l : List β) :
    (l.map fun b => f b - g b).foldr (· + ·) (0 : Int)
      = (l.map f).foldr (· + ·) 0 - (l.map g).foldr (· + ·) 0 := by
  induction l with
  | nil => rfl
  | cons b l ih =>
    simp only [List.map_cons, List.foldr_cons, ih]
    omega

section current

variable (removed stale added : List String)

/-- The names of numbers that come from three parts. -/
theorem mem_names (c : String) :
    c ∈ sortedNames (Table.keys (ofCategories removed) ++ Table.keys (ofCategories stale)
        ++ Table.keys (ofCategories added))
      ↔ c ∈ removed ++ stale ++ added := by
  simp only [mem_sortedNames, List.mem_append, keys_ofCategories]

theorem keys_counts_current (removed stale added : Counts) :
    Table.keys (current removed stale added).counts
      = sortedNames (Table.keys removed ++ Table.keys stale ++ Table.keys added) := by
  rw [Table.keys, current, List.map_map]
  exact List.map_id _

theorem keys_deltas_current (removed stale added : Counts) :
    Table.keys (current removed stale added).deltas
      = sortedNames (Table.keys removed ++ Table.keys stale ++ Table.keys added) := by
  rw [Table.keys, current, List.map_map]
  exact List.map_id _

/-- The changes add up to what was added less what was removed. -/
theorem sum_deltas :
    (current (ofCategories removed) (ofCategories stale) (ofCategories added)).deltas.sum
      = (added.length : Int) - removed.length := by
  have hadded : ∀ c ∈ added, c ∈ sortedNames (Table.keys (ofCategories removed)
      ++ Table.keys (ofCategories stale) ++ Table.keys (ofCategories added)) := by
    intro c hc
    exact (mem_names removed stale added c).2 (List.mem_append_right _ hc)
  have hremoved : ∀ c ∈ removed, c ∈ sortedNames (Table.keys (ofCategories removed)
      ++ Table.keys (ofCategories stale) ++ Table.keys (ofCategories added)) := by
    intro c hc
    exact (mem_names removed stale added c).2 (by simp [hc])
  rw [sum, Table.values, current, List.map_map]
  simp only [Function.comp_def, count_ofCategories]
  rw [foldr_map_sub, sum_count_of_mem (nodup_sortedNames _) hremoved,
    sum_count_of_mem (nodup_sortedNames _) hadded]

end current

/-! ## 2. Numbers of a difference -/

/-- The numbers of findings, in all and in each category. -/
structure Current.Tallies (current : Current) (categories : List String) : Prop where
  total : current.total = categories.length
  counts (c : String) : count c current.counts = categories.count c

/-- What the numbers of the three parts of a difference have to do with the old findings and with
the combined numbers. -/
structure Conserves (category : α → String) (old : List α) (d : Diff α)
    (removed stale added combined : Current) : Prop where
  ofRemoved : removed.Tallies (d.removed.map category)
  ofStale : stale.Tallies (d.stale.map category)
  ofAdded : added.Tallies (d.added.map category)
  /-- What was removed and what is stale make up the old findings. -/
  oldTotal : removed.total + stale.total = old.length
  oldCounts (c : String) :
    count c removed.counts + count c stale.counts = (old.map category).count c
  counts (c : String) : count c combined.counts = count c stale.counts + count c added.counts
  deltas (c : String) : count c combined.deltas = count c added.counts - count c removed.counts
  /-- The categories are those of the three parts, each once. -/
  ascending : Text.Ascending (Table.keys combined.counts)
  listed (c : String) :
    c ∈ Table.keys combined.counts ↔ c ∈ (d.removed ++ d.stale ++ d.added).map category
  changed : Table.keys combined.deltas = Table.keys combined.counts
  sumOfCounts : combined.total = combined.counts.sum
  total : combined.total = d.stale.length + d.added.length
  sumOfDeltas : combined.deltas.sum = d.added.length - d.removed.length

/-- The numbers of a list of findings. -/
def tally (category : α → String) (findings : List α) : Current :=
  ⟨findings.length, ofCategories (findings.map category), []⟩

theorem tallies_tally (category : α → String) (findings : List α) :
    (tally category findings).Tallies (findings.map category) where
  total := by rw [List.length_map]; rfl
  counts := count_ofCategories _

/-- **The parts of a difference make up the old findings and the combined numbers.** -/
theorem conserves_ofDiff {equal : α → α → Bool} {category : α → String}
    (h : ∀ a b, equal a b = true → category a = category b) (old new : List α) :
    let d := diff equal old new
    Conserves category old d (tally category d.removed) (tally category d.stale)
      (tally category d.added) (ofDiff category d) := by
  intro d
  constructor
  case ofRemoved => exact tallies_tally category d.removed
  case ofStale => exact tallies_tally category d.stale
  case ofAdded => exact tallies_tally category d.added
  case oldTotal =>
    have hlength := length_removed_add_length_stale equal old new
    simp only [tally, d]
    omega
  case oldCounts =>
    intro c
    have hcount := count_old equal category old new c
    simp only [tally, count_ofCategories, d, map_stale old new h]
    omega
  case counts => exact count_current _ _ _
  case deltas => exact count_deltas _ _ _
  case ascending =>
    rw [ofDiff, keys_counts_current]
    exact ascending_sortedNames _
  case listed =>
    intro c
    rw [ofDiff, keys_counts_current, mem_names, List.map_append, List.map_append]
  case changed => rw [ofDiff, keys_deltas_current, keys_counts_current]
  case sumOfCounts => rfl
  case total => rw [ofDiff, total_current, List.length_map, List.length_map]
  case sumOfDeltas => rw [ofDiff, sum_deltas, List.length_map, List.length_map]

end Counts

/-! ## 3. Comparisons -/

/-- **In a comparison, the parts make up the old findings and the combined numbers**, for
capabilities and for issues. -/
theorem Comparison.ofInspections_conserves (dep : String) (matchColumn : Bool)
    (old new : Inspection) :
    let comparison := ofInspections dep matchColumn old new
    Counts.Conserves Capability.category old.capabilities comparison.capabilities
        comparison.removedTotals.ofCapabilities comparison.staleTotals.ofCapabilities
        comparison.addedTotals.ofCapabilities comparison.totals.ofCapabilities
      ∧ Counts.Conserves Issue.category old.issues comparison.issues
        comparison.removedTotals.ofIssues comparison.staleTotals.ofIssues
        comparison.addedTotals.ofIssues comparison.totals.ofIssues := by
  intro comparison
  constructor
  · exact Counts.conserves_ofDiff Capability.category_eq_of_same old.capabilities new.capabilities
  · exact Counts.conserves_ofDiff (Issue.category_eq_of_same dep matchColumn) old.issues new.issues

end UpgradeAudit
