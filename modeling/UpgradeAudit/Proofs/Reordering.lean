/-
# What a comparison owes to the order of findings

Findings that come in another order make the same totals, and what was removed and what was added
is the same but for its order.  The records of stale findings are another matter.  The first equal
new finding stands for an old one, so the order of the new findings decides which of the equal
records is kept (`rearranged_twice_on_a_line`).

But any record that may stand for a finding is equal to every other one that may (`rel_find?`), and
equal findings are of one category.  So the stale records correspond one by one, up to their order
(`Diff.Rearranged`), and that is all that is counted of them: **comparisons of rearranged findings
have the same totals, of each part and in all** (`ofInspections_rearranged`).
-/
import UpgradeAudit.Proofs.Matching

namespace UpgradeAudit

variable {α : Type}

/-! ## 1. Differences -/

/-- Two differences that are alike but for the order of findings, and for which of equal findings
stands for one that is stale. -/
structure Diff.Rearranged (equal : α → α → Bool) (d d' : Diff α) : Prop where
  removed : d.removed.Perm d'.removed
  added : d.added.Perm d'.added
  stale : ∃ arranged : List α, arranged.Perm d'.stale ∧
    List.Forall₂ (fun a b => equal a b = true) d.stale arranged

section rearranged

variable {equal : α → α → Bool} (hequal : Equivalence fun a b => equal a b = true)
  {old new old' new' : List α}

include hequal in
/-- The first findings equal to one in two arrangements are equal, if there are any. -/
theorem rel_find? (hnew : new'.Perm new) (o : α) :
    Option.Rel (fun a b => equal a b = true) (new'.find? (equal o)) (new.find? (equal o)) := by
  cases hfound' : new'.find? (equal o) with
  | none =>
    have hnone : new.find? (equal o) = none := by
      rw [List.find?_eq_none] at hfound' ⊢
      exact fun n hn => hfound' n (hnew.symm.subset hn)
    rw [hnone]
    exact .none
  | some n' =>
    have hsome : (new.find? (equal o)).isSome = true := by
      rw [List.find?_isSome]
      exact ⟨n', hnew.subset (List.mem_of_find?_eq_some hfound'), List.find?_some hfound'⟩
    obtain ⟨n, hfound⟩ := Option.isSome_iff_exists.1 hsome
    rw [hfound]
    exact .some (hequal.trans (hequal.symm (List.find?_some hfound')) (List.find?_some hfound))

include hequal in
/-- **Rearranged findings differ in the same.** -/
theorem diff_rearranged (hold : old'.Perm old) (hnew : new'.Perm new) :
    (diff equal old' new').Rearranged equal (diff equal old new) := by
  refine ⟨?_, ?_, old'.filterMap fun o => new.find? (equal o), hold.filterMap _, ?_⟩
  · have hkeep : (diff equal old' new').removed = old'.filter fun o => ! new.any (equal o) :=
      List.filter_congr fun o _ => by rw [hnew.any_eq]
    exact hkeep ▸ hold.filter _
  · have hkeep : (diff equal old' new').added = new'.filter fun n => ! old.any (equal · n) :=
      List.filter_congr fun n _ => by rw [hold.any_eq]
    exact hkeep ▸ hnew.filter _
  · -- Finding by finding, with the old ones in the order that both lists share.
    refine List.rel_filterMap ?_ (List.forall₂_same.2 fun o _ => rfl)
    rintro o _ rfl
    exact rel_find? hequal hnew o

end rearranged

/-! ## 2. Totals -/

/-- Categories are counted in no order. -/
theorem Counts.ofCategories_perm {categories categories' : List String}
    (h : categories'.Perm categories) : ofCategories categories' = ofCategories categories := by
  have hnames : sortedNames categories' = sortedNames categories :=
    sortedNames_congr fun _ => h.mem_iff
  rw [ofCategories, ofCategories, hnames]
  exact List.map_congr_left fun name _ => by rw [h.count_eq]

theorem Totals.ofFindings_congr {capabilities capabilities' : List Capability}
    {issues issues' : List Issue}
    (hcapabilities : (capabilities'.map Capability.category).Perm
      (capabilities.map Capability.category))
    (hissues : (issues'.map Issue.category).Perm (issues.map Issue.category)) :
    ofFindings capabilities' issues' = ofFindings capabilities issues := by
  have hcapabilityTotal := hcapabilities.length_eq
  have hissueTotal := hissues.length_eq
  rw [List.length_map, List.length_map] at hcapabilityTotal hissueTotal
  rw [ofFindings, ofFindings, hcapabilityTotal, hissueTotal, Counts.ofCategories_perm hcapabilities,
    Counts.ofCategories_perm hissues]

/-- Equal findings are of one category, so it does not matter which of them is stale. -/
theorem Diff.Rearranged.categories {equal : α → α → Bool} {category : α → String} {d d' : Diff α}
    (h : d.Rearranged equal d')
    (hcategory : ∀ a b, equal a b = true → category a = category b) :
    (d.stale.map category).Perm (d'.stale.map category) := by
  obtain ⟨arranged, hperm, hsame⟩ := h.stale
  have hmap : d.stale.map category = arranged.map category := by
    rw [← List.forall₂_eq_eq_eq, List.forall₂_map_left_iff, List.forall₂_map_right_iff]
    exact hsame.imp hcategory
  rw [hmap]
  exact hperm.map category

/-! ## 3. Comparisons -/

/-- An inspection with the findings of another one in any order. -/
structure Inspection.Rearranges (a b : Inspection) : Prop where
  capabilities : a.capabilities.Perm b.capabilities
  issues : a.issues.Perm b.issues

namespace Comparison

/-- Two comparisons with the same totals, of findings that are alike but for their order. -/
structure Rearranged (dep : String) (matchColumn : Bool) (c c' : Comparison) : Prop where
  capabilities : c.capabilities.Rearranged Capability.same c'.capabilities
  issues : c.issues.Rearranged (Issue.same dep matchColumn) c'.issues
  removedTotals : c.removedTotals = c'.removedTotals
  staleTotals : c.staleTotals = c'.staleTotals
  addedTotals : c.addedTotals = c'.addedTotals
  totals : c.totals = c'.totals

/-- **The totals of a comparison do not depend on the order of the findings of either version.** -/
theorem ofInspections_rearranged (dep : String) (matchColumn : Bool)
    {old new old' new' : Inspection} (hold : old'.Rearranges old) (hnew : new'.Rearranges new) :
    (ofInspections dep matchColumn old' new').Rearranged dep matchColumn
      (ofInspections dep matchColumn old new) := by
  have hcapabilities :=
    diff_rearranged Capability.same_equivalence hold.capabilities hnew.capabilities
  have hissues :=
    diff_rearranged (Issue.same_equivalence dep matchColumn) hold.issues hnew.issues
  have hremoved := Totals.ofFindings_congr (hcapabilities.removed.map _) (hissues.removed.map _)
  have hstale := Totals.ofFindings_congr (hcapabilities.categories Capability.category_eq_of_same)
    (hissues.categories (Issue.category_eq_of_same dep matchColumn))
  have hadded := Totals.ofFindings_congr (hcapabilities.added.map _) (hissues.added.map _)
  refine ⟨hcapabilities, hissues, hremoved, hstale, hadded, ?_⟩
  show Totals.combine _ _ _ = Totals.combine _ _ _
  rw [hremoved, hstale, hadded]

/-- Two unchecked errors of a line, in either order.  The totals are the same, but another record
stands for what is stale. -/
theorem rearranged_twice_on_a_line :
    let old := Inspection.ofFindings "d" "v1" [] [uncheckedAt 2, uncheckedAt 7] []
    let old' := Inspection.ofFindings "d" "v1" [] [uncheckedAt 7, uncheckedAt 2] []
    let new := Inspection.ofFindings "d" "v2" [] [uncheckedAt 3, uncheckedAt 8] []
    let new' := Inspection.ofFindings "d" "v2" [] [uncheckedAt 8, uncheckedAt 3] []
    (ofInspections "d" false old' new').Rearranged "d" false (ofInspections "d" false old new) ∧
      (ofInspections "d" false old' new').issues.stale
        ≠ (ofInspections "d" false old new).issues.stale := by
  intro old old' new new'
  have hold : old'.Rearranges old := ⟨.nil, .swap _ _ _⟩
  have hnew : new'.Rearranges new := ⟨.nil, .swap _ _ _⟩
  refine ⟨ofInspections_rearranged "d" false hold hnew, ?_⟩
  decide +kernel

end Comparison
end UpgradeAudit
