/-
# What the totals of a comparison describe

A new finding is stale once for each old finding that it stands for.  So in each category **the
totals of a comparison count as many findings more than the new version has as there are more
old findings with an equal new one than new findings with an equal old one**, and they describe
the new version exactly when both are equally many (`Comparison.totals_describe`).  Two old
findings that differ only in what is not compared, and one new finding equal to both, make two
stale ones.
-/
import Mathlib.Data.List.Forall2
import UpgradeAudit.Comparison
import UpgradeAudit.Proofs.Counts

namespace UpgradeAudit

variable {α : Type}

/-! ## 1. The first answer -/

section first

variable (equal : α → α → Bool)

/-- The new finding answers the old one, and none before it does. -/
def FirstEqual (new : List α) (o n : α) : Prop :=
  ∃ before after, new = before ++ n :: after ∧ equal o n = true ∧
    ∀ earlier ∈ before, equal o earlier = false

variable {equal} {new : List α} {o n : α}

theorem find?_eq_some_iff : new.find? (equal o) = some n ↔ FirstEqual equal new o n := by
  rw [List.find?_eq_some_iff_append]
  constructor
  · rintro ⟨heq, before, after, hnew, hbefore⟩
    exact ⟨before, after, hnew, heq, fun m hm => by simpa using hbefore m hm⟩
  · rintro ⟨before, after, hnew, heq, hbefore⟩
    exact ⟨heq, before, after, hnew, fun m hm => by simp [hbefore m hm]⟩

/-- There is at most one first answer. -/
theorem rightUnique_firstEqual : Relator.RightUnique (FirstEqual equal new) := by
  intro o n n' h h'
  have hsome : some n = some n' := by
    rw [← find?_eq_some_iff.2 h, ← find?_eq_some_iff.2 h']
  exact Option.some.inj hsome

theorem FirstEqual.mem (h : FirstEqual equal new o n) : n ∈ new := by
  obtain ⟨before, after, rfl, -, -⟩ := h
  simp

theorem FirstEqual.holds (h : FirstEqual equal new o n) : equal o n = true := by
  obtain ⟨before, after, -, hequal, -⟩ := h
  exact hequal

end first

/-! ## 2. Findings of both versions -/

/-- The old findings that have an equal new one. -/
def lasting (equal : α → α → Bool) (old new : List α) : List α :=
  old.filter fun o => new.any (equal o)

/-- The new findings that have an equal old one. -/
def met (equal : α → α → Bool) (old new : List α) : List α :=
  new.filter fun n => old.any (equal · n)

/-- How many more old findings of a category have an equal new one than new findings an equal
old one. -/
def surplus (equal : α → α → Bool) (category : α → String) (old new : List α) (c : String) : Int :=
  (((lasting equal old new).map category).count c : Int)
    - ((met equal old new).map category).count c

/-- In each category, as many old findings have an equal new one as new findings an equal old
one. -/
def Balanced (equal : α → α → Bool) (category : α → String) (old new : List α) : Prop :=
  ∀ c, surplus equal category old new c = 0

section parts

variable (equal : α → α → Bool) (category : α → String) (old new : List α)

theorem count_filter_add (keep : α → Bool) (findings : List α) (c : String) :
    ((findings.filter fun a => ! keep a).map category).count c
        + ((findings.filter keep).map category).count c
      = (findings.map category).count c := by
  induction findings with
  | nil => rfl
  | cons a findings ih =>
    cases h : keep a
    · simp only [List.filter_cons, h, Bool.not_false, if_true, Bool.false_eq_true, if_false,
        List.map_cons, List.count_cons, ← ih]
      omega
    · simp only [List.filter_cons, h, Bool.not_true, if_true, Bool.false_eq_true, if_false,
        List.map_cons, List.count_cons, ← ih]
      omega

/-- In each category, an old finding was removed or lasts. -/
theorem count_old (c : String) :
    ((diff equal old new).removed.map category).count c
        + ((lasting equal old new).map category).count c
      = (old.map category).count c :=
  count_filter_add category (fun o => new.any (equal o)) old c

/-- In each category, a new finding was added or was met before. -/
theorem count_new (c : String) :
    ((diff equal old new).added.map category).count c
        + ((met equal old new).map category).count c
      = (new.map category).count c :=
  count_filter_add category (fun n => old.any (equal · n)) new c

theorem length_new :
    (diff equal old new).added.length + (met equal old new).length = new.length := by
  rw [Nat.add_comm, ← List.length_append]
  exact (List.filter_append_perm (fun n => old.any (equal · n)) new).length_eq

/-- What lasts is shown by its first answers. -/
theorem forall₂_stale :
    List.Forall₂ (FirstEqual equal new) (lasting equal old new) (diff equal old new).stale := by
  simp only [lasting, diff]
  induction old with
  | nil => exact .nil
  | cons o old ih =>
    rw [List.filter_cons, List.filterMap_cons]
    cases found : new.find? (equal o) with
    | none =>
      have hnone : new.any (equal o) = false := by simpa using List.find?_eq_none.1 found
      rw [hnone, if_neg Bool.false_ne_true]
      exact ih
    | some n =>
      have hfirst : FirstEqual equal new o n := find?_eq_some_iff.1 found
      have hany : new.any (equal o) = true :=
        List.any_eq_true.2 ⟨n, hfirst.mem, List.find?_some found⟩
      rw [hany, if_pos rfl]
      exact .cons hfirst ih

theorem length_stale : (diff equal old new).stale.length = (lasting equal old new).length :=
  (forall₂_stale equal old new).length_eq.symm

/-- The stale and the added findings are as many as the new ones exactly when as many old ones
last as new ones were met before. -/
theorem length_added_add_length_stale_iff :
    (diff equal old new).added.length + (diff equal old new).stale.length = new.length
      ↔ (lasting equal old new).length = (met equal old new).length := by
  have split := length_new equal old new
  have stale := length_stale equal old new
  omega

variable {equal category}

/-- The stale findings have the categories of the old findings that last. -/
theorem map_stale (h : ∀ a b, equal a b = true → category a = category b) :
    (diff equal old new).stale.map category = (lasting equal old new).map category := by
  refine Eq.symm ?_
  rw [← List.forall₂_eq_eq_eq, List.forall₂_map_left_iff, List.forall₂_map_right_iff]
  exact (forall₂_stale equal old new).imp fun o n hfirst => h o n hfirst.holds

end parts

/-! ## 3. Counts after an upgrade -/

namespace Counts

/-- Counts after an upgrade that exceed those of the new findings, and the change in their
numbers, by so many in each category. -/
structure Current.Exceeds (current : Counts.Current) (old new : List String)
    (excess : String → Int) (excessTotal : Int) : Prop where
  total : current.total = new.length + excessTotal
  counts (c : String) : count c current.counts = new.count c + excess c
  deltas (c : String) : count c current.deltas = (new.count c : Int) - old.count c + excess c

/-- The counts made from the parts of a difference. -/
def ofDiff (category : α → String) (d : Diff α) : Counts.Current :=
  current (ofCategories (d.removed.map category)) (ofCategories (d.stale.map category))
    (ofCategories (d.added.map category))

section ofDiff

variable {equal : α → α → Bool} {category : α → String}

/-- **Counts after an upgrade exceed those of the new findings by the surplus of old ones.** -/
theorem exceeds_ofDiff (h : ∀ a b, equal a b = true → category a = category b)
    (old new : List α) :
    (ofDiff category (diff equal old new)).Exceeds (old.map category) (new.map category)
      (surplus equal category old new)
      ((lasting equal old new).length - (met equal old new).length : Int) := by
  refine ⟨?_, fun c => ?_, fun c => ?_⟩
  · have split := length_new equal old new
    rw [ofDiff, total_current, List.length_map, List.length_map, List.length_map, length_stale]
    omega
  · have split := count_new equal category old new c
    rw [ofDiff, count_current, count_ofCategories, count_ofCategories, map_stale old new h,
      surplus]
    omega
  · have before := count_old equal category old new c
    have after := count_new equal category old new c
    rw [ofDiff, count_deltas, count_ofCategories, count_ofCategories, surplus]
    omega

/-- Balanced findings are equally many in all. -/
theorem length_of_balanced {old new : List α} (balanced : Balanced equal category old new) :
    (lasting equal old new).length = (met equal old new).length := by
  have same (c : String) : ((lasting equal old new).map category).count c
      = ((met equal old new).map category).count c := by
    have := balanced c
    rw [surplus] at this
    omega
  simpa only [List.length_map] using (List.perm_iff_count.2 same).length_eq

/-- They exceed them by nothing exactly when the findings are balanced. -/
theorem exceeds_zero_iff (h : ∀ a b, equal a b = true → category a = category b)
    (old new : List α) :
    (ofDiff category (diff equal old new)).Exceeds (old.map category) (new.map category)
        (fun _ => 0) 0
      ↔ Balanced equal category old new := by
  have exceeds := exceeds_ofDiff h old new
  constructor
  · intro exact c
    have counts := exact.counts c
    rw [exceeds.counts c] at counts
    omega
  · intro balanced
    refine ⟨?_, fun c => ?_, fun c => ?_⟩
    · rw [exceeds.total, length_of_balanced balanced]
      omega
    · rw [exceeds.counts c, balanced c]
    · rw [exceeds.deltas c, balanced c]

end ofDiff
end Counts

/-! ## 4. Comparisons -/

namespace Totals

/-- The counts of the capabilities in totals with changes. -/
def ofCapabilities (totals : Totals) : Counts.Current :=
  ⟨totals.capabilityTotal, totals.capabilities, totals.capabilityDeltas⟩

/-- The counts of the issues in totals with changes. -/
def ofIssues (totals : Totals) : Counts.Current :=
  ⟨totals.issueTotal, totals.issues, totals.issueDeltas⟩

/-- Totals that describe the capabilities and the issues of the new version, and how their
numbers changed. -/
structure Describes (totals : Totals) (old new : Inspection) : Prop where
  capabilities : totals.ofCapabilities.Exceeds (old.capabilities.map Capability.category)
    (new.capabilities.map Capability.category) (fun _ => 0) 0
  issues : totals.ofIssues.Exceeds (old.issues.map Issue.category)
    (new.issues.map Issue.category) (fun _ => 0) 0

end Totals

theorem Capability.category_eq_of_same (a b : Capability) (h : Capability.same a b = true) :
    a.category = b.category := by
  simp only [Capability.same, Bool.and_eq_true, decide_eq_true_eq] at h
  rw [Capability.category, Capability.category, h.1.1.2]

theorem Issue.category_eq_of_same (dep : String) (matchColumn : Bool) (a b : Issue)
    (h : Issue.same dep matchColumn a b = true) : a.category = b.category := by
  simp only [Issue.same, Bool.and_eq_true, decide_eq_true_eq] at h
  rw [Issue.category, Issue.category, h.1.1.1.1.1]

namespace Comparison

/-- **The totals of a comparison exceed the numbers of the new version by the surplus of old
findings, and describe the new version exactly when the findings of both are balanced.**  The
stale and added findings are as many as the new ones exactly when as many old ones have an equal
new one as new ones have an equal old one. -/
theorem totals_describe (dep : String) (matchColumn : Bool) (old new : Inspection) :
    let comparison := ofInspections dep matchColumn old new
    let lastingCapabilities := lasting Capability.same old.capabilities new.capabilities
    let metCapabilities := met Capability.same old.capabilities new.capabilities
    let lastingIssues := lasting (Issue.same dep matchColumn) old.issues new.issues
    let metIssues := met (Issue.same dep matchColumn) old.issues new.issues
    comparison.totals.ofCapabilities.Exceeds (old.capabilities.map Capability.category)
        (new.capabilities.map Capability.category)
        (surplus Capability.same Capability.category old.capabilities new.capabilities)
        (lastingCapabilities.length - metCapabilities.length)
      ∧ comparison.totals.ofIssues.Exceeds (old.issues.map Issue.category)
        (new.issues.map Issue.category)
        (surplus (Issue.same dep matchColumn) Issue.category old.issues new.issues)
        (lastingIssues.length - metIssues.length)
      ∧ (comparison.totals.Describes old new
        ↔ Balanced Capability.same Capability.category old.capabilities new.capabilities
          ∧ Balanced (Issue.same dep matchColumn) Issue.category old.issues new.issues)
      ∧ (comparison.capabilities.added.length + comparison.capabilities.stale.length
          = new.capabilities.length
        ↔ lastingCapabilities.length = metCapabilities.length)
      ∧ (comparison.issues.added.length + comparison.issues.stale.length = new.issues.length
        ↔ lastingIssues.length = metIssues.length) := by
  intro comparison lastingCapabilities metCapabilities lastingIssues metIssues
  have capabilities := Counts.exceeds_zero_iff Capability.category_eq_of_same
    old.capabilities new.capabilities
  have issues := Counts.exceeds_zero_iff (Issue.category_eq_of_same dep matchColumn)
    old.issues new.issues
  refine ⟨Counts.exceeds_ofDiff Capability.category_eq_of_same _ _,
    Counts.exceeds_ofDiff (Issue.category_eq_of_same dep matchColumn) _ _, ?_,
    length_added_add_length_stale_iff _ _ _, length_added_add_length_stale_iff _ _ _⟩
  exact ⟨fun described => ⟨capabilities.1 described.capabilities, issues.1 described.issues⟩,
    fun balanced => ⟨capabilities.2 balanced.1, issues.2 balanced.2⟩⟩

/-- An unchecked error at a column of one line, as a linter reports it for each call there. -/
def uncheckedAt (column : Int) : Issue where
  linter := "errcheck"
  text := "unchecked error"
  position := ⟨"a.go", 3, column, 0⟩
  sourceLines := ["f(); g()"]

/-- Of two unchecked errors on a line one was fixed; the totals still count two. -/
theorem not_describes_of_twice_on_a_line :
    let old := Inspection.ofFindings "d" "v1" [] [uncheckedAt 2, uncheckedAt 7] []
    let new := Inspection.ofFindings "d" "v2" [] [uncheckedAt 2] []
    ¬ (ofInspections "d" false old new).totals.Describes old new := by
  intro old new described
  have counted : (ofInspections "d" false old new).totals.issueTotal = 2 := by decide +kernel
  have claimed : (ofInspections "d" false old new).totals.issueTotal = 1 + 0 :=
    described.issues.total
  rw [counted] at claimed
  exact absurd claimed (by decide)

end Comparison
end UpgradeAudit
