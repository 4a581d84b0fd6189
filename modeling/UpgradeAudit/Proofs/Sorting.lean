/-
# Findings in their order

The orders of issues and of capabilities are transitive and tell of any two which comes first, or
that neither does.  So sorting makes a list that ascends, holds the same findings, and keeps every
part that was in order already as it was (`StableSort`).
-/
import UpgradeAudit.Capability
import UpgradeAudit.Issue
import UpgradeAudit.Proofs.Text.Order

namespace UpgradeAudit

variable {α β : Type}

/-! ## 1. Stable sorting -/

/-- A list in order, made of another one by moving only what was out of order. -/
structure StableSort (order : α → α → Ordering) (l sorted : List α) : Prop where
  perm : sorted.Perm l
  ascending : sorted.Pairwise fun a b => (order a b).isLE = true
  stable : ∀ part : List α, part.Pairwise (fun a b => (order a b).isLE = true) →
    part.Sublist l → part.Sublist sorted

theorem stableSort_mergeSort (order : α → α → Ordering) [Std.TransCmp order] (l : List α) :
    StableSort order l (l.mergeSort fun a b => (order a b).isLE) := by
  have trans (a b c : α) (hab : (order a b).isLE = true) (hbc : (order b c).isLE = true) :
      (order a c).isLE = true := Std.TransCmp.isLE_trans hab hbc
  exact ⟨List.mergeSort_perm _ _, List.pairwise_mergeSort trans (isLE_total order) l,
    fun part hpart hsub => List.sublist_mergeSort trans (isLE_total order) hpart hsub⟩

/-! ## 2. Issues -/

/-- What is ordered by a part of it. -/
theorem transCmp_on (order : β → β → Ordering) [Std.TransCmp order] (part : α → β) :
    Std.TransCmp fun a b => order (part a) (part b) where
  eq_swap := Std.OrientedCmp.eq_swap
  isLE_trans := Std.TransCmp.isLE_trans

instance : Std.TransCmp Issue.order := by
  have linter := transCmp_on Text.order Issue.linter
  have file := transCmp_on Text.order fun i : Issue => i.position.filename
  have line := transCmp_on (compare : Int → Int → Ordering) fun i : Issue => i.position.line
  have column := transCmp_on (compare : Int → Int → Ordering) fun i : Issue => i.position.column
  exact inferInstanceAs (Std.TransCmp (compareLex (fun a b : Issue => Text.order a.linter b.linter)
    (compareLex (fun a b : Issue => Text.order a.position.filename b.position.filename)
      (compareLex (fun a b : Issue => compare a.position.line b.position.line)
        fun a b : Issue => compare a.position.column b.position.column))))

/-- **Issues are sorted stably.** -/
theorem Issue.stableSort (issues : List Issue) : StableSort Issue.order issues (sort issues) :=
  stableSort_mergeSort Issue.order issues

/-! ## 3. Capabilities -/

instance : Std.TransCmp Capability.hopOrder := by
  have name := transCmp_on Text.order Hop.name
  have file := transCmp_on Text.order fun h : Hop => (h.site.map CallSite.filename).getD ""
  have line := transCmp_on (compare : Int → Int → Ordering) fun h : Hop =>
    (h.site.bind CallSite.line).getD (-1)
  have column := transCmp_on (compare : Int → Int → Ordering) fun h : Hop =>
    (h.site.bind CallSite.column).getD (-1)
  exact inferInstanceAs (Std.TransCmp (compareLex (fun a b : Hop => Text.order a.name b.name)
    (compareLex (fun a b : Hop => Text.order ((a.site.map CallSite.filename).getD "")
        ((b.site.map CallSite.filename).getD ""))
      (compareLex (fun a b : Hop => compare ((a.site.bind CallSite.line).getD (-1))
          ((b.site.bind CallSite.line).getD (-1)))
        fun a b : Hop => compare ((a.site.bind CallSite.column).getD (-1))
          ((b.site.bind CallSite.column).getD (-1))))))

instance : Std.TransCmp Capability.order := by
  have length := transCmp_on (compare : Nat → Nat → Ordering) fun c : Capability => c.path.length
  have kind := transCmp_on Text.order fun c : Capability => c.kind.code
  have dir := transCmp_on Text.order Capability.packageDir
  have type := transCmp_on Text.order fun c : Capability => c.type.code
  have path := transCmp_on (List.compareLex Capability.hopOrder) Capability.path
  exact inferInstanceAs (Std.TransCmp (compareLex
    (fun a b : Capability => compare a.path.length b.path.length)
    (compareLex (fun a b : Capability => Text.order a.kind.code b.kind.code)
      (compareLex (fun a b : Capability => Text.order a.packageDir b.packageDir)
        (compareLex (fun a b : Capability => Text.order a.type.code b.type.code)
          fun a b : Capability => List.compareLex Capability.hopOrder a.path b.path)))))

/-- **Capabilities are sorted stably.** -/
theorem Capability.stableSort (caps : List Capability) :
    StableSort Capability.order caps (sort caps) :=
  stableSort_mergeSort Capability.order caps

/-- What was sorted stays as it is. -/
theorem Capability.sort_sort (caps : List Capability) : sort (sort caps) = sort caps :=
  List.mergeSort_of_pairwise (stableSort caps).ascending
end UpgradeAudit
