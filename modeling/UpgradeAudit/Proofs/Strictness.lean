/-
# Differences under stricter questions

A question is stricter than another one when each of its answers is an answer of the other.  A
difference made with a stricter question hides nothing that the other shows (`Diff.Reveals`): what
is removed or added for the looser question is so for the stricter one too, in the same order.
Only what lasts may be less.

Both halves come from one fact about what a list is filtered by (`sublist_filter_of_imp`): the
added findings are those removed when the question is asked the other way round, from the new
findings to the old ones.  The converse needs no more than two findings, so **a question is
stricter exactly when its differences hide nothing** (`reveals_iff`).

Asking for columns makes the question about two issues stricter, and leaves the one about two
capabilities as it is (`Comparison.ofInspections_reveals`).
-/
import UpgradeAudit.Proofs.Agreement

namespace UpgradeAudit

variable {α : Type}

/-! ## 1. Differences -/

/-- A difference that hides nothing another one of the same lists shows. -/
structure Diff.Reveals (strict loose : Diff α) : Prop where
  removed : loose.removed.Sublist strict.removed
  added : loose.added.Sublist strict.added
  stale : strict.stale.length ≤ loose.stale.length
  /-- Each old finding that is stale no longer is removed instead. -/
  length : strict.removed.length + strict.stale.length
    = loose.removed.length + loose.stale.length

/-- What is kept for one reason is part of what is kept for a weaker one. -/
theorem sublist_filter_of_imp {keep keep' : α → Bool} {l : List α}
    (h : ∀ a ∈ l, keep a = true → keep' a = true) : (l.filter keep).Sublist (l.filter keep') := by
  have hboth : l.filter keep = (l.filter keep').filter keep := by
    rw [List.filter_filter]
    refine List.filter_congr fun a ha => ?_
    cases hkeep : keep a with
    | false => rfl
    | true => rw [h a ha hkeep]; rfl
  rw [hboth]
  exact List.filter_sublist

section stricter

variable {strict loose : α → α → Bool} {old new : List α}
  (h : ∀ o ∈ old, ∀ n ∈ new, strict o n = true → loose o n = true)

include h

/-- What the stricter question finds an answer for, the other one does too. -/
theorem any_of_stricter : ∀ o ∈ old, new.any (strict o) = true → new.any (loose o) = true := by
  intro o ho hany
  obtain ⟨n, hn, hstrict⟩ := List.any_eq_true.1 hany
  exact List.any_eq_true.2 ⟨n, hn, h o ho n hn hstrict⟩

theorem lasting_sublist_of_stricter : (lasting strict old new).Sublist (lasting loose old new) :=
  sublist_filter_of_imp (any_of_stricter h)

/-- **What has no answer for the looser question has none for the stricter one.** -/
theorem removed_sublist_of_stricter :
    (diff loose old new).removed.Sublist (diff strict old new).removed := by
  refine sublist_filter_of_imp fun o ho hnone => ?_
  have hnot : ¬ new.any (strict o) = true := by
    intro hany
    rw [any_of_stricter h o ho hany] at hnone
    cases hnone
  simpa using hnot

/-- A difference made with a stricter question hides nothing. -/
theorem reveals_of_stricter : (diff strict old new).Reveals (diff loose old new) where
  removed := removed_sublist_of_stricter h
  added := by
    -- From the new findings to the old ones, what was added is removed.
    have hswap : ∀ n ∈ new, ∀ o ∈ old, strict o n = true → loose o n = true := by
      intro n hn o ho
      exact h o ho n hn
    exact @removed_sublist_of_stricter α (fun n o => strict o n) (fun n o => loose o n) new old
      hswap
  stale := by
    rw [length_stale, length_stale]
    exact (lasting_sublist_of_stricter h).length_le
  length := by
    rw [length_removed_add_length_stale, length_removed_add_length_stale]

end stricter

/-- **A question is stricter exactly when its differences hide nothing.** -/
theorem reveals_iff {strict loose : α → α → Bool} :
    (∀ old new, (diff strict old new).Reveals (diff loose old new)) ↔
      ∀ a b, strict a b = true → loose a b = true := by
  constructor
  · intro hreveals a b hstrict
    cases hloose : loose a b with
    | true => rfl
    | false =>
      -- The looser question shows `a` as removed, and the stricter one has an answer for it.
      have hremoved := (hreveals [a] [b]).removed
      have hshown : (diff loose [a] [b]).removed = [a] := by simp [diff, hloose]
      have hhidden : (diff strict [a] [b]).removed = [] := by simp [diff, hstrict]
      rw [hshown, hhidden] at hremoved
      cases hremoved
  · intro h old new
    exact reveals_of_stricter fun o _ n _ => h o n

/-! ## 2. Issues and their columns -/

/-- Issues that are the same with their columns are the same without them. -/
theorem Issue.same_of_columns {dep : String} {a b : Issue} (h : same dep true a b = true) :
    same dep false a b = true := by
  have hagree : a.Agree dep true b := same_eq_true_iff.1 h
  have hloose : a.Agree dep false b := { hagree with column := by simp }
  exact same_eq_true_iff.2 hloose

/-- **Asking for columns never hides a change**: the issues that a comparison shows as removed, or
as added, are shown so with columns too, and the capabilities are compared alike.  This holds of any
two questions one of which is stricter than the other, and of no others. -/
theorem Comparison.ofInspections_reveals (dep : String) (old new : Inspection) :
    (ofInspections dep true old new).issues.Reveals (ofInspections dep false old new).issues ∧
    (ofInspections dep true old new).capabilities
      = (ofInspections dep false old new).capabilities ∧
    ∀ {α : Type} (strict loose : α → α → Bool),
      (∀ old new, (diff strict old new).Reveals (diff loose old new)) ↔
        ∀ a b, strict a b = true → loose a b = true := by
  refine ⟨?_, rfl, fun strict loose => reveals_iff⟩
  exact reveals_iff.2 (fun a b => Issue.same_of_columns) old.issues new.issues

end UpgradeAudit
