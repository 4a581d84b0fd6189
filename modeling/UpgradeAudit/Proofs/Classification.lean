/-
# What a difference says of each finding

A difference of two lists of findings may be made with any question that is asked of an old and a
new finding.  It need not be an equality: findings may have several answers, and the answer may
change when the two are swapped.

Whatever the question is, each old finding is either removed or lasts, and each new one is either
added or was met before, and both lists can be put together again from their two parts
(`Interleaved`).  A finding that lasts is shown by the first new finding that answers it
(`FirstEqual`).  These facts leave nothing open: **the difference is the only one that classifies
the findings in this way** (`eq_diff_iff`).
-/
import Mathlib.Data.List.Forall2
import UpgradeAudit.Proofs.Comparisons

namespace UpgradeAudit

variable {α : Type}

/-! ## 1. Lists that are put together in order -/

/-- A list that is put together from two lists and keeps the order of each. -/
inductive Interleaved : List α → List α → List α → Prop where
  | nil : Interleaved [] [] []
  | left {a : α} {xs ys zs : List α} (h : Interleaved xs ys zs) :
      Interleaved (a :: xs) ys (a :: zs)
  | right {a : α} {xs ys zs : List α} (h : Interleaved xs ys zs) :
      Interleaved xs (a :: ys) (a :: zs)

namespace Interleaved

/-- A list is put together from what is kept of it and from what is not. -/
theorem filter (keep : α → Bool) (zs : List α) :
    Interleaved (zs.filter fun a => ! keep a) (zs.filter keep) zs := by
  induction zs with
  | nil => exact .nil
  | cons a zs ih =>
    cases h : keep a with
    | false =>
      rw [List.filter_cons_of_pos (by simp [h]), List.filter_cons_of_neg (by simp [h])]
      exact ih.left
    | true =>
      rw [List.filter_cons_of_neg (by simp [h]), List.filter_cons_of_pos (by simp [h])]
      exact ih.right

/-- The two lists are known when it is known of each member which of them it is from. -/
theorem eq_filter {keep : α → Bool} {xs ys zs : List α} (h : Interleaved xs ys zs)
    (hxs : ∀ x ∈ xs, keep x = false) (hys : ∀ y ∈ ys, keep y = true) :
    xs = zs.filter fun a => ! keep a := by
  induction h with
  | nil => rfl
  | @left a xs ys zs _ ih =>
    have ha : keep a = false := hxs a List.mem_cons_self
    rw [List.filter_cons_of_pos (by simp [ha])]
    exact congrArg (a :: ·) (ih (fun x hx => hxs x (List.mem_cons_of_mem a hx)) hys)
  | @right a xs ys zs _ ih =>
    have ha : keep a = true := hys a List.mem_cons_self
    rw [List.filter_cons_of_neg (by simp [ha])]
    exact ih hxs fun y hy => hys y (List.mem_cons_of_mem a hy)

end Interleaved

/-! ## 2. Differences -/

/-- What a difference says of the findings of two lists. -/
structure Diff.Classifies (equal : α → α → Bool) (old new : List α) (d : Diff α) : Prop where
  /-- Each old finding was removed or lasts. -/
  oldFindings : Interleaved d.removed (lasting equal old new) old
  /-- What lasts is shown by its first answer, in the order of the old findings. -/
  stale : List.Forall₂ (FirstEqual equal new) (lasting equal old new) d.stale
  /-- Each new finding was added or met before. -/
  newFindings : Interleaved d.added (met equal old new) new
  removed : ∀ o ∈ d.removed, ∀ n ∈ new, equal o n = false
  added : ∀ n ∈ d.added, ∀ o ∈ old, equal o n = false
  length : d.removed.length + d.stale.length = old.length

variable (equal : α → α → Bool) (old new : List α)

theorem classifies_diff : (diff equal old new).Classifies equal old new where
  oldFindings := .filter (fun o => new.any (equal o)) old
  stale := forall₂_stale equal old new
  newFindings := .filter (fun n => old.any (equal · n)) new
  removed := by
    intro o ho n hn
    obtain ⟨-, hnone⟩ := List.mem_filter.1 ho
    simp only [Bool.not_eq_true', List.any_eq_false, Bool.not_eq_true] at hnone
    exact hnone n hn
  added := by
    intro n hn o ho
    obtain ⟨-, hnone⟩ := List.mem_filter.1 hn
    simp only [Bool.not_eq_true', List.any_eq_false, Bool.not_eq_true] at hnone
    exact hnone o ho
  length := length_removed_add_length_stale equal old new

/-- **A difference is told by what it says of each finding**, for any question and any two lists. -/
theorem eq_diff_iff (d : Diff α) : d = diff equal old new ↔ d.Classifies equal old new := by
  constructor
  · rintro rfl
    exact classifies_diff equal old new
  · intro h
    have hremoved : d.removed = (diff equal old new).removed := by
      refine h.oldFindings.eq_filter (fun o ho => ?_) fun o ho => (List.mem_filter.1 ho).2
      simpa using h.removed o ho
    have hadded : d.added = (diff equal old new).added := by
      refine h.newFindings.eq_filter (fun n hn => ?_) fun n hn => (List.mem_filter.1 hn).2
      simpa using h.added n hn
    have hstale : d.stale = (diff equal old new).stale :=
      List.right_unique_forall₂' rightUnique_firstEqual h.stale (forall₂_stale equal old new)
    exact Diff.ext hremoved hstale hadded

end UpgradeAudit
