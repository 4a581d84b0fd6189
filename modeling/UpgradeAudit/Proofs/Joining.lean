/-
# Joining in groups

Joining undoes one level of joining only.  Failures that are nested deeper lose one more level with
every join they pass through, so it shows in which groups they were joined.  It does not when every
failure is flat: a single one, or at least two single ones joined.  Flat failures joined are flat
again (`flat_of_join`), and **joined in groups they come to the same as joined at once**
(`join_groups`).

Whatever was joined, every leaf of it is kept, once and in order, and the run must end for it
exactly when it must for one of its members (`isFatal_join`).
-/
import UpgradeAudit.Proofs.Failures

namespace UpgradeAudit.Failure

/-! ## 1. Failures that end the run -/

/-- A failure must end the run when one of its leaves must. -/
theorem isFatal_iff_leaves (f : Failure) : f.isFatal = f.leaves.any isFatal := by
  have hcause : isFatal = fun g : Failure => g.causes.any Cause.isFatal :=
    funext isFatal_iff_causes
  rw [isFatal_iff_causes, causes_eq_leaves, List.any_flatMap, hcause]

/-- **What was joined must end the run exactly when one of its members must.** -/
theorem isFatal_join (fs : List (Option Failure)) :
    (join fs).any isFatal = (present fs).any isFatal := by
  have hleaves (gs : List Failure) : gs.any isFatal = (gs.flatMap leaves).any isFatal := by
    simp only [List.any_flatMap, ← isFatal_iff_leaves]
  have hjoin : (join fs).any isFatal = (join fs).toList.any isFatal := by
    cases join fs <;> simp
  rw [hjoin, hleaves, leaves_join, ← hleaves]

/-! ## 2. Flat failures -/

/-- A failure that was not joined of others. -/
def IsSingle : Failure → Prop
  | single .. => True
  | joined .. => False

/-- A failure that is single, or joined of at least two single ones. -/
def Flat : Failure → Prop
  | single .. => True
  | joined failures _ => 2 ≤ failures.length ∧ ∀ f ∈ failures, f.IsSingle

/-- Failures that are flat, as far as they are there. -/
def AllFlat (fs : List (Option Failure)) : Prop := ∀ f ∈ present fs, f.Flat

instance : DecidablePred IsSingle := fun
  | single .. => inferInstanceAs (Decidable True)
  | joined .. => inferInstanceAs (Decidable False)

instance : DecidablePred Flat := fun
  | single .. => inferInstanceAs (Decidable True)
  | joined .. => inferInstanceAs (Decidable (_ ∧ _))

instance (fs : List (Option Failure)) : Decidable (AllFlat fs) := List.decidableBAll _ _

theorem IsSingle.leaves {f : Failure} (h : f.IsSingle) : f.leaves = [f] := by
  cases f with
  | single cause notes => rfl
  | joined failures notes => cases h

theorem IsSingle.parts {f : Failure} (h : f.IsSingle) : f.parts = [f] := by
  cases f with
  | single cause notes => rfl
  | joined failures notes => cases h

theorem IsSingle.flat {f : Failure} (h : f.IsSingle) : f.Flat := by
  cases f with
  | single cause notes => exact h
  | joined failures notes => cases h

theorem Flat.isSingle_of_mem_parts {f : Failure} (h : f.Flat) : ∀ g ∈ f.parts, g.IsSingle := by
  cases f with
  | single cause notes => simp [Failure.parts, IsSingle]
  | joined failures notes => exact h.2

section single

variable {fs : List Failure} (h : ∀ f ∈ fs, f.IsSingle)

include h

/-- Single failures are their own leaves. -/
theorem leavesOf_of_single : leavesOf fs = fs := by
  induction fs with
  | nil => rfl
  | cons f fs ih =>
    rw [leavesOf, (h f List.mem_cons_self).leaves, ih fun g hg => h g (List.mem_cons_of_mem f hg)]
    rfl

/-- Single failures that were tied up are taken apart again. -/
theorem parts_tie : (tie fs).toList.flatMap parts = fs := by
  cases fs with
  | nil => rfl
  | cons f fs =>
    cases fs with
    | nil => simp [tie, (h f List.mem_cons_self).parts]
    | cons g fs => simp [tie, parts]

/-- Single failures tied up are flat. -/
theorem flat_tie : ∀ f ∈ tie fs, f.Flat := by
  cases fs with
  | nil => simp [tie]
  | cons f fs =>
    cases fs with
    | nil => simpa [tie] using (h f List.mem_cons_self).flat
    | cons g fs =>
      rintro f' hf'
      obtain rfl := Option.some.inj hf'
      exact ⟨by simp, h⟩

end single

/-! ## 3. Groups -/

section flat

variable {fs : List (Option Failure)}

theorem AllFlat.isSingle_of_mem (h : AllFlat fs) :
    ∀ g ∈ (present fs).flatMap parts, g.IsSingle := by
  intro g hg
  obtain ⟨f, hf, hmem⟩ := List.mem_flatMap.1 hg
  exact (h f hf).isSingle_of_mem_parts g hmem

/-- Flat failures that were joined are flat. -/
theorem flat_of_join (h : AllFlat fs) : ∀ f ∈ join fs, f.Flat := by
  rw [join_eq_tie]
  exact flat_tie h.isSingle_of_mem

/-- Flat failures that were joined bring into another join what they brought into the first. -/
theorem parts_join (h : AllFlat fs) :
    (join fs).toList.flatMap parts = (present fs).flatMap parts := by
  rw [join_eq_tie]
  exact parts_tie h.isSingle_of_mem

/-- A lone leaf stays as it is. -/
theorem join_of_lone_leaf (h : AllFlat fs) {f : Failure} (hf : (present fs).flatMap leaves = [f]) :
    join fs = some f := by
  have hparts : (present fs).flatMap parts = [f] := by
    have hleaves := leavesOf_of_single h.isSingle_of_mem
    rw [leavesOf_eq_flatMap, List.flatMap_assoc] at hleaves
    simp only [← leavesOf_eq_flatMap, leavesOf_parts] at hleaves
    rw [← hleaves, leavesOf_eq_flatMap, hf]
  rw [join_eq_tie, hparts]
  rfl

end flat

/-- **Flat failures joined in groups come to the same as joined at once.** -/
theorem join_groups {groups : List (List (Option Failure))} (h : ∀ fs ∈ groups, AllFlat fs) :
    join (groups.map join) = join groups.flatten := by
  have hparts : (present (groups.map join)).flatMap parts
      = (present groups.flatten).flatMap parts := by
    induction groups with
    | nil => rfl
    | cons fs groups ih =>
      have hfirst := parts_join (h fs List.mem_cons_self)
      have hrest := ih fun gs hgs => h gs (List.mem_cons_of_mem fs hgs)
      have hcons : present (join fs :: groups.map join)
          = (join fs).toList ++ present (groups.map join) := by
        rw [present, present, List.filterMap_cons]
        cases join fs <;> rfl
      have happend : present (fs ++ groups.flatten) = present fs ++ present groups.flatten :=
        List.filterMap_append
      rw [List.map_cons, List.flatten_cons, hcons, happend, List.flatMap_append,
        List.flatMap_append, hfirst, hrest]
  rw [join_eq_tie, join_eq_tie, hparts]

/-- **Joining flattens and keeps everything.**  Every leaf is kept, once and in order, and nothing
comes of a join only where nothing was brought into it; the run must end exactly when it must for
a member.  From flat failures comes a flat one, which is the leaf itself where there is only one,
and in groups they are joined as they are at once. -/
theorem join_flattens (fs : List (Option Failure)) :
    (join fs).toList.flatMap leaves = (present fs).flatMap leaves ∧
    (join fs = none ↔ ∀ f ∈ present fs, ∃ notes, f = .joined [] notes) ∧
    (join fs).any isFatal = (present fs).any isFatal ∧
    (AllFlat fs →
      AllFlat [join fs] ∧
      (∀ f, (present fs).flatMap leaves = [f] → join fs = some f) ∧
      ∀ gs, AllFlat gs → join [join fs, join gs] = join (fs ++ gs)) := by
  refine ⟨leaves_join fs, join_eq_none_iff, isFatal_join fs, fun h => ⟨?_, ?_, ?_⟩⟩
  · intro f hf
    obtain ⟨joint, hmem, hf⟩ := List.mem_filterMap.1 hf
    obtain rfl := List.mem_singleton.1 hmem
    exact flat_of_join h f hf
  · intro f hf
    exact join_of_lone_leaf h hf
  · intro gs hgs
    have hboth : ∀ group ∈ [fs, gs], AllFlat group := by
      simpa using ⟨h, hgs⟩
    simpa using join_groups hboth

/-- A failure to pin, and a failed analysis joined with a file that was not put back. -/
theorem join_flattens_unrestored :
    let pin : Failure := .single (.pin "go get failed") ["while inspecting d@v1"]
    let analysis : Failure := .ofCause (.analyzer "capslock" "no output")
    let restore : Failure := .ofCause (.restore "go.sum" "disk full")
    AllFlat [none, some pin] ∧ AllFlat [some (.joined [analysis, restore] []), none] ∧
      join [join [none, some pin], join [some (.joined [analysis, restore] []), none]]
        = some (.joined [pin, analysis, restore] []) := by
  intro pin analysis restore
  have hpin : AllFlat [none, some pin] := by decide
  have hboth : AllFlat [some (.joined [analysis, restore] []), none] := by decide
  refine ⟨hpin, hboth, ?_⟩
  rw [((join_flattens [none, some pin]).2.2.2 hpin).2.2 _ hboth]
  rfl

end UpgradeAudit.Failure
