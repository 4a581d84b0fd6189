/-
# Joined failures and their causes

Joining takes failures apart, one level deep, and ties all their parts up again (`join_eq_tie`).
It keeps every leaf, once and in order (`leaves_join`), whichever way the failures were joined
before, and so it keeps every cause (`causes_join`).  What a failure reports can be read off its
causes, and a failure that a fatal one was joined into is fatal (`isFatal_of_mem_causes`).
-/
import UpgradeAudit.Failure

namespace UpgradeAudit.Failure

/-! ## 1. Leaves -/

mutual

/-- The single failures that a failure is joined of, in order. -/
def leaves : Failure → List Failure
  | single cause notes => [.single cause notes]
  | joined failures _ => leavesOf failures

/-- The single failures that several failures are joined of, in order. -/
def leavesOf : List Failure → List Failure
  | [] => []
  | f :: rest => leaves f ++ leavesOf rest

end

theorem leavesOf_append (fs gs : List Failure) :
    leavesOf (fs ++ gs) = leavesOf fs ++ leavesOf gs := by
  induction fs with
  | nil => rfl
  | cons f fs ih => rw [List.cons_append, leavesOf, leavesOf, ih, List.append_assoc]

theorem leavesOf_eq_flatMap (fs : List Failure) : leavesOf fs = fs.flatMap leaves := by
  induction fs with
  | nil => rfl
  | cons f fs ih => rw [leavesOf, ih, List.flatMap_cons]

mutual

/-- The causes of a failure are those of its leaves. -/
theorem causes_eq_leaves : ∀ f : Failure, f.causes = f.leaves.flatMap causes
  | single cause notes => by simp [causes, leaves]
  | joined failures notes => by simpa [causes, leaves] using causesOf_eq_leaves failures

theorem causesOf_eq_leaves : ∀ fs : List Failure, causesOf fs = (leavesOf fs).flatMap causes
  | [] => rfl
  | f :: rest => by
    rw [causesOf, leavesOf, List.flatMap_append, ← causes_eq_leaves f, ← causesOf_eq_leaves rest]

end

/-! ## 2. Joining -/

/-- What a failure brings into a join has its leaves. -/
theorem leavesOf_parts (f : Failure) : leavesOf f.parts = f.leaves := by
  cases f with
  | single cause notes => simp [parts, leavesOf, leaves]
  | joined failures notes => rfl

/-- What a failure brings into a join has its causes. -/
theorem causesOf_parts (f : Failure) : causesOf f.parts = f.causes := by
  rw [causesOf_eq_leaves, leavesOf_parts, ← causes_eq_leaves]

theorem parts_ne_nil {f : Failure} (h : f.leaves ≠ []) : f.parts ≠ [] := by
  rintro hnil
  rw [← leavesOf_parts, hnil] at h
  exact h rfl

/-- Only a failure that is joined of nothing brings nothing into a join. -/
theorem parts_eq_nil_iff {f : Failure} : f.parts = [] ↔ ∃ notes, f = .joined [] notes := by
  cases f <;> simp [parts]

/-- The failures that are there. -/
def present (fs : List (Option Failure)) : List Failure := fs.filterMap id

/-- Failures tied up as one, when there are any; a lone one stays as it is. -/
def tie : List Failure → Option Failure
  | [] => none
  | [f] => some f
  | fs => some (.joined fs [])

/-- **Failures are taken apart, one level deep, and all their parts are tied up.** -/
theorem join_eq_tie (fs : List (Option Failure)) : join fs = tie ((present fs).flatMap parts) := by
  have hparts : fs.flatMap (fun f => (f.map parts).getD []) = (present fs).flatMap parts := by
    induction fs with
    | nil => rfl
    | cons f fs ih =>
      rw [List.flatMap_cons, ih]
      cases f <;> rfl
  rw [join, hparts]
  rfl

theorem tie_eq_none_iff {fs : List Failure} : tie fs = none ↔ fs = [] := by
  cases fs with
  | nil => simp [tie]
  | cons f fs => cases fs <;> simp [tie]

theorem leaves_tie (fs : List Failure) : (tie fs).toList.flatMap leaves = fs.flatMap leaves := by
  cases fs with
  | nil => rfl
  | cons f fs =>
    cases fs with
    | nil => rfl
    | cons g fs => simp [tie, leaves, leavesOf_eq_flatMap]

/-- **Nothing comes of a join only where nothing was brought into it.** -/
theorem join_eq_none_iff {fs : List (Option Failure)} :
    join fs = none ↔ ∀ f ∈ present fs, ∃ notes, f = .joined [] notes := by
  simp only [join_eq_tie, tie_eq_none_iff, List.flatMap_eq_nil_iff, parts_eq_nil_iff]

/-- **Joining keeps every leaf**, once and in order. -/
theorem leaves_join (fs : List (Option Failure)) :
    (join fs).toList.flatMap leaves = (present fs).flatMap leaves := by
  have hparts (f : Failure) : f.parts.flatMap leaves = f.leaves := by
    rw [← leavesOf_eq_flatMap, leavesOf_parts]
  simp only [join_eq_tie, leaves_tie, List.flatMap_assoc, hparts]

/-- Two failures with parts are joined to a failure with the parts of both. -/
theorem join_pair {f g : Failure} (hf : f.parts ≠ []) (hg : g.parts ≠ []) :
    join [some f, some g] = some (.joined (f.parts ++ g.parts) []) := by
  obtain ⟨f₁, fs, hfs⟩ := List.exists_cons_of_ne_nil hf
  obtain ⟨g₁, gs, hgs⟩ := List.exists_cons_of_ne_nil hg
  unfold join
  cases fs <;> simp [hfs, hgs]

/-- The causes of failures some of which are absent. -/
def causesOfPresent (fs : List (Option Failure)) : List Cause :=
  fs.flatMap fun f => (f.map causes).getD []

theorem causesOfPresent_eq (fs : List (Option Failure)) :
    causesOfPresent fs = (present fs).flatMap causes := by
  induction fs with
  | nil => rfl
  | cons f fs ih =>
    have split : causesOfPresent (f :: fs) = (f.map causes).getD [] ++ causesOfPresent fs :=
      List.flatMap_cons
    rw [split, ih]
    cases f <;> rfl

/-- **Joining keeps every cause, in order.** -/
theorem causes_join (fs : List (Option Failure)) :
    ((join fs).map causes).getD [] = causesOfPresent fs := by
  have hleaves (gs : List Failure) : gs.flatMap causes = (gs.flatMap leaves).flatMap causes := by
    simp only [List.flatMap_assoc, ← causes_eq_leaves]
  have hjoin : ((join fs).map causes).getD [] = (join fs).toList.flatMap causes := by
    cases join fs <;> simp
  rw [hjoin, causesOfPresent_eq, hleaves, leaves_join, ← hleaves]

/-! ## 3. Notes and kinds -/

@[simp] theorem causes_addNote (note : String) (f : Failure) :
    (f.addNote note).causes = f.causes := by
  cases f <;> rfl

@[simp] theorem isOfAudit_addNote (note : String) (f : Failure) :
    (f.addNote note).isOfAudit = f.isOfAudit := by
  cases f <;> rfl

@[simp] theorem isCancellation_addNote (note : String) (f : Failure) :
    (f.addNote note).isCancellation = f.isCancellation := by
  cases f <;> rfl

@[simp] theorem notes_addNote (note : String) (f : Failure) :
    (f.addNote note).notes = f.notes ++ [note] := by
  cases f <;> rfl

@[simp] theorem isFatal_addNote (note : String) (f : Failure) :
    (f.addNote note).isFatal = f.isFatal := by
  rw [isFatal_iff_causes, isFatal_iff_causes, causes_addNote]

theorem isFatal_of_mem_causes {f : Failure} {c : Cause} (h : c ∈ f.causes)
    (hc : c.isFatal = true) : f.isFatal = true := by
  rw [isFatal_iff_causes]
  exact List.any_eq_true.2 ⟨c, h, hc⟩

theorem cancelled_mem_causes {f : Failure} (h : f.isCancellation = true) :
    .cancelled ∈ f.causes := by
  cases f with
  | joined => simp [isCancellation] at h
  | single cause notes =>
    obtain rfl : cause = .cancelled := by simpa [isCancellation] using h
    exact List.mem_cons_self

/-- A cancellation is nothing that an audit records. -/
theorem isOfAudit_of_isCancellation {f : Failure} (h : f.isCancellation = true) :
    f.isOfAudit = false := by
  cases f with
  | joined => simp [isCancellation] at h
  | single cause notes =>
    obtain rfl : cause = .cancelled := by simpa [isCancellation] using h
    rfl

/-- Whether a failure ends a run, or is recorded for the one dependency that met it. -/
def Stops (f : Failure) : Prop := f.isOfAudit = false ∨ f.isFatal = true

theorem stops_iff {f : Failure} : (! f.isOfAudit || f.isFatal) = true ↔ f.Stops := by
  simp [Stops]

end UpgradeAudit.Failure
