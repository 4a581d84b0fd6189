/-
# The dependencies that an upgrade moves

The changed dependencies of two manifests are an exact patch (`Patches`): each path is named once,
in order, and it is named exactly when it was not excluded and the new manifest requires it at a
version that the old one did not have for it.  With the changes applied, and without the paths that
are not required any more, the old requirements are the new ones on every path that was not
excluded (`Patches.rebuilt`).

Nothing else has these properties, because a change is told by its path (`Patches.unique`).  And no
change is lost on the way: one from the first to the last of three manifests is seen on one of the
two steps between them, since the version that the second one requires differs from one of the
other two (`mem_or_mem_of_changed`).
-/
import UpgradeAudit.Change
import UpgradeAudit.Proofs.Sorting
import UpgradeAudit.Proofs.Tables

namespace UpgradeAudit

/-! ## 1. Changes and patches -/

/-- A change says what the old and the new requirements have for its path, and that it is not the
same. -/
structure ChangedDependency.Tells (old new : Requirements) (change : ChangedDependency) :
    Prop where
  newVersion : Table.get? change.path new = some change.newVersion
  oldVersion : Table.get? change.path old = change.oldVersion
  moved : change.oldVersion ≠ some change.newVersion

/-- Requirements with the new version of each changed dependency. -/
def withChanges (requirements : Requirements) (changes : List ChangedDependency) : Requirements :=
  Table.setAll requirements (changes.map fun change => (change.path, change.newVersion))

/-- The requirements of those paths that `other` requires too. -/
def requiredBy (other requirements : Requirements) : Requirements :=
  requirements.filter fun entry => entry.1 ∈ Table.keys other

/-- Changes that lead from the old requirements to the new ones on all paths but the excluded
ones. -/
structure Patches (old new : Requirements) (excluded : List String)
    (changes : List ChangedDependency) : Prop where
  /-- Each path once, in order. -/
  ascending : Text.Ascending (changes.map ChangedDependency.path)
  listed (change : ChangedDependency) :
    change ∈ changes ↔ change.path ∉ excluded ∧ change.Tells old new

namespace Patches

variable {old new : Requirements} {excluded : List String} {changes : List ChangedDependency}
  (h : Patches old new excluded changes)

include h

/-- A path is named when it is required at a version that it was not required at before. -/
theorem named_iff (path : String) :
    path ∈ changes.map ChangedDependency.path ↔ path ∉ excluded ∧
      ∃ version, Table.get? path new = some version ∧ Table.get? path old ≠ some version := by
  constructor
  · intro hpath
    obtain ⟨change, hchange, rfl⟩ := List.mem_map.1 hpath
    obtain ⟨hkept, htells⟩ := (h.listed change).1 hchange
    exact ⟨hkept, change.newVersion, htells.newVersion, htells.oldVersion ▸ htells.moved⟩
  · rintro ⟨hkept, version, hnew, hold⟩
    refine List.mem_map.2 ⟨⟨path, version, Table.get? path old⟩, (h.listed _).2 ⟨hkept, ?_⟩, rfl⟩
    exact ⟨hnew, rfl, hold⟩

/-- A change is of a new dependency exactly when its path was not required before. -/
theorem isNew_iff {change : ChangedDependency} (hchange : change ∈ changes) :
    change.isNew = true ↔ change.path ∉ Table.keys old := by
  have htells := ((h.listed change).1 hchange).2
  rw [ChangedDependency.isNew, Option.isNone_iff_eq_none, ← htells.oldVersion,
    Table.get?_eq_none_iff]

/-- What a path is required at after the changes. -/
theorem get?_withChanges {path : String} (hpath : path ∉ excluded) {version : String}
    (hnew : Table.get? path new = some version) :
    Table.get? path (withChanges old changes) = some version := by
  by_cases hold : Table.get? path old = some version
  · -- The path is not named, and keeps the version that it has.
    rw [withChanges, Table.get?_setAll_of_ne, hold]
    intro entry hentry heq
    obtain ⟨change, hchange, rfl⟩ := List.mem_map.1 hentry
    obtain ⟨-, version', hnew', hold'⟩ :=
      (h.named_iff path).1 (List.mem_map.2 ⟨change, hchange, heq⟩)
    rw [hnew] at hnew'
    exact hold' (Option.some.inj hnew' ▸ hold)
  · refine Table.get?_setAll_of_last (Table.last_of_mem ?_ ?_) old
    · have htells : ChangedDependency.Tells old new ⟨path, version, Table.get? path old⟩ :=
        ⟨hnew, rfl, hold⟩
      exact List.mem_map.2 ⟨_, (h.listed _).2 ⟨hpath, htells⟩, rfl⟩
    · intro version' hentry
      obtain ⟨change, hchange, heq⟩ := List.mem_map.1 hentry
      obtain ⟨rfl, rfl⟩ := Prod.mk.inj heq
      have htells := ((h.listed change).1 hchange).2
      exact Option.some.inj (htells.newVersion.symm.trans hnew)

/-- **With the changes, and without what is not required any more, the old requirements are the new
ones.** -/
theorem rebuilt {path : String} (hpath : path ∉ excluded) :
    Table.get? path (requiredBy new (withChanges old changes)) = Table.get? path new := by
  have hkept := Table.get?_filter (fun key => decide (key ∈ Table.keys new)) path
    (withChanges old changes)
  rw [requiredBy, hkept]
  cases hnew : Table.get? path new with
  | none => rw [if_neg (by simpa using Table.get?_eq_none_iff.1 hnew)]
  | some version =>
    have hkey : path ∈ Table.keys new :=
      List.mem_map_of_mem (f := Prod.fst) (Table.mem_of_get? hnew)
    rw [if_pos (by simpa using hkey), h.get?_withChanges hpath hnew]

/-- There is one patch only. -/
theorem unique {changes' : List ChangedDependency} (h' : Patches old new excluded changes') :
    changes' = changes := by
  refine Text.eq_of_mem_iff_of_ascending h'.ascending h.ascending fun change => ?_
  rw [h'.listed, h.listed]

end Patches

/-! ## 2. The changed dependencies -/

section changed

variable {new : Requirements} (hnew : (Table.keys new).Nodup)

include hnew

/-- Requirements sorted by their paths ascend strictly. -/
theorem ascending_mergeSort :
    Text.Ascending ((new.mergeSort fun a b => (Text.order a.1 b.1).isLE).map Prod.fst) := by
  have horder := transCmp_on Text.order (Prod.fst : String × String → String)
  have hsort := stableSort_mergeSort (fun a b : String × String => Text.order a.1 b.1) new
  refine Text.ascending_of_nodup (List.pairwise_map.2 hsort.ascending) ?_
  exact (hsort.perm.map Prod.fst).nodup_iff.2 hnew

theorem mem_changedDependencies {old : Requirements} {excluded : List String}
    {change : ChangedDependency} :
    change ∈ changedDependencies old new excluded ↔
      change.path ∉ excluded ∧ change.Tells old new := by
  simp only [changedDependencies, List.mem_map, List.mem_filter, List.mem_mergeSort]
  constructor
  · rintro ⟨⟨path, version⟩, ⟨hentry, hmoved⟩, rfl⟩
    simp only [Bool.and_eq_true, Bool.not_eq_true', List.contains_eq_mem, decide_eq_false_iff_not,
      decide_eq_true_eq] at hmoved
    exact ⟨hmoved.1, (Table.mem_iff_get? hnew).1 hentry, rfl, hmoved.2⟩
  · obtain ⟨path, version, before⟩ := change
    rintro ⟨hkept, hversion, hbefore, hmoved⟩
    obtain rfl : Table.get? path old = before := hbefore
    refine ⟨(path, version), ⟨(Table.mem_iff_get? hnew).2 hversion, ?_⟩, rfl⟩
    simp [hkept, hmoved]

theorem patches_changedDependencies (old : Requirements) (excluded : List String) :
    Patches old new excluded (changedDependencies old new excluded) where
  ascending := by
    have hsub : ((changedDependencies old new excluded).map ChangedDependency.path).Sublist
        ((new.mergeSort fun a b => (Text.order a.1 b.1).isLE).map Prod.fst) := by
      rw [changedDependencies, List.map_map]
      exact List.filter_sublist.map Prod.fst
    exact (ascending_mergeSort hnew).sublist hsub
  listed _ := mem_changedDependencies hnew

end changed

/-- **A change is seen on one of the steps that lead to it.** -/
theorem mem_or_mem_of_changed {old mid new : Requirements} {excluded : List String}
    {changes before after : List ChangedDependency} (h : Patches old new excluded changes)
    (hbefore : Patches old mid excluded before) (hafter : Patches mid new excluded after)
    {path : String} (hpath : path ∈ changes.map ChangedDependency.path) :
    path ∈ before.map ChangedDependency.path ∨ path ∈ after.map ChangedDependency.path := by
  obtain ⟨hkept, version, hnew, hold⟩ := (h.named_iff path).1 hpath
  by_cases hmid : Table.get? path mid = some version
  · exact Or.inl ((hbefore.named_iff path).2 ⟨hkept, version, hmid, hold⟩)
  · exact Or.inr ((hafter.named_iff path).2 ⟨hkept, version, hnew, hmid⟩)

/-- **The changed dependencies are the exact patch between two manifests, and of three manifests no
change is lost on the way.** -/
theorem changedDependencies_exact {old mid new : Requirements} (hmid : (Table.keys mid).Nodup)
    (hnew : (Table.keys new).Nodup) (excluded : List String) :
    let changes := changedDependencies old new excluded
    (∀ changes', changes' = changes ↔ Patches old new excluded changes') ∧
    (∀ change ∈ changes, change.isNew = true ↔ change.path ∉ Table.keys old) ∧
    (∀ path, path ∉ excluded →
      Table.get? path (requiredBy new (withChanges old changes)) = Table.get? path new) ∧
    ∀ path ∈ changes.map ChangedDependency.path,
      path ∈ (changedDependencies old mid excluded).map ChangedDependency.path ∨
        path ∈ (changedDependencies mid new excluded).map ChangedDependency.path := by
  intro changes
  have hpatches : Patches old new excluded changes := patches_changedDependencies hnew old excluded
  refine ⟨fun changes' => ⟨?_, hpatches.unique⟩, fun change => hpatches.isNew_iff,
    fun path => hpatches.rebuilt, fun path hpath => ?_⟩
  · rintro rfl
    exact hpatches
  · exact mem_or_mem_of_changed hpatches (patches_changedDependencies hmid old excluded)
      (patches_changedDependencies hnew mid excluded) hpath

/-- Requirements of a module before it moves to another version, on the way, and after it: one
dependency moves on both steps, one is dropped and comes back, and one is new. -/
def firstRequired : Requirements :=
  [("root", "v1.0.0"), ("back", "v1.0.0"), ("moved", "v1.0.0"), ("gone", "v0.1.0")]

def thenRequired : Requirements := [("moved", "v1.1.0"), ("root", "v1.5.0")]

def lastRequired : Requirements :=
  [("root", "v2.0.0"), ("new", "v0.3.0"), ("moved", "v1.2.0"), ("back", "v1.0.0")]

theorem changedDependencies_exact_moved :
    let changes := changedDependencies firstRequired lastRequired ["root"]
    (Table.keys thenRequired).Nodup ∧ (Table.keys lastRequired).Nodup ∧
      ChangedDependency.mk "moved" "v1.2.0" (some "v1.0.0") ∈ changes ∧
      Table.get? "new" (requiredBy lastRequired (withChanges firstRequired changes))
        = some "v0.3.0" ∧
      Table.get? "gone" (requiredBy lastRequired (withChanges firstRequired changes)) = none ∧
      ("moved" ∈ (changedDependencies firstRequired thenRequired ["root"]).map
          ChangedDependency.path ∨
        "moved" ∈ (changedDependencies thenRequired lastRequired ["root"]).map
          ChangedDependency.path) := by
  intro changes
  have hthen : (Table.keys thenRequired).Nodup := by decide
  have hlast : (Table.keys lastRequired).Nodup := by decide
  obtain ⟨hexact, -, hrebuilt, hsteps⟩ :=
    @changedDependencies_exact firstRequired thenRequired lastRequired hthen hlast ["root"]
  have hmoved : ChangedDependency.mk "moved" "v1.2.0" (some "v1.0.0") ∈ changes := by
    refine (((hexact changes).1 rfl).listed _).2 ⟨by decide, ?_⟩
    exact ⟨by decide, by decide, by decide⟩
  exact ⟨hthen, hlast, hmoved, hrebuilt "new" (by decide), hrebuilt "gone" (by decide),
    hsteps "moved" (List.mem_map_of_mem hmoved)⟩

end UpgradeAudit
