/-
# The smallest scope

Analyzing a package covers what it depends on, so a scope need not hold a package that another
one of it depends on.  Leaving out every such package at once is sound only when each of them
depends, through those left out with it, on one that stays: packages must not wait for each
other in a circle, and what a package's listing says it depends on must hold all that it
depends on through others.  Both are what the build tool promises of a listing (`OrderedOn`).

* what stays is what no other path of the set needs (`minimise_of_listed`), whatever the graph is;
* on a listing in order every path of the set has one above it that stays (`OrderedOn.covers`):
  by induction along the order, from those that nothing needs downwards;
* a scope that covers the set must hold all that stays (`foremost_mem_of_covers`), so what stays
  is the one smallest scope (`minimise_least`).
-/
import Mathlib.Order.WellFoundedSet
import UpgradeAudit.Package.Scope
import UpgradeAudit.Proofs.Text.Order

namespace UpgradeAudit.PackageGraph

variable {graph : PackageGraph} {paths scope : List String} {path other : String}

/-! ## 1. Scopes -/

/-- Analyzing the packages of `scope` covers the packages of `paths`. -/
def Covers (graph : PackageGraph) (scope paths : List String) : Prop :=
  ∀ path ∈ paths, path ∈ scope ∨ ∃ other ∈ scope, dependsOn graph other path = true

/-- No package of `scope` is covered by another one of it. -/
def Apart (graph : PackageGraph) (scope : List String) : Prop :=
  ∀ path ∈ scope, ∀ other ∈ scope, other ≠ path → dependsOn graph other path = false

/-- One package of the set depends on another one of it. -/
def Needs (graph : PackageGraph) (paths : List String) (other path : String) : Prop :=
  other ∈ paths ∧ path ∈ paths ∧ other ≠ path ∧ dependsOn graph other path = true

/-- What the build tool promises of the packages of a set: what a package depends on through
others is listed too, and different packages do not depend on each other in a circle. -/
structure OrderedOn (graph : PackageGraph) (paths : List String) : Prop where
  trans : ∀ x ∈ paths, ∀ y ∈ paths, ∀ z ∈ paths,
    dependsOn graph x y = true → dependsOn graph y z = true → dependsOn graph x z = true
  acyclic : ∀ x, ¬ Relation.TransGen (Needs graph paths) x x

/-- Where dependence is transitive, two packages that depend on each other are the shortest
circle, and the only one to look for. -/
theorem OrderedOn.of_antisymm
    (htrans : ∀ x ∈ paths, ∀ y ∈ paths, ∀ z ∈ paths,
      dependsOn graph x y = true → dependsOn graph y z = true → dependsOn graph x z = true)
    (hanti : ∀ x ∈ paths, ∀ y ∈ paths,
      dependsOn graph x y = true → dependsOn graph y x = true → x = y) :
    OrderedOn graph paths := by
  refine ⟨htrans, fun x hcircle => ?_⟩
  have shortcut {y : String} (h : Relation.TransGen (Needs graph paths) x y) :
      Needs graph paths x y := by
    induction h with
    | single h => exact h
    | @tail y z _ hyz hxy =>
      obtain ⟨hx, hy, hne, hdep⟩ := hxy
      obtain ⟨-, hz, -, hdep'⟩ := hyz
      refine ⟨hx, hz, ?_, htrans x hx y hy z hz hdep hdep'⟩
      rintro rfl
      exact hne (hanti x hx y hy hdep hdep')
  exact (shortcut hcircle).2.2.1 rfl

/-! ## 2. What stays -/

/-- A path of the set that no other one of it depends on. -/
def Foremost (graph : PackageGraph) (paths : List String) (path : String) : Prop :=
  path ∈ paths ∧ ∀ other ∈ paths, other ≠ path → dependsOn graph other path = false

/-- A set of packages that are all listed is minimised without a complaint. -/
theorem minimise_of_listed (h : ∀ path ∈ paths, (Table.get? path graph).isSome) :
    ∃ scope, minimise paths graph = .ok scope ∧ Text.Ascending scope
      ∧ ∀ path, path ∈ scope ↔ Foremost graph paths path := by
  have hall : paths.find? (fun path => (Table.get? path graph).isNone) = none := by
    rw [List.find?_eq_none]
    intro path hpath
    simp [Option.isSome_iff_ne_none.1 (h path hpath)]
  refine ⟨_, by rw [minimise, hall], Counts.ascending_sortedNames _, fun path => ?_⟩
  simp [Counts.mem_sortedNames, Foremost]

theorem apart_of_foremost (h : ∀ path ∈ scope, Foremost graph paths path) :
    Apart graph scope :=
  fun path hpath other hother hne => (h path hpath).2 other (h other hother).1 hne

/-- A path that does not stay is needed by another one of the set. -/
theorem exists_needs_of_not_foremost (hpath : path ∈ paths) (h : ¬ Foremost graph paths path) :
    ∃ other, Needs graph paths other path := by
  simp only [Foremost, hpath, true_and, not_forall, Bool.not_eq_false] at h
  obtain ⟨other, hother, hne, hdep⟩ := h
  exact ⟨other, hother, hpath, hne, hdep⟩

/-- **Every path of the set stays or is needed by one that stays.**  A path is dropped because
of one that may be dropped itself, so the induction goes along the order, and transitivity
carries what covers the upper one down to the lower one. -/
theorem OrderedOn.covers (h : OrderedOn graph paths)
    (hscope : ∀ path, path ∈ scope ↔ Foremost graph paths path) : Covers graph scope paths := by
  have : IsStrictOrder String (Relation.TransGen (Needs graph paths)) :=
    { irrefl := h.acyclic, trans := fun _ _ _ => Relation.TransGen.trans }
  have hfounded : {path | path ∈ paths}.WellFoundedOn (Relation.TransGen (Needs graph paths)) :=
    (List.finite_toSet paths).wellFoundedOn
  intro path hpath
  refine hfounded.induction hpath
    (P := fun path => path ∈ scope ∨ ∃ other ∈ scope, dependsOn graph other path = true)
    fun path hpath above => ?_
  by_cases hstays : Foremost graph paths path
  · exact Or.inl ((hscope path).2 hstays)
  · obtain ⟨other, hneeds⟩ := exists_needs_of_not_foremost hpath hstays
    have ⟨hother, _, _, hdep⟩ := hneeds
    right
    rcases above other hother (.single hneeds) with hin | ⟨top, htop, htopdep⟩
    · exact ⟨other, hin, hdep⟩
    · exact ⟨top, htop, h.trans top ((hscope top).1 htop).1 other hother path hpath htopdep hdep⟩

/-- What stays is covered by nothing else of the set, so a scope that covers the set holds it. -/
theorem foremost_mem_of_covers (hsub : ∀ path ∈ scope, path ∈ paths)
    (hcovers : Covers graph scope paths) (h : Foremost graph paths path) : path ∈ scope := by
  rcases hcovers path h.1 with hin | ⟨other, hother, hdep⟩
  · exact hin
  · by_cases hne : other = path
    · exact hne ▸ hother
    · rw [h.2 other (hsub other hother) hne] at hdep
      exact absurd hdep (by decide)

theorem ne_nil_of_covers (hcovers : Covers graph scope paths) (h : paths ≠ []) : scope ≠ [] := by
  rintro rfl
  obtain ⟨path, hpath⟩ := List.exists_mem_of_ne_nil paths h
  simpa using hcovers path hpath

/-! ## 3. The smallest scope -/

/-- **The scope of a set of listed packages** ascends strictly, holds members of the set only,
and none of them needs another.  When the listing is in order, the scope covers the set and
every scope that does holds all of it. -/
theorem minimise_least (graph : PackageGraph) (paths : List String)
    (h : ∀ path ∈ paths, (Table.get? path graph).isSome) :
    ∃ scope, minimise paths graph = .ok scope ∧ Text.Ascending scope
      ∧ (∀ path ∈ scope, path ∈ paths) ∧ Apart graph scope
      ∧ (OrderedOn graph paths →
          Covers graph scope paths
          ∧ (∀ scope' : List String, (∀ path ∈ scope', path ∈ paths) →
              Covers graph scope' paths → ∀ path ∈ scope, path ∈ scope')
          ∧ (paths ≠ [] → scope ≠ [])) := by
  obtain ⟨scope, hscope, hascending, hmem⟩ := minimise_of_listed h
  have hforemost : ∀ path ∈ scope, Foremost graph paths path := fun path => (hmem path).1
  refine ⟨scope, hscope, hascending, fun path hpath => (hforemost path hpath).1,
    apart_of_foremost hforemost, fun hordered => ?_⟩
  have hcovers := hordered.covers hmem
  refine ⟨hcovers, fun scope' hsub hcovers' path hpath => ?_, ne_nil_of_covers hcovers⟩
  exact foremost_mem_of_covers hsub hcovers' (hforemost path hpath)

/-- A package of a module, with the packages it depends on. -/
def listed (path : String) (deps : List String) : Package where
  importPath := path
  dir := ""
  name := ""
  modulePath := "m"
  moduleVersion := ""
  standard := false
  imports := deps
  deps
  incomplete := false

/-- Two ways lead from `m/top` down to `m/base`; nothing needs `m/other`. -/
def diamond : PackageGraph := Package.graph
  [listed "m/top" ["m/left", "m/right", "m/base"], listed "m/left" ["m/base"],
    listed "m/right" ["m/base"], listed "m/base" [], listed "m/other" []]

/-- The packages of `diamond`, lower ones first. -/
def diamondPaths : List String := ["m/base", "m/right", "m/other", "m/left", "m/top"]

theorem minimise_least_diamond :
    (∀ path ∈ diamondPaths, (Table.get? path diamond).isSome) ∧ OrderedOn diamond diamondPaths
      ∧ ∃ scope, minimise diamondPaths diamond = .ok scope
        ∧ Covers diamond scope diamondPaths ∧ Apart diamond scope
        ∧ ∀ path ∈ scope, path ∈ ["m/top", "m/other"] := by
  have hlisted : ∀ path ∈ diamondPaths, (Table.get? path diamond).isSome := by decide
  have hordered : OrderedOn diamond diamondPaths :=
    .of_antisymm (by decide) (by decide)
  obtain ⟨scope, hscope, -, -, hapart, hleast⟩ := minimise_least diamond diamondPaths hlisted
  obtain ⟨hcovers, hsmallest, -⟩ := hleast hordered
  refine ⟨hlisted, hordered, scope, hscope, hcovers, hapart, ?_⟩
  exact hsmallest ["m/top", "m/other"] (by decide) (by unfold Covers; decide)

example : minimise diamondPaths diamond = .ok ["m/other", "m/top"] := by cbv

end UpgradeAudit.PackageGraph
