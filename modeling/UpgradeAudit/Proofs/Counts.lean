/-
# Numbers by category

A table of numbers counts each category as often as it occurs (`count_ofCategories`), and the
numbers after an upgrade are made from those of the three parts of a difference: what is there
now is what is stale or added (`count_current`, `total_current`), and the change is what was
added less what was removed (`count_deltas`).
-/
import UpgradeAudit.Proofs.Tables
import UpgradeAudit.Totals

namespace UpgradeAudit

/-! ## 1. Tables of a function -/

namespace Table

variable {κ β : Type} [DecidableEq κ]

/-- The value of a key in the table of a function on a list of keys. -/
theorem get?_map_graph (f : κ → β) (keys : List κ) (key : κ) :
    Table.get? key (keys.map fun k => (k, f k)) = if key ∈ keys then some (f key) else none := by
  induction keys with
  | nil => rfl
  | cons k keys ih =>
    rw [List.map_cons, get?]
    by_cases h : k = key
    · simp [h]
    · simp [h, Ne.symm h, ih]

end Table

namespace Counts

/-! ## 2. Counting a list -/

theorem mem_sortedNames {names : List String} {name : String} :
    name ∈ sortedNames names ↔ name ∈ names := by
  rw [sortedNames, List.mem_mergeSort, List.mem_eraseDups]

theorem nodup_eraseDups : ∀ names : List String, names.eraseDups.Nodup
  | [] => by simp
  | name :: names => by
    rw [List.eraseDups_cons, List.nodup_cons]
    refine ⟨fun h => ?_, nodup_eraseDups _⟩
    simp at h
  termination_by names => names.length
  decreasing_by exact Nat.lt_succ_of_le (List.length_filter_le _ _)

theorem nodup_sortedNames (names : List String) : (sortedNames names).Nodup :=
  (List.mergeSort_perm _ _).nodup_iff.2 (nodup_eraseDups names)

theorem keys_ofCategories (categories : List String) :
    Table.keys (ofCategories categories) = sortedNames categories := by
  rw [Table.keys, ofCategories, List.map_map]
  exact List.map_id _

/-- A category is counted as often as it occurs. -/
theorem count_ofCategories (categories : List String) (c : String) :
    count c (ofCategories categories) = categories.count c := by
  unfold count ofCategories
  rw [Table.get?_map_graph]
  by_cases h : c ∈ categories
  · simp [mem_sortedNames, h]
  · simp [mem_sortedNames, h, List.count_eq_zero_of_not_mem h]

theorem countP_mem_cons {name : String} {names : List String} (h : name ∉ names)
    (categories : List String) :
    categories.countP (fun c => decide (c ∈ name :: names))
      = categories.count name + categories.countP (fun c => decide (c ∈ names)) := by
  induction categories with
  | nil => rfl
  | cons c categories ih =>
    rw [List.countP_cons, List.countP_cons, List.count_cons, ih]
    by_cases hc : c = name
    · subst hc
      simp [h]
      omega
    · simp [hc]
      omega

/-- Different names count everything that is one of them once. -/
theorem sum_count {names : List String} (h : names.Nodup) (categories : List String) :
    (names.map fun n => (categories.count n : Int)).foldr (· + ·) (0 : Int)
      = (categories.countP (fun c => decide (c ∈ names)) : Int) := by
  induction names with
  | nil => simp
  | cons name names ih =>
    obtain ⟨hname, hnames⟩ := List.nodup_cons.1 h
    rw [List.map_cons, List.foldr_cons, ih hnames, countP_mem_cons hname]
    omega

/-- Different names among which everything is found count all of it. -/
theorem sum_count_of_mem {names : List String} (h : names.Nodup) {categories : List String}
    (hmem : ∀ c ∈ categories, c ∈ names) :
    (names.map fun n => (categories.count n : Int)).foldr (· + ·) (0 : Int)
      = categories.length := by
  have hall : categories.countP (fun c => decide (c ∈ names)) = categories.length := by
    rw [List.countP_eq_length]
    intro c hc
    exact decide_eq_true (hmem c hc)
  rw [sum_count h, hall]

/-! ## 3. Counts after an upgrade -/

theorem count_eq_zero {counts : Counts} {c : String} (h : c ∉ Table.keys counts) :
    count c counts = 0 := by
  rw [count, Table.get?_eq_none_iff.2 h]
  rfl

/-- A count that is taken for the names of three counts, and that is nothing where all three are
nothing, is the count of every name. -/
theorem count_map_names (removed stale added : Counts) {f : String → Int} {c : String}
    (h : count c removed = 0 → count c stale = 0 → count c added = 0 → f c = 0) :
    count c ((sortedNames (Table.keys removed ++ Table.keys stale ++ Table.keys added)).map
      fun name => (name, f name)) = f c := by
  rw [count, Table.get?_map_graph]
  by_cases hc : c ∈ sortedNames (Table.keys removed ++ Table.keys stale ++ Table.keys added)
  · rw [if_pos hc]
    rfl
  · rw [mem_sortedNames, List.mem_append, List.mem_append, not_or, not_or] at hc
    obtain ⟨⟨hremoved, hstale⟩, hadded⟩ := hc
    rw [if_neg (by simp [mem_sortedNames, hremoved, hstale, hadded])]
    exact (h (count_eq_zero hremoved) (count_eq_zero hstale) (count_eq_zero hadded)).symm

/-- **What is there now is what is stale or added.** -/
theorem count_current (removed stale added : Counts) (c : String) :
    count c (current removed stale added).counts = count c stale + count c added :=
  count_map_names removed stale added fun _ hstale hadded => by rw [hstale, hadded]; rfl

/-- **The change is what was added less what was removed.** -/
theorem count_deltas (removed stale added : Counts) (c : String) :
    count c (current removed stale added).deltas = count c added - count c removed :=
  count_map_names removed stale added fun hremoved _ hadded => by rw [hremoved, hadded]; rfl

/-- The grand total counts what is stale or added, once each. -/
theorem total_current (removed : Counts) (stale added : List String) :
    (current removed (ofCategories stale) (ofCategories added)).total
      = (stale.length : Int) + added.length := by
  have counts (c : String) : count c (ofCategories stale) + count c (ofCategories added)
      = ((stale ++ added).count c : Int) := by
    rw [count_ofCategories, count_ofCategories, List.count_append, Int.natCast_add]
  have named : ∀ c ∈ stale ++ added, c ∈ sortedNames (Table.keys removed
      ++ Table.keys (ofCategories stale) ++ Table.keys (ofCategories added)) := by
    intro c hc
    rw [List.mem_append] at hc
    simp only [mem_sortedNames, List.mem_append, keys_ofCategories]
    exact hc.elim (fun h => Or.inl (Or.inr h)) Or.inr
  rw [current]
  simp only [List.map_map, Function.comp_def, counts]
  rw [sum_count_of_mem (nodup_sortedNames _) named, List.length_append, Int.natCast_add]

end Counts
end UpgradeAudit
