/-
# Findings that are the same by content

Two findings are the same when they agree on what is compared of them: capabilities on everything
(`Capability.same_iff`), issues on their `Content`.  So both ways to compare findings are
equivalences, and sides may be swapped and equal findings put for each other
(`Capability.same_equivalence`, `Issue.same_equivalence`).

Lists of findings are `Matched` when each member of either has an equal one in the other.  Then
nothing was removed or added, in whatever order they come.
-/
import Mathlib.Data.List.Forall2
import UpgradeAudit.Proofs.Comparisons
import UpgradeAudit.Proofs.Text.Order

namespace UpgradeAudit

/-! ## 1. What is compared -/

theorem Capability.same_iff {a b : Capability} : same a b = true ↔ a = b := by
  simp only [same, Bool.and_eq_true, decide_eq_true_eq, Capability.ext_iff]
  constructor
  · rintro ⟨⟨⟨⟨hdir, hname⟩, hkind⟩, htype⟩, hpath⟩
    exact ⟨hname, hdir, hkind, htype, hpath⟩
  · rintro ⟨hname, hdir, hkind, htype, hpath⟩
    exact ⟨⟨⟨⟨hdir, hname⟩, hkind⟩, htype⟩, hpath⟩

theorem Capability.same_equivalence : Equivalence fun a b => same a b = true where
  refl _ := same_iff.2 rfl
  symm h := same_iff.2 (same_iff.1 h).symm
  trans h h' := same_iff.2 ((same_iff.1 h).trans (same_iff.1 h'))

/-- What is compared of an issue. -/
@[ext] structure Issue.Content where
  linter : String
  text : String
  line : Int
  /-- None when columns do not count. -/
  column : Option Int
  sourceLines : List String
  /-- The file below the dependency's versioned directory. -/
  file : String

/-- What is compared of an issue of a dependency. -/
def Issue.content (dep : String) (matchColumn : Bool) (issue : Issue) : Content where
  linter := issue.linter
  text := issue.text
  line := issue.position.line
  column := if matchColumn then some issue.position.column else none
  sourceLines := issue.sourceLines.map Text.strip
  file := ModulePath.relativeFile dep issue.position.filename

theorem Issue.same_iff {dep : String} {matchColumn : Bool} {a b : Issue} :
    same dep matchColumn a b = true ↔ a.content dep matchColumn = b.content dep matchColumn := by
  simp only [same, content, Bool.and_eq_true, decide_eq_true_eq, Content.ext_iff]
  cases matchColumn <;> simp [and_assoc]

theorem Issue.same_equivalence (dep : String) (matchColumn : Bool) :
    Equivalence fun a b => same dep matchColumn a b = true where
  refl _ := same_iff.2 rfl
  symm h := same_iff.2 (same_iff.1 h).symm
  trans h h' := same_iff.2 ((same_iff.1 h).trans (same_iff.1 h'))

/-! ## 2. Findings that are matched -/

/-- Each old finding has an equal new one, and each new finding an equal old one. -/
structure Matched {α : Type} (equal : α → α → Bool) (old new : List α) : Prop where
  lasts : ∀ o ∈ old, ∃ n ∈ new, equal o n = true
  known : ∀ n ∈ new, ∃ o ∈ old, equal o n = true

namespace Matched

variable {α : Type} {equal : α → α → Bool} {old new : List α}

/-- Findings are matched when they correspond one by one. -/
theorem of_forall₂ (h : List.Forall₂ (fun o n => equal o n = true) old new) :
    Matched equal old new := by
  induction h with
  | nil => exact ⟨by simp, by simp⟩
  | @cons o n old new hsame _ ih =>
    constructor
    · intro o' ho'
      rcases List.mem_cons.1 ho' with rfl | ho'
      · exact ⟨n, List.mem_cons_self, hsame⟩
      · obtain ⟨n', hn', hsame'⟩ := ih.lasts o' ho'
        exact ⟨n', List.mem_cons_of_mem _ hn', hsame'⟩
    · intro n' hn'
      rcases List.mem_cons.1 hn' with rfl | hn'
      · exact ⟨o, List.mem_cons_self, hsame⟩
      · obtain ⟨o', ho', hsame'⟩ := ih.known n' hn'
        exact ⟨o', List.mem_cons_of_mem _ ho', hsame'⟩

/-- The order of the findings does not matter. -/
theorem perm (h : Matched equal old new) {old' new' : List α} (hold : old'.Perm old)
    (hnew : new'.Perm new) : Matched equal old' new' where
  lasts o ho := by
    obtain ⟨n, hn, hsame⟩ := h.lasts o (hold.subset ho)
    exact ⟨n, hnew.symm.subset hn, hsame⟩
  known n hn := by
    obtain ⟨o, ho, hsame⟩ := h.known n (hnew.subset hn)
    exact ⟨o, hold.symm.subset ho, hsame⟩

/-- Findings are matched with themselves. -/
theorem self (h : Equivalence fun a b => equal a b = true) (l : List α) : Matched equal l l where
  lasts a ha := ⟨a, ha, h.refl a⟩
  known a ha := ⟨a, ha, h.refl a⟩

variable (h : Matched equal old new)

include h

theorem removed_eq_nil : (diff equal old new).removed = [] := by
  refine List.filter_eq_nil_iff.2 fun o ho => ?_
  rw [List.any_eq_true.2 (h.lasts o ho)]
  decide

theorem added_eq_nil : (diff equal old new).added = [] := by
  refine List.filter_eq_nil_iff.2 fun n hn => ?_
  rw [List.any_eq_true.2 (h.known n hn)]
  decide

theorem lasting_eq : lasting equal old new = old :=
  List.filter_eq_self.2 fun o ho => List.any_eq_true.2 (h.lasts o ho)

end Matched

/-! ## 3. Numbers of matched findings -/

namespace Counts

attribute [ext] Current

/-- The change in counts that stayed as they were: none in each category. -/
def unchanged (counts : Counts) : Counts := counts.map fun entry => (entry.1, 0)

@[simp] theorem keys_unchanged (counts : Counts) :
    Table.keys (unchanged counts) = Table.keys counts := by
  rw [Table.keys, unchanged, List.map_map]
  rfl

theorem eq_zero_of_mem_unchanged {counts : Counts} {entry : String × Int}
    (h : entry ∈ unchanged counts) : entry.2 = 0 := by
  obtain ⟨_, -, rfl⟩ := List.mem_map.1 h
  rfl

/-- Numbers that come from what is stale alone: it is there now, and no number changed. -/
theorem current_of_stale (stale : List String) :
    current (ofCategories []) (ofCategories stale) (ofCategories [])
      = ⟨stale.length, ofCategories stale, unchanged (ofCategories stale)⟩ := by
  have hnames : sortedNames (Table.keys (ofCategories []) ++ Table.keys (ofCategories stale)
      ++ Table.keys (ofCategories [])) = sortedNames stale := by
    refine sortedNames_congr fun name => ?_
    simp [keys_ofCategories, mem_sortedNames]
  have hnone (name : String) : count name (ofCategories []) = 0 := by
    rw [count_ofCategories]
    rfl
  apply Current.ext
  · rw [total_current]
    exact Int.add_zero _
  · simp only [current, hnames, hnone, Int.add_zero, count_ofCategories]
    rfl
  · simp only [current, hnames, hnone, Int.sub_self]
    rw [unchanged, ofCategories, List.map_map]
    rfl

/-- **Matched findings leave all numbers as they were.** -/
theorem ofDiff_of_matched {α : Type} {equal : α → α → Bool} {category : α → String}
    (hcategory : ∀ a b, equal a b = true → category a = category b) {old new : List α}
    (h : Matched equal old new) :
    ofDiff category (diff equal old new) = ⟨old.length, ofCategories (old.map category),
      unchanged (ofCategories (old.map category))⟩ := by
  rw [ofDiff, h.removed_eq_nil, h.added_eq_nil, map_stale old new hcategory, h.lasting_eq,
    List.map_nil, current_of_stale, List.length_map]

end Counts
end UpgradeAudit
