/-
# Names in order

The order of texts is a linear order: it is transitive, and texts that it does not tell apart
are the same.  So the names of a list, each once and in order, ascend strictly
(`ascending_sortedNames`), and lists of the same names have the same ones in order
(`sortedNames_congr`).
-/
import UpgradeAudit.Proofs.Counts

namespace UpgradeAudit

/-- Of two elements one is at most the other. -/
theorem isLE_total {α : Type} (order : α → α → Ordering) [Std.OrientedCmp order] (a b : α) :
    ((order a b).isLE || (order b a).isLE) = true := by
  rw [@Std.OrientedCmp.eq_swap _ order _ b a]
  cases order a b <;> rfl

namespace Text

/-! ## 1. The order of texts -/

/-- The order of sequences of characters that `order` goes by. -/
abbrev orderChars : List Char → List Char → Ordering := List.compareLex compare

instance : Std.TransCmp order where
  eq_swap {_ _} := @Std.OrientedCmp.eq_swap _ orderChars _ _ _
  isLE_trans {_ _ _} := @Std.TransCmp.isLE_trans _ orderChars _ _ _ _

instance : Std.LawfulEqCmp order where
  compare_self {_} := @Std.ReflCmp.compare_self _ orderChars _ _
  eq_of_compare {_ _} h := String.toList_inj.1 (@Std.LawfulEqCmp.eq_of_compare _ orderChars _ _ _ h)

/-- Texts that ascend strictly. -/
def Ascending (names : List String) : Prop := names.Pairwise fun a b => order a b = .lt

/-- Different texts, each at most the next, ascend strictly. -/
theorem ascending_of_nodup {names : List String}
    (hle : names.Pairwise fun a b => (order a b).isLE = true) (hne : names.Nodup) :
    Ascending names := by
  refine hle.imp₂ (fun a b h hab => ?_) hne
  rcases Ordering.isLE_iff_eq_lt_or_eq_eq.1 h with h | h
  · exact h
  · exact absurd (Std.LawfulEqCmp.eq_of_compare h) hab

theorem Ascending.nodup {names : List String} (h : Ascending names) : names.Nodup := by
  refine h.imp fun {a b} hab heq => ?_
  rw [heq, @Std.ReflCmp.compare_self _ order] at hab
  cases hab

/-- Lists whose texts ascend strictly are the same when they have the same members. -/
theorem eq_of_mem_iff_of_ascending {α : Type} {name : α → String} {l l' : List α}
    (h : Ascending (l.map name)) (h' : Ascending (l'.map name)) (hmem : ∀ a, a ∈ l ↔ a ∈ l') :
    l = l' := by
  have nodup {l : List α} (h : Ascending (l.map name)) : l.Nodup :=
    (List.pairwise_map.1 h.nodup).imp fun hne heq => hne (congrArg name heq)
  have hperm : l.Perm l' := (List.perm_ext_iff_of_nodup (nodup h) (nodup h')).2 hmem
  refine hperm.eq_of_pairwise (fun a b _ _ hab hba => ?_) (List.pairwise_map.1 h)
    (List.pairwise_map.1 h')
  -- Two names cannot each come strictly before the other.
  rw [@Std.OrientedCmp.eq_swap _ order _ (name a) (name b), hba] at hab
  cases hab

/-- Texts that ascend strictly are the same when they have the same members. -/
theorem Ascending.eq_of_mem_iff {names names' : List String} (h : Ascending names)
    (h' : Ascending names') (hmem : ∀ name, name ∈ names ↔ name ∈ names') : names = names' := by
  have hnames : Ascending (names.map id) := by rwa [List.map_id]
  have hnames' : Ascending (names'.map id) := by rwa [List.map_id]
  exact eq_of_mem_iff_of_ascending hnames hnames' hmem

end Text

/-! ## 2. The names of a list -/

/-- **The names of a list ascend strictly.** -/
theorem Counts.ascending_sortedNames (names : List String) :
    Text.Ascending (sortedNames names) := by
  have hle : (sortedNames names).Pairwise fun a b => (Text.order a b).isLE = true :=
    List.pairwise_mergeSort (fun _ _ _ => Std.TransCmp.isLE_trans) (isLE_total Text.order) _
  exact Text.ascending_of_nodup hle (nodup_sortedNames names)

/-- The names in their order depend on which names there are, and on nothing else. -/
theorem Counts.sortedNames_congr {names names' : List String}
    (h : ∀ name, name ∈ names ↔ name ∈ names') : sortedNames names = sortedNames names' :=
  (ascending_sortedNames names).eq_of_mem_iff (ascending_sortedNames names') fun name => by
    rw [mem_sortedNames, mem_sortedNames, h]

end UpgradeAudit
