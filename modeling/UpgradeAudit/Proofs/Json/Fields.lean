/-
# Lists and fields, read

A list that was written is read back when its items are (`asList_map`).

A field may stand in an object under any of several spellings.  Where it stands under one of them at
most, a look-up finds it there or finds nothing (`find?_of_under`), whatever the order of the fields
is and whatever else the object holds.
-/
import UpgradeAudit.Json.Schema
import UpgradeAudit.Proofs.Tables

namespace UpgradeAudit.Json

variable {α β : Type}

/-- A list that was written is read back when its items are. -/
theorem asList_map {reader : Reader β} {encode : α → Json} {f : α → β} {as : List α}
    (h : ∀ a ∈ as, reader (encode a) = some (f a)) :
    asList reader (.array (as.map encode)) = some (as.map f) := by
  show (as.map encode).mapM reader = _
  induction as with
  | nil => rfl
  | cons a as ih =>
    rw [List.map_cons, List.mapM_cons, h a List.mem_cons_self,
      ih fun b hb => h b (List.mem_cons_of_mem _ hb)]
    rfl

theorem asText_text (s : String) : asText (.text s) = some s := rfl

theorem asBool_bool (b : Bool) : asBool (.bool b) = some b := rfl

theorem asList_texts (ss : List String) : asList asText (texts ss) = some ss := by
  have h : asList asText (texts ss) = some (ss.map id) := asList_map fun _ _ => rfl
  rwa [List.map_id] at h

namespace Fields

/-- The values that stand under some of the spellings. -/
def under (fields : Fields) (spellings : List String) : List Json :=
  (fields.filter fun f => f.1 ∈ spellings).map Prod.snd

variable {fields : Fields} {spellings : List String}

theorem mem_under {v : Json} :
    v ∈ fields.under spellings ↔ ∃ key ∈ spellings, (key, v) ∈ fields := by
  simp only [under, List.mem_map, List.mem_filter, decide_eq_true_eq]
  constructor
  · rintro ⟨⟨key, w⟩, ⟨hmem, hkey⟩, rfl⟩
    exact ⟨key, hkey, hmem⟩
  · rintro ⟨key, hkey, hmem⟩
    exact ⟨(key, v), ⟨hmem, hkey⟩, rfl⟩

/-- **A field under one of its spellings at most is found there.** -/
theorem find?_of_under {o : Option Json} (h : fields.under spellings = o.toList) :
    fields.find? spellings = o := by
  -- what a look-up finds is among the values under the spellings, of which there is one at most
  have hfound {key : String} (hkey : key ∈ spellings) {w : Json}
      (hw : Table.get? key fields = some w) : w ∈ o.toList :=
    h ▸ mem_under.2 ⟨key, hkey, Table.mem_of_get? hw⟩
  cases o with
  | none =>
    refine List.findSome?_eq_none_iff.2 fun key hkey => ?_
    cases hw : Table.get? key fields with
    | none => rfl
    | some w => exact absurd (hfound hkey hw) List.not_mem_nil
  | some v =>
    have hv : v ∈ fields.under spellings := by simp [h]
    obtain ⟨key, hkey, hmem⟩ := mem_under.1 hv
    cases hfind : fields.find? spellings with
    | none =>
      have hnone := List.findSome?_eq_none_iff.1 hfind key hkey
      exact absurd (List.mem_map_of_mem hmem) (Table.get?_eq_none_iff.1 hnone)
    | some w =>
      obtain ⟨other, hother, hw⟩ := List.exists_of_findSome?_eq_some hfind
      rw [List.mem_singleton.1 (hfound hother hw)]

theorem optional_of_under {o : Option Json} (h : fields.under spellings = o.toList)
    (value : Reader α) (absent : α) :
    fields.optional spellings value absent = o.elim (some absent) value := by
  rw [optional, find?_of_under h]
  cases o <;> rfl

theorem required_of_under {o : Option Json} (h : fields.under spellings = o.toList)
    (value : Reader α) : fields.required spellings value = o >>= value := by
  rw [required, find?_of_under h]

end Fields
end UpgradeAudit.Json
