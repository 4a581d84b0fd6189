/-
# Tables made of entries

A table made of entries holds each key once (`nodup_keys_ofEntries`), with the value that was
listed last for it (`mem_ofEntries`).
-/
import UpgradeAudit.Table

namespace UpgradeAudit.Table

variable {κ α : Type} [DecidableEq κ]

/-! ## 1. Keys -/

theorem mem_keys_set {key other : κ} {value : α} {table : Table κ α} :
    other ∈ keys (table.set key value) ↔ other = key ∨ other ∈ keys table := by
  induction table with
  | nil => simp [set, keys]
  | cons e rest ih =>
    obtain ⟨k, v⟩ := e
    by_cases h : k = key
    · simp [set, h, keys]
    · have ih : other ∈ (set key value rest).map Prod.fst ↔ other = key ∨ other ∈ keys rest := ih
      simp only [set, if_neg h, keys, List.map_cons, List.mem_cons, ih]
      exact or_left_comm

theorem keys_set (key : κ) (value : α) (table : Table κ α) :
    keys (table.set key value) = if key ∈ keys table then keys table else keys table ++ [key] := by
  induction table with
  | nil => simp [set, keys]
  | cons e rest ih =>
    obtain ⟨k, v⟩ := e
    by_cases h : k = key
    · simp [set, h, keys]
    · have ih : (set key value rest).map Prod.fst
          = if key ∈ rest.map Prod.fst then rest.map Prod.fst else rest.map Prod.fst ++ [key] := ih
      by_cases hmem : key ∈ rest.map Prod.fst
      · simp only [set, if_neg h, keys, List.map_cons, ih, if_pos hmem,
          if_pos (List.mem_cons_of_mem k hmem)]
      · have hnot : key ∉ k :: rest.map Prod.fst := by simp [Ne.symm h, hmem]
        simp only [set, if_neg h, keys, List.map_cons, ih, if_neg hmem, if_neg hnot,
          List.cons_append]

/-- Setting a value leaves each key once. -/
theorem nodup_keys_set {table : Table κ α} (h : (keys table).Nodup) (key : κ) (value : α) :
    (keys (table.set key value)).Nodup := by
  induction table with
  | nil => simp [set, keys]
  | cons e rest ih =>
    obtain ⟨k, v⟩ := e
    obtain ⟨hk, hrest⟩ := List.nodup_cons.1 (show (k :: keys rest).Nodup from h)
    rw [set]
    split
    · rename_i hkey
      exact List.nodup_cons.2 ⟨hkey ▸ hk, hrest⟩
    · rename_i hne
      refine List.nodup_cons.2 ⟨fun hmem => ?_, ih hrest⟩
      exact (mem_keys_set.1 hmem).elim hne hk

theorem nodup_keys_setAll {table : Table κ α} (h : (keys table).Nodup) (entries : List (κ × α)) :
    (keys (table.setAll entries)).Nodup := by
  induction entries generalizing table with
  | nil => exact h
  | cons e entries ih => exact ih (nodup_keys_set h e.1 e.2)

/-- A table made of entries holds each key once. -/
theorem nodup_keys_ofEntries (entries : List (κ × α)) : (keys (ofEntries entries)).Nodup :=
  @nodup_keys_setAll κ α _ [] List.nodup_nil entries

theorem keys_setAll {table : Table κ α} {seen : List κ} (h : keys table = seen.eraseDups)
    (entries : List (κ × α)) :
    keys (table.setAll entries) = (seen ++ keys entries).eraseDups := by
  induction entries generalizing table seen with
  | nil => simpa [setAll, keys] using h
  | cons e entries ih =>
    have hset : keys (table.set e.1 e.2) = (seen ++ [e.1]).eraseDups := by
      rw [keys_set, h, List.eraseDups_append]
      by_cases hmem : e.1 ∈ seen
      · rw [if_pos (List.mem_eraseDups.2 hmem)]
        simp [List.removeAll, hmem]
      · rw [if_neg fun hseen => hmem (List.mem_eraseDups.1 hseen)]
        simp [List.removeAll, hmem, List.eraseDups_cons]
    have hrest := ih hset
    rw [List.append_assoc] at hrest
    exact hrest

/-- The keys of a table made of entries stand in the order in which they were first listed. -/
theorem keys_ofEntries (entries : List (κ × α)) :
    keys (ofEntries entries) = (keys entries).eraseDups :=
  @keys_setAll κ α _ [] [] rfl entries

/-- In a table that holds each key once, the entries are what a look-up finds. -/
theorem mem_iff_get? {table : Table κ α} (h : (keys table).Nodup) {key : κ} {value : α} :
    (key, value) ∈ table ↔ table.get? key = some value := by
  induction table with
  | nil => simp [get?]
  | cons e rest ih =>
    obtain ⟨k, v⟩ := e
    obtain ⟨hk, hrest⟩ := List.nodup_cons.1 (show (k :: keys rest).Nodup from h)
    rw [get?, List.mem_cons, Prod.mk.injEq]
    split
    · rename_i hkey
      have hnot : (key, value) ∉ rest := fun hmem =>
        hk (hkey ▸ List.mem_map_of_mem (f := Prod.fst) hmem)
      simp only [hkey, true_and, hnot, or_false, Option.some.injEq]
      exact eq_comm
    · rename_i hne
      simp only [Ne.symm hne, false_and, false_or, ih hrest]

theorem mem_of_get? {table : Table κ α} {key : κ} {value : α} (h : get? key table = some value) :
    (key, value) ∈ table := by
  induction table with
  | nil => cases h
  | cons e rest ih =>
    obtain ⟨k, v⟩ := e
    rw [get?] at h
    split at h
    · rename_i hkey
      rw [hkey, Option.some.inj h]
      exact List.mem_cons_self
    · exact List.mem_cons_of_mem _ (ih h)

theorem get?_eq_none_iff {table : Table κ α} {key : κ} :
    get? key table = none ↔ key ∉ keys table := by
  induction table with
  | nil => simp [get?, keys]
  | cons e rest ih =>
    obtain ⟨k, v⟩ := e
    by_cases h : k = key
    · simp [get?, h, keys]
    · have ih : get? key rest = none ↔ key ∉ rest.map Prod.fst := ih
      simp [get?, h, keys, ih, Ne.symm h]

/-- A value that is set again is forgotten. -/
theorem set_set (key : κ) (value value' : α) (table : Table κ α) :
    set key value' (table.set key value) = set key value' table := by
  induction table with
  | nil => simp [set]
  | cons e rest ih =>
    obtain ⟨k, v⟩ := e
    by_cases h : k = key <;> simp [set, h, ih]

/-- A key that is not there yet is added at the end. -/
theorem set_of_not_mem_keys {key : κ} {table : Table κ α} (h : key ∉ keys table) (value : α) :
    table.set key value = table ++ [(key, value)] := by
  induction table with
  | nil => rfl
  | cons e rest ih =>
    obtain ⟨k, v⟩ := e
    obtain ⟨hk, hrest⟩ : key ≠ k ∧ key ∉ keys rest := by simpa [keys] using h
    rw [set, if_neg hk.symm, ih hrest, List.cons_append]

/-- Entries with new keys, each once, are added as they stand. -/
theorem setAll_of_nodup {table : Table κ α} {entries : List (κ × α)}
    (h : (keys (table ++ entries)).Nodup) : setAll table entries = table ++ entries := by
  induction entries generalizing table with
  | nil => simp [setAll]
  | cons e entries ih =>
    have hnew : e.1 ∉ keys table := by
      intro hmem
      rw [keys, List.map_append, List.nodup_append] at h
      exact h.2.2 e.1 hmem e.1 (by simp) rfl
    show setAll (table.set e.1 e.2) entries = _
    rw [set_of_not_mem_keys hnew, ih (by simpa using h)]
    simp

theorem ofEntries_of_nodup {entries : List (κ × α)} (h : (keys entries).Nodup) :
    ofEntries entries = entries :=
  setAll_of_nodup h

/-- Setting a value is not seen where the key is left out. -/
theorem filter_set {key : κ} {p : κ × α → Bool} (hp : ∀ value, p (key, value) = false) (value : α)
    (table : Table κ α) : (table.set key value).filter p = table.filter p := by
  induction table with
  | nil => simp [set, hp]
  | cons e rest ih =>
    obtain ⟨k, v⟩ := e
    by_cases h : k = key
    · subst h
      rw [set, if_pos rfl, List.filter_cons_of_neg (by simp [hp]),
        List.filter_cons_of_neg (by simp [hp])]
    · rw [set, if_neg h, List.filter_cons, List.filter_cons, ih]

/-- What is found of a table after some keys were left out. -/
theorem get?_filter (keep : κ → Bool) (key : κ) (table : Table κ α) :
    get? key (table.filter fun e => keep e.1)
      = if keep key = true then get? key table else none := by
  induction table with
  | nil => simp [get?]
  | cons e rest ih =>
    obtain ⟨k, v⟩ := e
    rw [List.filter_cons]
    by_cases hkey : k = key
    · subst hkey
      by_cases hkeep : keep k = true
      · simp [hkeep, get?]
      · simpa [hkeep] using ih
    · by_cases hkeep : keep k = true
      · simpa [hkeep, hkey, get?] using ih
      · simpa [hkeep, hkey, get?] using ih

/-! ## 2. Entries -/

/-- The value is the last that the entries list for the key. -/
def Last (entries : List (κ × α)) (key : κ) (value : α) : Prop :=
  ∃ before after, entries = before ++ (key, value) :: after ∧ ∀ e ∈ after, e.1 ≠ key

theorem get?_setAll_of_ne {entries : List (κ × α)} {key : κ} (h : ∀ e ∈ entries, e.1 ≠ key)
    (table : Table κ α) : get? key (table.setAll entries) = get? key table := by
  induction entries generalizing table with
  | nil => rfl
  | cons e entries ih =>
    exact (ih (fun d hd => h d (List.mem_cons_of_mem _ hd)) _).trans
      (get?_set_of_ne (h e (by simp)).symm e.2 table)

theorem get?_setAll_of_last {entries : List (κ × α)} {key : κ} {value : α}
    (h : Last entries key value) (table : Table κ α) :
    get? key (table.setAll entries) = some value := by
  obtain ⟨before, after, rfl, hafter⟩ := h
  rw [setAll, List.foldl_append, List.foldl_cons]
  exact (get?_setAll_of_ne hafter _).trans (get?_set_self key value _)

/-- Entries list a key last with some value, or they do not list it. -/
theorem last_or_ne (entries : List (κ × α)) (key : κ) :
    (∃ value, Last entries key value) ∨ ∀ e ∈ entries, e.1 ≠ key := by
  induction entries with
  | nil => exact Or.inr (by simp)
  | cons e entries ih =>
    rcases ih with ⟨value, before, after, rfl, hafter⟩ | hnone
    · exact Or.inl ⟨value, e :: before, after, rfl, hafter⟩
    · by_cases he : e.1 = key
      · exact Or.inl ⟨e.2, [], entries, by rw [← he]; rfl, hnone⟩
      · exact Or.inr (List.forall_mem_cons.2 ⟨he, hnone⟩)

theorem Last.mem {κ α : Type} {entries : List (κ × α)} {key : κ} {value : α}
    (h : Last entries key value) : (key, value) ∈ entries := by
  obtain ⟨before, after, rfl, -⟩ := h
  simp

/-- A value that is the only one listed for a key is listed last. -/
theorem last_of_mem {entries : List (κ × α)} {key : κ} {value : α} (hmem : (key, value) ∈ entries)
    (honly : ∀ other, (key, other) ∈ entries → other = value) : Last entries key value := by
  rcases last_or_ne entries key with ⟨last, hlast⟩ | hnone
  · exact honly last hlast.mem ▸ hlast
  · exact absurd rfl (hnone _ hmem)

theorem get?_ofEntries {entries : List (κ × α)} {key : κ} {value : α} :
    get? key (ofEntries entries) = some value ↔ Last entries key value := by
  refine ⟨fun h => ?_, fun h => get?_setAll_of_last h []⟩
  rcases last_or_ne entries key with ⟨last, hlast⟩ | hnone
  · rw [ofEntries, get?_setAll_of_last hlast] at h
    exact Option.some.inj h ▸ hlast
  · rw [ofEntries, get?_setAll_of_ne hnone] at h
    cases h

/-- **A table made of entries holds what they list last.** -/
theorem mem_ofEntries {entries : List (κ × α)} {key : κ} {value : α} :
    (key, value) ∈ ofEntries entries ↔ Last entries key value :=
  (mem_iff_get? (nodup_keys_ofEntries entries)).trans get?_ofEntries

end UpgradeAudit.Table
