/-
# Tables

Entries in order of first appearance.  Setting a key that is known changes its value and keeps
its place; a look-up answers with the last value set (`get?_set_self`, `get?_set_of_ne`).
-/

namespace UpgradeAudit

/-- Entries, one for each key, in order of first appearance. -/
abbrev Table (κ α : Type) := List (κ × α)

namespace Table

variable {κ α : Type} [DecidableEq κ]

/-- Sets the value of a key. -/
def set (key : κ) (value : α) : Table κ α → Table κ α
  | [] => [(key, value)]
  | (k, v) :: rest => if k = key then (k, value) :: rest else (k, v) :: set key value rest

/-- The value of a key. -/
def get? (key : κ) : Table κ α → Option α
  | [] => none
  | (k, v) :: rest => if k = key then some v else get? key rest

/-- Sets entries one after the other. -/
def setAll (table : Table κ α) (entries : List (κ × α)) : Table κ α :=
  entries.foldl (fun t e => t.set e.1 e.2) table

/-- The table of a list of entries. -/
def ofEntries (entries : List (κ × α)) : Table κ α := setAll [] entries

/-- The keys. -/
def keys (table : Table κ α) : List κ := table.map Prod.fst

/-- The values. -/
def values (table : Table κ α) : List α := table.map Prod.snd

theorem get?_set_self (key : κ) (value : α) (table : Table κ α) :
    (table.set key value).get? key = some value := by
  induction table with
  | nil => simp [set, get?]
  | cons e rest ih =>
    obtain ⟨k, v⟩ := e
    by_cases h : k = key <;> simp [set, get?, h, ih]

theorem get?_set_of_ne {key other : κ} (h : other ≠ key) (value : α) (table : Table κ α) :
    (table.set key value).get? other = table.get? other := by
  induction table with
  | nil => simp [set, get?, Ne.symm h]
  | cons e rest ih =>
    obtain ⟨k, v⟩ := e
    by_cases hk : k = key
    · simp [set, get?, hk, Ne.symm h]
    · simp only [set, hk, if_false, get?, ih]

end Table
end UpgradeAudit
