/-
# Escaped paths tell modules apart

Escaping takes the upper-case letters out of a path.  As none is left, escaping again finds nothing
to do, and a file system that does not tell the two cases apart sees the path as it is
(`escape_escape`, `toLower_escape`).

Nothing is lost, as the mark for an upper-case letter stands in no path of a module: reading marks
back as upper-case letters gives the path again (`unescape_escape`).  So **paths whose escaped forms
differ in case only are the same** (`escape_keeps_apart`).
-/
import Mathlib.Data.List.Basic
import UpgradeAudit.ModulePath

namespace UpgradeAudit.ModulePath

/-! ## 1. Single characters -/

theorem isUpper_iff {c : Char} : c.isUpper = true ↔ 'A' ≤ c ∧ c ≤ 'Z' := decide_eq_true_iff

theorem escapeChar_of_isUpper {c : Char} (h : c.isUpper = true) :
    escapeChar c = ['!', c.toLower] := by
  have hupper : ('A' ≤ c && c ≤ 'Z') = true := by
    simpa using isUpper_iff.1 h
  rw [escapeChar, if_pos hupper]

theorem escapeChar_of_not_isUpper {c : Char} (h : c.isUpper = false) : escapeChar c = [c] := by
  have hupper : ¬ ('A' ≤ c && c ≤ 'Z') = true := by
    simpa using mt isUpper_iff.2 (Bool.eq_false_iff.1 h)
  rw [escapeChar, if_neg hupper]

/-- The upper-case letters are twenty-six in a row. -/
theorem exists_of_isUpper {c : Char} (h : c.isUpper = true) :
    ∃ n : Fin 26, c = Char.ofNat ('A'.toNat + n) := by
  have range : 65 ≤ c.toNat ∧ c.toNat ≤ 90 := isUpper_iff.1 h
  refine ⟨⟨c.toNat - 65, by omega⟩, ?_⟩
  have place : 'A'.toNat + (c.toNat - 65) = c.toNat := by
    change 65 + _ = _
    omega
  rw [place, Char.ofNat_toNat]

theorem isUpper_toLower_of_isUpper {c : Char} (h : c.isUpper = true) :
    c.toLower.isUpper = false := by
  obtain ⟨n, rfl⟩ := exists_of_isUpper h
  revert n
  decide

/-- An upper-case letter can be told from its lower-case form. -/
theorem toUpper_toLower_of_isUpper {c : Char} (h : c.isUpper = true) : c.toLower.toUpper = c := by
  obtain ⟨n, rfl⟩ := exists_of_isUpper h
  revert n
  decide

theorem toLower_of_not_isUpper {c : Char} (h : c.isUpper = false) : c.toLower = c := by
  have outside : ¬ ('A' ≤ c ∧ c ≤ 'Z') := mt isUpper_iff.2 (Bool.eq_false_iff.1 h)
  exact dif_neg outside

/-- What is escaped holds no upper-case letter. -/
theorem isUpper_of_mem_escapeChar {c d : Char} (h : d ∈ escapeChar c) : d.isUpper = false := by
  cases hc : c.isUpper with
  | true =>
    rw [escapeChar_of_isUpper hc] at h
    rcases List.mem_cons.1 h with rfl | h
    · decide
    · obtain rfl := List.mem_singleton.1 h
      exact isUpper_toLower_of_isUpper hc
  | false =>
    rw [escapeChar_of_not_isUpper hc] at h
    obtain rfl := List.mem_singleton.1 h
    exact hc

/-! ## 2. Reading back -/

/-- A text with marks read back: a mark makes the letter after it an upper-case one. -/
def unescape : List Char → List Char
  | [] => []
  | '!' :: c :: rest => c.toUpper :: unescape rest
  | c :: rest => c :: unescape rest

theorem unescape_cons {c : Char} (h : c ≠ '!') (rest : List Char) :
    unescape (c :: rest) = c :: unescape rest := by
  rw [unescape]
  rintro _ _ rfl
  exact absurd rfl h

/-- **Escaping is undone by reading back**, where the text has no marks of its own. -/
theorem unescape_escape {text : List Char} (h : '!' ∉ text) :
    unescape (text.flatMap escapeChar) = text := by
  induction text with
  | nil => rfl
  | cons c text ih =>
    rw [List.mem_cons, not_or] at h
    rw [List.flatMap_cons]
    cases hc : c.isUpper with
    | true =>
      rw [escapeChar_of_isUpper hc]
      show c.toLower.toUpper :: unescape (text.flatMap escapeChar) = c :: text
      rw [toUpper_toLower_of_isUpper hc, ih h.2]
    | false =>
      rw [escapeChar_of_not_isUpper hc, List.singleton_append, unescape_cons (Ne.symm h.1), ih h.2]

/-- Paths without marks are told apart by their escaped forms. -/
theorem eq_of_escape_eq_escape {p q : String} (hp : '!' ∉ p.toList) (hq : '!' ∉ q.toList)
    (h : escape p = escape q) : p = q := by
  have hlist : p.toList.flatMap escapeChar = q.toList.flatMap escapeChar :=
    String.ofList_injective h
  rw [← String.toList_inj, ← unescape_escape hp, hlist, unescape_escape hq]

/-! ## 3. Escaped paths -/

/-- An escaped path holds no upper-case letter. -/
theorem isUpper_of_mem_escape {p : String} : ∀ c ∈ (escape p).toList, c.isUpper = false := by
  intro c hc
  rw [escape, String.toList_ofList] at hc
  obtain ⟨d, -, hd⟩ := List.mem_flatMap.1 hc
  exact isUpper_of_mem_escapeChar hd

/-- A path without upper-case letters is escaped already. -/
theorem escape_eq_self {p : String} (h : ∀ c ∈ p.toList, c.isUpper = false) : escape p = p := by
  have hplain : ∀ c ∈ p.toList, escapeChar c = [c] := fun c hc => escapeChar_of_not_isUpper (h c hc)
  rw [escape, List.flatMap_congr hplain, List.flatMap_singleton', String.ofList_toList]

/-- Case does not show in an escaped path. -/
theorem toLower_escape (p : String) : (escape p).toLower = escape p := by
  have hlower : ∀ c ∈ (escape p).toList, c.toLower = c := fun c hc =>
    toLower_of_not_isUpper (isUpper_of_mem_escape c hc)
  change (escape p).map Char.toLower = escape p
  rw [← String.toList_inj, String.toList_map, List.map_congr_left hlower, List.map_id']

/-- **Escaped paths keep modules apart where case does not count**: those of different modules
differ in more than case, when no path has marks of its own.  An escaped path holds no upper-case
letter, is left alone by escaping, and goes piece by piece. -/
theorem escape_keeps_apart (p q : String) :
    ('!' ∉ p.toList → '!' ∉ q.toList → (escape p).toLower = (escape q).toLower → p = q) ∧
    (∀ c ∈ (escape p).toList, c.isUpper = false) ∧
    escape (escape p) = escape p ∧
    escape (p ++ q) = escape p ++ escape q := by
  refine ⟨fun hp hq h => ?_, isUpper_of_mem_escape, escape_eq_self isUpper_of_mem_escape, ?_⟩
  · rw [toLower_escape, toLower_escape] at h
    exact eq_of_escape_eq_escape hp hq h
  · rw [escape, escape, escape, String.toList_append, List.flatMap_append, String.ofList_append]

/-- Two modules whose paths differ in case only. -/
theorem escape_keeps_apart_azure :
    let p := "github.com/Azure/azure-sdk"
    let q := "github.com/azure/Azure-sdk"
    '!' ∉ p.toList ∧ '!' ∉ q.toList ∧ p.toLower = q.toLower ∧
      (escape p).toLower ≠ (escape q).toLower := by
  intro p q
  have hp : '!' ∉ p.toList := by decide
  have hq : '!' ∉ q.toList := by decide
  have hcase : p.toLower = q.toLower := by
    change p.map Char.toLower = q.map Char.toLower
    rw [← String.toList_inj, String.toList_map, String.toList_map]
    decide
  have hne : p ≠ q := by decide
  refine ⟨hp, hq, hcase, fun h => hne ?_⟩
  exact (escape_keeps_apart p q).1 hp hq h

end UpgradeAudit.ModulePath
