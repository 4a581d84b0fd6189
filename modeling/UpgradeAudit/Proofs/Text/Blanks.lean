/-
# Blanks at the ends of a text

Stripping a text forgets the blanks at its ends and nothing else: two texts are stripped to the
same one exactly when they have a part in common that has nothing but blanks around it in both
(`strip_eq_iff`).
-/
import Mathlib.Data.List.TakeWhile
import UpgradeAudit.Text.Blank

namespace UpgradeAudit.Text

theorem isBlank_of_isDigit {c : Char} (h : c.isDigit = true) : isBlank c = false := by
  simp only [Char.isDigit, Bool.and_eq_true, decide_eq_true_eq] at h
  have hlow : 0x30 ≤ c.toNat := h.1
  have hhigh : c.toNat ≤ 0x39 := h.2
  simp only [isBlank, inRanges, blankRanges, List.any_cons, List.any_nil,
    Bool.or_false, Bool.or_eq_false_iff, Bool.and_eq_false_iff, decide_eq_false_iff_not]
  omega

/-- A text with nothing but blanks around a part of it. -/
def Padded (core s : List Char) : Prop :=
  ∃ before after, (∀ c ∈ before, isBlank c = true) ∧ (∀ c ∈ after, isBlank c = true) ∧
    s = before ++ core ++ after

/-- Two texts that differ in nothing but the blanks at their ends. -/
def SameInside (s t : String) : Prop := ∃ core, Padded core s.toList ∧ Padded core t.toList

theorem trimStart_append {before : List Char} (h : ∀ c ∈ before, isBlank c = true)
    (s : List Char) : trimStart (before ++ s) = trimStart s :=
  List.dropWhile_append_of_pos h

theorem trimEnd_append {after : List Char} (h : ∀ c ∈ after, isBlank c = true) (s : List Char) :
    trimEnd (s ++ after) = trimEnd s := by
  rw [trimEnd, trimEnd, List.reverse_append,
    List.dropWhile_append_of_pos fun c hc => h c (List.mem_reverse.1 hc)]

theorem trim_of_padded {core s : List Char} (h : Padded core s) : trim s = trim core := by
  obtain ⟨before, after, hbefore, hafter, rfl⟩ := h
  rw [trim, trim, List.append_assoc, trimStart_append hbefore]
  rw [trimStart, trimStart, List.dropWhile_append]
  split
  · rename_i hempty
    have hnil : after.dropWhile isBlank = [] := List.dropWhile_eq_nil_iff.2 hafter
    rw [List.isEmpty_iff.1 hempty, hnil]
  · exact trimEnd_append hafter _

/-- What is trimmed off a text is blank. -/
theorem padded_trim (s : List Char) : Padded (trim s) s := by
  refine ⟨s.takeWhile isBlank, ((trimStart s).reverse.takeWhile isBlank).reverse,
    fun c hc => List.mem_takeWhile_imp hc,
    fun c hc => List.mem_takeWhile_imp (List.mem_reverse.1 hc), ?_⟩
  rw [trim, trimEnd, List.append_assoc, ← List.reverse_append, List.takeWhile_append_dropWhile,
    List.reverse_reverse, trimStart, List.takeWhile_append_dropWhile]

/-- **Texts are stripped to the same one when they differ in nothing but the blanks at their
ends**, and only then. -/
theorem strip_eq_iff {s t : String} : strip s = strip t ↔ SameInside s t := by
  rw [strip, strip, String.ofList_inj]
  constructor
  · intro h
    exact ⟨trim s.toList, padded_trim s.toList, h ▸ padded_trim t.toList⟩
  · rintro ⟨core, hs, ht⟩
    rw [trim_of_padded hs, trim_of_padded ht]

/-- Blanks put before a stripped text are stripped again. -/
theorem strip_append_strip {lead : String} (h : ∀ c ∈ lead.toList, isBlank c = true) (s : String) :
    strip (lead ++ strip s) = strip s := by
  refine strip_eq_iff.2 ⟨trim s.toList, ⟨lead.toList, [], h, by simp, ?_⟩, padded_trim s.toList⟩
  simp [strip, String.toList_append]

end UpgradeAudit.Text
