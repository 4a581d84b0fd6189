/-
# The first place of a text

A search for one text in another finds the first place where it occurs, and it finds one whenever
there is one (`splitFirst?_eq_some_iff`, `splitFirst?_eq_none_iff`).  A text that does not begin
before its place is found there (`splitFirst?_of_not_infix`).
-/
import Mathlib.Data.List.Infix
import UpgradeAudit.Text.Search

namespace UpgradeAudit.Text

variable {α : Type} {mark s : List α}

/-- The mark stands between `before` and `after`, and nowhere earlier. -/
structure FirstPlace (mark s before after : List α) : Prop where
  eq : s = before ++ mark ++ after
  first : ∀ before' after', s = before' ++ mark ++ after' → before.length ≤ before'.length

/-- There is one first place at most. -/
theorem FirstPlace.unique {before after before' after' : List α}
    (h : FirstPlace mark s before after) (h' : FirstPlace mark s before' after') :
    before = before' ∧ after = after' := by
  have hle := h.first before' after' h'.eq
  have hge := h'.first before after h.eq
  have hparts : before ++ (mark ++ after) = before' ++ (mark ++ after') := by
    rw [← List.append_assoc, ← List.append_assoc, ← h.eq, ← h'.eq]
  obtain ⟨hbefore, hrest⟩ := List.append_inj hparts (by omega)
  exact ⟨hbefore, List.append_cancel_left hrest⟩

theorem FirstPlace.infix {before after : List α} (h : FirstPlace mark s before after) :
    mark <:+: s := ⟨before, after, h.eq.symm⟩

theorem FirstPlace.mem {before after : List α} (h : FirstPlace mark s before after) {a : α}
    (ha : a ∈ after) : a ∈ s := by
  rw [h.eq]
  exact List.mem_append_right _ ha

variable [BEq α] [LawfulBEq α]

/-- A mark at the front is found there. -/
theorem splitFirst?_append (mark rest : List α) :
    splitFirst? mark (mark ++ rest) = some ([], rest) := by
  cases h : mark ++ rest with
  | nil =>
    obtain ⟨rfl, rfl⟩ := List.append_eq_nil_iff.1 h
    rfl
  | cons a s => rw [splitFirst?, ← h, isPrefixOf?_append]

/-- Where a mark stands, one is found that stands no later. -/
theorem exists_splitFirst? (mark before after : List α) :
    ∃ before' after', splitFirst? mark (before ++ mark ++ after) = some (before', after') ∧
      before'.length ≤ before.length := by
  induction before with
  | nil => exact ⟨[], after, splitFirst?_append mark after, Nat.le_refl _⟩
  | cons a before ih =>
    rw [List.cons_append, List.cons_append, splitFirst?]
    split
    · rename_i rest _
      exact ⟨[], rest, rfl, Nat.zero_le _⟩
    · obtain ⟨before', after', hfound, hle⟩ := ih
      rw [hfound]
      exact ⟨a :: before', after', rfl, Nat.succ_le_succ hle⟩

/-- **What is found is the first place.** -/
theorem splitFirst?_eq_some_iff {before after : List α} :
    splitFirst? mark s = some (before, after) ↔ FirstPlace mark s before after := by
  have sound {before after : List α} (h : splitFirst? mark s = some (before, after)) :
      FirstPlace mark s before after := by
    refine ⟨eq_of_splitFirst? h, fun before' after' heq => ?_⟩
    obtain ⟨found, rest, hfound, hle⟩ := exists_splitFirst? mark before' after'
    rw [← heq, h] at hfound
    obtain ⟨rfl, rfl⟩ := Prod.mk.inj (Option.some.inj hfound)
    exact hle
  constructor
  · exact sound
  · intro h
    obtain ⟨found, rest, hfound, -⟩ := exists_splitFirst? mark before after
    rw [← h.eq] at hfound
    obtain ⟨rfl, rfl⟩ := h.unique (sound hfound)
    exact hfound

/-- Nothing is found in a text without the mark, and only there. -/
theorem splitFirst?_eq_none_iff : splitFirst? mark s = none ↔ ¬ mark <:+: s := by
  constructor
  · rintro hnone ⟨before, after, rfl⟩
    obtain ⟨found, rest, hfound, -⟩ := exists_splitFirst? mark before after
    rw [hnone] at hfound
    cases hfound
  · intro h
    cases hs : splitFirst? mark s with
    | none => rfl
    | some p => exact absurd ⟨p.1, p.2, (eq_of_splitFirst? (b := p.2) hs).symm⟩ h

/-- A mark that stands somewhere has a first place. -/
theorem exists_firstPlace (h : mark <:+: s) : ∃ before after, FirstPlace mark s before after := by
  cases hs : splitFirst? mark s with
  | none => exact absurd h (splitFirst?_eq_none_iff.1 hs)
  | some p => exact ⟨p.1, p.2, splitFirst?_eq_some_iff.1 hs⟩

/-- A mark is found at its place when it does not begin before it. -/
theorem splitFirst?_of_not_infix (h : ¬ mark <:+: s ++ mark.dropLast) (rest : List α) :
    splitFirst? mark (s ++ mark ++ rest) = some (s, rest) := by
  refine splitFirst?_eq_some_iff.2 ⟨rfl, fun before after heq => ?_⟩
  by_contra hearlier
  -- a mark that began earlier would end before the last character of the one at this place
  have hbegins : before ++ mark <+: s ++ mark ++ rest := ⟨after, heq.symm⟩
  have hparts : s ++ mark.dropLast <+: s ++ mark ++ rest :=
    ((List.prefix_append_right_inj _).2 (List.dropLast_prefix mark)).trans (List.prefix_append _ _)
  have hprefix : before ++ mark <+: s ++ mark.dropLast := by
    refine List.prefix_of_prefix_length_le hbegins hparts ?_
    simp only [List.length_append, List.length_dropLast]
    omega
  exact h ((List.suffix_append before mark).isInfix.trans hprefix.isInfix)

end UpgradeAudit.Text
