/-
# What two outcomes come to

Both values, when there are two (`both_eq_ok_iff`).  Otherwise a cancellation goes before
everything else, and without one nothing of either failure is lost: its causes are those of the
first followed by those of the second (`both_error`).
-/
import UpgradeAudit.FanIn
import UpgradeAudit.Proofs.Failures

namespace UpgradeAudit.FanIn

variable {α β : Type} {a : Except Failure α} {b : Except Failure β} {f : Failure}

/-- The causes of an outcome; a value has none. -/
def causes : Except Failure α → List Cause
  | .ok _ => []
  | .error f => f.causes

theorem causesOfPresent_pair (a : Except Failure α) (b : Except Failure β) :
    Failure.causesOfPresent [failure? a, failure? b] = causes a ++ causes b := by
  cases a <;> cases b <;> simp [Failure.causesOfPresent, failure?, causes]

theorem mem_failures {f : Failure} (h : f ∈ [failure? a, failure? b].filterMap id) :
    a = .error f ∨ b = .error f := by
  cases a <;> cases b <;> simp_all [failure?, eq_comm]

/-- **Two outcomes are both values exactly when what comes of them is.** -/
theorem both_eq_ok_iff {x : α} {y : β} : both a b = .ok (x, y) ↔ a = .ok x ∧ b = .ok y := by
  constructor
  · intro h
    unfold both at h
    split at h
    · cases h
    · obtain ⟨rfl, rfl⟩ := Prod.mk.inj (Except.ok.inj h)
      exact ⟨rfl, rfl⟩
    · cases h
    · cases h
  · rintro ⟨rfl, rfl⟩
    rfl

/-- The failure of two outcomes is a cancellation among them; without one, it is what they join
to. -/
theorem failureOf_pair (a : Except Failure α) (b : Except Failure β) :
    (∃ g, failureOf [failure? a, failure? b] = some g ∧ g.isCancellation = true ∧
        (a = .error g ∨ b = .error g)) ∨
      failureOf [failure? a, failure? b] = Failure.join [failure? a, failure? b] ∧
        ∀ g, a = .error g ∨ b = .error g → g.isCancellation = false := by
  unfold failureOf
  cases hfind : ([failure? a, failure? b].filterMap id).find? Failure.isCancellation with
  | some g =>
    exact Or.inl ⟨g, rfl, List.find?_some hfind, mem_failures (List.mem_of_find?_eq_some hfind)⟩
  | none =>
    refine Or.inr ⟨rfl, fun g hg => ?_⟩
    have hmem : g ∈ [failure? a, failure? b].filterMap id := by
      rcases hg with rfl | rfl <;> simp [failure?]
    exact Bool.eq_false_iff.2 (List.find?_eq_none.1 hfind g hmem)

/-- **A failure of two outcomes is a cancellation of one of them, or holds the causes of both.** -/
theorem both_error (h : both a b = .error f) :
    (f.isCancellation = true ∧ (a = .error f ∨ b = .error f)) ∨
      (∀ g, a = .error g ∨ b = .error g → g.isCancellation = false) ∧
        f.causes = causes a ++ causes b := by
  rcases failureOf_pair a b with ⟨g, hg, hcancelled, hmem⟩ | ⟨hjoin, hnone⟩
  · unfold both at h
    rw [hg] at h
    obtain rfl := Except.error.inj h
    exact Or.inl ⟨hcancelled, hmem⟩
  refine Or.inr ⟨hnone, ?_⟩
  have joined := Failure.causes_join [failure? a, failure? b]
  rw [causesOfPresent_pair, ← hjoin] at joined
  unfold both at h
  split at h
  · rename_i g hg
    obtain rfl := Except.error.inj h
    rw [hg] at joined
    exact joined
  · cases h
  -- failures without a cause join to nothing, and then the first one is passed on as it is
  · rename_i hempty
    obtain rfl := Except.error.inj h
    rw [hempty] at joined
    obtain ⟨ha, hb⟩ := List.append_eq_nil_iff.1 joined.symm
    rw [ha, hb]
    exact ha
  · rename_i hempty
    obtain rfl := Except.error.inj h
    rw [hempty] at joined
    obtain ⟨ha, hb⟩ := List.append_eq_nil_iff.1 joined.symm
    rw [ha, hb]
    exact hb

/-- Where nothing was cancelled, the causes of a failure of two outcomes are those of both. -/
theorem causes_both (ha : .cancelled ∉ causes a) (hb : .cancelled ∉ causes b)
    (h : both a b = .error f) : f.causes = causes a ++ causes b := by
  rcases both_error h with ⟨hcancelled, rfl | rfl⟩ | ⟨-, hcauses⟩
  · exact absurd (Failure.cancelled_mem_causes hcancelled) ha
  · exact absurd (Failure.cancelled_mem_causes hcancelled) hb
  · exact hcauses

theorem mem_causes {c : Cause} (h : c ∈ causes a) : ∃ e, a = .error e ∧ c ∈ e.causes := by
  cases a with
  | ok x => cases h
  | error e => exact ⟨e, rfl, h⟩

end UpgradeAudit.FanIn
