/-
# Twin runs

Two runs under one host that begin in different worlds, of which nothing is known but that their
files are alike in some way.  They are **twins** when they end alike: with values that are
related, or with the same failure, and with files that are alike again.

Twins compose as actions do (`twin_bind`, `twin_attempt`, `twin_mapFailure`), so that it is enough
to look at the single operations.  An action that is its own twin `Repeats`: what comes of it
depends on nothing in which alike files may differ.
-/
import UpgradeAudit.Proofs.Host.Actions
import UpgradeAudit.Proofs.Host.Files

namespace UpgradeAudit

variable {α β γ δ : Type} {host : Host} {E : FileTree → FileTree → Prop}

/-! ## 1. Outcomes that agree -/

/-- Outcomes that agree: values that are related, or the same failure. -/
inductive Agree (P : α → β → Prop) : Except Failure α → Except Failure β → Prop
  | ok {a : α} {b : β} (h : P a b) : Agree P (.ok a) (.ok b)
  | error (f : Failure) : Agree P (.error f) (.error f)

namespace Agree

theorem of_eq (r : Except Failure α) : Agree (· = ·) r r := by
  cases r with
  | error f => exact .error f
  | ok a => exact .ok rfl

theorem eq {r s : Except Failure α} (h : Agree (· = ·) r s) : r = s := by
  cases h with
  | error f => rfl
  | ok h => rw [h]

theorem imp {P Q : α → β → Prop} {r : Except Failure α} {s : Except Failure β}
    (h : Agree P r s) (hpq : ∀ a b, P a b → Q a b) : Agree Q r s := by
  cases h with
  | error f => exact .error f
  | ok h => exact .ok (hpq _ _ h)

theorem mapError {P : α → β → Prop} {r : Except Failure α} {s : Except Failure β}
    (h : Agree P r s) (replace : Failure → Failure) :
    Agree P (r.mapError replace) (s.mapError replace) := by
  cases h with
  | error f => exact .error (replace f)
  | ok h => exact .ok h

end Agree

/-! ## 2. Twins -/

namespace Action

/-- Actions that end alike, and leave alike files, where they find alike files. -/
def Twin (host : Host) (E : FileTree → FileTree → Prop) (P : α → β → Prop) (x : Action α)
    (y : Action β) : Prop :=
  ∀ w v, E w.files v.files →
    Agree P (x host w).1 (y host v).1 ∧ E (x host w).2.files (y host v).2.files

/-- An action that ends alike whenever the files are alike. -/
abbrev Repeats (host : Host) (E : FileTree → FileTree → Prop) (x : Action α) : Prop :=
  Twin host E (· = ·) x x

theorem Twin.imp {P Q : α → β → Prop} {x : Action α} {y : Action β}
    (h : Twin host E P x y) (hpq : ∀ a b, P a b → Q a b) : Twin host E Q x y :=
  fun w v halike => ⟨(h w v halike).1.imp hpq, (h w v halike).2⟩

theorem twin_pure {P : α → β → Prop} {a : α} {b : β} (h : P a b) :
    Twin host E P (pure a) (pure b) := fun _ _ halike => ⟨.ok h, halike⟩

theorem twin_fail {P : α → β → Prop} (f : Failure) :
    Twin host E P (fail f) (fail f) := fun _ _ halike => ⟨.error f, halike⟩

theorem twin_ofExcept {P : α → β → Prop} {r : Except Failure α} {s : Except Failure β}
    (h : Agree P r s) : Twin host E P (ofExcept r) (ofExcept s) := by
  intro w v halike
  rw [ofExcept_run, ofExcept_run]
  exact ⟨h, halike⟩

theorem repeats_ofCauses (r : Except Cause α) : Repeats host E (ofCauses r) := by
  intro w v halike
  rw [ofCauses_run, ofCauses_run]
  exact ⟨.of_eq _, halike⟩

/-- **Twins followed by twins are twins.** -/
theorem twin_bind {P : α → β → Prop} {Q : γ → δ → Prop} {x : Action α} {y : Action β}
    {f : α → Action γ} {g : β → Action δ} (hx : Twin host E P x y)
    (hf : ∀ a b, P a b → Twin host E Q (f a) (g b)) :
    Twin host E Q (x >>= f) (y >>= g) := by
  intro w v halike
  obtain ⟨agree, after⟩ := hx w v halike
  rcases hxw : x host w with ⟨e | a, w'⟩ <;> rcases hyv : y host v with ⟨e' | b, v'⟩ <;>
    rw [hxw, hyv] at agree after <;> cases agree
  case error => simpa only [bind_of_error hxw, bind_of_error hyv] using ⟨.error e, after⟩
  case ok h => simpa only [bind_of_ok hxw, bind_of_ok hyv] using hf a b h w' v' after

theorem repeats_bind {x : Action α} {f : α → Action β} (hx : Repeats host E x)
    (hf : ∀ a, Repeats host E (f a)) : Repeats host E (x >>= f) :=
  twin_bind hx fun a _ h => h ▸ hf a

theorem twin_attempt {P : α → β → Prop} {x : Action α} {y : Action β}
    (h : Twin host E P x y) : Twin host E (Agree P) (attempt x) (attempt y) :=
  fun w v halike => ⟨.ok (h w v halike).1, (h w v halike).2⟩

theorem repeats_attempt {x : Action α} (h : Repeats host E x) :
    Repeats host E (attempt x) :=
  fun w v halike => ⟨.ok (h w v halike).1.eq, (h w v halike).2⟩

theorem twin_mapFailure {P : α → β → Prop} {x : Action α} {y : Action β}
    (h : Twin host E P x y) (replace : Failure → Failure) :
    Twin host E P (mapFailure replace x) (mapFailure replace y) := by
  intro w v halike
  rw [mapFailure_run, mapFailure_run]
  exact ⟨(h w v halike).1.mapError replace, (h w v halike).2⟩

/-- Actions that change no file are twins when their outcomes agree. -/
theorem twin_of_aside {P : α → β → Prop} {x : Action α} {y : Action β}
    (hx : Within host .aside x) (hy : Within host .aside y)
    (h : ∀ w v, E w.files v.files → Agree P (x host w).1 (y host v).1) :
    Twin host E P x y := by
  intro w v halike
  rw [hx.files_eq, hy.files_eq]
  exact ⟨h w v halike, halike⟩

/-- The moments of two runs may differ. -/
theorem twin_moment : Twin host E (fun _ _ => True) moment moment :=
  twin_of_aside within_moment within_moment fun _ _ _ => .ok trivial

theorem twin_host : Twin host E (fun h h' => h = host ∧ h' = host) Action.host Action.host :=
  twin_of_aside within_host within_host fun _ _ _ => .ok ⟨rfl, rfl⟩

/-- What happens may differ, too. -/
theorem twin_record (e e' : Event) : Twin host E (· = ·) (record e) (record e') :=
  fun _ _ halike => ⟨.ok rfl, halike⟩

theorem repeats_checkName (path : String) : Repeats host E (checkName path) := by
  unfold checkName
  split
  · exact twin_fail _
  · exact twin_pure rfl

theorem twin_discardDirectory (d d' : Nat) :
    Twin host E (· = ·) (discardDirectory d) (discardDirectory d') :=
  twin_of_aside (within_discardDirectory d) (within_discardDirectory d') fun _ _ _ => .ok rfl

end Action
end UpgradeAudit
