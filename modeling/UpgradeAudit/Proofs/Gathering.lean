/-
# What gathered work comes to

Work that was begun together ends in some order, and each ending fills a place (`Endings`).  Before
the last ending there is no answer, and after it all places are filled as the outcomes say,
whatever the order was (`places_finishAll`).  So the answer depends on the outcomes alone, and
`Gathered` says how: a cancellation goes before every other failure, failures are joined in the
order of the places, and **what is returned holds no failure**.

A failure that was joined of nothing would be lost in a join; none is among the outcomes.  Two
outcomes of different types come to the same as a list of two (`gather_pair`).
-/
import UpgradeAudit.Proofs.FanIn
import UpgradeAudit.Proofs.Joining

namespace UpgradeAudit.FanIn

variable {α β : Type}

/-! ## 1. Endings -/

/-- The endings of work that comes to the given outcomes, in some order: each piece ends once. -/
def Endings (outcomes : List (Except Failure α)) (endings : List (Nat × Except Failure α)) : Prop :=
  endings.Perm (outcomes.zipIdx.map Prod.swap)

theorem length_finishAll (f : FanIn α) (endings : List (Nat × Except Failure α)) :
    (f.finishAll endings).places.length = f.places.length := by
  induction endings generalizing f with
  | nil => rfl
  | cons e endings ih =>
    rw [finishAll, List.foldl_cons, ← finishAll, ih, finish, List.length_set]

/-- A place is left alone by work that has another place. -/
theorem getElem?_finishAll_of_not_mem {endings : List (Nat × Except Failure α)} {place : Nat}
    (h : place ∉ endings.map Prod.fst) (f : FanIn α) :
    (f.finishAll endings).places[place]? = f.places[place]? := by
  induction endings generalizing f with
  | nil => rfl
  | cons e endings ih =>
    rw [List.map_cons, List.mem_cons, not_or] at h
    rw [finishAll, List.foldl_cons, ← finishAll, ih h.2, finish, List.getElem?_set_ne (Ne.symm h.1)]

/-- A place holds what the work that has it ended with. -/
theorem getElem?_finishAll_of_mem {endings : List (Nat × Except Failure α)}
    (hnodup : (endings.map Prod.fst).Nodup) {place : Nat} {outcome : Except Failure α}
    (h : (place, outcome) ∈ endings) {f : FanIn α} (hplace : place < f.places.length) :
    (f.finishAll endings).places[place]? = some (some outcome) := by
  induction endings generalizing f with
  | nil => cases h
  | cons e endings ih =>
    rw [List.map_cons, List.nodup_cons] at hnodup
    rw [finishAll, List.foldl_cons, ← finishAll]
    rcases List.mem_cons.1 h with rfl | h
    · rw [getElem?_finishAll_of_not_mem hnodup.1, finish, List.getElem?_set_self hplace]
    · exact ih hnodup.2 h (by rw [finish, List.length_set]; exact hplace)

/-- When all places are filled there is an answer. -/
theorem outcome?_of_filled {f : FanIn α} {outcomes : List (Except Failure α)}
    (h : f.places = outcomes.map some) : f.outcome? = some (gather outcomes) := by
  have hfilled (os : List (Except Failure α)) : (os.map some).mapM id = some os := by
    induction os with
    | nil => rfl
    | cons o os ih =>
      rw [List.map_cons, List.mapM_cons, ih]
      rfl
  rw [outcome?, h, hfilled]
  rfl

theorem outcome?_of_underWay {f : FanIn α} (h : none ∈ f.places) : f.outcome? = none := by
  have hnone (places : List (Option (Except Failure α))) (h : none ∈ places) :
      places.mapM id = none := by
    induction places with
    | nil => cases h
    | cons p places ih =>
      cases p with
      | none => rfl
      | some o => simp [ih ((List.mem_cons.1 h).resolve_left (by simp))]
  rw [outcome?, hnone _ h]
  rfl

section endings

variable {outcomes : List (Except Failure α)} {endings : List (Nat × Except Failure α)}

theorem Endings.length (h : Endings outcomes endings) : endings.length = outcomes.length := by
  simpa using h.length_eq

/-- No two pieces of work have one place. -/
theorem Endings.nodup (h : Endings outcomes endings) : (endings.map Prod.fst).Nodup := by
  have hplaces : (outcomes.zipIdx.map Prod.swap).map Prod.fst = List.range' 0 outcomes.length := by
    rw [List.map_map, ← List.zipIdx_map_snd 0 outcomes]
    rfl
  rw [(h.map Prod.fst).nodup_iff, hplaces]
  exact List.nodup_range'

theorem Endings.mem_iff (h : Endings outcomes endings) {place : Nat}
    {outcome : Except Failure α} :
    (place, outcome) ∈ endings ↔ outcomes[place]? = some outcome := by
  rw [List.Perm.mem_iff h, ← List.mk_mem_zipIdx_iff_getElem?, List.mem_map]
  constructor
  · rintro ⟨⟨o, i⟩, hmem, hswap⟩
    obtain ⟨rfl, rfl⟩ := Prod.mk.inj hswap
    exact hmem
  · intro hmem
    exact ⟨_, hmem, rfl⟩

/-- **Once all work has ended, the places hold the outcomes**, whatever the order was. -/
theorem Endings.places (h : Endings outcomes endings) :
    ((begun outcomes.length).finishAll endings).places = outcomes.map some := by
  have hlength : ((begun outcomes.length).finishAll endings).places.length = outcomes.length := by
    rw [length_finishAll, begun, List.length_replicate]
  refine List.ext_getElem? fun place => ?_
  cases hplace : outcomes[place]? with
  | none =>
    have hout := List.getElem?_eq_none_iff.1 hplace
    rw [List.getElem?_eq_none (by omega), List.getElem?_map, hplace]
    rfl
  | some outcome =>
    obtain ⟨hlt, -⟩ := List.getElem?_eq_some_iff.1 hplace
    rw [getElem?_finishAll_of_mem h.nodup (h.mem_iff.2 hplace) (by simpa [begun] using hlt),
      List.getElem?_map, hplace]
    rfl

/-- **As long as some work is under way there is no answer.** -/
theorem Endings.outcome?_take (h : Endings outcomes endings) {n : Nat} (hn : n < outcomes.length) :
    ((begun outcomes.length).finishAll (endings.take n)).outcome? = none := by
  -- The work that ends next has a place that no other fills.
  have hnext : n < endings.length := by rw [h.length]; exact hn
  have hplace : endings[n].1 ∉ (endings.take n).map Prod.fst := by
    have hsplit : endings.take n ++ endings[n] :: endings.drop (n + 1) = endings := by
      rw [← List.drop_eq_getElem_cons, List.take_append_drop]
    have hnodup := h.nodup
    rw [← hsplit, List.map_append, List.nodup_append] at hnodup
    exact fun hmem => hnodup.2.2 _ hmem _ List.mem_cons_self rfl
  have hlt : endings[n].1 < outcomes.length :=
    (List.getElem?_eq_some_iff.1 (h.mem_iff.1 (List.getElem_mem hnext))).1
  refine outcome?_of_underWay (List.mem_of_getElem? (i := endings[n].1) ?_)
  rw [getElem?_finishAll_of_not_mem hplace, begun, List.getElem?_replicate, if_pos hlt]

end endings

/-! ## 2. Outcomes -/

/-- The failures among outcomes, in their order. -/
def failures (outcomes : List (Except Failure α)) : List Failure := outcomes.filterMap failure?

/-- None of the outcomes is a failure that was joined of nothing. -/
def NoHollow (outcomes : List (Except Failure α)) : Prop :=
  ∀ notes, .error (.joined [] notes) ∉ outcomes

/-- What outcomes come to when they are gathered, whatever the order in which they were known. -/
structure Gathered (outcomes : List (Except Failure α))
    (r : Except Failure (List (Except Failure α))) : Prop where
  /-- The outcomes are returned, in their order, exactly when none of them is a failure. -/
  returned (os : List (Except Failure α)) :
    r = .ok os ↔ os = outcomes ∧ ∀ o ∈ outcomes, ∃ a, o = .ok a
  /-- The first cancellation is passed on, whatever else failed. -/
  cancelled {before after : List Failure} {f : Failure}
    (h : failures outcomes = before ++ f :: after) (hf : f.isCancellation = true)
    (first : ∀ g ∈ before, g.isCancellation = false) : r = .error f
  /-- Without a cancellation all failures are joined, and every leaf of them is kept in order. -/
  joined (h : failures outcomes ≠ []) (none : ∀ g ∈ failures outcomes, g.isCancellation = false) :
    ∃ f, r = .error f ∧ Failure.join ((failures outcomes).map some) = some f ∧
      f.leaves = (failures outcomes).flatMap Failure.leaves

section outcomes

variable {outcomes : List (Except Failure α)}

theorem mem_failures_iff {f : Failure} : f ∈ failures outcomes ↔ .error f ∈ outcomes := by
  rw [failures, List.mem_filterMap]
  constructor
  · rintro ⟨_ | g, hmem, hfailure⟩
    · obtain rfl := Option.some.inj hfailure
      exact hmem
    · cases hfailure
  · intro hmem
    exact ⟨_, hmem, rfl⟩

theorem failures_eq_nil_iff : failures outcomes = [] ↔ ∀ o ∈ outcomes, ∃ a, o = .ok a := by
  rw [failures, List.filterMap_eq_nil_iff]
  refine forall₂_congr fun o _ => ?_
  cases o <;> simp [failure?]

theorem present_map_some (fs : List Failure) : Failure.present (fs.map some) = fs := by
  rw [Failure.present, List.filterMap_map]
  exact List.filterMap_some

/-- The failure of outcomes is that of their failures: the first cancellation, or all joined. -/
theorem failureOf_eq (outcomes : List (Except Failure α)) :
    failureOf (outcomes.map failure?) = ((failures outcomes).find? Failure.isCancellation).or
      (Failure.join ((failures outcomes).map some)) := by
  have hpresent : Failure.present (outcomes.map failure?) = failures outcomes := by
    rw [Failure.present, List.filterMap_map]
    rfl
  have hjoin : Failure.join (outcomes.map failure?)
      = Failure.join ((failures outcomes).map some) := by
    rw [Failure.join_eq_tie, Failure.join_eq_tie, hpresent, present_map_some]
  rw [failureOf, hjoin, ← Failure.present, hpresent]
  cases (failures outcomes).find? Failure.isCancellation <;> rfl

/-- **Outcomes have no failure exactly when none of them is one.** -/
theorem failureOf_eq_none_iff (h : NoHollow outcomes) :
    failureOf (outcomes.map failure?) = none ↔ failures outcomes = [] := by
  rw [failureOf_eq, Option.or_eq_none_iff, Failure.join_eq_none_iff, present_map_some]
  constructor
  · rintro ⟨-, hempty⟩
    refine List.eq_nil_iff_forall_not_mem.2 fun f hf => ?_
    obtain ⟨notes, rfl⟩ := hempty f hf
    exact h notes (mem_failures_iff.1 hf)
  · intro hnil
    simp [hnil]

/-- **What outcomes come to.** -/
theorem gathered_gather (h : NoHollow outcomes) : Gathered outcomes (gather outcomes) where
  returned os := by
    rw [← failures_eq_nil_iff, ← failureOf_eq_none_iff h, gather]
    cases failureOf (outcomes.map failure?) with
    | none => simp [eq_comm]
    | some f => simp
  cancelled {before after f} hsplit hf first := by
    have hfound : (failures outcomes).find? Failure.isCancellation = some f := by
      rw [hsplit, List.find?_append, List.find?_eq_none.2 fun g hg => by simp [first g hg]]
      simp [hf]
    rw [gather, failureOf_eq, hfound]
    rfl
  joined hne hnone := by
    have hfound : (failures outcomes).find? Failure.isCancellation = none :=
      List.find?_eq_none.2 fun g hg => by simp [hnone g hg]
    have hfailure := failureOf_eq outcomes
    rw [hfound, Option.none_or] at hfailure
    cases hjoin : Failure.join ((failures outcomes).map some) with
    | none =>
      rw [hjoin] at hfailure
      exact absurd ((failureOf_eq_none_iff h).1 hfailure) hne
    | some f =>
      rw [hjoin] at hfailure
      have hleaves := Failure.leaves_join ((failures outcomes).map some)
      rw [hjoin, present_map_some] at hleaves
      exact ⟨f, by rw [gather, hfailure], rfl, by simpa using hleaves⟩

end outcomes

/-- **Two outcomes of different types come to what they come to in a list.** -/
theorem gather_pair {a : Except Failure α} {b : Except Failure β}
    (h : NoHollow [a.map Sum.inl, b.map Sum.inr]) :
    gather [a.map Sum.inl, b.map Sum.inr]
      = (both a b).map fun p => [.ok (.inl p.1), .ok (.inr p.2)] := by
  have hfailure : [a.map Sum.inl, b.map Sum.inr].map failure? = [failure? a, failure? b] := by
    cases a <;> cases b <;> rfl
  unfold gather both
  rw [hfailure]
  cases hboth : failureOf [failure? a, failure? b] with
  | some f => rfl
  | none =>
    rw [← hfailure, failureOf_eq_none_iff h, failures_eq_nil_iff] at hboth
    cases a with
    | error f => simpa [Except.map] using hboth _ List.mem_cons_self
    | ok x =>
      cases b with
      | error f => simpa [Except.map] using hboth _ (List.mem_cons_of_mem _ List.mem_cons_self)
      | ok y => rfl

/-! ## 3. Gathering -/

/-- **Gathered work is waited for to its last ending, and what comes of it does not depend on the
order of the endings**: the outcomes, when all are values, or the first cancellation, or all
failures joined, in the order of the places. -/
theorem finishAll_gathers {outcomes : List (Except Failure α)} (h : NoHollow outcomes) :
    ∃ r, Gathered outcomes r ∧ ∀ endings, Endings outcomes endings →
      (∀ n < outcomes.length,
        ((begun outcomes.length).finishAll (endings.take n)).outcome? = none) ∧
      ((begun outcomes.length).finishAll endings).outcome? = some r := by
  refine ⟨gather outcomes, gathered_gather h, fun endings hendings => ⟨?_, ?_⟩⟩
  · intro n hn
    exact hendings.outcome?_take hn
  · exact outcome?_of_filled hendings.places

/-- Two of three failed, one of them for two causes, and the last one was the first to end. -/
theorem finishAll_gathers_joined :
    let capslock : Failure := .ofCause (.analyzer "capslock" "no output")
    let linters : List Failure := [.ofCause (.analyzer "golangci-lint" "exit 3"),
      .ofCause (.analyzer "staticcheck" "exit 2")]
    let outcomes : List (Except Failure Nat) :=
      [.error capslock, .ok 7, .error (.joined linters ["while inspecting d@v1"])]
    let endings := [(2, .error (.joined linters ["while inspecting d@v1"])), (0, .error capslock),
      (1, .ok 7)]
    NoHollow outcomes ∧ Endings outcomes endings ∧
      ((begun 3).finishAll endings).outcome?
        = some (.error (.joined (capslock :: linters) [])) := by
  intro capslock linters outcomes endings
  have hempty : NoHollow outcomes := by
    intro notes
    simp [outcomes, capslock, linters, Failure.ofCause]
  have hendings : Endings outcomes endings := by
    exact (List.Perm.swap _ _ _).trans ((List.Perm.swap _ _ _).cons _)
  refine ⟨hempty, hendings, ?_⟩
  obtain ⟨r, hr, hall⟩ := finishAll_gathers hempty
  have hnone : ∀ g ∈ failures outcomes, g.isCancellation = false := by
    intro g hg
    have hg : g = capslock ∨ g = .joined linters ["while inspecting d@v1"] := by
      simpa [outcomes, failures, failure?, eq_comm] using hg
    rcases hg with rfl | rfl <;> rfl
  obtain ⟨f, rfl, hjoin, -⟩ := hr.joined (by simp [outcomes, failures, failure?]) hnone
  obtain rfl := Option.some.inj hjoin
  exact (hall endings hendings).2

end UpgradeAudit.FanIn
