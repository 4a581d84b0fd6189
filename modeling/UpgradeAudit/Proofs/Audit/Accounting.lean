/-
# Every dependency that moves is accounted for

The dependencies that an upgrade moves are audited in their order, each by one call: an inspection
of one that is new, a comparison of one that was required before.  Whatever the calls do, nothing
happens between them but that log records are kept (`Serial`).

A failure that no run survives (`Failure.Ruinous`) makes its call the last one and is the failure of
the whole.  Without one, **every dependency is accounted for exactly once**: by what its call found,
or by the text of the failure that the call ended with (`ofChanges_accounted`).  A full comparison
is its root with such an account of everything else that moved (`compareFully_accounted`).
-/
import UpgradeAudit.Proofs.Audit.Independence

namespace UpgradeAudit

variable {α β : Type} {host : Host}

/-! ## 1. Failures that no run survives -/

/-- The causes after which nothing can be relied on: the environment is unusable, or a manifest
file was not put back. -/
inductive Cause.Fatal : Cause → Prop
  | setup (message : String) : Fatal (.setup message)
  | restore (path reason : String) : Fatal (.restore path reason)

theorem Cause.isFatal_iff {c : Cause} : c.isFatal = true ↔ c.Fatal := by
  constructor
  · intro h
    cases c with
    | setup message => exact .setup message
    | restore path reason => exact .restore path reason
    | _ => cases h
  · rintro (_ | _) <;> rfl

/-- A failure that no run survives: it is none of the audit, or a fatal cause is somewhere in it,
however deep. -/
def Failure.Ruinous (f : Failure) : Prop := f.isOfAudit = false ∨ ∃ c ∈ f.causes, c.Fatal

theorem Failure.stops_iff_ruinous {f : Failure} : f.Stops ↔ f.Ruinous := by
  simp only [Stops, Ruinous, isFatal_iff_causes, List.any_eq_true, Cause.isFatal_iff]

namespace Resolution

/-! ## 2. Calls -/

/-- The record that is kept before a dependency is audited. -/
def begun (change : ChangedDependency) : LogRecord where
  severity := .info
  origin := origin
  event := "recursive.dep_start"
  details := [("dep", .text change.path), ("old_version", .orNull .text change.oldVersion),
    ("new_version", .text change.newVersion)]

/-- The record that is kept of a dependency that could not be audited. -/
def failed (change : ChangedDependency) (f : Failure) : LogRecord where
  severity := .warning
  origin := origin
  event := "recursive.dep_failed"
  details := [("dep", .text change.path), ("error", .text f.message)]

section calls

variable (inspect : String → String → Action β) (compare : String → String → String → Action α)
  (host : Host)

/-- One call, which begins in one world and ends in another: a new dependency is inspected, and one
that moved is compared. -/
inductive Called (change : ChangedDependency) (w w' : World) : Except Failure (α ⊕ β) → Prop
  | inspected {outcome : Except Failure β} (new : change.oldVersion = none)
      (run : inspect change.path change.newVersion host w = (outcome, w')) :
      Called change w w' (outcome.map .inr)
  | compared {old : String} {outcome : Except Failure α} (moved : change.oldVersion = some old)
      (run : compare change.path old change.newVersion host w = (outcome, w')) :
      Called change w w' (outcome.map .inl)

/-- A dependency that was called for, and what the call came to: a comparison, an inspection, or a
failure. -/
structure Answer (α β : Type) where
  change : ChangedDependency
  outcome : Except Failure (α ⊕ β)

/-- The answers to calls that follow each other from one world to another.  Each call begins where
the one before it ended, log records apart, and none of them fails ruinously. -/
inductive Serial (w₀ : World) : List (Answer α β) → World → Prop
  | nil : Serial w₀ [] w₀
  | found {answers : List (Answer α β)} {w w' : World} {change : ChangedDependency} {a : α ⊕ β}
      (before : Serial w₀ answers w)
      (called : Called inspect compare host change (w.logging host (begun change)) w' (.ok a)) :
      Serial w₀ (answers ++ [⟨change, .ok a⟩]) w'
  | failed {answers : List (Answer α β)} {w w' : World} {change : ChangedDependency} {f : Failure}
      (before : Serial w₀ answers w)
      (called : Called inspect compare host change (w.logging host (begun change)) w' (.error f))
      (survived : ¬ f.Ruinous) :
      Serial w₀ (answers ++ [⟨change, .error f⟩]) (w'.logging host (failed change f))

end calls

/-! ## 3. Accounts -/

/-- The comparisons among answers. -/
def comparisonsOf (answers : List (Answer α β)) : List α :=
  answers.filterMap fun answer => match answer.outcome with
    | .ok (.inl a) => some a
    | _ => none

/-- The inspections among answers. -/
def inspectionsOf (answers : List (Answer α β)) : List β :=
  answers.filterMap fun answer => match answer.outcome with
    | .ok (.inr b) => some b
    | _ => none

/-- The dependencies whose calls failed, with the texts of the failures. -/
def failuresOf (answers : List (Answer α β)) : List DependencyFailure :=
  answers.filterMap fun answer => match answer.outcome with
    | .error f => some ⟨answer.change, f.message⟩
    | .ok _ => none

/-- A resolution that accounts for changed dependencies by one answer for each of them. -/
structure Accounts (changed : List ChangedDependency) (answers : List (Answer α β))
    (r : Resolution α β) : Prop where
  once : answers.map Answer.change = changed
  listed : r.changed = changed
  comparisons : r.comparisons = comparisonsOf answers
  inspections : r.inspections = inspectionsOf answers
  failures : r.failures = failuresOf answers
  total : r.comparisons.length + r.inspections.length + r.failures.length = changed.length

/-- How the audit of changed dependencies may end: with an account of all of them, or with the
ruinous failure of the last call, as it is and where it arose. -/
inductive Accounted (inspect : String → String → Action β)
    (compare : String → String → String → Action α) (host : Host)
    (changed : List ChangedDependency) (w : World) : Except Failure (Resolution α β) × World → Prop
  | all {answers : List (Answer α β)} {r : Resolution α β} {w' : World}
      (serial : Serial inspect compare host w answers w') (accounts : Accounts changed answers r) :
      Accounted inspect compare host changed w (.ok r, w')
  | stopped {answers : List (Answer α β)} {change : ChangedDependency}
      {rest : List ChangedDependency} {f : Failure} {w₁ w' : World}
      (serial : Serial inspect compare host w answers w₁)
      (upTo : changed = answers.map Answer.change ++ change :: rest)
      (called : Called inspect compare host change (w₁.logging host (begun change)) w' (.error f))
      (ruinous : f.Ruinous) :
      Accounted inspect compare host changed w (.error f, w')

/-- Every answer is a comparison, an inspection or a failure. -/
theorem length_answers : ∀ answers : List (Answer α β),
    (comparisonsOf answers).length + (inspectionsOf answers).length + (failuresOf answers).length
      = answers.length
  | [] => rfl
  | ⟨change, outcome⟩ :: answers => by
    have ih := length_answers answers
    simp only [comparisonsOf, inspectionsOf, failuresOf] at ih
    rcases outcome with f | a | b <;>
      simp only [comparisonsOf, inspectionsOf, failuresOf, List.filterMap_cons,
        List.length_cons] <;> omega

/-- The resolution of changed dependencies as far as they were answered. -/
def answered (changed : List ChangedDependency) (answers : List (Answer α β)) :
    Resolution α β where
  changed := changed
  comparisons := comparisonsOf answers
  inspections := inspectionsOf answers
  failures := failuresOf answers

theorem accounts_answered (answers : List (Answer α β)) :
    Accounts (answers.map Answer.change) answers
      (answered (answers.map Answer.change) answers) := by
  refine ⟨rfl, rfl, rfl, rfl, rfl, ?_⟩
  rw [List.length_map]
  exact length_answers answers

/-! ## 4. One dependency -/

variable (inspect : String → String → Action β) (compare : String → String → String → Action α)

/-- What an answer is among the findings of a resolution. -/
def Finding.ofAnswer : α ⊕ β → Finding α β
  | .inl a => .comparison a
  | .inr b => .inspection b

theorem called_examine (change : ChangedDependency) (host : Host) (w : World) :
    ∃ outcome w', Called inspect compare host change w w' outcome ∧
      examine inspect compare change host w = (outcome.map Finding.ofAnswer, w') := by
  unfold examine
  cases hversion : change.oldVersion with
  | none =>
    rcases hrun : inspect change.path change.newVersion host w with ⟨f | b, w'⟩
    · exact ⟨_, w', .inspected hversion hrun, Action.bind_of_error hrun _⟩
    · exact ⟨_, w', .inspected hversion hrun, Action.bind_of_ok hrun _⟩
  | some old =>
    rcases hrun : compare change.path old change.newVersion host w with ⟨f | a, w'⟩
    · exact ⟨_, w', .compared hversion hrun, Action.bind_of_error hrun _⟩
    · exact ⟨_, w', .compared hversion hrun, Action.bind_of_ok hrun _⟩

/-- How the audit of one dependency may end. -/
inductive Audited (host : Host) (change : ChangedDependency) (w : World) :
    Except Failure (Finding α β) × World → Prop
  | found {a : α ⊕ β} {w' : World}
      (called : Called inspect compare host change (w.logging host (begun change)) w' (.ok a)) :
      Audited host change w (.ok (.ofAnswer a), w')
  | failed {f : Failure} {w' : World}
      (called : Called inspect compare host change (w.logging host (begun change)) w' (.error f))
      (survived : ¬ f.Ruinous) :
      Audited host change w
        (.ok (.failure ⟨change, f.message⟩), w'.logging host (failed change f))
  | ruined {f : Failure} {w' : World}
      (called : Called inspect compare host change (w.logging host (begun change)) w' (.error f))
      (ruinous : f.Ruinous) : Audited host change w (.error f, w')

/-- **One dependency is audited by one call.** -/
theorem audited (change : ChangedDependency) (host : Host) (w : World) :
    Audited inspect compare host change w (audit inspect compare change host w) := by
  obtain ⟨outcome, w', called, hexamine⟩ :=
    called_examine inspect compare change host (w.logging host (begun change))
  have hrun : audit inspect compare change host w
      = settle change (outcome.map Finding.ofAnswer) host w' := by
    show settle change (examine inspect compare change host (w.logging host (begun change))).1 host
      (examine inspect compare change host (w.logging host (begun change))).2 = _
    rw [hexamine]
  rw [hrun]
  cases outcome with
  | ok a => exact .found called
  | error f =>
    by_cases h : f.Ruinous
    · have hsettle : (settle change (.error f) : Action (Finding α β)) host w' = (.error f, w') :=
        settle_of_stops (Failure.stops_iff_ruinous.2 h) change
      exact hsettle ▸ .ruined called h
    · have hsettle : (settle change (.error f) : Action (Finding α β)) host w'
          = (.ok (.failure ⟨change, f.message⟩), w'.logging host (failed change f)) :=
        settle_of_not_stops (mt Failure.stops_iff_ruinous.1 h) change
      exact hsettle ▸ .failed called h

/-! ## 5. All dependencies -/

theorem add_ofAnswer (changed : List ChangedDependency) (answers : List (Answer α β))
    (change : ChangedDependency) (a : α ⊕ β) :
    (answered changed answers).add (.ofAnswer a)
      = answered changed (answers ++ [⟨change, .ok a⟩]) := by
  cases a <;>
    simp [add, answered, Finding.ofAnswer, comparisonsOf, inspectionsOf, failuresOf]

theorem add_failure (changed : List ChangedDependency) (answers : List (Answer α β))
    (change : ChangedDependency) (f : Failure) :
    (answered changed answers).add (.failure ⟨change, f.message⟩)
      = answered changed (answers ++ [⟨change, .error f⟩]) := by
  simp [add, answered, comparisonsOf, inspectionsOf, failuresOf]

/-- The dependencies that are left are audited as the ones before them were. -/
theorem accounted_auditAll {changed : List ChangedDependency} {w₀ : World} :
    ∀ (changes : List ChangedDependency) {answers : List (Answer α β)} {w : World},
      Serial inspect compare host w₀ answers w →
      changed = answers.map Answer.change ++ changes →
      Accounted inspect compare host changed w₀
        (auditAll inspect compare (answered changed answers) changes host w)
  -- By induction on what is left; what is done already is in the answers so far.
  | [], answers, w, serial, hchanged => by
    rw [List.append_nil] at hchanged
    subst hchanged
    exact .all serial (accounts_answered answers)
  | change :: changes, answers, w, serial, hchanged => by
    have hstep := audited inspect compare change host w
    unfold auditAll
    rcases haudit : audit inspect compare change host w with ⟨outcome, w'⟩
    rw [haudit] at hstep
    cases hstep with
    | @found a _ called =>
      rw [Action.bind_of_ok haudit, add_ofAnswer changed answers change]
      refine accounted_auditAll changes (.found serial called) ?_
      simpa using hchanged
    | @failed f _ called survived =>
      rw [Action.bind_of_ok haudit, add_failure]
      refine accounted_auditAll changes (.failed serial called survived) ?_
      simpa using hchanged
    | ruined called ruinous =>
      rw [Action.bind_of_error haudit]
      exact .stopped serial hchanged called ruinous

/-- **Every changed dependency is accounted for, unless a failure that no run survives ends the
run.**  This holds whatever inspections and comparisons do. -/
theorem ofChanges_accounted (host : Host) (changed : List ChangedDependency) (w : World) :
    Accounted inspect compare host changed w (ofChanges inspect compare changed host w) :=
  accounted_auditAll inspect compare changed .nil rfl

end Resolution

namespace Workspace

/-- The record that is kept of how many other dependencies moved. -/
def counted (dep : String) (changed : List ChangedDependency) : LogRecord where
  severity := .info
  origin := origin
  event := "recursive.changed"
  details := [("dep", .text dep), ("changed", .nat changed.length)]

/-- What is reported last does not change the outcome. -/
theorem bind_reported_outcome (x : Action (Resolution Comparison Inspection)) (dep : String)
    (root : Comparison) (host : Host) (w : World) :
    ((x >>= fun others => reported dep { root, others }) host w).1
      = (x host w).1.map fun others => { root, others } := by
  rcases hx : x host w with ⟨f | others, w'⟩
  · rw [Action.bind_of_error hx]
    rfl
  · rw [Action.bind_of_ok hx]
    unfold reported
    split <;> rfl

/-- **A full comparison fails as the comparison of its root does, or it is this root with an account
of everything else that moved.** -/
theorem compareFully_accounted (ws : Workspace) (dep old new : String) (host : Host) (w : World) :
    (∃ f, (ws.comparePinned dep old new host w).1 = .error f ∧
      (ws.compareFully dep old new host w).1 = .error f) ∨
    ∃ p w₁ others, ws.comparePinned dep old new host w = (.ok p, w₁) ∧
      Resolution.Accounted ws.inspect ws.compare host (moved dep p)
        (w₁.logging host (counted dep (moved dep p))) others ∧
      (ws.compareFully dep old new host w).1
        = others.1.map fun r => { root := p.1, others := r } := by
  rw [compareFully_eq]
  rcases hpinned : ws.comparePinned dep old new host w with ⟨f | p, w₁⟩
  · rw [Action.bind_of_error hpinned]
    exact Or.inl ⟨f, rfl, rfl⟩
  · rw [Action.bind_of_ok hpinned, Action.bind_of_ok (Action.log_run ..), bind_reported_outcome]
    refine Or.inr ⟨p, w₁, _, rfl, ?_, rfl⟩
    exact Resolution.accounted_auditAll ws.inspect ws.compare (moved dep p) .nil rfl

end Workspace
end UpgradeAudit
