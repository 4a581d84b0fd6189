/-
# Inspections that do not influence each other

In a run in which every attempt to put the manifest files back succeeds, every transaction begins
with the files as they were when the run had been set up.  Under steady surroundings that is all
that an inspection depends on, so **each comes to what a fresh audit would come to**, whatever was
inspected, or failed, before it (`Call.run_isolated`).

`ComesTo` says so of any part of a run.  It composes: what a sequence comes to is what its parts
come to, one after the other, as if each had begun where the run began (`comesTo_bind`).

Programs that name a source file and leave it as it is are no obstacle, as long as it is always the
same (`Host.steady_ordinary`).  Isolation goes no further than the manifest files, though: what an
inspection leaves elsewhere the next one finds, and what the setup itself does to the manifest files
is not undone (`Call.compare_not_isolated`).
-/
import UpgradeAudit.Proofs.Audit.Repetition
import UpgradeAudit.Proofs.Audit.Restoration

namespace UpgradeAudit

variable {α β : Type} {host : Host} {w v : World} {ws : Workspace} {files : ManifestFiles}
  {usual : FileTree → Prop} {t : FileTree}

/-! ## 1. What a part of a run comes to -/

/-- Wherever the manifest files are like those of a tree, an action in which no file is missed
comes to one outcome and leaves them so; all this among the trees that are kept to. -/
structure Action.ComesTo (host : Host) (files : ManifestFiles) (usual : FileTree → Prop)
    (t : FileTree) (x : Action α) (r : Except Failure α) : Prop where
  grows : Within host (.deeds fun _ => True) x
  outcome : ∀ w es, files.AlikeIn usual w.files t → (x host w).2.deeds = w.deeds ++ es →
    (∀ path, ¬ MissedIn es path) → (x host w).1 = r ∧ files.AlikeIn usual (x host w).2.files t

namespace Action

theorem comesTo_pure (a : α) : ComesTo host files usual t (pure a) (.ok a) where
  grows := within_pure a
  outcome := fun _ _ halike _ _ => ⟨rfl, halike⟩

theorem comesTo_fail (f : Failure) :
    ComesTo host files usual t (fail f : Action α) (.error f) where
  grows := within_fail f
  outcome := fun _ _ halike _ _ => ⟨rfl, halike⟩

theorem comesTo_log (h : host.Steady files usual) (severity : Severity) (origin event : String)
    (details : List (String × Json)) :
    ComesTo host files usual t (log severity origin event details) (.ok ()) where
  grows := fun w => ⟨[], by rw [(within_logs severity origin event details w).1, List.append_nil],
    nofun⟩
  outcome := fun _ _ halike _ _ => ⟨rfl, h.recorded _ _ halike.here, halike.there,
    (h.records _ _).trans halike.alike⟩

/-- **A sequence comes to what its parts come to.** -/
theorem comesTo_bind {x : Action α} {r : Except Failure α} {f : α → Action β}
    {s : α → Except Failure β} (hx : ComesTo host files usual t x r)
    (hf : ∀ a, ComesTo host files usual t (f a) (s a)) :
    ComesTo host files usual t (x >>= f) (r.bind s) where
  grows := within_bind hx.grows fun a => (hf a).grows
  outcome := by
    intro w es halike hes hmissed
    rcases hxw : x host w with ⟨e | a, w'⟩
    · rw [bind_of_error hxw] at hes ⊢
      have hx := hx.outcome w es halike (by rw [hxw]; exact hes) hmissed
      rw [hxw] at hx
      rw [← hx.1]
      exact ⟨rfl, hx.2⟩
    · rw [bind_of_ok hxw] at hes ⊢
      obtain ⟨es₁, hes₁, -⟩ := hx.grows.rel_of_eq hxw
      obtain ⟨es₂, hes₂, -⟩ := (hf a).grows w'
      obtain rfl : es = es₁ ++ es₂ := by
        rw [hes₂, hes₁, List.append_assoc] at hes
        exact (List.append_cancel_left hes).symm
      have first := hx.outcome w es₁ halike (by rw [hxw]; exact hes₁)
        fun path hm => hmissed path (missedIn_append.2 (Or.inl hm))
      rw [hxw] at first
      rw [← first.1]
      exact (hf a).outcome w' es₂ first.2 hes₂
        fun path hm => hmissed path (missedIn_append.2 (Or.inr hm))

theorem comesTo_map {x : Action α} {r : Except Failure α} (hx : ComesTo host files usual t x r)
    (f : α → β) : ComesTo host files usual t (x >>= fun a => pure (f a)) (r.map f) := by
  have parts := comesTo_bind hx fun a => comesTo_pure (f a)
  cases r <;> exact parts

theorem comesTo_attempt {x : Action α} {r : Except Failure α}
    (hx : ComesTo host files usual t x r) : ComesTo host files usual t (attempt x) (.ok r) where
  grows := within_attempt hx.grows
  outcome := fun w es halike hes hmissed =>
    ⟨congrArg Except.ok (hx.outcome w es halike hes hmissed).1,
      (hx.outcome w es halike hes hmissed).2⟩

/-- **Sessions that repeat come to what they come to elsewhere.** -/
theorem comesTo_of_sessions {x : Action α} (hu : ws.manifest.Undisturbed host)
    (hs : ws.manifest.Separate) (hx : InSessions ws host x)
    (hr : Repeats host (ws.manifest.AlikeIn usual) x) (v : World) :
    ComesTo host ws.manifest usual v.files x (x host v).1 where
  grows := by
    intro w
    obtain ⟨ss, course, -⟩ := hx w
    exact ⟨_, course.deeds_eq, fun _ _ => trivial⟩
  outcome := by
    intro w es halike hes hmissed
    obtain ⟨ss, course, passes⟩ := hx w
    have restored := course.restored passes hu hs
    rw [List.append_cancel_left (course.deeds_eq.symm.trans hes)] at restored
    have kept := (hr w w (.refl _ halike.here)).2.here
    exact ⟨(hr w v halike).1.eq, kept, halike.there, (restored.alike hmissed).trans halike.alike⟩

end Action

/-! ## 2. Comparisons -/

namespace Workspace

theorem inspect_outcome (ws : Workspace) (dep version : String) (host : Host) (v : World) :
    (ws.inspect dep version host v).1
      = (ws.inspectPinned dep version host v).1.map Prod.fst := by
  unfold inspect
  rcases h : ws.inspectPinned dep version host v with ⟨f | found, v'⟩
  · rw [Action.bind_of_error h]
    rfl
  · rw [Action.bind_of_ok h]
    rfl

/-- What is needed of a workspace for its inspections to repeat. -/
structure Repeating (ws : Workspace) (host : Host) (usual : FileTree → Prop) : Prop where
  steady : host.Steady ws.manifest usual
  separate : ws.manifest.Separate
  workDir : ws.workDir ≠ ""

variable (h : ws.Repeating host usual)

include h

theorem comesTo_inspectPinned (dep version : String) (v : World) :
    Action.ComesTo host ws.manifest usual v.files (ws.inspectPinned dep version)
      (ws.inspectPinned dep version host v).1 :=
  Action.comesTo_of_sessions h.steady.undisturbed h.separate
    (onTrails_inspectPinned ws dep version host).inSessions
    (repeats_inspectPinned h.steady h.separate h.workDir dep version) v

theorem comesTo_inspect (dep version : String) (v : World) :
    Action.ComesTo host ws.manifest usual v.files (ws.inspect dep version)
      (ws.inspect dep version host v).1 :=
  Action.comesTo_of_sessions h.steady.undisturbed h.separate
    (onTrails_inspect ws dep version host).inSessions
    (repeats_inspect h.steady h.separate h.workDir dep version) v

theorem comesTo_compare (dep old new : String) (v : World) :
    Action.ComesTo host ws.manifest usual v.files (ws.compare dep old new)
      (ws.compare dep old new host v).1 :=
  Action.comesTo_of_sessions h.steady.undisturbed h.separate
    (onTrails_compare ws dep old new host).inSessions
    (repeats_compare h.steady h.separate h.workDir dep old new) v

/-- **A comparison comes to that of its two inspections**, each begun where the comparison was. -/
theorem comesTo_compare_apart (dep old new : String) (v : World) :
    Action.ComesTo host ws.manifest usual v.files (ws.compare dep old new)
      ((ws.inspect dep old host v).1.bind fun a =>
        (ws.inspect dep new host v).1.bind fun b =>
          .ok (Comparison.ofInspections dep ws.settings.matchColumns a b)) := by
  have pinned := Action.comesTo_bind (comesTo_inspectPinned h dep old v) fun a =>
    Action.comesTo_bind (comesTo_inspectPinned h dep new v) fun b =>
      Action.comesTo_pure (Comparison.ofInspections dep ws.settings.matchColumns a.1 b.1, a.2, b.2)
  have parts := Action.comesTo_bind pinned fun p => Action.comesTo_pure p.1
  rw [inspect_outcome, inspect_outcome]
  revert parts
  cases (ws.inspectPinned dep old host v).1 with
  | error f => exact id
  | ok a =>
    cases (ws.inspectPinned dep new host v).1 with
    | error f => exact id
    | ok b => exact id

end Workspace

/-! ## 3. The dependencies that an upgrade moves -/

namespace Resolution

/-- What a change comes to when its inspection or comparison comes to what is given. -/
def examined (inspect : String → String → Except Failure β)
    (compare : String → String → String → Except Failure α) (change : ChangedDependency) :
    Except Failure (Finding α β) :=
  match change.oldVersion with
  | none => (inspect change.path change.newVersion).map .inspection
  | some old => (compare change.path old change.newVersion).map .comparison

/-- A failure that concerns one dependency is a finding. -/
def settled (change : ChangedDependency) :
    Except Failure (Finding α β) → Except Failure (Finding α β)
  | .ok finding => .ok finding
  | .error f =>
    if ! f.isOfAudit || f.isFatal then .error f else .ok (.failure ⟨change, f.message⟩)

/-- What the changes come to, one after the other. -/
def gathered (inspect : String → String → Except Failure β)
    (compare : String → String → String → Except Failure α) :
    Resolution α β → List ChangedDependency → Except Failure (Resolution α β)
  | r, [] => .ok r
  | r, change :: rest =>
    (settled change (examined inspect compare change)).bind fun finding =>
      gathered inspect compare (r.add finding) rest

variable {inspect : String → String → Action β} {compare : String → String → String → Action α}
  {inspected : String → String → Except Failure β}
  {compared : String → String → String → Except Failure α}

theorem comesTo_settle (h : host.Steady files usual) (change : ChangedDependency)
    (r : Except Failure (Finding α β)) :
    Action.ComesTo host files usual t (settle change r) (settled change r) := by
  cases r with
  | ok finding => exact Action.comesTo_pure finding
  | error f =>
    have reported {finding : Finding α β} {origin event : String} {details : List (String × Json)} :
        Action.ComesTo host files usual t
          (Action.log .warning origin event details >>= fun _ => pure finding) (.ok finding) :=
      Action.comesTo_bind (Action.comesTo_log h _ _ _ _) fun _ => Action.comesTo_pure finding
    by_cases stops : ! f.isOfAudit || f.isFatal
    · simp only [settle, settled, if_pos stops]
      exact Action.comesTo_bind (Action.comesTo_fail f) fun _ => reported
    · simp only [settle, settled, if_neg stops]
      exact reported

section

variable (h : host.Steady files usual)
  (hi : ∀ dep version,
    Action.ComesTo host files usual t (inspect dep version) (inspected dep version))
  (hc : ∀ dep old new,
    Action.ComesTo host files usual t (compare dep old new) (compared dep old new))

include h hi hc

/-- **One dependency is audited as if it were the only one.** -/
theorem comesTo_audit (change : ChangedDependency) :
    Action.ComesTo host files usual t (audit inspect compare change)
      (settled change (examined inspected compared change)) := by
  have work : Action.ComesTo host files usual t (examine inspect compare change)
      (examined inspected compared change) := by
    unfold examine examined
    cases change.oldVersion with
    | none => exact Action.comesTo_map (hi _ _) _
    | some old => exact Action.comesTo_map (hc _ _ _) _
  exact Action.comesTo_bind (Action.comesTo_log h _ _ _ _) fun _ =>
    Action.comesTo_bind (Action.comesTo_attempt work) fun r => comesTo_settle h change r

theorem comesTo_auditAll : ∀ (changes : List ChangedDependency) (r : Resolution α β),
    Action.ComesTo host files usual t (auditAll inspect compare r changes)
      (gathered inspected compared r changes)
  | [], r => Action.comesTo_pure r
  | change :: changes, r =>
    Action.comesTo_bind (comesTo_audit h hi hc change) fun finding =>
      comesTo_auditAll changes (r.add finding)

end

end Resolution

namespace Workspace

theorem compare_outcome (ws : Workspace) (dep old new : String) (host : Host) (v : World) :
    (ws.compare dep old new host v).1
      = (ws.comparePinned dep old new host v).1.map Prod.fst := by
  unfold compare
  rcases h : ws.comparePinned dep old new host v with ⟨f | found, v'⟩
  · rw [Action.bind_of_error h]
    rfl
  · rw [Action.bind_of_ok h]
    rfl

/-- The other dependencies that differ between the manifests as they were pinned. -/
def moved (dep : String) (p : Comparison × Snapshot × Snapshot) : List ChangedDependency :=
  changedDependencies p.2.1.requirements p.2.2.requirements [dep]

/-- Reports whether some dependency could not be audited. -/
def reported (dep : String) (full : FullComparison) : Action FullComparison := do
  if ! full.others.failures.isEmpty then
    Action.log .warning origin "recursive.incomplete"
      [("dep", .text dep), ("failed", .nat full.others.failures.length)]
  return full

theorem compareFully_eq (ws : Workspace) (dep old new : String) :
    ws.compareFully dep old new = ws.comparePinned dep old new >>= fun p =>
      Action.log .info origin "recursive.changed"
          [("dep", .text dep), ("changed", .nat (moved dep p).length)] >>= fun _ =>
        Resolution.ofChanges ws.inspect ws.compare (moved dep p) >>= fun others =>
          reported dep ⟨p.1, others⟩ := by
  unfold compareFully
  congr 1

theorem comesTo_reported (h : host.Steady files usual) (dep : String) (full : FullComparison) :
    Action.ComesTo host files usual t (reported dep full) (.ok full) := by
  unfold reported
  split
  · exact Action.comesTo_bind (Action.comesTo_log h _ _ _ _) fun _ => Action.comesTo_pure full
  · exact Action.comesTo_pure full

/-- **A full comparison comes to that of its root and of every dependency that moved**, each begun
where the comparison was. -/
theorem comesTo_compareFully (h : ws.Repeating host usual) (dep old new : String) (v : World) :
    ∃ changed, Action.ComesTo host ws.manifest usual v.files (ws.compareFully dep old new)
      ((ws.compare dep old new host v).1.bind fun root =>
        (Resolution.gathered (fun dep version => (ws.inspect dep version host v).1)
            (fun dep old new => (ws.compare dep old new host v).1) ⟨changed, [], [], []⟩
            changed).bind fun others => .ok { root, others }) := by
  have pinned := Action.comesTo_of_sessions h.steady.undisturbed h.separate
    (onTrails_comparePinned ws dep old new host).inSessions
    (repeats_comparePinned h.steady h.separate h.workDir dep old new) v
  have others (changed : List ChangedDependency) :=
    Resolution.comesTo_auditAll h.steady (fun dep version => comesTo_inspect h dep version v)
      (fun dep old new => comesTo_compare h dep old new v) changed ⟨changed, [], [], []⟩
  have parts := Action.comesTo_bind pinned fun p =>
    Action.comesTo_bind (Action.comesTo_log h.steady .info origin "recursive.changed"
      [("dep", .text dep), ("changed", .nat (moved dep p).length)])
      fun _ => Action.comesTo_bind (others (moved dep p)) fun others =>
        comesTo_reported h.steady dep ⟨p.1, others⟩
  rw [compareFully_eq, compare_outcome]
  revert parts
  cases (ws.comparePinned dep old new host v).1 with
  | error f => exact fun parts => ⟨[], parts⟩
  | ok p => exact fun parts => ⟨moved dep p, parts⟩

end Workspace

/-! ## 4. Whole runs -/

namespace Call

variable {settings : Settings} {env : Environment} {known : Option Workspace} {u : World}

/-- What a call comes to in an audit that is set up for it alone. -/
def fresh (settings : Settings) (env : Environment) (host : Host) (u : World) (c : Call) :
    Except Failure c.Result :=
  (c.run settings env none host u).1

theorem fresh_of_ok (h : Workspace.prepare settings env host u = (.ok ws, v)) (c : Call) :
    fresh settings env host u c = (c.perform ws host v).1 := by
  unfold fresh run ready
  rw [Action.bind_of_ok h]

theorem fresh_of_error {f : Failure} (h : Workspace.prepare settings env host u = (.error f, v))
    (c : Call) : fresh settings env host u c = .error f := by
  unfold fresh run ready
  rw [Action.bind_of_error h]

/-- **What a call comes to is what fresh audits come to**: an inspection is that of a fresh one, a
comparison is that of two fresh inspections, and in a full comparison the root and every dependency
that moved are as if audited alone. -/
def Independent (settings : Settings) (env : Environment) (host : Host) (u : World) :
    (c : Call) → Except Failure c.Result → Prop
  | inspect dep version, r => r = fresh settings env host u (inspect dep version)
  | compare dep old new, r =>
    r = (fresh settings env host u (inspect dep old)).bind fun a =>
      (fresh settings env host u (inspect dep new)).bind fun b =>
        .ok (Comparison.ofInspections dep settings.matchColumns a b)
  | compareFully dep old new, r => ∃ changed,
    r = (fresh settings env host u (compare dep old new)).bind fun root =>
      (Resolution.gathered (fun dep version => fresh settings env host u (inspect dep version))
          (fun dep old new => fresh settings env host u (compare dep old new))
          ⟨changed, [], [], []⟩ changed).bind fun others => .ok { root, others }

theorem independent_of_error {f : Failure}
    (h : Workspace.prepare settings env host u = (.error f, v)) (c : Call) :
    c.Independent settings env host u (.error f) := by
  cases c with
  | inspect dep version => exact (fresh_of_error h _).symm
  | compare dep old new =>
    show _ = _
    rw [fresh_of_error h]
    rfl
  | compareFully dep old new =>
    refine ⟨[], ?_⟩
    rw [fresh_of_error h]
    rfl

/-- In a workspace a call comes to what fresh audits come to that prepare the same workspace. -/
theorem independent_perform (h : ws.Repeating host usual) (hsettings : ws.settings = settings)
    (hprepare : Workspace.prepare settings env host u = (.ok ws, v)) (c : Call) {es : List Event}
    (halike : ws.manifest.AlikeIn usual w.files v.files)
    (hes : (c.perform ws host w).2.deeds = w.deeds ++ es)
    (hmissed : ∀ path, ¬ MissedIn es path) :
    c.Independent settings env host u (c.perform ws host w).1 := by
  cases c with
  | inspect dep version =>
    show _ = _
    rw [fresh_of_ok hprepare]
    exact ((Workspace.comesTo_inspect h dep version v).outcome w es halike hes hmissed).1
  | compare dep old new =>
    show _ = _
    rw [fresh_of_ok hprepare, fresh_of_ok hprepare, ← hsettings]
    exact ((Workspace.comesTo_compare_apart h dep old new v).outcome w es halike hes hmissed).1
  | compareFully dep old new =>
    obtain ⟨changed, comes⟩ := Workspace.comesTo_compareFully h dep old new v
    refine ⟨changed, ?_⟩
    simp only [fresh_of_ok hprepare]
    exact (comes.outcome w es halike hes hmissed).1

/-- A world in which an audit that is set up for itself begins as a run does: it is set up alike,
and finds the manifest files then as the run does. -/
structure BeginsAs (settings : Settings) (env : Environment) (known : Option Workspace)
    (host : Host) (files : ManifestFiles) (w u : World) : Prop where
  setup : (Workspace.prepare settings env host u).1 = (ready settings env known host w).1
  files : files.Alike (Workspace.prepare settings env host u).2.files
    (ready settings env known host w).2.files

/-- A run in which no inspection influences another one. -/
structure Isolated (settings : Settings) (env : Environment) (known : Option Workspace)
    (host : Host) (files : ManifestFiles) (w : World) (c : Call) : Prop where
  /-- When every file is put back, the run comes to what fresh audits come to, under surroundings
  that are steady in the trees they keep to, and begun in such trees. -/
  run : ∃ es, (c.run settings env known host w).2.deeds = w.deeds ++ es ∧
    (∀ directory contents, Event.opened directory contents ∈ es →
      files.Hold contents (ready settings env known host w).2.files) ∧
    ((∀ path, ¬ MissedIn es path) → ∀ usual, host.Steady files usual → usual w.files →
      ∀ u, usual u.files → BeginsAs settings env known host files w u →
        c.Independent settings env host u (c.run settings env known host w).1)
  /-- Setting up leaves the files as they were, when the questions to the build tool do. -/
  spared : files.SparedBy host (settings.Asks env) →
    files.Alike (ready settings env known host w).2.files w.files
  /-- Where a run is set up for itself, a fresh audit begins as it does wherever the files are as
  they were before the run. -/
  begins : known = none → ∀ usual, host.Steady files usual →
    (ready settings env known host w).1.toOption.isSome →
      ∀ u, files.AlikeIn usual u.files w.files → BeginsAs settings env known host files w u

/-- Setting up opens no transaction. -/
theorem not_opened_of_prepares {d : Nat} {contents : ManifestContents} :
    ¬ (Event.opened d contents).Prepares settings env := by
  rintro (hstep | ⟨_, he⟩)
  · exact hstep
  · cases he

/-- Where a run is set up for itself, a fresh audit begins alike wherever the files are alike. -/
theorem beginsAs_of_alike (hsteady : host.Steady files usual)
    (hfiles : ∀ ws v, ready settings env none host w = (.ok ws, v) → ws.manifest = files)
    (hok : (ready settings env none host w).1.toOption.isSome)
    (halike : files.AlikeIn usual u.files w.files) : BeginsAs settings env none host files w u := by
  rcases hprepare : Workspace.prepare settings env host w with ⟨f | ws, v⟩
  · rw [ready, hprepare] at hok
    cases hok
  · obtain rfl := hfiles ws v hprepare
    obtain ⟨u', hagain, hleft⟩ := Workspace.prepare_again hsteady hprepare halike
    refine ⟨?_, ?_⟩
    · rw [hagain, ready, hprepare]
    · rw [hagain, ready, hprepare]
      exact hleft.alike

/-- What an audit was set up in stays among the trees that are kept to. -/
theorem usual_of_prepare (hsteady : host.Steady ws.manifest usual)
    (hprepare : Workspace.prepare settings env host u = (.ok ws, v)) (hu : usual u.files) :
    usual v.files := by
  obtain ⟨v', hagain, hleft⟩ := Workspace.prepare_again hsteady hprepare (.refl _ hu)
  exact hleft.there

theorem usual_of_ready (hsteady : host.Steady ws.manifest usual)
    (hready : ready settings env known host w = (.ok ws, v)) (hw : usual w.files) :
    usual v.files := by
  cases known with
  | none => exact usual_of_prepare hsteady hready hw
  | some ws' =>
    obtain ⟨-, rfl⟩ := Prod.mk.inj hready
    exact hw

/-- An audit that begins as a run does is set up as it is. -/
theorem BeginsAs.prepare_eq {r : Except Failure Workspace}
    (begins : BeginsAs settings env known host files w u)
    (hready : ready settings env known host w = (r, v)) :
    Workspace.prepare settings env host u = (r, (Workspace.prepare settings env host u).2) := by
  have hsame := begins.setup
  rw [hready] at hsame
  exact Prod.ext hsame rfl

/-- A run that is ready, and in which every file is put back, comes to what fresh audits come to
that begin as it does. -/
theorem BeginsAs.independent (begins : BeginsAs settings env known host ws.manifest w u)
    (hready : ready settings env known host w = (.ok ws, v)) (hws : ws.Known settings env)
    (hsteady : host.Steady ws.manifest usual) (hw : usual w.files) (hu : usual u.files)
    (c : Call) {es : List Event} (hes : (c.perform ws host v).2.deeds = v.deeds ++ es)
    (hmissed : ∀ path, ¬ MissedIn es path) :
    c.Independent settings env host u (c.perform ws host v).1 := by
  have hprepare := begins.prepare_eq hready
  have halike := begins.files
  rw [hready] at halike
  exact independent_perform ⟨hsteady, hws.separate, hws.workDir_ne_empty⟩ hws.settings_eq hprepare
    c ⟨usual_of_ready hsteady hready hw, usual_of_prepare hsteady hprepare hu, halike.symm⟩ hes
    hmissed

/-- **No inspection of a run influences another one.**  Every transaction begins with the files as
they were when the run was set up.  When every file is put back, each inspection comes under steady
surroundings to what a fresh audit comes to, whatever was inspected, or failed, before it. -/
theorem run_isolated (c : Call)
    (hknown : ∀ ws, known = some ws →
      ∃ host' v v', Workspace.prepare settings env host' v = (.ok ws, v'))
    (hfiles : ∀ ws v, ready settings env known host w = (.ok ws, v) → ws.manifest = files)
    (hu : files.Undisturbed host) : c.Isolated settings env known host files w where
  run := by
    rcases hready : ready settings env known host w with ⟨r, v⟩
    obtain ⟨setup, hsetup, hsteps⟩ := (within_ready_deeds settings env known host).rel_of_eq hready
    rcases run_cases settings env known c host w with
      ⟨f, v', hready', hrun⟩ | ⟨ws, v', ss, hready', course, passes⟩
    · obtain ⟨rfl, rfl⟩ := Prod.mk.inj (hready.symm.trans hready')
      rw [hrun]
      exact ⟨setup, hsetup, fun d contents hmem => absurd (hsteps _ hmem) not_opened_of_prepares,
        fun _ _ _ _ u _ begins => independent_of_error (begins.prepare_eq hready) c⟩
    · obtain ⟨rfl, rfl⟩ := Prod.mk.inj (hready.symm.trans hready')
      obtain rfl := hfiles ws v hready
      have hws := known_of_ready hknown hready
      have hrun : c.run settings env known host w = c.perform ws host v := by
        unfold run
        rw [Action.bind_of_ok hready]
      refine ⟨setup ++ ss.flatMap fun s => s.deeds ws host, ?_, ?_, ?_⟩
      · rw [course.deeds_eq, hsetup, List.append_assoc]
      · intro d contents hmem
        obtain hmem | hmem := List.mem_append.1 hmem
        · exact absurd (hsteps _ hmem) not_opened_of_prepares
        · obtain ⟨s, hss, hmem⟩ := List.mem_flatMap.1 hmem
          exact course.opened passes hu hws.separate s hss d contents hmem
      · intro hmissed usual hsteady hw u hu begins
        rw [hrun] at course ⊢
        exact begins.independent hready hws hsteady hw hu c course.deeds_eq
          fun path hm => hmissed path (missedIn_append.2 (Or.inr hm))
  spared hs := (within_ready_alike hu hs).rel_of_eq rfl
  begins := by
    rintro rfl usual hsteady hok u halike
    exact beginsAs_of_alike hsteady hfiles hok halike

end Call

/-! ## 5. Surroundings that are steady -/

/-- An absolute path stands for itself in every directory. -/
theorem Output.CheckStream.sourcePath_of_isAbsolute {file : String} (h : Path.isAbsolute file)
    (dir : String) : sourcePath (some dir) file = file := by
  unfold sourcePath
  split
  · rfl
  · rfl
  · rw [Path.join, if_pos h, ite_self]

/-- A program that leaves the files alone answers alike when the same stands at the source files
that its answer names. -/
theorem Start.answering_same {dir answer : String} {room : Nat} {t' : FileTree}
    (exitCode : Int) (named : List String)
    (hnamed : ((Output.CheckStream.problems (.bytes (Text.Utf8.encode answer)) room).toOption.getD
      []).map (fun p => p.location.file) = named)
    (hsources : ∀ file ∈ named, t.standing (Output.CheckStream.sourcePath (some dir) file)
      = t'.standing (Output.CheckStream.sourcePath (some dir) file)) (h : files.Alike t t') :
    Start.Same files room dir (.answering exitCode answer t) (.answering exitCode answer t') := by
  refine .runs rfl rfl rfl h fun path hpath => ?_
  revert hpath
  unfold Output.CheckStream.sources
  cases hproblems : Output.CheckStream.problems (.bytes (Text.Utf8.encode answer)) room with
  | error f => exact fun hpath => absurd hpath List.not_mem_nil
  | ok problems =>
    rw [hproblems] at hnamed
    intro hpath
    obtain ⟨p, hp, rfl⟩ := List.mem_map.1 hpath
    exact hsources _ (hnamed ▸ List.mem_map_of_mem hp)

/-- A module with one requirement, and a source file outside of it. -/
def FileTree.requiring (requirement : String) (source : Bytes) : FileTree where
  entries := [(["go.mod"], .file (Text.Utf8.encode ("module m\nrequire " ++ requirement ++ "\n"))),
    (["go.sum"], .file (Text.Utf8.encode requirement)), (["/", "d.go"], .file source)]
  held := none

/-- A host on which two versions of `d` can be fetched and audited, given the files that fetching
one leaves, and what the build tool says of the packages. -/
def Host.fetching (fetch : FileTree → String → FileTree) (packages : String) : Host :=
  .quiet fun t c =>
    match c.argv with
    | ["go", "env", "GOMODCACHE"] => .answering 0 "/c" t
    | ["go", "env", "GOMOD"] => .answering 0 "go.mod" t
    | ["go", "get", "d/...@v1"] => .answering 0 "" (fetch t "d v1")
    | ["go", "get", "d/...@v2"] => .answering 0 "" (fetch t "d v2")
    | "go" :: "list" :: _ => .answering 0 packages t
    | "staticcheck" :: _ =>
      .answering 0 "\x7b\"code\":\"\",\"location\":\x7b\"file\":\"/d.go\",\"line\":1\x7d\x7d" t
    | _ => .answering 0 "\x7b\x7d" t

/-- What a build tool says of the one package of `d`. -/
def onePackage : String :=
  "\x7b\"ImportPath\":\"d\",\"Dir\":\"/c\",\"Module\":\x7b\"Path\":\"d\"\x7d\x7d"

/-- A source file. -/
def sourceText : Bytes := Text.Utf8.encode "f()\n"

/-- The files before any version of `d` is fetched. -/
def FileTree.ordinary : FileTree := .requiring "e v1" sourceText

/-- A host on which both versions of `d` have the same source. -/
def Host.ordinary : Host := .fetching (fun _ version => .requiring version sourceText) onePackage

/-- Trees in which that source stands. -/
def FileTree.Sourced (t : FileTree) : Prop :=
  t.standing "/d.go" = .ok (some (.file sourceText))

namespace FileTree

theorem sourced_requiring (requirement : String) :
    (requiring requirement sourceText).Sourced := by rfl

/-- The source is no manifest file. -/
theorem Sourced.write {content : Bytes} {path : String} {t' : FileTree}
    (hpath : ManifestFiles.here.Has path) (h : t.Sourced) (hwrite : t.write path content = .ok t') :
    t'.Sourced := by
  rcases standing_write_other hwrite h with hkept | ⟨-, loc, hloc, hsource⟩
  · exact hkept
  · have below : loc = ["/", "d.go"] :=
      (eq_destination_of_walk (walk_of_locate hsource)).trans (by decide +kernel)
    have beside : loc = ["go.mod"] ∨ loc = ["go.sum"] := by
      rw [eq_destination_of_walk (walk_of_locate hloc)]
      rcases hpath with rfl | rfl
      · exact Or.inl (by decide +kernel)
      · exact Or.inr (by decide +kernel)
    rw [below] at beside
    exact absurd beside (by decide)

end FileTree

/-- **This host is steady** in the trees in which the source stands, although one of its programs
names the source and leaves it as it is. -/
theorem Host.steady_ordinary : Host.ordinary.Steady .here FileTree.Sourced := by
  refine Host.steady_quiet (fun t t' c halike => ?_) (fun t c b ht hb => ?_)
    fun path content t t' hpath ht hwrite => ht.write hpath hwrite
  · have alone {answer : String} (named : List String)
        (hnamed : ((Output.CheckStream.problems (.bytes (Text.Utf8.encode answer))
          Json.usualRoom).toOption.getD []).map (fun p => p.location.file) = named)
        (hfile : ∀ file ∈ named, file = "/d.go") :
        Start.Same .here Json.usualRoom c.cwd (.answering 0 answer t) (.answering 0 answer t') := by
      refine Start.answering_same 0 named hnamed (fun file hmem => ?_) halike.alike
      rw [hfile file hmem, Output.CheckStream.sourcePath_of_isAbsolute (by decide)]
      exact halike.here.trans halike.there.symm
    have fetched (t : FileTree) : Start.Same .here Json.usualRoom c.cwd (.answering 0 "" t)
        (.answering 0 "" t) := .runs rfl rfl rfl (.refl _ t) fun _ _ => rfl
    split
    · exact alone [] (by decide +kernel) nofun
    · exact alone [] (by decide +kernel) nofun
    · exact fetched _
    · exact fetched _
    · exact alone [] (by decide +kernel) nofun
    · exact alone ["/d.go"] (by decide +kernel) fun _ => List.mem_singleton.1
    · exact alone [] (by decide +kernel) nofun
  · split at hb <;> cases hb
    · exact ht
    · exact ht
    · exact FileTree.sourced_requiring _
    · exact FileTree.sourced_requiring _
    · exact ht
    · exact ht
    · exact ht

/-- A run of a comparison of the two versions of `d`. -/
def Host.compared (host : Host) : Except Failure Comparison × World :=
  (Call.compare "d" "v1" "v2").run .standard [] none host (.ofFiles .ordinary)

/-- A comparison on this host: both inspections go through all their analyzers, and are what fresh
ones are, whatever else stands beside the source. -/
theorem Call.run_isolated_ordinary :
    Host.ordinary.Steady .here FileTree.Sourced ∧
      (Call.compare "d" "v1" "v2").Isolated .standard [] none .ordinary .here
        (.ofFiles .ordinary) ∧
      (∀ u, ManifestFiles.here.AlikeIn FileTree.Sourced u.files .ordinary →
        (Call.compare "d" "v1" "v2").Independent .standard [] .ordinary u
          Host.ordinary.compared.1) ∧
      Host.ordinary.compared.1.toOption.map (fun c => c.issues.stale.map Issue.sourceLines)
        = some [["\tf()"]] := by
  have isolated : (Call.compare "d" "v1" "v2").Isolated .standard [] none .ordinary .here
      (.ofFiles .ordinary) := by
    refine run_isolated (.compare "d" "v1" "v2") (fun _ h => nomatch h) ?_
      (ManifestFiles.undisturbed_quiet _ _)
    intro ws v h
    have located : (ready .standard [] none .ordinary (.ofFiles .ordinary)).1.toOption.map
        Workspace.manifest = some .here := by decide +kernel
    rw [h] at located
    exact Option.some.inj located
  have evaluated :
      (Host.ordinary.compared.2.deeds.filterMap Event.missed?).all List.isEmpty = true ∧
        Host.ordinary.compared.1.toOption.map (fun c => c.issues.stale.map Issue.sourceLines)
          = some [["\tf()"]] := by decide +kernel
  refine ⟨Host.steady_ordinary, isolated, fun u hu => ?_, evaluated.2⟩
  obtain ⟨es, hes, -, independent⟩ := isolated.run
  obtain rfl : Host.ordinary.compared.2.deeds = es := hes.trans (List.nil_append es)
  have begins := isolated.begins rfl _ Host.steady_ordinary (by decide +kernel) u hu
  exact independent (not_missedIn evaluated.1) _ Host.steady_ordinary hu.there u hu.here begins

/-! ## 6. What else a run depends on -/

namespace Call

/-- A run in which every file is put back, and which begins a transaction with other contents than
stood there before the run. -/
def Drifts (c : Call) (host : Host) (t : FileTree) : Prop :=
  (∀ path, ¬ MissedIn (c.run .standard [] none host (.ofFiles t)).2.deeds path) ∧
    ∃ directory contents,
      Event.opened directory contents ∈ (c.run .standard [] none host (.ofFiles t)).2.deeds ∧
        ¬ ManifestFiles.here.Hold contents t

/-- A run in which every file is put back, and which comes to something else than fresh audits. -/
def Strays (c : Call) (host : Host) (t : FileTree) : Prop :=
  (∀ path, ¬ MissedIn (c.run .standard [] none host (.ofFiles t)).2.deeds path) ∧
    ¬ c.Independent .standard [] host (.ofFiles t)
      (c.run .standard [] none host (.ofFiles t)).1

end Call

/-- The contents that a transaction copied when it began. -/
def Event.copied? : Event → Option ManifestContents
  | .opened _ contents => some contents
  | _ => none

theorem Call.drifts_of_copied {c : Call}
    (h : ((c.run .standard [] none host (.ofFiles t)).2.deeds.filterMap Event.missed?).all
        List.isEmpty = true ∧
      ((c.run .standard [] none host (.ofFiles t)).2.deeds.filterMap Event.copied?).any
        (fun contents => (t.read "go.mod").toOption ≠ some contents.manifest ||
          (t.read "go.sum").toOption ≠ some contents.lock) = true) : c.Drifts host t := by
  refine ⟨not_missedIn h.1, ?_⟩
  obtain ⟨contents, hmem, hunlike⟩ := List.any_eq_true.1 h.2
  obtain ⟨e, he, hcopied⟩ := List.mem_filterMap.1 hmem
  cases e with
  | opened directory copied =>
    obtain rfl := Option.some.inj hcopied
    refine ⟨directory, copied, he, fun hold => ?_⟩
    have manifest : t.read "go.mod" = .ok copied.manifest := FileTree.read_eq_ok_iff.2 hold.1
    have lock : t.read "go.sum" = .ok copied.lock := FileTree.read_eq_ok_iff.2 hold.2
    rw [manifest, lock] at hunlike
    simp [Except.toOption] at hunlike
  | _ => cases hcopied

theorem Call.strays_of_unlike (host : Host)
    (h : (host.compared.2.deeds.filterMap Event.missed?).all List.isEmpty = true ∧
      host.compared.1.toOption ≠
        ((fresh .standard [] host (.ofFiles .ordinary) (.inspect "d" "v1")).bind fun a =>
          (fresh .standard [] host (.ofFiles .ordinary) (.inspect "d" "v2")).bind fun b =>
            .ok (Comparison.ofInspections "d" false a b)).toOption) :
    (Call.compare "d" "v1" "v2").Strays host .ordinary :=
  ⟨not_missedIn h.1, fun independent => h.2 (congrArg Except.toOption independent)⟩

/-- A host whose build tool rewrites the manifest when it is asked for the module cache, and can
fetch nothing. -/
def Host.rewriting : Host := .quiet fun t c =>
  match c.argv[2]? with
  | some "GOMODCACHE" => .answering 0 "/cache"
      ⟨[(["go.mod"], .file (Text.Utf8.encode "module n\n")), (["go.sum"], .file [])], none⟩
  | some "GOMOD" => .answering 0 "go.mod" t
  | _ => .answering 1 "" t

/-- A host on which both versions of `d` can be fetched, and no package is listed. -/
def Host.bare : Host := .fetching (fun _ requirement => .requiring requirement sourceText) ""

/-- A host on which the first version of `d` comes with another source, and the second one leaves
the source as it is. -/
def Host.resourcing : Host :=
  .fetching (fun t requirement => .requiring requirement
    (if requirement = "d v1" then Text.Utf8.encode "g()\n" else (t.read "/d.go").toOption.getD []))
    onePackage

/-- **Isolation ends with the manifest files.**  Transactions begin with other contents when the
questions of the setup change them, when one file is a link to the other, and when log records are
kept in one.  An inspection comes to something else when an earlier one changed a source file that
an analyzer names, and when an operation fails, the audit is cancelled or there is less room for a
document at one moment only. -/
theorem Call.compare_not_isolated :
    ((Call.compare "d" "v1" "v2").Drifts .rewriting .emptyModule ∧
      (Call.compare "d" "v1" "v2").Drifts (.linking (Text.Utf8.encode "e v1") .bare) .ordinary ∧
      (Call.compare "d" "v1" "v2").Drifts (.logging .bare) .ordinary) ∧
    (Call.compare "d" "v1" "v2").Strays .resourcing .ordinary ∧
    (Call.compare "d" "v1" "v2").Strays
      { Host.bare with readFault := fun now _ => if now = 20 then some .missing else none }
      .ordinary ∧
    (Call.compare "d" "v1" "v2").Strays
      { Host.ordinary with interrupts := fun now => now = 45 } .ordinary ∧
    (Call.compare "d" "v1" "v2").Strays
      { Host.bare with nesting := fun now => if now = 31 then 0 else Json.usualRoom }
      .ordinary := by
  refine ⟨⟨?rewriting, ?linking, ?logging⟩, ?sources, ?failing, ?cancelled, ?narrow⟩
  case rewriting => exact drifts_of_copied (by decide +kernel)
  case linking => exact drifts_of_copied (by decide +kernel)
  case logging => exact drifts_of_copied (by decide +kernel)
  case sources => exact strays_of_unlike _ (by decide +kernel)
  case failing => exact strays_of_unlike _ (by decide +kernel)
  case cancelled => exact strays_of_unlike _ (by decide +kernel)
  case narrow => exact strays_of_unlike _ (by decide +kernel)

end UpgradeAudit
