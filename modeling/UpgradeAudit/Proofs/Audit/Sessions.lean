/-
# Sessions

A run of an audit is a course of sessions: inspections that follow each other, each with a
transaction of its own, and nothing but log records in between.  What a single session does is
said by `Inspected`.  A `Trail` says exactly in which worlds the sessions begin; for most purposes
it is enough to know what log records leave alone (`Course`).

A failure that stops a run is passed on at once: **the session that meets it is the last one, and
the run fails with it** (`PassesOn`).  This holds of one inspection, of a comparison, and of a
full comparison, where every other failure is recorded and the next dependency is audited.
-/
import UpgradeAudit.Proofs.Audit.Setup

namespace UpgradeAudit

variable {α β : Type} {host : Host} {w w' : World} {ws : Workspace} {dep version : String}

/-! ## 1. One inspection -/

/-- What an inspection does from one world to another, and its outcome. -/
inductive Inspected (ws : Workspace) (dep version : String) (host : Host) (w w' : World) :
    List Event → Except Failure (Inspection × Snapshot) → Prop
  /-- No copy of the manifest could be taken. -/
  | untouched {es : List Event} {f : Failure}
      (looks : es = [] ∨ ∃ contents, es = [.read contents])
      (alike : ws.manifest.Undisturbed host → ws.manifest.Alike w'.files w.files) :
      Inspected ws dep version host w w' es (.error f)
  /-- The manifest was examined in a transaction. -/
  | transacted {directory : Nat} {contents : ManifestContents} {body : List Event}
      {missed : List String} {found : Except Failure Workspace.Findings}
      {outcome : Except Failure (Inspection × Snapshot)}
      (examined : ws.Examined dep version w.started.length body found)
      (kept : missed = [] → ∀ f, found = .error f →
        outcome = .error (Workspace.inContext dep version f))
      (lost : missed ≠ [] → ∃ g : Failure,
        outcome = .error (Workspace.inContext dep version (Backup.combined found g)) ∧
          (∀ path ∈ missed, g.Names path) ∧ ∀ c ∈ g.causes, ∃ path reason, c = .restore path reason)
      (holds : ws.manifest.Undisturbed host → ws.manifest.Hold contents w.files)
      (files : ws.manifest.Undisturbed host → ws.manifest.Separate →
        (ws.manifest.manifest.text ∉ missed →
            w'.files.standing ws.manifest.manifest.text
              = w.files.standing ws.manifest.manifest.text) ∧
          (ws.manifest.lock.text ∉ missed →
            w'.files.standing ws.manifest.lock.text = w.files.standing ws.manifest.lock.text)) :
      Inspected ws dep version host w w'
        ([.read contents, .opened directory contents] ++ body
          ++ [.restored directory missed, .closed directory])
        outcome

namespace Workspace

variable {F : Frame}

theorem within_announce (hlog : ∀ severity origin event details,
      Action.Within host F (Action.log severity origin event details))
    (ws : Workspace) (dep version : String) : Action.Within host F (ws.announce dep version) := by
  unfold announce
  split
  · exact Action.within_bind (hlog _ _ _ _) fun _ => hlog _ _ _ _
  · exact hlog _ _ _ _

theorem announced (ws : Workspace) (dep version : String) (host : Host) (w : World) :
    ∃ w₁, ws.announce dep version host w = (.ok (), w₁) := by
  unfold announce
  split <;> simp [Action.bind_run]

/-- Once it is announced, an inspection is its transaction and log records after it. -/
theorem inspectPinned_of_announced {w₁ : World}
    (hlog : ∀ severity origin event details,
      Action.Within host F (Action.log severity origin event details))
    (h : ws.announce dep version host w = (.ok (), w₁)) :
    F.rel (ws.manifest.transaction (fun _ => ws.examine dep version) host w₁).2
        (ws.inspectPinned dep version host w).2 ∧
      (ws.inspectPinned dep version host w).1
        = (((ws.manifest.transaction (fun _ => ws.examine dep version) host w₁).1).mapError
            (inContext dep version)).map (concluded dep version) := by
  unfold inspectPinned
  rw [Action.bind_of_ok h]
  have mapped := Action.mapFailure_run (inContext dep version)
    (ws.manifest.transaction fun _ => ws.examine dep version) host w₁
  rcases htx : ws.manifest.transaction (fun _ => ws.examine dep version) host w₁ with
    ⟨f | found, w₂⟩
  · rw [htx] at mapped
    rw [Action.bind_of_error mapped]
    exact ⟨F.refl _, rfl⟩
  · rw [htx] at mapped
    rw [Action.bind_of_ok mapped]
    exact ⟨Action.within_bind (hlog _ _ _ _) (fun _ => Action.within_pure _) w₂, rfl⟩

/-- An inspection is its transaction with log records before and after it. -/
theorem inspectPinned_run (ws : Workspace) (dep version : String) (host : Host) (w : World) :
    ∃ w₁, (Frame.logs host).rel w w₁ ∧
      (Frame.logs host).rel (ws.manifest.transaction (fun _ => ws.examine dep version) host w₁).2
        (ws.inspectPinned dep version host w).2 ∧
      (ws.inspectPinned dep version host w).1
        = (((ws.manifest.transaction (fun _ => ws.examine dep version) host w₁).1).mapError
            (inContext dep version)).map (concluded dep version) := by
  obtain ⟨w₁, hw₁⟩ := announced ws dep version host w
  exact ⟨w₁, (within_announce Action.within_logs ws dep version).rel_of_eq hw₁,
    inspectPinned_of_announced Action.within_logs hw₁⟩

/-- **An inspection does nothing outside one transaction.** -/
theorem inspected (ws : Workspace) (dep version : String) (host : Host) (w : World) :
    ∃ es, (ws.inspectPinned dep version host w).2.deeds = w.deeds ++ es ∧
      Inspected ws dep version host w (ws.inspectPinned dep version host w).2 es
        (ws.inspectPinned dep version host w).1 := by
  obtain ⟨w₁, before, after, houtcome⟩ := inspectPinned_run ws dep version host w
  rw [houtcome]
  rcases (transacted ws.manifest (fun _ => ws.examine dep version) host w₁).ends with
    ⟨f, hf, hfiles, hlooks⟩ |
    ⟨b, w₂, w₃, found, missed, hopened, hhold, -, hwork, concluded⟩
  · -- no copy was taken
    rw [hf]
    have alike (hu : ws.manifest.Undisturbed host) :
        ws.manifest.Alike (ws.inspectPinned dep version host w).2.files w.files := by
      refine (after.2 _ hu).trans ?_
      rw [hfiles]
      exact before.2 _ hu
    rcases hlooks with hlooks | ⟨contents, hlooks⟩
    · refine ⟨[], ?_, .untouched (Or.inl rfl) alike⟩
      rw [after.1, hlooks, before.1, List.append_nil]
    · refine ⟨_, ?_, .untouched (Or.inr ⟨contents, rfl⟩) alike⟩
      rw [after.1, hlooks, before.1]
  · obtain ⟨body, hbody, hexamined⟩ := examined ws dep version host w₂
    rw [hwork] at hbody hexamined
    have hstarted : w₂.started.length = w.started.length := by
      rw [World.length_started hopened, Frame.logs.started_eq before]
      rfl
    rw [hstarted] at hexamined
    refine ⟨[.read b.snapshot.contents, .opened b.directory b.snapshot.contents] ++ body
      ++ [.restored b.directory missed, .closed b.directory], ?_,
      .transacted hexamined (fun hm f hf => ?_) (fun hm => ?_)
      (fun hu => hhold.of_alike (before.2 _ hu).symm) fun hu hseparate => ?_⟩
    · rw [after.1, concluded.deeds, hbody, hopened, before.1]
      simp only [List.append_assoc]
    · obtain rfl : found = .error f := hf
      rcases concluded.outcome with ⟨-, hr⟩ | ⟨hne, -⟩
      · rw [hr]
        rfl
      · exact absurd hm hne
    · rcases concluded.outcome with ⟨hnil, -⟩ | ⟨-, g, hr, hnames, hcauses⟩
      · exact absurd hnil hm
      · exact ⟨g, by rw [hr]; rfl, hnames, hcauses⟩
    · obtain ⟨hm, hl⟩ := concluded.files hu hseparate
      have ha := after.2 _ hu
      have hb := before.2 _ hu
      exact ⟨fun h => (ha.1.trans (hm h)).trans hb.1, fun h => (ha.2.trans (hl h)).trans hb.2⟩

end Workspace

/-! ## 2. Courses of sessions -/

/-- An inspection in the course of a run: what is inspected, and the world in which it begins. -/
structure Session where
  dep : String
  version : String
  before : World

namespace Session

/-- What comes of the inspection. -/
def outcome (s : Session) (ws : Workspace) (host : Host) : Except Failure (Inspection × Snapshot) :=
  (ws.inspectPinned s.dep s.version host s.before).1

/-- The world when the inspection has ended. -/
def after (s : Session) (ws : Workspace) (host : Host) : World :=
  (ws.inspectPinned s.dep s.version host s.before).2

/-- What was done in the inspection. -/
def deeds (s : Session) (ws : Workspace) (host : Host) : List Event :=
  (s.after ws host).deeds.drop s.before.deeds.length

theorem inspected (s : Session) (ws : Workspace) (host : Host) :
    (s.after ws host).deeds = s.before.deeds ++ s.deeds ws host ∧
      Inspected ws s.dep s.version host s.before (s.after ws host) (s.deeds ws host)
        (s.outcome ws host) := by
  obtain ⟨es, hes, hinspected⟩ := ws.inspected s.dep s.version host s.before
  have hdeeds : s.deeds ws host = es := by
    rw [deeds, after, hes, List.drop_left]
  rw [hdeeds]
  exact ⟨hes, hinspected⟩

end Session

/-- Sessions one after the other, each beginning where the one before it ended, up to log
records. -/
inductive Course (ws : Workspace) (host : Host) : World → List Session → World → Prop
  | nil (w : World) : Course ws host w [] w
  | logged {w w₁ w' : World} {ss : List Session} (logs : (Frame.logs host).rel w w₁)
      (rest : Course ws host w₁ ss w') : Course ws host w ss w'
  | session {w' : World} {ss : List Session} (s : Session)
      (rest : Course ws host (s.after ws host) ss w') : Course ws host s.before (s :: ss) w'

namespace Course

/-- A course without sessions is log records alone. -/
theorem logs_of_nil {w₁ w₂ : World} (h : Course ws host w₁ [] w₂) :
    (Frame.logs host).rel w₁ w₂ := by
  generalize hss : ([] : List Session) = ss at h
  induction h with
  | nil => exact Frame.refl _ _
  | logged logs _ ih => exact Frame.trans _ logs (ih hss)
  | session => cases hss

/-- All that is done in a course is done in its sessions. -/
theorem deeds_eq {ss : List Session} (h : Course ws host w ss w') :
    w'.deeds = w.deeds ++ ss.flatMap fun s => s.deeds ws host := by
  induction h with
  | nil => simp
  | logged logs _ ih => rw [ih, logs.1]
  | session s _ ih => rw [ih, (s.inspected ws host).1, List.append_assoc, List.flatMap_cons]

end Course

/-- Sessions one after the other, with nothing between them but the log records that are given. -/
inductive Trail (ws : Workspace) (host : Host) : World → List Session → World → Prop
  | nil (w : World) : Trail ws host w [] w
  | logged {w w' : World} {ss : List Session} (r : LogRecord)
      (rest : Trail ws host (w.logging host r) ss w') : Trail ws host w ss w'
  | session {w' : World} {ss : List Session} (s : Session)
      (rest : Trail ws host (s.after ws host) ss w') : Trail ws host s.before (s :: ss) w'

namespace Trail

theorem append {w₁ w₂ w₃ : World} {ss ss' : List Session} (h : Trail ws host w₁ ss w₂)
    (h' : Trail ws host w₂ ss' w₃) : Trail ws host w₁ (ss ++ ss') w₃ := by
  induction h with
  | nil => exact h'
  | logged r _ ih => exact .logged r (ih h')
  | session s _ ih => exact .session s (ih h')

/-- Log records may follow a trail. -/
theorem logs {w₁ w₂ w₃ : World} {ss : List Session} (h : Trail ws host w₁ ss w₂)
    (h' : Trail ws host w₂ [] w₃) : Trail ws host w₁ ss w₃ := by
  simpa using h.append h'

theorem course {ss : List Session} (h : Trail ws host w ss w') : Course ws host w ss w' := by
  induction h with
  | nil w => exact .nil w
  | @logged w _ _ r _ ih =>
    exact .logged (Action.within_logs r.severity r.origin r.event r.details w) ih
  | session s _ ih => exact .session s ih

end Trail

/-! ## 3. Failures that stop a run -/

/-- A session that meets a failure that stops the run is the last one, and the run fails with
it. -/
def PassesOn (ws : Workspace) (host : Host) (ss : List Session) (r : Except Failure α) : Prop :=
  ∀ pre s post f, ss = pre ++ s :: post → s.outcome ws host = .error f → f.Stops →
    post = [] ∧ r = .error f

/-- Another result will do that fails where this one fails with a failure that stops the run. -/
theorem PassesOn.imp {ss : List Session} {r : Except Failure α} {r' : Except Failure β}
    (h : PassesOn ws host ss r) (hr : ∀ f, f.Stops → r = .error f → r' = .error f) :
    PassesOn ws host ss r' := by
  intro pre s post f hss hs hf
  obtain ⟨hpost, hrf⟩ := h pre s post f hss hs hf
  exact ⟨hpost, hr f hf hrf⟩

/-- After sessions that stopped nothing others may follow. -/
theorem PassesOn.append {ss ss' : List Session} {r : Except Failure α} {r' : Except Failure β}
    (h : PassesOn ws host ss r) (hok : ∀ f, r ≠ .error f) (h' : PassesOn ws host ss' r') :
    PassesOn ws host (ss ++ ss') r' := by
  intro pre s post f hss hs hf
  rcases List.append_eq_append_iff.1 hss with ⟨pre', rfl, htail⟩ | ⟨post', rfl, htail⟩
  · exact h' pre' s post f htail hs hf
  · cases post' with
    | nil => exact h' [] s post f htail.symm hs hf
    | cons s' post' =>
      obtain ⟨rfl, -⟩ := List.cons.inj htail
      exact absurd (h pre s post' f rfl hs hf).2 (hok f)

/-- An action all of whose runs are courses of sessions. -/
def Action.InSessions (ws : Workspace) (host : Host) (x : Action α) : Prop :=
  ∀ w, ∃ ss, Course ws host w ss (x host w).2 ∧ PassesOn ws host ss (x host w).1

/-- An action all of whose runs are trails of sessions. -/
def Action.OnTrails (ws : Workspace) (host : Host) (x : Action α) : Prop :=
  ∀ w, ∃ ss, Trail ws host w ss (x host w).2 ∧ PassesOn ws host ss (x host w).1

namespace Action

theorem OnTrails.inSessions {x : Action α} (h : OnTrails ws host x) : InSessions ws host x :=
  fun w => (h w).imp fun _ ⟨trail, passes⟩ => ⟨trail.course, passes⟩

/-- An action without sessions passes everything on. -/
theorem onTrails_of_logs {x : Action α} (h : ∀ w, Trail ws host w [] (x host w).2) :
    OnTrails ws host x :=
  fun w => ⟨[], h w, fun pre s post f hss => by simp at hss⟩

theorem onTrails_pure (a : α) : OnTrails ws host (pure a : Action α) :=
  onTrails_of_logs fun w => .nil w

theorem onTrails_log (severity : Severity) (origin event : String)
    (details : List (String × Json)) :
    OnTrails ws host (log severity origin event details) :=
  onTrails_of_logs fun _ => .logged ⟨severity, origin, event, details⟩ (.nil _)

theorem onTrails_bind {x : Action α} {f : α → Action β} (hx : OnTrails ws host x)
    (hf : ∀ a, OnTrails ws host (f a)) : OnTrails ws host (x >>= f) := by
  intro w
  obtain ⟨ss, trail, passes⟩ := hx w
  rcases bind_cases host x f w with ⟨a, w', h, hb⟩ | ⟨e, w', h, hb⟩
  · rw [h] at trail passes
    rw [hb]
    obtain ⟨ss', trail', passes'⟩ := hf a w'
    exact ⟨ss ++ ss', trail.append trail', passes.append (fun f hf => nomatch hf) passes'⟩
  · rw [h] at trail passes
    rw [hb]
    exact ⟨ss, trail, passes.imp fun f _ hf => by rw [Except.error.inj hf]⟩

end Action

namespace Workspace

theorem onTrails_inspectPinned (ws : Workspace) (dep version : String) (host : Host) :
    Action.OnTrails ws host (ws.inspectPinned dep version) := by
  intro w
  refine ⟨[⟨dep, version, w⟩], .session ⟨dep, version, w⟩ (.nil _), ?_⟩
  intro pre s post f hss hs _
  obtain ⟨rfl, hcons⟩ : pre = [] ∧ [⟨dep, version, w⟩] = s :: post := by
    cases pre with
    | nil => exact ⟨rfl, hss⟩
    | cons s' pre => simp at hss
  obtain ⟨rfl, rfl⟩ := List.cons.inj hcons
  exact ⟨rfl, hs⟩

theorem onTrails_inspect (ws : Workspace) (dep version : String) (host : Host) :
    Action.OnTrails ws host (ws.inspect dep version) :=
  Action.onTrails_bind (onTrails_inspectPinned ws dep version host) fun _ =>
    Action.onTrails_pure _

theorem onTrails_comparePinned (ws : Workspace) (dep old new : String) (host : Host) :
    Action.OnTrails ws host (ws.comparePinned dep old new) :=
  Action.onTrails_bind (onTrails_inspectPinned ws dep old host) fun _ =>
    Action.onTrails_bind (onTrails_inspectPinned ws dep new host) fun _ =>
      Action.onTrails_pure _

theorem onTrails_compare (ws : Workspace) (dep old new : String) (host : Host) :
    Action.OnTrails ws host (ws.compare dep old new) :=
  Action.onTrails_bind (onTrails_comparePinned ws dep old new host) fun _ =>
    Action.onTrails_pure _

end Workspace

/-! ## 4. The dependencies that an upgrade moves -/

namespace Resolution

variable {inspect : String → String → Action β} {compare : String → String → String → Action α}

theorem settle_of_stops {f : Failure} (h : f.Stops) (change : ChangedDependency) :
    (settle change (.error f) : Action (Finding α β)) host w = (.error f, w) := by
  simp [settle, Failure.stops_iff.2 h, Action.bind_run]

theorem settle_of_not_stops {f : Failure} (h : ¬ f.Stops) (change : ChangedDependency) :
    (settle change (.error f) : Action (Finding α β)) host w
      = (.ok (.failure ⟨change, f.message⟩),
          w.logging host ⟨.warning, origin, "recursive.dep_failed",
            [("dep", .text change.path), ("error", .text f.message)]⟩) := by
  have hstops := Bool.eq_false_iff.2 (mt Failure.stops_iff.1 h)
  simp [settle, hstops, Action.bind_run]

theorem trail_settle (change : ChangedDependency) (r : Except Failure (Finding α β)) (w : World) :
    Trail ws host w [] (settle change r host w).2 := by
  cases r with
  | ok finding => exact .nil w
  | error f =>
    by_cases h : f.Stops
    · rw [settle_of_stops h]
      exact .nil w
    · rw [settle_of_not_stops h]
      exact .logged _ (.nil _)

/-- **What is recorded for one dependency did not stop the run.** -/
theorem onTrails_audit (hi : ∀ dep version, Action.OnTrails ws host (inspect dep version))
    (hc : ∀ dep old new, Action.OnTrails ws host (compare dep old new))
    (change : ChangedDependency) : Action.OnTrails ws host (audit inspect compare change) := by
  refine Action.onTrails_bind (Action.onTrails_log _ _ _ _) fun _ => ?_
  have work : Action.OnTrails ws host (examine inspect compare change) := by
    unfold examine
    split
    · exact Action.onTrails_bind (hi _ _) fun _ => Action.onTrails_pure _
    · exact Action.onTrails_bind (hc _ _ _) fun _ => Action.onTrails_pure _
  intro w
  obtain ⟨ss, trail, passes⟩ := work w
  rw [Action.bind_run, Action.attempt_run]
  refine ⟨ss, ?_, passes.imp fun f hstops hf => ?_⟩
  · exact trail.logs (trail_settle change _ _)
  · show (settle change (examine inspect compare change host w).1 host _).1 = .error f
    rw [hf, settle_of_stops hstops]

theorem onTrails_auditAll (hi : ∀ dep version, Action.OnTrails ws host (inspect dep version))
    (hc : ∀ dep old new, Action.OnTrails ws host (compare dep old new)) :
    ∀ (changes : List ChangedDependency) (r : Resolution α β),
      Action.OnTrails ws host (auditAll inspect compare r changes)
  | [], r => Action.onTrails_pure r
  | change :: changes, _ =>
    Action.onTrails_bind (onTrails_audit hi hc change) fun _ =>
      onTrails_auditAll hi hc changes _

end Resolution

theorem Workspace.onTrails_compareFully (ws : Workspace) (dep old new : String) (host : Host) :
    Action.OnTrails ws host (ws.compareFully dep old new) := by
  refine Action.onTrails_bind (onTrails_comparePinned ws dep old new host) fun pinned => ?_
  refine Action.onTrails_bind (Action.onTrails_log _ _ _ _) fun _ => ?_
  refine Action.onTrails_bind
    (Resolution.onTrails_auditAll (fun _ _ => onTrails_inspect ws _ _ host)
      (fun _ _ _ => onTrails_compare ws _ _ _ host) _ _) fun others => ?_
  dsimp only
  split
  · exact Action.onTrails_bind (Action.onTrails_log _ _ _ _) fun _ => Action.onTrails_pure _
  · exact Action.onTrails_pure _

/-! ## 5. Calls -/

/-- What an audit can be asked. -/
inductive Call where
  | inspect (dep version : String)
  | compare (dep old new : String)
  | compareFully (dep old new : String)
  deriving DecidableEq, Repr

namespace Call

/-- What comes of a call. -/
def Result : Call → Type
  | inspect .. => Inspection
  | compare .. => Comparison
  | compareFully .. => FullComparison

/-- Performs a call in a workspace. -/
def perform (ws : Workspace) : (c : Call) → Action c.Result
  | inspect dep version => ws.inspect dep version
  | compare dep old new => ws.compare dep old new
  | compareFully dep old new => ws.compareFully dep old new

/-- The workspace of a call: the one that an earlier call has left, or else a new one. -/
def ready (settings : Settings) (env : Environment) : Option Workspace → Action Workspace
  | some ws => pure ws
  | none => Workspace.prepare settings env

/-- Runs a call. -/
def run (settings : Settings) (env : Environment) (known : Option Workspace) (c : Call) :
    Action c.Result := do
  let ws ← ready settings env known
  c.perform ws

theorem onTrails_perform (c : Call) (ws : Workspace) (host : Host) :
    Action.OnTrails ws host (c.perform ws) := by
  cases c with
  | inspect dep version => exact ws.onTrails_inspect dep version host
  | compare dep old new => exact ws.onTrails_compare dep old new host
  | compareFully dep old new => exact ws.onTrails_compareFully dep old new host

/-- **A call fails to find a workspace, or its run is a trail of sessions in it.** -/
theorem run_trails (settings : Settings) (env : Environment) (known : Option Workspace) (c : Call)
    (host : Host) (w : World) :
    (∃ f w₁, ready settings env known host w = (.error f, w₁) ∧
        c.run settings env known host w = (.error f, w₁)) ∨
      ∃ ws w₁ ss, ready settings env known host w = (.ok ws, w₁) ∧
        Trail ws host w₁ ss (c.run settings env known host w).2 ∧
        PassesOn ws host ss (c.run settings env known host w).1 := by
  unfold run
  rcases Action.bind_cases host (ready settings env known) c.perform w with
    ⟨ws, w₁, hready, hrun⟩ | ⟨f, w₁, hready, hrun⟩
  · obtain ⟨ss, trail, passes⟩ := c.onTrails_perform ws host w₁
    rw [hrun]
    exact Or.inr ⟨ws, w₁, ss, hready, trail, passes⟩
  · exact Or.inl ⟨f, w₁, hready, hrun⟩

/-- **A call fails to find a workspace, or its run is a course of sessions in it.** -/
theorem run_cases (settings : Settings) (env : Environment) (known : Option Workspace) (c : Call)
    (host : Host) (w : World) :
    (∃ f w₁, ready settings env known host w = (.error f, w₁) ∧
        c.run settings env known host w = (.error f, w₁)) ∨
      ∃ ws w₁ ss, ready settings env known host w = (.ok ws, w₁) ∧
        Course ws host w₁ ss (c.run settings env known host w).2 ∧
        PassesOn ws host ss (c.run settings env known host w).1 :=
  (run_trails settings env known c host w).imp_right
    fun ⟨ws, w₁, ss, hready, trail, passes⟩ => ⟨ws, w₁, ss, hready, trail.course, passes⟩

theorem within_ready_deeds (settings : Settings) (env : Environment) (known : Option Workspace)
    (host : Host) :
    Action.Within host (.deeds (Event.Prepares settings env)) (ready settings env known) := by
  cases known with
  | none => exact Workspace.within_prepare_deeds settings env host
  | some ws => exact Action.within_pure _

end Call
end UpgradeAudit
