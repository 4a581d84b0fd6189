/-
# Setting a workspace up

The build tool is asked twice and the manifest is read; then the workspace is fixed
(`prepare_ok`).  The lock file is the one beside the manifest, so the two are different files
unless they are one (`Workspace.Known.separate`).

What the build tool does to the manifest files when it is asked is for the host to say
(`ManifestFiles.SparedBy`); preparing does nothing else to them (`within_prepare`).
-/
import UpgradeAudit.Proofs.Audit.Stages

namespace UpgradeAudit

variable {α : Type} {host : Host} {w w' : World} {ws : Workspace} {settings : Settings}
  {env : Environment} {files : ManifestFiles}

/-! ## 1. What the build tool is asked -/

/-- The questions to the build tool. -/
inductive Settings.Asks (s : Settings) (env : Environment) : Command → Prop
  | moduleCache : s.Asks env ((s.runner env).command [s.buildTool, "env", "GOMODCACHE"] none none)
  | manifest : s.Asks env ((s.runner env).command [s.buildTool, "env", "GOMOD"] none none)

/-- The two files stay as they are when some commands are run. -/
def ManifestFiles.SparedBy (files : ManifestFiles) (host : Host) (commands : Command → Prop) :
    Prop :=
  ∀ c, commands c → ∀ history t behaviour, host.respond history t c = .runs behaviour →
    files.Alike behaviour.files t

/-- The two files stay as they are. -/
def Frame.alike (files : ManifestFiles) : Frame where
  rel w w' := files.Alike w'.files w.files
  refl w := .refl files w.files
  trans h h' := h'.trans h

/-- Log records alone. -/
def Frame.logs (host : Host) : Frame where
  rel w w' := w'.deeds = w.deeds ∧
    ∀ files : ManifestFiles, files.Undisturbed host → files.Alike w'.files w.files
  refl _ := ⟨rfl, fun files _ => .refl files _⟩
  trans h h' := ⟨h'.1.trans h.1, fun files hu => (h'.2 files hu).trans (h.2 files hu)⟩

theorem Action.within_logs (severity : Severity) (origin event : String)
    (details : List (String × Json)) :
    Action.Within host (.logs host) (Action.log severity origin event details) :=
  fun w => ⟨World.deeds_logging _, fun _ hu => hu.records _ w.files⟩

theorem Frame.logs.started_eq (h : (Frame.logs host).rel w w') : w'.started = w.started := by
  rw [World.started_eq, World.started_eq, h.1]

namespace Action

theorem Within.alike_of_aside {x : Action α} (h : Within host .aside x) :
    Within host (.alike files) x := by
  intro w
  show files.Alike (x host w).2.files w.files
  rw [h.files_eq]
  exact .refl files w.files

theorem within_log_alike (hu : files.Undisturbed host) (severity : Severity)
    (origin event : String) (details : List (String × Json)) :
    Within host (.alike files) (log severity origin event details) :=
  fun w => hu.records _ w.files

end Action

namespace Runner

variable {r : Runner} {argv : List String} {cwd : Option String} {accepted : List Int}

theorem within_start_alike {attachment : Option Bytes} (hu : files.Undisturbed host)
    (hs : files.SparedBy host (· = r.command argv cwd attachment)) :
    Action.Within host (.alike files) (r.start argv cwd attachment) := by
  intro w
  have launching : files.Alike (r.launching argv cwd attachment host w).files w.files :=
    hu.records _ w.files
  rw [start_run]
  dsimp only
  cases h : host.respond w.started (r.launching argv cwd attachment host w).files
    (r.command argv cwd attachment) with
  | refused error => exact launching
  | barred fault => exact launching
  | interrupted => exact launching
  | runs behaviour => exact (hs _ rfl _ _ _ h).trans launching

theorem within_wait_alike (hu : files.Undisturbed host) (running : Running) :
    Action.Within host (.alike files) (wait running accepted) :=
  within_wait_of running accepted (Action.within_log_alike hu) fun _ _ w => .refl files w.files

theorem within_run_alike (hu : files.Undisturbed host)
    (hs : files.SparedBy host (· = r.command argv cwd none)) :
    Action.Within host (.alike files) (r.run argv accepted cwd) :=
  Action.within_bind (within_start_alike hu hs) fun _ => within_wait_alike hu _

end Runner

theorem Snapshot.within_read (read : ManifestFiles) :
    Action.Within host (.alike files) (Snapshot.read read) := by
  refine Action.within_bind (Action.within_onFileError (Action.within_readFile _)).alike_of_aside
    fun m => Action.within_bind
      (Action.within_onFileError (Action.within_readFile _)).alike_of_aside
      fun l => Action.within_bind (fun w => .refl files w.files) fun _ => Action.within_pure _

/-! ## 2. Preparing -/

/-- What is known of a workspace that was prepared. -/
structure Workspace.Known (ws : Workspace) (settings : Settings) (env : Environment) : Prop where
  settings_eq : ws.settings = settings
  runner_eq : ws.runner = settings.runner env
  analyzers_eq : ws.analyzers = settings.analyzers env
  located : ∃ path, ManifestFiles.ofPaths path none = .ok ws.manifest

/-- The manifest and its lock file are different files, or one. -/
theorem Workspace.Known.separate (h : ws.Known settings env) : ws.manifest.Separate := by
  obtain ⟨path, hpath⟩ := h.located
  exact ManifestFiles.separate_of_ofPaths hpath

/-- The directory of the module has a name. -/
theorem Workspace.Known.workDir_ne_empty (h : ws.Known settings env) : ws.workDir ≠ "" := by
  obtain ⟨path, hpath⟩ := h.located
  exact Path.text_ne_empty (ManifestFiles.ofPaths_ok hpath).1.1.parent

/-- A step of preparing: of a question to the build tool, or a look at the manifest. -/
def Event.Prepares (settings : Settings) (env : Environment) (e : Event) : Prop :=
  e.IsStepOf (settings.Asks env) ∨ ∃ contents, e = .read contents

theorem Snapshot.within_read_prepares (read : ManifestFiles) :
    Action.Within host (.deeds (Event.Prepares settings env)) (Snapshot.read read) := by
  refine Action.within_bind (Action.within_onFileError (Action.within_readFile _)).deeds_of_aside
    fun m => ?_
  refine Action.within_bind (Action.within_onFileError (Action.within_readFile _)).deeds_of_aside
    fun l => ?_
  exact Action.within_bind (Action.within_record rfl (Or.inr ⟨_, rfl⟩)) fun _ =>
    Action.within_pure _

namespace Workspace

/-- What two questions to the build tool and a look at the manifest leave, preparing leaves. -/
theorem within_prepare {F : Frame} (settings : Settings) (env : Environment)
    (hask : Action.Within host F (ask (settings.runner env) settings.buildTool))
    (hread : ∀ files, Action.Within host F (Snapshot.read files))
    (hlog : ∀ severity origin event details,
      Action.Within host F (Action.log severity origin event details)) :
    Action.Within host F (prepare settings env) := by
  refine Action.within_bind (Action.within_onCommandFailure hask) fun answers => ?_
  dsimp only
  split
  · exact Action.within_fail_bind _ _
  · refine Action.within_bind (Action.within_ofCauses _) fun manifest =>
      Action.within_bind (hread _) fun baseline => ?_
    split
    · exact Action.within_fail _
    · exact Action.within_fail _
    · exact Action.within_bind (hlog _ _ _ _) fun _ => Action.within_pure _

/-- What running a question leaves, asking leaves. -/
theorem within_ask {F : Frame} (settings : Settings) (env : Environment)
    (hrun : ∀ argv, settings.Asks env ((settings.runner env).command argv none none) →
      Action.Within host F ((settings.runner env).run argv [0] none)) :
    Action.Within host F (ask (settings.runner env) settings.buildTool) := by
  refine Action.within_bind (hrun _ .moduleCache) fun cache =>
    Action.within_bind (Action.within_bind (hrun _ .manifest) fun answer => ?_) fun path =>
      Action.within_pure _
  dsimp only
  split
  · exact Action.within_fail _
  · exact Action.within_pure _

theorem within_ask_deeds (settings : Settings) (env : Environment) (host : Host) :
    Action.Within host (.deeds (Event.Prepares settings env))
      (ask (settings.runner env) settings.buildTool) := by
  refine within_ask settings env fun argv hasks => Action.Within.mono (Runner.within_run hasks) ?_
  rintro u v ⟨es, hes, hsteps⟩
  exact ⟨es, hes, fun e he => Or.inl (hsteps e he)⟩

/-- **Preparing asks the build tool and looks at the manifest, and that is all it does.** -/
theorem within_prepare_deeds (settings : Settings) (env : Environment) (host : Host) :
    Action.Within host (.deeds (Event.Prepares settings env)) (prepare settings env) :=
  within_prepare settings env (within_ask_deeds settings env host) Snapshot.within_read_prepares
    fun _ _ _ _ => Action.within_log _ _ _ _

/-- Preparing leaves the manifest files as they are when the build tool does. -/
theorem within_prepare_alike (settings : Settings) (env : Environment)
    (hu : files.Undisturbed host) (hs : files.SparedBy host (settings.Asks env)) :
    Action.Within host (.alike files) (prepare settings env) := by
  refine within_prepare settings env (within_ask settings env fun argv hasks => ?_)
    Snapshot.within_read fun _ _ _ _ => Action.within_log_alike hu _ _ _ _
  exact Runner.within_run_alike hu fun c hc => hs c (hc ▸ hasks)

/-- A workspace as the answers of the build tool and the manifest tell it. -/
structure FoundBy (ws : Workspace) (settings : Settings) (env : Environment)
    (cache : CommandResult) (path : Path) : Prop where
  settings_eq : ws.settings = settings
  runner_eq : ws.runner = settings.runner env
  analyzers_eq : ws.analyzers = settings.analyzers env
  located : ManifestFiles.ofPaths path.text none = .ok ws.manifest
  cached : Text.strip cache.text = ws.moduleCache
  moduleCache_ne : ws.moduleCache ≠ ""
  declared : ws.baseline.modulePath? = some ws.modulePath
  modulePath_ne : ws.modulePath ≠ ""

/-- What is reported of a workspace that was prepared. -/
def setupRecord (ws : Workspace) (path : Path) : LogRecord :=
  ⟨.info, origin, "inspector.setup",
    [("module", .text ws.modulePath), ("manifest", .text path.text),
     ("module_cache", .text ws.moduleCache)]⟩

/-- **A workspace is prepared of two answers and of the manifest.** -/
theorem foundBy_of_prepare (h : prepare settings env host w = (.ok ws, w')) :
    ∃ cache path v v',
      ask (settings.runner env) settings.buildTool host w = (.ok (cache, path), v) ∧
      Snapshot.read ws.manifest host v = (.ok ws.baseline, v') ∧
      ws.FoundBy settings env cache path ∧ w' = v'.logging host (ws.setupRecord path) := by
  obtain ⟨⟨cache, path⟩, v, hask, h⟩ := Action.bind_ok h
  by_cases hcache : Text.strip cache.text = ""
  · simp only [hcache, if_true] at h
    obtain ⟨_, _, hfail, -⟩ := Action.bind_ok h
    cases hfail
  simp only [hcache, if_false] at h
  obtain ⟨manifest, v₁, hmanifest, hrest⟩ := Action.bind_ok h
  obtain ⟨baseline, v', hread, hend⟩ := Action.bind_ok hrest
  obtain ⟨hpaths, rfl⟩ := Action.ofCauses_ok hmanifest
  cases hmodule : baseline.modulePath? with
  | none =>
    rw [hmodule] at hend
    cases hend
  | some modulePath =>
    rw [hmodule] at hend
    by_cases hempty : modulePath = ""
    · subst hempty
      cases hend
    simp only at hend
    obtain ⟨_, _, hlog, hend⟩ := Action.bind_ok hend
    cases hlog
    cases hend
    exact ⟨cache, path, v, v', Action.mapFailure_ok hask, hread,
      ⟨rfl, rfl, rfl, hpaths, rfl, hcache, hmodule, hempty⟩, rfl⟩

/-- The two answers and the manifest are all that a workspace is prepared of. -/
theorem prepare_of_foundBy {cache : CommandResult} {path : Path} {v v' : World}
    (hask : ask (settings.runner env) settings.buildTool host w = (.ok (cache, path), v))
    (hread : Snapshot.read ws.manifest host v = (.ok ws.baseline, v'))
    (found : ws.FoundBy settings env cache path) :
    prepare settings env host w = (.ok ws, v'.logging host (ws.setupRecord path)) := by
  have whole : ws = { settings, runner := settings.runner env
                      analyzers := settings.analyzers env, moduleCache := ws.moduleCache
                      modulePath := ws.modulePath, manifest := ws.manifest
                      baseline := ws.baseline } := by
    rw [← found.runner_eq, ← found.analyzers_eq, ← found.settings_eq]
  have hdeclared : ¬ ws.modulePath = "" := found.modulePath_ne
  unfold prepare
  dsimp only
  rw [Action.onCommandFailure, Action.bind_of_ok (Action.mapFailure_of_ok hask _)]
  dsimp only
  rw [found.cached, if_neg found.moduleCache_ne, found.located]
  rw [Action.bind_of_ok (x := Action.ofCauses (.ok ws.manifest)) rfl, Action.bind_of_ok hread,
    found.declared]
  simp only
  rw [← whole]
  rfl

/-- **What a workspace knows was so when it was prepared**: the manifest was read last. -/
theorem prepare_ok (h : prepare settings env host w = (.ok ws, w')) :
    ws.Known settings env ∧ ∃ w₁ w₂,
      (Frame.deeds (Event.Prepares settings env)).rel w w₁ ∧
      Snapshot.read ws.manifest host w₁ = (.ok ws.baseline, w₂) ∧ (Frame.logs host).rel w₂ w' := by
  obtain ⟨cache, path, v, v', hask, hread, found, rfl⟩ := foundBy_of_prepare h
  exact ⟨⟨found.settings_eq, found.runner_eq, found.analyzers_eq, path.text, found.located⟩, v, v',
    (within_ask_deeds settings env host).rel_of_eq hask, hread, Action.within_logs _ _ _ _ v'⟩

end Workspace
end UpgradeAudit
