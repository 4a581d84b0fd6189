/-
# Inspections that repeat

Under steady surroundings an inspection repeats: what comes of it depends on the two manifest files
alone (`repeats_inspectPinned`).  Stage by stage, a program is started alike, what it answers is the
same, and its answer is read alike.  So it is with preparing a workspace (`prepare_again`).
-/
import UpgradeAudit.Audit.Workspace
import UpgradeAudit.Proofs.Audit.Setup
import UpgradeAudit.Proofs.Audit.SideBySide
import UpgradeAudit.Proofs.Manifest.Repetition

namespace UpgradeAudit

variable {α : Type} {host : Host} {files : ManifestFiles} {usual : FileTree → Prop}
  {E : FileTree → FileTree → Prop}

/-! ## 1. Pinning and listing -/

namespace Workspace

variable {ws : Workspace} {dep version : String}

theorem repeats_pin (h : host.Steady files usual) :
    Action.Repeats host (files.AlikeIn usual) (ws.pin dep version) := by
  have runs (argv : List String) (cause : String → Cause) :
      Action.Repeats host (files.AlikeIn usual)
        ((ws.runner.run argv [0] none).onCommandFailure cause) :=
    Action.twin_mapFailure (Runner.repeats_run h) _
  unfold pin
  refine Action.repeats_bind (runs _ _) fun _ => ?_
  split
  · exact Action.twin_pure rfl
  · exact Action.repeats_bind (runs _ _) fun _ => Action.twin_pure rfl

end Workspace

theorem PackageGraph.repeats_list (h : host.Steady files usual) (r : Runner) (buildTool : String)
    (patterns : List String) :
    Action.Repeats host (files.AlikeIn usual) (list r buildTool patterns) := by
  refine Action.repeats_bind (Runner.repeats_run h) fun result => ?_
  refine Action.twin_bind (Action.twin_room h) fun room room' rooms => ?_
  rw [rooms.1, rooms.2]
  split
  · exact Action.twin_pure rfl
  · exact Action.twin_fail _

/-! ## 2. Preparing -/

namespace Workspace

theorem repeats_ask (h : host.Steady files usual) (r : Runner) (buildTool : String) :
    Action.Repeats host (files.AlikeIn usual) (ask r buildTool) := by
  refine Action.repeats_bind (Runner.repeats_run h) fun cache => ?_
  refine Action.repeats_bind (Action.repeats_bind (Runner.repeats_run h) fun answer => ?_)
    fun path => Action.twin_pure rfl
  dsimp only
  split
  · exact Action.twin_fail _
  · exact Action.twin_pure rfl

/-- **What was prepared once is prepared again** where the manifest files are as they were, and
they are left as they were left then. -/
theorem prepare_again {settings : Settings} {env : Environment} {ws : Workspace} {w w' u : World}
    (h : host.Steady ws.manifest usual) (hprepare : prepare settings env host w = (.ok ws, w'))
    (halike : ws.manifest.AlikeIn usual u.files w.files) :
    ∃ u', prepare settings env host u = (.ok ws, u') ∧
      ws.manifest.AlikeIn usual u'.files w'.files := by
  obtain ⟨cache, path, v, v', hask, hread, found, rfl⟩ := foundBy_of_prepare hprepare
  have asks := repeats_ask h (settings.runner env) settings.buildTool u w halike
  rcases hask' : ask (settings.runner env) settings.buildTool host u with ⟨r, v₁⟩
  rw [hask, hask'] at asks
  obtain rfl := asks.1.eq
  have reads := Snapshot.repeats_read h v₁ v asks.2
  rcases hread' : Snapshot.read ws.manifest host v₁ with ⟨r, v₂⟩
  rw [hread, hread'] at reads
  obtain rfl := reads.1.eq
  exact ⟨_, prepare_of_foundBy hask' hread' found, h.spares _ _ _ _ reads.2⟩

end Workspace

/-! ## 3. Inspections -/

namespace Workspace

variable {ws : Workspace} {dep version : String}

theorem repeats_examine (h : host.Steady ws.manifest usual) (hdir : ws.workDir ≠ "")
    (dep version : String) :
    Action.Repeats host (ws.manifest.AlikeIn usual) (ws.examine dep version) := by
  refine Action.repeats_bind (ManifestFiles.repeats_mutate h (repeats_pin h)) fun pinned => ?_
  refine Action.repeats_bind (Action.repeats_ofCauses _) fun _ => ?_
  refine Action.repeats_bind (PackageGraph.repeats_list h _ _ _) fun graph => ?_
  refine Action.repeats_bind (Action.repeats_ofCauses _) fun scope => ?_
  exact Action.repeats_bind (Analyzers.repeats_analyze h _ hdir) fun found => Action.twin_pure rfl

/-- **An inspection repeats**: it depends on the two manifest files alone. -/
theorem repeats_inspectPinned (h : host.Steady ws.manifest usual) (hs : ws.manifest.Separate)
    (hdir : ws.workDir ≠ "") (dep version : String) :
    Action.Repeats host (ws.manifest.AlikeIn usual) (ws.inspectPinned dep version) := by
  have announce : Action.Repeats host (ws.manifest.AlikeIn usual) (ws.announce dep version) := by
    unfold Workspace.announce
    split
    · exact Action.repeats_bind (Action.twin_log h.spares) fun _ => Action.twin_log h.spares
    · exact Action.twin_log h.spares
  have examined := Action.twin_mapFailure
    (ManifestFiles.repeats_transaction h hs (repeats_examine h hdir dep version))
    (inContext dep version)
  exact Action.repeats_bind announce fun _ => Action.repeats_bind examined fun found =>
    Action.repeats_bind (Action.twin_log h.spares) fun _ => Action.twin_pure rfl

theorem repeats_inspect (h : host.Steady ws.manifest usual) (hs : ws.manifest.Separate)
    (hdir : ws.workDir ≠ "") (dep version : String) :
    Action.Repeats host (ws.manifest.AlikeIn usual) (ws.inspect dep version) :=
  Action.repeats_bind (repeats_inspectPinned h hs hdir dep version) fun _ => Action.twin_pure rfl

theorem repeats_comparePinned (h : host.Steady ws.manifest usual) (hs : ws.manifest.Separate)
    (hdir : ws.workDir ≠ "") (dep old new : String) :
    Action.Repeats host (ws.manifest.AlikeIn usual) (ws.comparePinned dep old new) :=
  Action.repeats_bind (repeats_inspectPinned h hs hdir dep old) fun _ =>
    Action.repeats_bind (repeats_inspectPinned h hs hdir dep new) fun _ => Action.twin_pure rfl

theorem repeats_compare (h : host.Steady ws.manifest usual) (hs : ws.manifest.Separate)
    (hdir : ws.workDir ≠ "") (dep old new : String) :
    Action.Repeats host (ws.manifest.AlikeIn usual) (ws.compare dep old new) :=
  Action.repeats_bind (repeats_comparePinned h hs hdir dep old new) fun _ => Action.twin_pure rfl

end Workspace
end UpgradeAudit
