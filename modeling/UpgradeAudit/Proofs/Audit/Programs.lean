/-
# Programs that are run alike

Under steady surroundings a program is started alike wherever the manifest files are alike
(`start_twins`), and its end is awaited alike wherever log records leave alike what is alike
(`twin_wait`).
-/
import UpgradeAudit.Proofs.Command
import UpgradeAudit.Proofs.Manifest.Steady

namespace UpgradeAudit

variable {host : Host} {files : ManifestFiles} {usual : FileTree → Prop}
  {E : FileTree → FileTree → Prop}

/-- Programs that were started alike and end alike. -/
structure Running.Same (r r' : Running) : Prop where
  command : r.command = r'.command
  ending : r.behaviour.ending = r'.behaviour.ending
  stdout : r.behaviour.stdout = r'.behaviour.stdout
  stderr : r.behaviour.stderr = r'.behaviour.stderr

namespace Runner

variable {r : Runner} {argv : List String} {cwd : Option String} {attachment : Option Bytes}
  {running running' : Running} {accepted : List Int}

/-- **A program is started alike**, and the source files that its output will name are alike. -/
theorem start_twins (h : host.Steady files usual) (r : Runner) (argv : List String)
    (cwd : Option String) (attachment : Option Bytes) {w v : World}
    (halike : files.AlikeIn usual w.files v.files) :
    Agree Running.Same (r.start argv cwd attachment host w).1
        (r.start argv cwd attachment host v).1 ∧
      files.AlikeIn usual (r.start argv cwd attachment host w).2.files
        (r.start argv cwd attachment host v).2.files ∧
      ∀ running, (r.start argv cwd attachment host w).1 = .ok running →
        FileTree.AlikeAt
            (Output.CheckStream.sources (host.nesting 0) (r.directory cwd)
              running.behaviour.stdout)
            (r.start argv cwd attachment host w).2.files
            (r.start argv cwd attachment host v).2.files ∧
          ∀ path ∈ Output.CheckStream.sources (host.nesting 0) (r.directory cwd)
            running.behaviour.stdout, host.Names usual path := by
  have launching : files.AlikeIn usual (r.launching argv cwd attachment host w).files
      (r.launching argv cwd attachment host v).files := h.spares _ _ _ _ halike
  have same := h.answers w.started v.started _ _ (r.command argv cwd attachment) launching
  have left (started : List Command) {t : FileTree} (ht : usual t) (b : Behaviour)
      (hb : host.respond started t (r.command argv cwd attachment) = .runs b) : usual b.files :=
    h.left _ _ _ b ht hb
  have names (b : Behaviour) (hb : host.respond w.started
      (r.launching argv cwd attachment host w).files (r.command argv cwd attachment) = .runs b) :
      ∀ path ∈ Output.CheckStream.sources (host.nesting 0) (r.directory cwd) b.stdout,
        host.Names usual path :=
    fun path hpath => ⟨_, _, _, b, launching.here, hb, hpath⟩
  have here := left w.started launching.here
  have there := left v.started launching.there
  rw [start_run, start_run]
  dsimp only
  revert same names here there
  generalize host.respond w.started _ _ = s
  generalize host.respond v.started _ _ = s'
  intro same names here there
  cases same with
  | refused error => exact ⟨.error _, launching, fun _ hr => nomatch hr⟩
  | barred fault => exact ⟨.error _, launching, fun _ hr => nomatch hr⟩
  | interrupted => exact ⟨.error _, launching, fun _ hr => nomatch hr⟩
  | runs ending stdout stderr alike sources =>
    refine ⟨.ok ⟨rfl, ending, stdout, stderr⟩, ⟨here _ rfl, there _ rfl, alike⟩,
      fun running hr => ?_⟩
    cases hr
    exact ⟨sources, names _ rfl⟩

theorem twin_start (h : host.Steady files usual) :
    Action.Twin host (files.AlikeIn usual) Running.Same (r.start argv cwd attachment)
      (r.start argv cwd attachment) :=
  fun _ _ halike => ⟨(start_twins h _ _ _ _ halike).1, (start_twins h _ _ _ _ halike).2.1⟩

/-- Its end is awaited alike, and what it has written is what it writes. -/
theorem twin_wait_stdout (h : host.Spares E) (hsame : running.Same running')
    (accepted : List Int) :
    Action.Twin host E
      (fun result result' => result = result' ∧ result.stdout = running.behaviour.stdout)
      (wait running accepted) (wait running' accepted) := by
  unfold wait
  rw [hsame.command, hsame.ending, hsame.stdout, hsame.stderr]
  cases running'.behaviour.ending with
  | interrupted =>
    exact Action.twin_bind (Action.twin_log h) fun _ _ _ =>
      Action.twin_bind (Action.twin_record _ _) fun _ _ _ => Action.twin_fail _
  | exited code =>
    refine Action.twin_bind (Action.twin_record _ _) fun _ _ _ => ?_
    split
    · exact Action.twin_pure ⟨rfl, rfl⟩
    · exact Action.twin_fail _

theorem twin_wait (h : host.Spares E) (hsame : running.Same running') (accepted : List Int) :
    Action.Twin host E (· = ·) (wait running accepted) (wait running' accepted) :=
  (twin_wait_stdout h hsame accepted).imp fun _ _ same => same.1

theorem repeats_run (h : host.Steady files usual) :
    Action.Repeats host (files.AlikeIn usual) (r.run argv accepted cwd) :=
  Action.twin_bind (twin_start h) fun _ _ hsame => twin_wait h.spares hsame accepted

end Runner

end UpgradeAudit
