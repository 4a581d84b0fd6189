/-
# Private directories after a run

Private directories come and go in a run: the copy that a transaction keeps, and one for each of
the two analyzers that take a configuration.  **A run leaves none of them behind, unless a file
could not be put back; then it leaves the copy of that one transaction, with both files as they
were when it began** (`Call.run_leaves`).

An analyzer owes its directory from its launch to its end (`Analyzers.Owing`).  What is owed while
several of them run depends on which have ended, in whatever order they do (`Outcomes.owed`), and
when all have ended nothing is.  A transaction gives its copy up unless a file could not be put
back, and such a failure stops the run, so that only the last session can leave a copy
(`Trail.leaves`).
-/
import UpgradeAudit.Proofs.Audit.Endings
import UpgradeAudit.Proofs.Audit.Restoration
import UpgradeAudit.Proofs.Manifest.Copies

namespace UpgradeAudit

variable {α β : Type} {host : Host} {w w' : World} {ws : Workspace} {dep version : String}
  {settings : Settings} {env : Environment} {known : Option Workspace}

/-! ## 1. Commands -/

namespace Runner

theorem within_directories_start (r : Runner) (argv : List String) (cwd : Option String)
    (attachment : Option Bytes) :
    Action.Within host .directories (r.start argv cwd attachment) := by
  intro w
  rw [start_run]
  dsimp only
  split <;> exact ⟨rfl, rfl⟩

theorem within_directories_wait (running : Running) (accepted : List Int) :
    Action.Within host .directories (wait running accepted) :=
  within_wait_of running accepted Action.within_directories_log fun e _ =>
    Action.within_directories_record e

theorem within_directories_run (r : Runner) (argv : List String) (accepted : List Int)
    (cwd : Option String) : Action.Within host .directories (r.run argv accepted cwd) :=
  Action.within_bind (within_directories_start r argv cwd none) fun _ =>
    within_directories_wait _ _

end Runner

namespace Analyzers

variable {a : Analyzers} {target : Target}

/-! ## 2. Launched work -/

/-- A launch that is tidy when it fails, and otherwise owes some directories to be paid by the
work that is left to do. -/
structure Owing (host : Host) (x : Action (Action α)) : Prop where
  failed {w w' : World} {f : Failure} (h : x host w = (.error f, w')) : Frame.tidy.rel w w'
  launched {w w' : World} {y : Action α} (h : x host w = (.ok y, w')) :
    ∃ ds, Action.Pays host ds y ∧
      ∀ table rest, w.Owes table rest → w'.Owes table (ds ++ rest)

/-- The start touches the one directory that was made for it. -/
theorem within_using_configure (tool : Tool) (what name : String) (content : Bytes)
    {launch : String → Action Running}
    (hlaunch : ∀ path, Action.Within host .directories (launch path)) (directory : Nat) :
    Action.Within host (.using directory)
      (configure tool what name content launch directory) :=
  Action.within_bind (Action.within_onFileError (Action.within_using_writePrivate _ _ _)) fun _ =>
    Action.within_bind (Action.within_directories_privateName _ _).using fun path =>
      (hlaunch path).using

/-- Where no removal fails, a directory that is removed is paid for. -/
theorem pays_removeDirectory (hremoves : host.Removes) (directory : Nat) :
    Action.Pays host [directory] (Action.removeDirectory directory) :=
  fun _ _ _ howes => howes.removed hremoves

/-- Whatever comes of the program, its directory is removed when it has ended. -/
theorem pays_awaiting (hremoves : host.Removes) (running : Running) (accepted : List Int)
    (directory : Nat) : Action.Pays host [directory] (awaiting running accepted directory) := by
  intro table rest w howes
  have ended := (@Runner.within_directories_wait host running accepted).tidy w table _ howes
  have paid := (pays_removeDirectory hremoves directory).bind (fun _ => Action.within_ofExcept
    (Runner.wait running accepted host w).1) table rest _ ended
  exact paid

/-- A launch with a configuration makes no directory, or owes the one that was made while the
configuration is written and the program started. -/
theorem withConfig_owes (tool : Tool) (what name : String) (content : Bytes)
    {launch : String → Action Running} (accepted : List Int)
    (hlaunch : ∀ path, Action.Within host .directories (launch path)) (w : World) :
    (∃ f v, Action.makeDirectory host w = (.error f, v) ∧
      withConfig tool what name content launch accepted host w = (.error f, v)) ∨
    ∃ directory r v', withConfig tool what name content launch accepted host w
        = configured accepted directory r host v' ∧
      ∀ table rest, w.Owes table rest → v'.Owes table (directory :: rest) := by
  rcases made : Action.makeDirectory host w with ⟨f | directory, v⟩
  · exact Or.inl ⟨f, v, rfl, by rw [withConfig_eq, Action.bind_of_error made]⟩
  · rcases start : configure tool what name content launch directory host v with ⟨r, v'⟩
    refine Or.inr ⟨directory, r, v', withConfig_run _ made start, fun table rest howes => ?_⟩
    obtain ⟨rfl, hmade, hset⟩ := Action.makeDirectory_ok made
    exact (within_using_configure tool what name content hlaunch _).rel_of_eq start table _
      List.mem_cons_self (howes.of_made hmade hset)

/-- **A launch with a configuration owes the directory that was made for it, when it succeeds.** -/
theorem owing_withConfig (hremoves : host.Removes) (tool : Tool) (what name : String)
    (content : Bytes) {launch : String → Action Running} (accepted : List Int)
    (hlaunch : ∀ path, Action.Within host .directories (launch path)) :
    Owing host (withConfig tool what name content launch accepted) := by
  have cases := withConfig_owes tool what name content accepted hlaunch
  constructor
  · intro w w' f h table rest howes
    rcases cases w with ⟨f', v, made, hrun⟩ | ⟨directory, r, v', hrun, owed⟩
    · obtain rfl : v = w' := congrArg Prod.snd (hrun.symm.trans h)
      exact howes.of_directories (Action.makeDirectory_error made)
    · rw [hrun] at h
      cases r with
      | ok running => cases h
      | error e =>
        have paid := (pays_removeDirectory hremoves directory).bind (fun _ =>
          (Action.within_fail (α := Action CommandResult) e)) table rest v' (owed table rest howes)
        rw [configured] at h
        rwa [h] at paid
  · intro w w' y h
    rcases cases w with ⟨f', v, made, hrun⟩ | ⟨directory, r, v', hrun, owed⟩
    · rw [hrun] at h
      cases h
    · rw [hrun] at h
      cases r with
      | error e =>
        obtain ⟨⟨⟩, v, -, h⟩ := Action.bind_ok h
        cases h
      | ok running =>
        cases h
        exact ⟨_, pays_awaiting hremoves _ _ _, owed⟩

namespace Owing

theorem of_tidy {x : Action (Action α)} (hx : Action.Within host .tidy x)
    (hy : Action.Yields host (Action.Within host .tidy) x) : Owing host x :=
  ⟨fun h => hx.rel_of_eq h, fun h =>
    ⟨[], Action.pays_of_tidy (hy _ _ _ h), fun table rest => hx.rel_of_eq h table rest⟩⟩

theorem blame {x : Action (Action α)} (h : Owing host x) (tool : Tool) :
    Owing host (Analyzers.blame tool x) := by
  refine ⟨fun hrun => ?_, fun hrun => h.launched (Action.mapFailure_ok hrun)⟩
  obtain ⟨e, hrun, -⟩ := Action.mapFailure_error hrun
  exact h.failed hrun

/-- What goes on with the work that is left to do pays what it owes. -/
theorem carriedOn {x : Action (Action α)} {g : Action α → Action β} (h : Owing host x)
    (hg : ∀ ds y, Action.Pays host ds y → Action.Pays host ds (g y)) :
    Owing host (x >>= fun y => pure (g y)) := by
  constructor
  · intro w w' f hrun
    rcases hx : x host w with ⟨e | y, v⟩
    · rw [Action.bind_of_error hx] at hrun
      obtain rfl : v = w' := congrArg Prod.snd hrun
      exact h.failed hx
    · rw [Action.bind_of_ok hx] at hrun
      cases hrun
  · intro w w' z hrun
    obtain ⟨y, v, hx, hrun⟩ := Action.bind_ok hrun
    obtain ⟨rfl, rfl⟩ : g y = z ∧ v = w' := by simpa using hrun
    obtain ⟨ds, pays, howes⟩ := h.launched hx
    exact ⟨ds, hg ds y pays, howes⟩

/-- A launch that is attempted leaves work behind that pays what is owed, whatever came of it. -/
theorem attempt {x : Action (Action α)} (h : Owing host x) (w : World) :
    ∃ l w' ds, Action.attempt x host w = (.ok l, w') ∧ Action.Pays host ds (Launched.conclude l) ∧
      ∀ table rest, w.Owes table rest → w'.Owes table (ds ++ rest) := by
  rw [Action.attempt_run]
  rcases hx : x host w with ⟨f | y, w'⟩
  · exact ⟨_, w', [], rfl, Action.pays_of_tidy (Action.within_pure _), h.failed hx⟩
  · obtain ⟨ds, pays, howes⟩ := h.launched hx
    exact ⟨_, w', ds, rfl, pays, howes⟩

end Owing

theorem tidy_decode (d : Output.Document) (moduleCache : String) (workDir : Option String) :
    Action.Within host .tidy (Output.CheckStream.decode d moduleCache workDir) :=
  (Output.CheckStream.within_decode_of Action.within_directories_room
    Action.within_directories_readFile d moduleCache workDir).tidy

theorem owing_capslock (hremoves : host.Removes) (a : Analyzers) (target : Target) :
    Owing host (a.launchCapslock target) := by
  unfold launchCapslock
  split
  · exact ⟨fun h => by obtain rfl := congrArg Prod.snd h; exact Frame.refl _ _, fun h => nomatch h⟩
  · refine ((owing_withConfig hremoves _ _ _ _ _ fun path => ?_).blame _).carriedOn
      fun ds y hy => ?_
    · exact Action.within_bind (Action.within_directories_log _ _ _ _) fun _ =>
        Runner.within_directories_start _ _ _ _
    · refine (hy.mapFailure _).bind fun result => ?_
      refine Action.within_bind Action.within_directories_room.tidy fun room => ?_
      refine Action.within_bind (Action.within_ofCauses _) fun report => ?_
      exact Action.within_bind (Action.within_directories_log _ _ _ _).tidy fun _ =>
        Action.within_pure _

theorem owing_golangciLint (hremoves : host.Removes) (a : Analyzers) (target : Target) :
    Owing host (a.launchGolangciLint target) := by
  refine ((owing_withConfig hremoves _ _ _ _ _ fun path => ?_).blame _).carriedOn
    fun ds y hy => ?_
  · exact Action.within_bind (Action.within_directories_log _ _ _ _) fun _ =>
      Runner.within_directories_start _ _ _ _
  · exact (hy.mapFailure _).bind fun _ =>
      Action.within_bind Action.within_directories_room.tidy fun _ => Action.within_ofCauses _

/-- An analyzer without a configuration owes nothing. -/
theorem owing_staticcheck (host : Host) (a : Analyzers) (target : Target) :
    Owing host (a.launchStaticcheck target) := by
  have start : Action.Within host .tidy (Analyzers.blame .staticcheck
      (a.runner.start ([a.staticcheck, "-checks=" ++ a.checks, "-f=json", "-tests=false"]
        ++ target.dirs) (some target.workDir) none)) :=
    Action.within_onCommandFailure (Runner.within_directories_start _ _ _ _).tidy
  have log : Action.Within host .tidy (Action.log .info lintOrigin "lint.staticcheck_start"
      [("dep", .text target.name), ("dirs", .nat target.dirs.length)]) :=
    (Action.within_directories_log _ _ _ _).tidy
  refine .of_tidy (Action.within_bind log fun _ => Action.within_bind start fun _ =>
    Action.within_pure _) (Action.yields_bind fun _ => Action.yields_bind fun running =>
      Action.yields_pure ?_)
  refine Action.within_bind (Action.within_onCommandFailure
    (Runner.within_directories_wait running _).tidy) fun result => ?_
  exact Action.within_bind Action.within_directories_checkpoint.tidy fun _ => tidy_decode _ _ _

/-! ## 3. Analyses -/

/-- What the linters owe whose outcomes are not there yet. -/
def LintOutcomes.owed (g s : List Nat) (o : LintOutcomes) : List Nat :=
  (if o.golangciLint.isSome then [] else g) ++ if o.staticcheck.isSome then [] else s

/-- What the analyzers owe whose outcomes are not there yet. -/
def Outcomes.owed (c g s : List Nat) (o : Outcomes) : List Nat :=
  (if o.capslock.isSome then [] else c) ++ o.lint.owed g s

variable {c g s : List Nat} {capslock : Launched CapabilityReport} {linters : Linters}
  {table : Table Nat (Table String Bytes)} {rest : List Nat}

/-- A linter that ends pays what it owes. -/
theorem LintOutcomes.Filled.owes {o o' : LintOutcomes} {tool : Tool}
    (hg : Action.Pays host g linters.golangciLint.conclude)
    (hs : Action.Pays host s linters.staticcheck.conclude)
    (h : o.Filled linters host w tool o' w') (howes : w.Owes table (o.owed g s ++ rest)) :
    w'.Owes table (o'.owed g s ++ rest) := by
  cases h with
  | still => exact howes
  | golangciLint lacks run =>
    have paid := hg table ((if o.staticcheck.isSome then [] else s) ++ rest) w
      (howes.of_mem_iff fun d => by simp [owed, lacks])
    rw [run] at paid
    exact paid.of_mem_iff fun d => by simp [owed]
  | staticcheck lacks run =>
    have paid := hs table ((if o.golangciLint.isSome then [] else g) ++ rest) w
      (howes.of_mem_iff fun d => by simp [owed, lacks, or_left_comm])
    rw [run] at paid
    exact paid.of_mem_iff fun d => by simp [owed]

/-- **An analyzer that ends pays what it owes, whichever have ended before it.** -/
theorem Outcomes.Filled.owes {o o' : Outcomes} {tool : Tool}
    (hc : Action.Pays host c capslock.conclude)
    (hg : Action.Pays host g linters.golangciLint.conclude)
    (hs : Action.Pays host s linters.staticcheck.conclude)
    (h : o.Filled capslock linters host w tool o' w')
    (howes : w.Owes table (o.owed c g s ++ rest)) : w'.Owes table (o'.owed c g s ++ rest) := by
  cases h with
  | still => exact howes
  | capslock lacks run =>
    have paid := hc table (o.lint.owed g s ++ rest) w
      (howes.of_mem_iff fun d => by simp [owed, lacks])
    rw [run] at paid
    exact paid.of_mem_iff fun d => by simp [owed]
  | linter _ filled =>
    have owes : w.Owes table (o.lint.owed g s ++ ((if o.capslock.isSome then [] else c) ++ rest)) :=
      howes.of_mem_iff fun d => by simp [owed, or_left_comm]
    exact (filled.owes hg hs owes).of_mem_iff fun d => by simp [owed, or_left_comm]

theorem tidy_reportIssues (target : Target) (outcome : Except Failure (List Issue)) :
    Action.Within host .tidy (reportIssues target outcome) := by
  unfold reportIssues
  split
  · exact (Action.within_directories_log _ _ _ _).tidy
  · exact Action.within_pure _

/-- **When all analyzers have ended none has left a directory behind.** -/
theorem tidy_analyze (hremoves : host.Removes) (a : Analyzers) (target : Target) :
    Action.Within host .tidy (a.analyze target) := by
  intro w table rest howes
  obtain ⟨capslock, w₁, c, hcapslock, hc, hcowes⟩ := (owing_capslock hremoves a target).attempt w
  unfold analyze
  rw [Action.bind_of_ok hcapslock]
  split
  · -- nothing to lint
    exact (hc.bind fun _ => Action.within_ofExcept _) table rest _
      ((hcowes table rest howes).of_directories ⟨rfl, rfl⟩)
  · obtain ⟨golangciLint, w₂, g, hgolangciLint, hg, hgowes⟩ :=
      (owing_golangciLint hremoves a target).attempt w₁
    obtain ⟨staticcheck, w₃, s, hstaticcheck, hs, hsowes⟩ :=
      (owing_staticcheck host a target).attempt w₂
    have hlaunch : a.launchLinters target host w₁ = (.ok ⟨golangciLint, staticcheck⟩, w₃) := by
      rw [launchLinters, Action.bind_of_ok hgolangciLint, Action.bind_of_ok hstaticcheck]
      rfl
    have launched : w₃.Owes table (Outcomes.owed c g s ⟨none, ⟨none, none⟩⟩ ++ rest) := by
      refine (hsowes _ _ (hgowes _ _ (hcowes _ _ howes))).of_mem_iff fun d => ?_
      simp only [Outcomes.owed, LintOutcomes.owed, Option.isSome_none, Bool.false_eq_true,
        if_false, List.mem_append]
      grind
    obtain ⟨o, w₄, hfold, owed, hall, -⟩ := Action.foldlM_fills
      (fun w o => w.Owes table (Outcomes.owed c g s o ++ rest)) Outcomes.Has
      (fun o tool w howes => by
        obtain ⟨o', w', hrun, filled⟩ := o.filled capslock ⟨golangciLint, staticcheck⟩ tool host w
        exact ⟨o', w', hrun, filled.owes hc hg hs howes, filled.has⟩)
      (host.finishOrder w₃.clock ++ [Tool.capslock, Tool.golangciLint, Tool.staticcheck])
      ⟨none, ⟨none, none⟩⟩ { w₃ with clock := w₃.clock + 1 } (launched.of_directories ⟨rfl, rfl⟩)
    have settled : w₄.Owes table rest := by
      have hc : o.capslock.isSome := hall .capslock (by simp)
      have hg : o.lint.golangciLint.isSome := hall .golangciLint (by simp)
      have hs : o.lint.staticcheck.isSome := hall .staticcheck (by simp)
      simpa [Outcomes.owed, LintOutcomes.owed, hc, hg, hs] using owed
    rw [Action.bind_of_ok hlaunch]
    simp only [Action.bind_run, Action.host_run, Action.moment_run, hfold]
    exact Action.within_bind (tidy_reportIssues target _) (fun _ => Action.within_ofExcept _) w₄
      table rest settled

end Analyzers

/-! ## 4. Transactions -/

/-- What a transaction leaves that took `b` when it began and could not put a file back: the copy,
and a failure that stops the run. -/
structure Backup.Left (b : Backup) (files : ManifestFiles) (host : Host) (w : World)
    (es : List Event) (r : Except Failure α) (w' : World) : Prop where
  taken : ∃ v, Backup.take files host w = (.ok b, v)
  missed : ∃ paths, paths ≠ [] ∧ Event.restored b.directory paths ∈ es
  stops : ∃ f, r = .error f ∧ f.Stops
  directories : w'.directories = w.directories ++ [(b.directory, b.copies)]

/-- The one attempt to put the files back comes at the end, after the work. -/
theorem Backup.deeds_of_attempt {files : ManifestFiles} {b : Backup} {work : Action α}
    {v v' v'' : World} {outcome : Except Failure α} {paths : List String}
    (taken : Backup.take files host w = (.ok b, v))
    (hdeeds : Action.Within host (.deeds fun e => ∀ d missed, e ≠ .restored d missed) work)
    (worked : work host v = (outcome, v'))
    (restored : v''.deeds = v'.deeds ++ [.restored b.directory paths])
    (ended : w'.deeds = v''.deeds ++ [.closed b.directory]) :
    ∃ es, w'.deeds = w.deeds ++ es ∧ Event.restored b.directory paths ∈ es ∧
      ∀ path, MissedIn es path ↔ path ∈ paths := by
  obtain ⟨body, hbody, hnone⟩ := hdeeds.rel_of_eq worked
  obtain ⟨-, -, -, -, htaken⟩ := Backup.take_ok taken
  have hno : NoRestore ([.read b.snapshot.contents, .opened b.directory b.snapshot.contents]
      ++ body) := by
    intro d missed hmem
    have hbody : Event.restored d missed ∈ body := by simpa using hmem
    exact hnone _ hbody d missed rfl
  refine ⟨_ ++ [.restored b.directory paths, .closed b.directory], ?_, by simp,
    fun path => hno.missedIn_attempt⟩
  rw [ended, restored, hbody, htaken]
  simp

/-- **A transaction whose work is tidy is tidy, unless a file could not be put back.** -/
theorem Transacted.leaves {files : ManifestFiles} {work : Backup → Action α} {r : Except Failure α}
    (h : Transacted files work host w r w') (hw : w.Fresh)
    (hwork : ∀ b, Action.Within host .tidy (work b))
    (hdeeds : ∀ b, Action.Within host (.deeds fun e => ∀ d missed, e ≠ .restored d missed)
      (work b)) :
    w'.Fresh ∧ ∃ es, w'.deeds = w.deeds ++ es ∧
      ((∀ path, ¬ MissedIn es path) ∧ w'.directories = w.directories ∨
        ∃ b : Backup, b.Left files host w es r w') := by
  cases h with
  | untaken taken =>
    have owes := Backup.take_spared taken _ _ (.refl hw)
    obtain ⟨-, hlooks | ⟨contents, hlooks⟩⟩ := Backup.take_error taken
    · refine ⟨owes.fresh, [], hlooks.trans (List.append_nil _).symm, Or.inl ⟨?_,
        owes.directories_eq⟩⟩
      rintro path ⟨d, missed, hmem, -⟩
      cases hmem
    · refine ⟨owes.fresh, _, hlooks, Or.inl ⟨?_, owes.directories_eq⟩⟩
      rintro path ⟨d, missed, hmem, -⟩
      simp at hmem
  | @restored b _ v v' v'' taken worked restored =>
    have put := (Backup.within_directories_restore b host).tidy.rel_of_eq restored
    have closed := Backup.tidy_of_closed taken (Frame.trans _ ((hwork b).rel_of_eq worked) put)
    have owes := closed _ _ (.refl hw)
    have hended := World.deeds_record (e := .closed b.directory) rfl (b.close host v'').2
    rw [Backup.close_deeds] at hended
    obtain ⟨es, hes, -, hmissed⟩ := Backup.deeds_of_attempt taken (hdeeds b) worked
      (Backup.restore_deeds (Backup.take_ok taken).2.1 restored) hended
    exact ⟨owes.fresh, es, hes, Or.inl
      ⟨fun path hpath => absurd ((hmissed path).1 hpath) List.not_mem_nil, owes.directories_eq⟩⟩
  | @broken b outcome g v v' v'' taken worked restored =>
    obtain ⟨⟨paths, hrestored, hne, hnames⟩, -⟩ :=
      Backup.restore_error (Backup.take_ok taken).2.1 restored
    have put := (Backup.within_directories_restore b host).tidy.rel_of_eq restored
    obtain ⟨hfresh, hcopies⟩ :=
      Backup.copies_of_tidy taken (Frame.trans _ ((hwork b).rel_of_eq worked) put) hw
    obtain ⟨es, hes, hmem, -⟩ :=
      Backup.deeds_of_attempt taken (hdeeds b) worked hrestored (World.deeds_record rfl _)
    obtain ⟨path, hpath⟩ := List.exists_mem_of_ne_nil paths hne
    exact ⟨hfresh, es, hes, Or.inr ⟨b, ⟨v, taken⟩, ⟨paths, hne, hmem⟩,
      ⟨_, rfl, (Backup.reports_combined (hnames path hpath) outcome).2⟩, hcopies⟩⟩

/-! ## 5. Inspections -/

namespace Workspace

theorem within_directories_pin (ws : Workspace) (dep version : String) :
    Action.Within host .directories (ws.pin dep version) := by
  unfold pin
  refine Action.within_bind
    (Action.within_onCommandFailure (Runner.within_directories_run _ _ _ _)) fun _ => ?_
  split
  · exact Action.within_pure _
  · exact Action.within_bind
      (Action.within_onCommandFailure (Runner.within_directories_run _ _ _ _)) fun _ =>
        Action.within_pure _

theorem tidy_examine (hremoves : host.Removes) (ws : Workspace) (dep version : String) :
    Action.Within host .tidy (ws.examine dep version) := by
  have list : Action.Within host .directories
      (PackageGraph.list ws.runner ws.settings.buildTool (patterns dep (ws.scopeMode dep))) := by
    refine Action.within_bind (Runner.within_directories_run _ _ _ _) fun result =>
      Action.within_bind Action.within_directories_room fun room => ?_
    split
    · exact Action.within_pure _
    · exact Action.within_fail _
  have pinned : Action.Within host .directories (ws.manifest.mutate (ws.pin dep version)) :=
    Action.within_bind (within_directories_pin ws dep version) fun _ =>
      Snapshot.within_directories_read _
  refine Action.within_bind pinned.tidy fun _ => Action.within_bind (Action.within_ofCauses _)
    fun _ => Action.within_bind list.tidy fun _ => Action.within_bind (Action.within_ofCauses _)
      fun _ => Action.within_bind (Analyzers.tidy_analyze hremoves _ _)
        fun _ => Action.within_pure _

/-- Nothing is put back in an examination. -/
theorem within_examine_deeds (ws : Workspace) (dep version : String) :
    Action.Within host (.deeds fun e => ∀ d missed, e ≠ .restored d missed)
      (ws.examine dep version) := by
  intro w
  obtain ⟨es, hes, hexamined⟩ := examined ws dep version host w
  refine ⟨es, hes, fun e he d missed hrestored => ?_⟩
  exact hexamined.noRestore d missed (hrestored ▸ he)

end Workspace

/-- A copy that is beside its manifest holds both files exactly. -/
theorem Backup.exact_of_ofPaths {path : String} {b : Backup}
    (h : ManifestFiles.ofPaths path none = .ok b.snapshot.files) (hb : b.Sound) : b.Exact := by
  obtain ⟨⟨-, -, hslashes⟩, init, name, hmanifest, hlock, -⟩ := ManifestFiles.ofPaths_ok h
  refine Backup.exact_of_names fun hname => hb.coherent ?_
  have hsame : name = ManifestFiles.lockName := by
    simpa [manifestName, Backup.lockName, Path.name?, hmanifest, hlock] using hname
  rw [Path.text, Path.text, hslashes, hmanifest, hlock, hsame]

namespace Session

/-- The copy that a session took of both files when its transaction began, and kept because one of
them could not be put back. -/
structure Keeps (s : Session) (ws : Workspace) (host : Host) (b : Backup) : Prop where
  begun : ∃ v v', ws.announce s.dep s.version host s.before = (.ok (), v) ∧
    Backup.take ws.manifest host v = (.ok b, v') ∧ ws.manifest.Hold b.snapshot.contents v.files
  copied : b.Exact
  missed : ∃ paths, paths ≠ [] ∧ Event.restored b.directory paths ∈ s.deeds ws host

theorem Keeps.missedIn {s : Session} {b : Backup} (h : s.Keeps ws host b) :
    ∃ path, MissedIn (s.deeds ws host) path := by
  obtain ⟨paths, hne, hmem⟩ := h.missed
  obtain ⟨path, hpath⟩ := List.exists_mem_of_ne_nil paths hne
  exact ⟨path, b.directory, paths, hmem, hpath⟩

/-- **A session leaves no directory behind but the copy of files that could not be put back**, and
in that case it fails with a failure that stops the run. -/
theorem leaves (hremoves : host.Removes) (s : Session)
    (hws : ∃ path, ManifestFiles.ofPaths path none = .ok ws.manifest) (hw : s.before.Fresh) :
    (s.after ws host).Fresh ∧
      ((∀ path, ¬ MissedIn (s.deeds ws host) path) ∧
          (s.after ws host).directories = s.before.directories ∨
        ∃ b f, s.Keeps ws host b ∧ s.outcome ws host = .error f ∧ f.Stops ∧
          (s.after ws host).directories = s.before.directories ++ [(b.directory, b.copies)]) := by
  unfold Session.after outcome
  obtain ⟨w₁, hannounced⟩ := ws.announced s.dep s.version host s.before
  have before := (Workspace.within_announce Action.within_directories_log ws s.dep
    s.version).rel_of_eq hannounced
  have logs :=
    (Workspace.within_announce Action.within_logs ws s.dep s.version).rel_of_eq hannounced
  obtain ⟨after, houtcome⟩ :=
    Workspace.inspectPinned_of_announced Action.within_directories_log hannounced
  obtain ⟨logs', -⟩ := Workspace.inspectPinned_of_announced Action.within_logs hannounced
  obtain ⟨hfresh, es, hes, hleaves⟩ :=
    (transacted ws.manifest (fun _ => ws.examine s.dep s.version) host w₁).leaves
      ((World.Owes.refl hw).of_directories before).fresh
      (fun _ => Workspace.tidy_examine hremoves ws s.dep s.version)
      fun _ => Workspace.within_examine_deeds ws s.dep s.version
  generalize ws.manifest.transaction (fun _ => ws.examine s.dep s.version) host w₁ = ran
    at after logs' houtcome hfresh hes hleaves
  have hdeeds : s.deeds ws host = es := by
    have hall := (s.inspected ws host).1
    rw [Session.after, logs'.1, hes, logs.1] at hall
    exact (List.append_cancel_left hall).symm
  refine ⟨((World.Owes.refl hfresh).of_directories after).fresh, ?_⟩
  rw [hdeeds, after.1, ← before.1]
  refine hleaves.imp_right ?_
  rintro ⟨b, ⟨v, htaken⟩, hmissed, ⟨f, hf, hstops⟩, hcopies⟩
  obtain ⟨hfiles, hb, hhold, -, -⟩ := Backup.take_ok htaken
  obtain ⟨manifest, hpaths⟩ := hws
  refine ⟨b, Workspace.inContext s.dep s.version f, ⟨⟨w₁, v, hannounced, htaken, hhold⟩,
    Backup.exact_of_ofPaths (hfiles ▸ hpaths) hb, hdeeds ▸ hmissed⟩, ?_,
    Failure.stops_inContext hstops, hcopies⟩
  rw [houtcome, hf]
  rfl

end Session

/-! ## 6. Whole runs -/

namespace Trail

/-- Log records alone change no directory. -/
theorem directories_of_nil (h : Trail ws host w [] w') : Frame.directories.rel w w' := by
  generalize hss : ([] : List Session) = ss at h
  induction h with
  | nil => exact Frame.refl _ _
  | logged r _ ih => exact Frame.trans _ ⟨rfl, rfl⟩ (ih hss)
  | session => cases hss

/-- **Only the last session of a trail can leave a copy behind.** -/
theorem leaves (hremoves : host.Removes) {ss : List Session} {r : Except Failure α}
    (h : Trail ws host w ss w') (hr : PassesOn ws host ss r)
    (hws : ∃ path, ManifestFiles.ofPaths path none = .ok ws.manifest) (hw : w.Fresh) :
    w'.Fresh ∧
      ((∀ path, ¬ MissedIn (ss.flatMap fun s => s.deeds ws host) path) ∧
          w'.directories = w.directories ∨
        ∃ ss' s b f, ss = ss' ++ [s] ∧
          (∀ path, ¬ MissedIn (ss'.flatMap fun s => s.deeds ws host) path) ∧
          s.Keeps ws host b ∧ r = .error f ∧ f.Stops ∧
          w'.directories = w.directories ++ [(b.directory, b.copies)]) := by
  have nothing (path : String) : ¬ MissedIn [] path := fun ⟨_, _, hmem, _⟩ => nomatch hmem
  induction h with
  | nil w => exact ⟨hw, Or.inl ⟨nothing, rfl⟩⟩
  | logged _ _ ih => exact ih hr hw
  | @session w' ss s rest ih =>
    obtain ⟨hfresh, ⟨hnone, hsame⟩ | ⟨b, f, hkeeps, hf, hstops, hcopies⟩⟩ :=
      s.leaves hremoves hws hw
    · have head {es : List Event} (h : ∀ path, ¬ MissedIn es path) (path : String) :
          ¬ MissedIn (s.deeds ws host ++ es) path :=
        fun hmissed => (missedIn_append.1 hmissed).elim (hnone path) (h path)
      obtain ⟨hfresh', ⟨hnone', hsame'⟩ | ⟨ss', s', b, f, rfl, hnone', hkeeps⟩⟩ := ih hr.tail hfresh
      · exact ⟨hfresh', Or.inl ⟨head hnone', hsame'.trans hsame⟩⟩
      · rw [hsame] at hkeeps
        exact ⟨hfresh', Or.inr ⟨s :: ss', s', b, f, rfl, head hnone', hkeeps⟩⟩
    · -- a session that kept a copy is the last one
      obtain ⟨rfl, rfl⟩ := hr [] s ss f rfl hf hstops
      have logs := directories_of_nil rest
      exact ⟨((World.Owes.refl hfresh).of_directories logs).fresh,
        Or.inr ⟨[], s, b, f, rfl, nothing, hkeeps, rfl, hstops, logs.1.trans hcopies⟩⟩

end Trail

namespace Call

theorem within_directories_ready (settings : Settings) (env : Environment)
    (known : Option Workspace) : Action.Within host .directories (ready settings env known) := by
  cases known with
  | none =>
    exact Workspace.within_prepare settings env
      (Workspace.within_ask settings env fun _ _ => Runner.within_directories_run _ _ _ _)
      Snapshot.within_directories_read Action.within_directories_log
  | some ws => exact Action.within_pure _

/-- Getting ready changes no directory, and there is nothing to put back yet. -/
theorem ready_leaves {r : Except Failure Workspace}
    (hr : ready settings env known host w = (r, w')) (hw : w.Fresh) :
    w'.Fresh ∧ w'.directories = w.directories ∧
      ∃ es, w'.deeds = w.deeds ++ es ∧ ∀ path, ¬ MissedIn es path := by
  have same := (within_directories_ready settings env known).rel_of_eq hr
  obtain ⟨es, hes, hsteps⟩ := (within_ready_deeds settings env known host).rel_of_eq hr
  refine ⟨((World.Owes.refl hw).of_directories same).fresh, same.1, es, hes, ?_⟩
  rintro path ⟨d, missed, hmem, -⟩
  rcases hsteps _ hmem with hstep | ⟨contents, he⟩
  · exact hstep
  · cases he

/-- A run that leaves one directory behind: the copy that its last session took, before which every
file was put back. -/
structure KeepsCopy (settings : Settings) (env : Environment) (known : Option Workspace)
    (host : Host) (w : World) (c : Call) (ws : Workspace) (b : Backup) : Prop where
  sessions : ∃ v ss s, ready settings env known host w = (.ok ws, v) ∧
    Trail ws host v (ss ++ [s]) (c.run settings env known host w).2 ∧ s.Keeps ws host b ∧
    ∀ path, ¬ MissedIn (ss.flatMap fun s => s.deeds ws host) path
  stops : ∃ f, (c.run settings env known host w).1 = .error f ∧ f.Stops
  directories : (c.run settings env known host w).2.directories
    = w.directories ++ [(b.directory, b.copies)]

/-- **A run leaves no private directory behind when every file was put back, however it ends**, as
long as no removal of one fails.
Otherwise it leaves exactly one: the copy of both files that was taken when the transaction began
that could not put a file back. -/
theorem run_leaves (c : Call) (hremoves : host.Removes)
    (hknown : ∀ ws, known = some ws →
      ∃ host' v v', Workspace.prepare settings env host' v = (.ok ws, v'))
    (hw : w.Fresh) :
    (c.run settings env known host w).2.Fresh ∧
      ∃ es, (c.run settings env known host w).2.deeds = w.deeds ++ es ∧
        ((∀ path, ¬ MissedIn es path) →
          (c.run settings env known host w).2.directories = w.directories) ∧
        ((∃ path, MissedIn es path) →
          ∃ ws b, c.KeepsCopy settings env known host w ws b) := by
  rcases run_trails settings env known c host w with
    ⟨f, v, hready, hrun⟩ | ⟨ws, v, ss, hready, trail, passes⟩
  · obtain ⟨hfresh, hsame, es, hes, hnone⟩ := ready_leaves hready hw
    rw [hrun]
    exact ⟨hfresh, es, hes, fun _ => hsame, fun ⟨path, hmissed⟩ => absurd hmissed (hnone path)⟩
  · obtain ⟨hfresh, hsame, es, hes, hnone⟩ := ready_leaves hready hw
    obtain ⟨hfresh', hleaves⟩ :=
      trail.leaves hremoves passes (known_of_ready hknown hready).located hfresh
    have hmissed {path : String} : MissedIn (es ++ ss.flatMap fun s => s.deeds ws host) path
        ↔ MissedIn (ss.flatMap fun s => s.deeds ws host) path := by
      rw [missedIn_append, or_iff_right (hnone path)]
    refine ⟨hfresh', es ++ ss.flatMap fun s => s.deeds ws host, ?_, fun h => ?_, fun h => ?_⟩
    · rw [trail.course.deeds_eq, hes, List.append_assoc]
    · rcases hleaves with ⟨-, hsame'⟩ | ⟨ss', s, b, f, rfl, -, hkeeps, -⟩
      · exact hsame'.trans hsame
      · obtain ⟨path, hpath⟩ := hkeeps.missedIn
        have hlast : MissedIn ((ss' ++ [s]).flatMap fun s => s.deeds ws host) path := by
          rw [List.flatMap_append, List.flatMap_singleton]
          exact missedIn_append.2 (Or.inr hpath)
        exact absurd (hmissed.2 hlast) (h path)
    · rcases hleaves with ⟨hnone', -⟩ | ⟨ss', s, b, f, rfl, hnone', hkeeps, hf, hstops, hcopies⟩
      · obtain ⟨path, hpath⟩ := h
        exact absurd (hmissed.1 hpath) (hnone' path)
      · exact ⟨ws, b, ⟨v, ss', s, hready, trail, hkeeps, hnone'⟩, ⟨f, hf, hstops⟩,
          hsame ▸ hcopies⟩

end Call

/-- A host whose build tool removes every file when it should fetch, and on which no file can be
written any more. -/
def Host.exhausted : Host :=
  { Host.ruinous with
    writeFault := fun _ _ => some (.torn (.device 28 "No space left on device") []) }

/-- A run in which neither file can be put back. -/
theorem Call.run_leaves_exhausted :
    Host.exhausted.Removes ∧ (World.ofFiles .emptyModule).Fresh ∧
      ∃ ws b, (Call.inspect "d" "v1").KeepsCopy .standard [] none .exhausted
        (.ofFiles .emptyModule) ws b := by
  have removes : Host.exhausted.Removes := fun _ => rfl
  have fresh := World.fresh_ofFiles .emptyModule
  obtain ⟨-, es, hes, -, hkept⟩ := @run_leaves .exhausted (.ofFiles .emptyModule) .standard [] none
    (.inspect "d" "v1") removes (fun _ h => nomatch h) fresh
  have missed : ((Call.inspect "d" "v1").run .standard [] none .exhausted
      (.ofFiles .emptyModule)).2.deeds.filterMap Event.missed? = [["go.mod", "go.sum"]] := by
    decide +kernel
  rw [hes, show (World.ofFiles .emptyModule).deeds = [] from rfl, List.nil_append] at missed
  exact ⟨removes, fresh, hkept ⟨"go.mod", missedIn_iff.2 (by simp [missed])⟩⟩

end UpgradeAudit
