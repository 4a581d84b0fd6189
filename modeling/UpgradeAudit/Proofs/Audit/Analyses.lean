/-
# What the analyzers do

All that is done while the analyzers run is to start them on their target and to see them end,
in whatever order they do (`within_analyze`).  `Analyzers.Calls` lists the commands by which
they are called; the second word of each tells it from every command of the build tool.
-/
import UpgradeAudit.Audit.Analysis
import UpgradeAudit.Proofs.Command

namespace UpgradeAudit

variable {α : Type} {host : Host}

/-! ## 1. Calls -/

/-- The commands by which the analyzers are called on a target. -/
inductive Analyzers.Calls (a : Analyzers) (target : Target) : Command → Prop
  | capslock (map : String) :
      a.Calls target (a.runner.command
        [a.capslock, "-packages", ",".intercalate target.scope, "-capability_map", map,
          "-output=json"]
        (some target.workDir) (some (Configs.ofLines Configs.capabilityMap)))
  | golangciLint (config : String) :
      a.Calls target (a.runner.command
        ([a.golangciLint, "run", "-c", config, "--out-format=json"] ++ target.dirs)
        (some target.workDir) (some (Configs.ofLines Configs.linterConfig)))
  | staticcheck :
      a.Calls target (a.runner.command
        ([a.staticcheck, "-checks=" ++ a.checks, "-f=json", "-tests=false"] ++ target.dirs)
        (some target.workDir) none)

/-! ## 2. Reading source files -/

namespace Output.CheckStream

variable {F : Frame}

theorem within_readLines (hread : ∀ path, Action.Within host F (Action.readFile path))
    (path : String) (start stop : Int) : Action.Within host F (readLines path start stop) := by
  unfold readLines
  split
  · exact Action.within_pure _
  · refine Action.within_bind (hread _) fun content => ?_
    split
    · exact Action.within_bind (Action.within_fail _) fun _ => Action.within_pure _
    · exact Action.within_pure _

theorem within_issueOf (hread : ∀ path, Action.Within host F (Action.readFile path))
    (moduleCache : String) (workDir : Option String) (p : Problem) :
    Action.Within host F (issueOf moduleCache workDir p) := by
  unfold issueOf
  dsimp only
  split
  · exact Action.within_pure _
  · exact Action.within_bind (Action.within_onFileError (within_readLines hread _ _ _)) fun _ =>
      Action.within_pure _

theorem within_issuesOf (hread : ∀ path, Action.Within host F (Action.readFile path))
    (moduleCache : String) (workDir : Option String) :
    ∀ problems, Action.Within host F (issuesOf moduleCache workDir problems)
  | [] => Action.within_pure _
  | p :: problems =>
    Action.within_bind (within_issueOf hread _ _ p) fun _ =>
      Action.within_bind (within_issuesOf hread moduleCache workDir problems) fun _ =>
        Action.within_pure _

/-- Decoding does nothing but to see how much room there is and to read files. -/
theorem within_decode_of (hroom : Action.Within host F Action.room)
    (hread : ∀ path, Action.Within host F (Action.readFile path))
    (d : Document) (moduleCache : String) (workDir : Option String) :
    Action.Within host F (decode d moduleCache workDir) :=
  Action.within_bind hroom fun _ => Action.within_bind (Action.within_ofCauses _) fun _ =>
    within_issuesOf hread _ _ _

/-- Decoding reads files and changes nothing. -/
theorem within_decode (d : Document) (moduleCache : String) (workDir : Option String) :
    Action.Within host .aside (decode d moduleCache workDir) :=
  within_decode_of Action.within_room Action.within_readFile d moduleCache workDir

end Output.CheckStream

/-- Launched work is carried through, whatever comes of it. -/
theorem Launched.conclude_ok (l : Launched α) (host : Host) (w : World) :
    ∃ r w', l.conclude host w = (.ok r, w') := by
  cases l with
  | error f => exact ⟨_, _, rfl⟩
  | ok rest => exact ⟨_, _, rfl⟩

namespace Analyzers

variable {a : Analyzers} {target : Target} {commands : Command → Prop}

/-! ## 3. Launched work -/

/-- Launched work does no more than steps of some commands, then and when it is carried on. -/
structure Launches (host : Host) (commands : Command → Prop) (x : Action (Action α)) : Prop where
  within : Action.Within host (.deeds (Event.IsStepOf commands)) x
  rest : Action.Yields host (Action.Within host (.deeds (Event.IsStepOf commands))) x

theorem Launches.mapFailure {x : Action (Action α)} (h : Launches host commands x)
    (replace : Failure → Failure) : Launches host commands (x.mapFailure replace) :=
  ⟨Action.within_mapFailure h.within, Action.yields_mapFailure h.rest⟩

theorem Launches.bind {β : Type} {x : Action (Action α)} {f : Action α → Action (Action β)}
    (h : Launches host commands x)
    (hf : ∀ y, Action.Within host (.deeds (Event.IsStepOf commands)) y →
      Launches host commands (f y)) :
    Launches host commands (x >>= f) :=
  ⟨Action.within_bind_of h.within h.rest fun y hy => (hf y hy).within,
    Action.yields_bind_of h.rest fun y hy => (hf y hy).rest⟩

theorem launches_pure {y : Action α} (h : Action.Within host (.deeds (Event.IsStepOf commands)) y) :
    Launches host commands (pure y) := ⟨Action.within_pure _, Action.yields_pure h⟩

theorem launches_fail {β : Type} (f : Failure) (g : β → Action (Action α)) :
    Launches host commands (Action.fail f >>= g) :=
  ⟨fun w => Frame.refl _ w, fun _ _ _ h => nomatch h⟩

/-- What is done before a launch does not change what the launch is. -/
theorem Launches.after {β : Type} {x : Action β} {f : β → Action (Action α)}
    (hx : Action.Within host (.deeds (Event.IsStepOf commands)) x)
    (hf : ∀ b, Launches host commands (f b)) : Launches host commands (x >>= f) :=
  ⟨Action.within_bind hx fun b => (hf b).within, Action.yields_bind fun b => (hf b).rest⟩

theorem launches_withConfig (tool : Tool) (what name : String) (content : Bytes)
    {launch : String → Action Running} (accepted : List Int)
    (h : ∀ path, Action.Within host (.deeds (Event.IsStepOf commands)) (launch path)) :
    Launches host commands (withConfig tool what name content launch accepted) := by
  refine Launches.after Action.within_makeDirectory.deeds_of_aside fun directory => ?_
  refine Launches.after (Action.within_attempt ?_) fun outcome => ?_
  · refine Action.within_bind
      (Action.within_onFileError (Action.within_writePrivate _ _ _)).deeds_of_aside fun _ => ?_
    exact Action.within_bind (Action.within_privateName _ _).deeds_of_aside h
  · cases outcome with
    | error f =>
      exact Launches.after (Action.within_removeDirectory _).deeds_of_aside fun _ =>
        ⟨Action.within_fail _, Action.yields_fail _⟩
    | ok running =>
      refine launches_pure (Action.within_bind (Action.within_attempt (Runner.within_wait _ _)) ?_)
      exact fun _ => Action.within_bind (Action.within_removeDirectory _).deeds_of_aside fun _ =>
        Action.within_ofExcept _

theorem launches_capslock (host : Host) (a : Analyzers) (target : Target) :
    Launches host (a.Calls target) (a.launchCapslock target) := by
  unfold launchCapslock
  split
  · exact launches_fail _ _
  · refine Launches.bind ((launches_withConfig _ _ _ _ _ fun path => ?_).mapFailure _)
      fun ending hending => launches_pure ?_
    · exact Action.within_bind (Action.within_log _ _ _ _) fun _ =>
        Runner.within_start (.capslock path)
    · refine Action.within_bind (Action.within_onCommandFailure hending) fun result => ?_
      refine Action.within_bind Action.within_room.deeds_of_aside fun room => ?_
      refine Action.within_bind (Action.within_ofCauses _) fun report => ?_
      exact Action.within_bind (Action.within_log _ _ _ _) fun _ => Action.within_pure _

theorem launches_golangciLint (host : Host) (a : Analyzers) (target : Target) :
    Launches host (a.Calls target) (a.launchGolangciLint target) := by
  refine Launches.bind ((launches_withConfig _ _ _ _ _ fun path => ?_).mapFailure _)
    fun ending hending => launches_pure ?_
  · exact Action.within_bind (Action.within_log _ _ _ _) fun _ =>
      Runner.within_start (.golangciLint path)
  · exact Action.within_bind (Action.within_onCommandFailure hending) fun _ =>
      Action.within_bind Action.within_room.deeds_of_aside fun _ => Action.within_ofCauses _

theorem launches_staticcheck (host : Host) (a : Analyzers) (target : Target) :
    Launches host (a.Calls target) (a.launchStaticcheck target) := by
  refine Launches.after (Action.within_log _ _ _ _) fun _ => ?_
  refine Launches.after (Action.within_onCommandFailure (Runner.within_start .staticcheck))
    fun running => launches_pure ?_
  refine Action.within_bind (Action.within_onCommandFailure (Runner.within_wait _ _))
    fun result => ?_
  exact Action.within_bind Action.within_checkpoint.deeds_of_aside fun _ =>
    (Output.CheckStream.within_decode _ _ _).deeds_of_aside

/-! ## 4. Carrying launched work through -/

/-- What is left of launched work does no more than steps of some commands. -/
def Confined (host : Host) (commands : Command → Prop) (l : Launched α) : Prop :=
  ∀ rest, l = .ok rest → Action.Within host (.deeds (Event.IsStepOf commands)) rest

theorem within_conclude {l : Launched α} (h : Confined host commands l) :
    Action.Within host (.deeds (Event.IsStepOf commands)) l.conclude := by
  cases l with
  | error f => exact Action.within_pure _
  | ok rest => exact Action.within_attempt (h rest rfl)

theorem Launches.confined {x : Action (Action α)} (h : Launches host commands x) :
    Action.Yields host (Confined host commands) (Action.attempt x) := by
  intro w l w' hl rest hrest
  rw [Action.attempt_run] at hl
  obtain ⟨hl, -⟩ := Prod.mk.inj hl
  have hx : x host w = (.ok rest, (x host w).2) :=
    Prod.ext ((Except.ok.inj hl).trans hrest) rfl
  exact h.rest w rest _ hx

/-- Both linters, launched on a target. -/
def Linters.Confined (host : Host) (commands : Command → Prop) (l : Linters) : Prop :=
  Analyzers.Confined host commands l.golangciLint ∧ Analyzers.Confined host commands l.staticcheck

theorem within_launchLinters (host : Host) (a : Analyzers) (target : Target) :
    Action.Within host (.deeds (Event.IsStepOf (a.Calls target))) (a.launchLinters target) ∧
      Action.Yields host (Linters.Confined host (a.Calls target)) (a.launchLinters target) := by
  have golangciLint := launches_golangciLint host a target
  have staticcheck := launches_staticcheck host a target
  refine ⟨?_, ?_⟩
  · exact Action.within_bind (Action.within_attempt golangciLint.within) fun _ =>
      Action.within_bind (Action.within_attempt staticcheck.within) fun _ => Action.within_pure _
  · exact Action.yields_bind_of golangciLint.confined fun g hg =>
      Action.yields_bind_of staticcheck.confined fun s hs => Action.yields_pure ⟨hg, hs⟩

theorem within_concludeLinter {l : Linters} (h : l.Confined host commands) (o : LintOutcomes)
    (tool : Tool) :
    Action.Within host (.deeds (Event.IsStepOf commands)) (l.conclude o tool) := by
  unfold Linters.conclude
  split
  · exact Action.within_pure _
  · split
    · exact Action.within_pure _
    · exact Action.within_bind (within_conclude h.1) fun _ => Action.within_pure _
  · split
    · exact Action.within_pure _
    · exact Action.within_bind (within_conclude h.2) fun _ => Action.within_pure _

theorem within_concludeOne {capslock : Launched CapabilityReport} {l : Linters}
    (hc : Confined host commands capslock) (hl : l.Confined host commands) (o : Outcomes)
    (tool : Tool) :
    Action.Within host (.deeds (Event.IsStepOf commands)) (concludeOne capslock l o tool) := by
  unfold concludeOne
  split
  · exact Action.within_bind (within_conclude hc) fun _ => Action.within_pure _
  · exact Action.within_pure _
  · exact Action.within_bind (within_concludeLinter hl _ _) fun _ => Action.within_pure _

/-- **The analyzers are called on their target, and nothing else is done.** -/
theorem within_analyze (host : Host) (a : Analyzers) (target : Target) :
    Action.Within host (.deeds (Event.IsStepOf (a.Calls target))) (a.analyze target) := by
  have capslock := launches_capslock host a target
  refine Action.within_bind_of (Action.within_attempt capslock.within) capslock.confined
    fun c hc => ?_
  split
  · refine Action.within_bind (Action.within_log _ _ _ _) fun _ => ?_
    exact Action.within_bind (within_conclude hc) fun _ => Action.within_ofExcept _
  · obtain ⟨launch, confined⟩ := within_launchLinters host a target
    refine Action.within_bind_of launch confined fun l hl => ?_
    refine Action.within_bind Action.within_host fun h => ?_
    refine Action.within_bind Action.within_moment.deeds_of_aside fun now => ?_
    refine Action.within_bind (Action.within_foldlM (within_concludeOne hc hl) _ _) fun o => ?_
    refine Action.within_bind ?_ fun _ => Action.within_ofExcept _
    unfold reportIssues
    split
    · exact Action.within_log _ _ _ _
    · exact Action.within_pure _

end Analyzers
end UpgradeAudit
