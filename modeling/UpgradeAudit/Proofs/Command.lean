/-
# What running a command does

A command that is run is started and, if it gets that far, ends or is killed; it does nothing
else.  One that succeeds ends with an exit code that is accepted (`run_ok`), under the number of
commands started before it.  `Event.IsStepOf` says of which commands the steps of a piece of work
are, and a runner stays within the steps of its command (`within_run`).
-/
import UpgradeAudit.Command
import UpgradeAudit.Proofs.Host.Actions

namespace UpgradeAudit

variable {α : Type} {host : Host} {w w' : World}

/-- Whether an event is a step in running one of the commands. -/
def Event.IsStepOf (commands : Command → Prop) : Event → Prop
  | .started c => commands c
  | .ended .. | .killed _ => True
  | _ => False

theorem Event.IsStepOf.mono {p q : Command → Prop} (hpq : ∀ c, p c → q c) {e : Event}
    (h : e.IsStepOf p) : e.IsStepOf q := by
  cases e with
  | started c => exact hpq c h
  | _ => exact h

namespace Runner

variable {r : Runner} {argv : List String} {cwd : Option String} {attachment : Option Bytes}
  {running : Running} {accepted : List Int} {commands : Command → Prop}

/-- The command that a runner starts for the words of a command line. -/
def command (r : Runner) (argv : List String) (cwd : Option String) (attachment : Option Bytes) :
    Command := ⟨argv, r.directory cwd, r.environment, attachment⟩

/-! ## 1. Starting -/

/-- The world in which a program has been started. -/
def launching (r : Runner) (argv : List String) (cwd : Option String) (attachment : Option Bytes)
    (host : Host) (w : World) : World :=
  (w.logging host ⟨if r.verbose then .info else .debug, origin, "command.run",
    [("argv", .texts argv), ("cwd", .text (r.directory cwd))]⟩).record
      (.started (r.command argv cwd attachment))

theorem deeds_launching :
    (r.launching argv cwd attachment host w).deeds
      = w.deeds ++ [.started (r.command argv cwd attachment)] := by
  rw [launching, World.deeds_record rfl, World.deeds_logging]

/-- What becomes of a start is for the host to say. -/
theorem start_run (r : Runner) (argv : List String) (cwd : Option String)
    (attachment : Option Bytes) (host : Host) (w : World) :
    r.start argv cwd attachment host w =
      let v := r.launching argv cwd attachment host w
      match host.respond w.started v.files (r.command argv cwd attachment) with
      | .refused error => (.error (.ofCause (.command argv notStarted error.message)), v)
      | .barred fault => (.error (.ofCause fault.cause), v)
      | .interrupted => (.error (.ofCause .cancelled), v)
      | .runs behaviour =>
        (.ok ⟨w.started.length, r.command argv cwd attachment, behaviour⟩,
          { v with files := behaviour.files }) := by
  unfold start
  simp only [Action.bind_run, Action.log_run, Action.world_run, Action.record_run, Action.host_run,
    World.started_logging]
  unfold launching command
  generalize host.respond w.started _ _ = answer
  cases answer <;> rfl

/-- A program that runs was started, and is known by the number of those before it. -/
theorem start_ok (h : r.start argv cwd attachment host w = (.ok running, w')) :
    running.number = w.started.length ∧ running.command = r.command argv cwd attachment ∧
      w'.deeds = w.deeds ++ [.started (r.command argv cwd attachment)] := by
  rw [start_run] at h
  dsimp only at h
  split at h
  · cases h
  · cases h
  · cases h
  · cases h
    exact ⟨rfl, rfl, deeds_launching⟩

theorem within_start (h : commands (r.command argv cwd attachment)) :
    Action.Within host (.deeds (Event.IsStepOf commands)) (r.start argv cwd attachment) := by
  intro w
  refine ⟨[.started (r.command argv cwd attachment)], ?_, by simpa [Event.IsStepOf] using h⟩
  rw [start_run]
  dsimp only
  split <;> exact deeds_launching

/-! ## 2. Waiting -/

/-- A program that succeeds has ended with a code that is accepted. -/
theorem wait_ok {result : CommandResult} (h : wait running accepted host w = (.ok result, w')) :
    result.exitCode ∈ accepted ∧
      w'.deeds = w.deeds ++ [.ended running.number result.exitCode result.stdout] := by
  unfold wait at h
  cases hending : running.behaviour.ending with
  | interrupted =>
    rw [hending] at h
    cases h
  | exited code =>
    rw [hending] at h
    obtain ⟨_, v, hv, h⟩ := Action.bind_ok h
    cases hv
    by_cases haccepted : accepted.contains (code.getD unknownExit) = true
    · rw [if_pos haccepted] at h
      cases h
      exact ⟨by simpa using haccepted, World.deeds_record rfl _⟩
    · rw [if_neg haccepted] at h
      cases h

/-- Waiting does nothing but to log and to record how the program ended. -/
theorem within_wait_of {F : Frame} (running : Running) (accepted : List Int)
    (hlog : ∀ severity origin event details,
      Action.Within host F (Action.log severity origin event details))
    (hrecord : ∀ e : Event, e.IsStepOf (fun _ => False) → Action.Within host F (Action.record e)) :
    Action.Within host F (wait running accepted) := by
  unfold wait
  split
  · refine Action.within_bind (hlog _ _ _ _) fun _ => ?_
    exact Action.within_bind (hrecord _ trivial) fun _ => Action.within_fail _
  · refine Action.within_bind (hrecord _ trivial) fun _ => ?_
    split
    · exact Action.within_pure _
    · exact Action.within_fail _

theorem within_wait (running : Running) (accepted : List Int) :
    Action.Within host (.deeds (Event.IsStepOf commands)) (wait running accepted) := by
  refine within_wait_of running accepted (fun _ _ _ _ => Action.within_log _ _ _ _) fun e he => ?_
  cases e with
  | ended | killed => exact Action.within_record rfl trivial
  | _ => exact he.elim

/-! ## 3. Running to the end -/

/-- The steps of a command that ends with exit code zero. -/
def succeeded (c : Command) (number : Nat) (stdout : Bytes) : List Event :=
  [.started c, .ended number 0 stdout]

theorem isStepOf_of_mem_succeeded {c : Command} {number : Nat} {stdout : Bytes} {e : Event}
    (h : commands c) (he : e ∈ succeeded c number stdout) : e.IsStepOf commands := by
  rcases List.mem_cons.1 he with rfl | he
  · exact h
  · obtain rfl := List.mem_singleton.1 he
    exact trivial

/-- **A command that succeeds was started and ended, and nothing else was done.** -/
theorem run_ok {result : CommandResult}
    (h : r.run argv [0] cwd host w = (.ok result, w')) :
    w'.deeds = w.deeds ++ succeeded (r.command argv cwd none) w.started.length result.stdout := by
  obtain ⟨running, v, hstart, hwait⟩ := Action.bind_ok h
  obtain ⟨hnumber, -, hdeeds⟩ := start_ok hstart
  obtain ⟨hcode, hended⟩ := wait_ok hwait
  rw [hended, hdeeds, hnumber, List.mem_singleton.1 hcode, List.append_assoc]
  rfl

theorem within_run (h : commands (r.command argv cwd none)) :
    Action.Within host (.deeds (Event.IsStepOf commands)) (r.run argv accepted cwd) :=
  Action.within_bind (within_start h) fun _ => within_wait _ _

end Runner
end UpgradeAudit
