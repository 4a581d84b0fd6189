/-
# Tasks of the command line

A task is a call in a workspace of its own, whose result is put into words at the end
(`Task.perform_eq`).  Wording touches nothing, so **a task leaves the world as its call leaves it**
(`Task.perform_world`): what is proved of calls holds of the program.

The exit code tells how the call ended: it is zero exactly when the call came to a result that can
be printed, and then the result is what standard output shows (`Task.shows_perform`).  So it is with
the program as a whole, once it has read its command line and set up its log (`run_task`).
-/
import UpgradeAudit.CommandLine.Run
import UpgradeAudit.Proofs.Audit.Sessions

namespace UpgradeAudit

open CommandLine

variable {options : Options} {settings : Settings} {env : Environment} {host : Host} {w : World}

/-! ## 1. Calls and tasks -/

/-- The result of a call, as a report shows it. -/
def Call.shown : (c : Call) → c.Result → AuditResult
  | .inspect .., r => .inspection r
  | .compare .., r => .comparison r
  | .compareFully .., r => .full r

/-- The dependencies that a call has left out. -/
def Call.leftOut : (c : Call) → c.Result → List DependencyFailure
  | .inspect .., _ => []
  | .compare .., _ => []
  | .compareFully .., r => r.others.failures

/-- Puts the result of a call into words. -/
def Call.present (options : Options) (c : Call) (r : c.Result) : Action Outcome := do
  return .ofResult (← Action.ofCauses (render options (c.shown r))) ((c.leftOut r).map warning)

namespace CommandLine

/-- The call that a task makes. -/
def Task.call : Task → Call
  | .inspect dep version => .inspect dep version
  | .compare dep old new => .compare dep old new
  | .compareFully dep old new => .compareFully dep old new

/-- **A task is its call, put into words.** -/
theorem Task.perform_eq (options : Options) (settings : Settings) (env : Environment)
    (task : Task) :
    task.perform options settings env
      = task.call.run settings env none >>= task.call.present options := by
  unfold Call.run
  rw [Action.bind_assoc]
  cases task <;> rfl

end CommandLine

/-- Wording a result touches nothing. -/
theorem Call.present_world (c : Call) (r : c.Result) : (c.present options r host w).2 = w := by
  unfold present
  cases render options (c.shown r) with
  | error cause => rfl
  | ok text => rfl

namespace CommandLine

/-- **A task leaves the world as its call leaves it.** -/
theorem Task.perform_world (task : Task) : (task.perform options settings env host w).2
    = (task.call.run settings env none host w).2 := by
  rw [Task.perform_eq]
  rcases Action.bind_cases host (task.call.run settings env none) (task.call.present options) w with
    ⟨r, v, hrun, hb⟩ | ⟨f, v, hrun, hb⟩
  · rw [hb, hrun, Call.present_world]
  · rw [hb, hrun]

/-! ## 2. The exit code -/

/-- A failure is no success, and standard output stays empty. -/
theorem Outcome.ofFailure_fails (f : Failure) :
    (ofFailure f).exitCode = 1 ∧ (ofFailure f).stdout = "" := by
  unfold ofFailure
  split <;> exact ⟨rfl, rfl⟩

/-- Whether an outcome shows a result: with exit code zero and the printed result, or with
neither. -/
def Outcome.Shows (o : Outcome) (printed : Option String) : Prop :=
  match printed with
  | some text => o.exitCode = 0 ∧ o.stdout = text ++ "\n"
  | none => o.exitCode = 1 ∧ o.stdout = ""

/-- What standard output shows of the result of a call. -/
def printed? (options : Options) (c : Call) (r : c.Result) : Option String :=
  (render options (c.shown r)).toOption.bind fun text => (Printed.onOutput text).toOption

/-- The outcome of work that may fail. -/
def Outcome.settled : Except Failure Outcome → Outcome
  | .ok o => o
  | .error f => .ofFailure f

/-- Work that is settled always ends with an outcome. -/
theorem settle_run (x : Action Outcome) (host : Host) (w : World) :
    settle x host w = (.ok (.settled (x host w).1), (x host w).2) := by
  rw [settle, Action.bind_run, Action.attempt_run]
  rcases x host w with ⟨f | o, w'⟩ <;> rfl

/-- A result is shown when it can be printed, and otherwise the failure to print it. -/
theorem shows_present (options : Options) (c : Call) (r : c.Result) (host : Host) (w : World) :
    (Outcome.settled (c.present options r host w).1).Shows (printed? options c r) := by
  unfold Call.present printed?
  cases hrender : render options (c.shown r) with
  | error cause => exact Outcome.ofFailure_fails _
  | ok text =>
    show (Outcome.ofResult text ((c.leftOut r).map warning)).Shows (Printed.onOutput text).toOption
    unfold Outcome.ofResult
    cases hprint : Printed.onOutput text with
    | error fault => exact Outcome.ofFailure_fails _
    | ok shown => exact ⟨rfl, rfl⟩

/-- **The outcome of a task shows the result of its call**: the exit code is zero exactly when the
call came to a result that can be printed. -/
theorem Task.shows_perform (options : Options) (settings : Settings) (env : Environment)
    (task : Task) (host : Host) (w : World) :
    (Outcome.settled (task.perform options settings env host w).1).Shows
      ((task.call.run settings env none host w).1.toOption.bind (printed? options task.call)) := by
  rw [Task.perform_eq]
  rcases Action.bind_cases host (task.call.run settings env none) (task.call.present options) w with
    ⟨r, v, hrun, hb⟩ | ⟨f, v, hrun, hb⟩
  · rw [hb, hrun]
    exact shows_present options task.call r host v
  · rw [hb, hrun]
    exact Outcome.ofFailure_fails f

/-! ## 3. The program -/

/-- **A command line that asks for a task makes its call**, once the log is set up, on a host that
keeps the records of the log, and shows what the call comes to. -/
theorem run_task {arguments words : List String} {verb : Verb} {task : Task} {log : Log}
    {w₁ : World}
    (hrequest : Request.read w.files.isDirectory arguments = .ok (.perform options verb words))
    (hlog : Log.setUp env options.verbose options.logFile host w = (.ok log, w₁))
    (htask : Task.read verb words = .ok (some task)) :
    let called := task.call.run (options.override (.ofEnvironment env)) env none
      { host with keepRecord := log.addToFile } w₁
    ∃ o, run arguments env host w = (.ok o, called.2) ∧ o.log = some log ∧
      o.Shows (called.1.toOption.bind (printed? options task.call)) := by
  intro called
  let work := task.perform options (options.override (.ofEnvironment env)) env
  let performed := work { host with keepRecord := log.addToFile } w₁
  have hworld : performed.2 = called.2 := task.perform_world
  have hkept : settle (work.keepingRecords log.addToFile) host w₁
      = (.ok (.settled performed.1), called.2) := by
    rw [settle_run, ← hworld]
    rfl
  have hperform : perform options env verb words host w
      = (.ok { Outcome.settled performed.1 with log := some log }, called.2) := by
    unfold perform
    rw [Action.bind_of_ok hlog, htask]
    exact Action.bind_of_ok hkept _
  refine ⟨{ Outcome.settled performed.1 with log := some log }, ?_, rfl, ?_⟩
  · unfold run
    rw [Action.bind_of_ok Action.world_run, hrequest]
    simp only [settle_run, hperform]
    rfl
  · exact task.shows_perform options (options.override (.ofEnvironment env)) env
      { host with keepRecord := log.addToFile } w₁

end CommandLine
end UpgradeAudit
