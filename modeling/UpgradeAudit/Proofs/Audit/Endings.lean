/-
# How an analyzer ends

Each analyzer comes to an end of its own, and `Ends` lists the ends there are: it could not be
launched, it was cancelled, its program ended with an exit code that is not accepted, or its
output was decoded, for good or ill.  All but the first two say which command was started for
it and that this command has ended.  One end takes the place of others: where the private
directory of an analyzer cannot be removed, that is what it fails for, whatever was over by then
(`Over`).

What is done for one analyzer goes in two pieces, and other analyzers may be launched and end
between them.  So what is known of the first piece is that the second comes to one of the ends
whenever it is carried on (`Prepared`).  Once all are launched no file changes any more but by log
records (`Frame.onward`), and an end that was come to stays one (`Ends.onward`).  With that the
order in which analyzers end does not matter (`Action.foldlM_fills`).
-/
import Mathlib.Logic.Relation
import UpgradeAudit.Proofs.Audit.Analyses
import UpgradeAudit.Proofs.Output.Faults

namespace UpgradeAudit

variable {α σ : Type} {host : Host} {w w' : World} {before : Nat} {ds : List Event} {c : Command}

/-! ## 1. Commands that end by themselves -/

/-- A host under which the audit may be cancelled: before a program runs, while one runs, or
while it waits for work of its own. -/
def Host.Cancels (host : Host) : Prop :=
  (∃ started t c, host.respond started t c = .interrupted) ∨
    (∃ started t c b, host.respond started t c = .runs b ∧ b.ending = .interrupted) ∨
      ∃ now, host.interrupts now = true

/-- The files change by log records that are kept among them, and by nothing else. -/
def Host.Keeps (host : Host) : FileTree → FileTree → Prop :=
  Relation.ReflTransGen fun t t' => ∃ r, t' = host.keepRecord r t

/-- No file changes but by log records. -/
def Frame.keeping (host : Host) : Frame where
  rel w w' := host.Keeps w.files w'.files
  refl _ := .refl
  trans h h' := h.trans h'

/-- More is done, and no file changes but by log records. -/
def Frame.onward (host : Host) : Frame where
  rel w w' := (∃ es, w'.deeds = w.deeds ++ es) ∧ host.Keeps w.files w'.files
  refl _ := ⟨⟨[], (List.append_nil _).symm⟩, .refl⟩
  trans := by
    rintro u v w ⟨⟨es, hes⟩, hkept⟩ ⟨⟨es', hes'⟩, hkept'⟩
    exact ⟨⟨es ++ es', by rw [hes', hes, List.append_assoc]⟩, hkept.trans hkept'⟩

/-- Time passes, and nothing else. -/
theorem Frame.onward_of_aside (h : Frame.aside.rel w w') : (Frame.onward host).rel w w' := by
  refine ⟨⟨[], by rw [Frame.aside.deeds_eq h, List.append_nil]⟩, ?_⟩
  rw [h.1]
  exact .refl

namespace Action

theorem Within.keeping_of_aside {x : Action α} (h : Within host .aside x) :
    Within host (.keeping host) x := by
  intro w
  show host.Keeps w.files (x host w).2.files
  rw [h.files_eq]
  exact .refl

theorem within_log_keeping (severity : Severity) (origin event : String)
    (details : List (String × Json)) :
    Within host (.keeping host) (log severity origin event details) :=
  fun _ => .single ⟨_, rfl⟩

end Action

theorem Runner.within_wait_keeping (running : Running) (accepted : List Int) :
    Action.Within host (.keeping host) (Runner.wait running accepted) :=
  within_wait_of running accepted Action.within_log_keeping fun _ _ _ => .refl

/-- A command was started after `before` others, and ended by itself. -/
def EndedWith (before : Nat) (ds : List Event) (c : Command) (code : Int) (stdout : Bytes) : Prop :=
  ∃ n, before ≤ n ∧ (ds.filterMap Event.command?)[n]? = some c ∧ .ended n code stdout ∈ ds

theorem getElem?_started_append {n : Nat} (h : (ds.filterMap Event.command?)[n]? = some c)
    (es : List Event) : ((ds ++ es).filterMap Event.command?)[n]? = some c := by
  rw [List.filterMap_append, List.getElem?_append_left (List.getElem?_eq_some_iff.1 h).1, h]

theorem EndedWith.append {code : Int} {stdout : Bytes} (h : EndedWith before ds c code stdout)
    (es : List Event) : EndedWith before (ds ++ es) c code stdout := by
  obtain ⟨n, hn, hstarted, hended⟩ := h
  exact ⟨n, hn, getElem?_started_append hstarted es, List.mem_append_left es hended⟩

theorem EndedWith.of_le {n : Nat} {code : Int} {stdout : Bytes} (h : EndedWith n ds c code stdout)
    (hn : before ≤ n) : EndedWith before ds c code stdout := by
  obtain ⟨m, hm, hrest⟩ := h
  exact ⟨m, Nat.le_trans hn hm, hrest⟩

theorem World.started_congr {v : World} (h : v.deeds = w.deeds) : v.started = w.started := by
  rw [World.started_eq, World.started_eq, h]

namespace Action

theorem onFileError_of_file {x : Action α} {e : FileError}
    (h : x host w = (.error (.ofCause (.file e)), w')) (cause : FileError → Cause) :
    x.onFileError cause host w = (.error (.ofCause (cause e)), w') := by
  rw [onFileError, mapFailure_run, h]
  rfl

theorem makeDirectory_cases (host : Host) (w : World) :
    (∃ now e w', host.directoryFault now = some e ∧
        makeDirectory host w = (.error (.ofCause (.file e)), w') ∧ w'.deeds = w.deeds) ∨
      ∃ directory w', makeDirectory host w = (.ok directory, w') ∧ w'.deeds = w.deeds := by
  have hdeeds : (makeDirectory host w).2.deeds = w.deeds := Within.deeds_eq within_makeDirectory w
  unfold makeDirectory at hdeeds ⊢
  simp only [bind_run, moment_run, host_run] at hdeeds ⊢
  cases hfault : host.directoryFault w.clock with
  | some e => exact Or.inl ⟨w.clock, e, _, hfault, rfl, rfl⟩
  | none =>
    simp only [hfault] at hdeeds
    exact Or.inr ⟨_, _, rfl, hdeeds⟩

theorem writePrivate_cases (host : Host) (directory : Nat) (name : String) (content : Bytes)
    (w : World) :
    (∃ now fault e w', host.privateFault now name = some fault ∧
        writePrivate directory name content host w = (.error (.ofCause (.file e)), w') ∧
        w'.deeds = w.deeds) ∨
      ∃ w', writePrivate directory name content host w = (.ok (), w') ∧ w'.deeds = w.deeds := by
  have hdeeds : (writePrivate directory name content host w).2.deeds = w.deeds :=
    Within.deeds_eq (within_writePrivate directory name content) w
  unfold writePrivate at hdeeds ⊢
  simp only [bind_run, moment_run, host_run] at hdeeds ⊢
  cases hfault : host.privateFault w.clock name with
  | some fault => exact Or.inl ⟨w.clock, fault, _, _, hfault, rfl, rfl⟩
  | none =>
    simp only [hfault] at hdeeds
    exact Or.inr ⟨_, rfl, hdeeds⟩

theorem removeDirectory_cases (host : Host) (directory : Nat) (w : World) :
    ∃ w', w'.deeds = w.deeds ∧
      ((∃ now e, host.removalFault now = some e ∧
          removeDirectory directory host w = (.error (.ofCause (.file e)), w')) ∨
        removeDirectory directory host w = (.ok (), w')) := by
  refine ⟨(removeDirectory directory host w).2,
    Within.deeds_eq (within_removeDirectory directory) w, ?_⟩
  unfold removeDirectory
  simp only [bind_run, moment_run, host_run]
  cases hfault : host.removalFault w.clock with
  | some e => exact Or.inl ⟨w.clock, e, hfault, rfl⟩
  | none => exact Or.inr rfl

end Action

namespace Runner

variable {running : Running}

/-- A program that runs, started as a command after `before` others. -/
structure Begun (running : Running) (c : Command) (host : Host) (before : Nat)
    (ds : List Event) : Prop where
  command : running.command = c
  after : before ≤ running.number
  started : (ds.filterMap Event.command?)[running.number]? = some c
  behaviour : ∃ started t, host.respond started t c = .runs running.behaviour

/-- The causes for which a command that was to be started does not run. -/
inductive Unstarted (host : Host) (c : Command) : Cause → Prop
  | refused {started : List Command} {t : FileTree} {e : FileError}
      (h : host.respond started t c = .refused e) :
      Unstarted host c (.command c.argv notStarted e.message)
  | barred {started : List Command} {t : FileTree} {fault : CommandFault}
      (h : host.respond started t c = .barred fault) : Unstarted host c fault.cause
  | cancelled (h : host.Cancels) : Unstarted host c .cancelled

/-- An action that starts a command and does nothing else. -/
def Starts (host : Host) (c : Command) (x : Action Running) : Prop :=
  ∀ w, ∃ r w', x host w = (r, w') ∧ w'.deeds = w.deeds ++ [.started c] ∧
    ((∃ cause, Unstarted host c cause ∧ r = .error (.ofCause cause)) ∨
      ∃ running, r = .ok running ∧ Begun running c host w.started.length w'.deeds)

theorem starts_start (r : Runner) (argv : List String) (cwd : Option String)
    (attachment : Option Bytes) (host : Host) :
    Starts host (r.command argv cwd attachment) (r.start argv cwd attachment) := by
  intro w
  rw [start_run]
  dsimp only
  cases hr : host.respond w.started (r.launching argv cwd attachment host w).files
    (r.command argv cwd attachment) with
  | refused e => exact ⟨_, _, rfl, deeds_launching, Or.inl ⟨_, .refused hr, rfl⟩⟩
  | barred fault => exact ⟨_, _, rfl, deeds_launching, Or.inl ⟨_, .barred hr, rfl⟩⟩
  | interrupted =>
    exact ⟨_, _, rfl, deeds_launching, Or.inl ⟨_, .cancelled (Or.inl ⟨_, _, _, hr⟩), rfl⟩⟩
  | runs behaviour =>
    refine ⟨_, _, rfl, deeds_launching, Or.inr ⟨_, rfl, rfl, Nat.le_refl _, ?_, _, _, hr⟩⟩
    have hdeeds :
        World.deeds { r.launching argv cwd attachment host w with files := behaviour.files }
          = w.deeds ++ [.started (r.command argv cwd attachment)] := deeds_launching
    have hlength : w.started.length = (w.deeds.filterMap Event.command?).length := by
      simp [World.started_eq]
    rw [hdeeds, List.filterMap_append, hlength]
    simp [Event.command?]

/-- Log records before it do not change what is started. -/
theorem Starts.log {x : Action Running} (h : Starts host c x) (severity : Severity)
    (origin event : String) (details : List (String × Json)) :
    Starts host c (do Action.log severity origin event details; x) := by
  intro w
  obtain ⟨r, w', hrun, hdeeds, hr⟩ := h (w.logging host ⟨severity, origin, event, details⟩)
  rw [World.deeds_logging] at hdeeds
  rw [World.started_logging] at hr
  exact ⟨r, w', hrun, hdeeds, hr⟩

/-- What a command comes to that was waited for when `ds` was done: it is killed, or ends by itself
with a code that is accepted or not. -/
inductive Waited (c : Command) (host : Host) (before : Nat) (accepted : List Int)
    (ds : List Event) : Except Failure CommandResult → Prop
  | cancelled (h : host.Cancels) :
      Waited c host before accepted ds (.error (.ofCause .cancelled))
  | rejected {code : Int} {stdout : Bytes} {stderr : String}
      (ended : EndedWith before ds c code stdout) (h : code ∉ accepted) :
      Waited c host before accepted ds (.error (.ofCause (.command c.argv code stderr)))
  | returned {code : Int} {result : CommandResult}
      (ended : EndedWith before ds c code result.stdout) (h : code ∈ accepted) :
      Waited c host before accepted ds (.ok result)

theorem waited_wait {es : List Event} (h : Begun running c host before ds)
    (hw : w.deeds = ds ++ es) (accepted : List Int) :
    (∃ e, (wait running accepted host w).2.deeds = w.deeds ++ [e]) ∧
      Waited c host before accepted (wait running accepted host w).2.deeds
        (wait running accepted host w).1 := by
  unfold wait
  cases hending : running.behaviour.ending with
  | interrupted =>
    obtain ⟨started, t, hr⟩ := h.behaviour
    simp only [Action.bind_run, Action.log_run, Action.record_run, Action.failFor_run]
    refine ⟨⟨.killed running.number, ?_⟩, .cancelled (Or.inr (Or.inl ⟨_, _, _, _, hr, hending⟩))⟩
    rw [World.deeds_record rfl, World.deeds_logging]
  | exited code =>
    have ended : EndedWith before
        (w.record (.ended running.number (code.getD unknownExit) running.behaviour.stdout)).deeds c
        (code.getD unknownExit) running.behaviour.stdout := by
      rw [World.deeds_record rfl, hw]
      exact ⟨running.number, h.after,
        getElem?_started_append (getElem?_started_append h.started es) _, by simp⟩
    simp only [Action.bind_run, Action.record_run]
    by_cases haccepted : accepted.contains (code.getD unknownExit) = true
    · rw [if_pos haccepted]
      exact ⟨⟨_, World.deeds_record rfl _⟩, .returned ended (by simpa using haccepted)⟩
    · rw [if_neg haccepted, h.command]
      exact ⟨⟨_, World.deeds_record rfl _⟩, .rejected ended (by simpa using haccepted)⟩

end Runner

namespace Analyzers

variable {a : Analyzers} {target : Target} {tool : Tool}

/-! ## 2. The ends of one analyzer -/

/-- The command by which an analyzer is called on a target, with its configuration in a file when
it takes one. -/
def call (a : Analyzers) (target : Target) (config : String) : Tool → Command
  | .capslock => a.runner.command
      [a.capslock, "-packages", ",".intercalate target.scope, "-capability_map", config,
        "-output=json"]
      (some target.workDir) (some (Configs.ofLines Configs.capabilityMap))
  | .golangciLint => a.runner.command
      ([a.golangciLint, "run", "-c", config, "--out-format=json"] ++ target.dirs)
      (some target.workDir) (some (Configs.ofLines Configs.linterConfig))
  | .staticcheck => a.runner.command
      ([a.staticcheck, "-checks=" ++ a.checks, "-f=json", "-tests=false"] ++ target.dirs)
      (some target.workDir) none

/-- The exit codes with which an analyzer has done its work. -/
def accepted : Tool → List Int
  | .capslock => [0]
  | .golangciLint | .staticcheck => issuesFound

/-- What had become of an analyzer with a private directory when the directory was to be removed. -/
inductive Over (a : Analyzers) (target : Target) (host : Host) (tool : Tool) (before : Nat)
    (ds : List Event) : Prop
  | unconfigured {now : Nat} {name : String} {fault : FileFault}
      (h : host.privateFault now name = some fault)
  | unstarted {config : String} {cause : Cause}
      (h : Runner.Unstarted host (a.call target config tool) cause)
      (tried : .started (a.call target config tool) ∈ ds)
  | cancelled (h : host.Cancels)
  | ended {config : String} {code : Int} {stdout : Bytes}
      (ended : EndedWith before ds (a.call target config tool) code stdout)

/-- **How an analyzer may have ended** that was called after `before` other commands, when `ds` was
done and the files are `files`; `reads` is what its output is decoded to among the files there are
then. -/
inductive Ends (a : Analyzers) (target : Target) (host : Host) (tool : Tool)
    (reads : FileTree → Bytes → Except Failure α → Prop) (before : Nat) (ds : List Event)
    (files : FileTree) : Except Failure α → Prop
  /-- Capabilities are asked for of no package. -/
  | noPackages (h : tool = .capslock ∧ target.scope = []) {m : String} :
      Ends a target host tool reads before ds files (.error (.ofCause (.analyzer tool.name m)))
  | noDirectory (takes : tool ≠ .staticcheck) {now : Nat} {e : FileError}
      (h : host.directoryFault now = some e) :
      Ends a target host tool reads before ds files (.error (.ofCause (.file e)))
  | unconfigured (takes : tool ≠ .staticcheck) {now : Nat} {name : String} {fault : FileFault}
      (h : host.privateFault now name = some fault) {m : String} :
      Ends a target host tool reads before ds files (.error (.ofCause (.analyzer tool.name m)))
  | refused {config : String} {started : List Command} {t : FileTree} {e : FileError}
      (h : host.respond started t (a.call target config tool) = .refused e)
      (tried : .started (a.call target config tool) ∈ ds) :
      Ends a target host tool reads before ds files (.error (.ofCause (.analyzer tool.name
        (Cause.command (a.call target config tool).argv Runner.notStarted e.message).message)))
  /-- The command cannot even be put to the system. -/
  | barred {config : String} {started : List Command} {t : FileTree} {fault : CommandFault}
      (h : host.respond started t (a.call target config tool) = .barred fault)
      (tried : .started (a.call target config tool) ∈ ds) :
      Ends a target host tool reads before ds files (.error (.ofCause fault.cause))
  | cancelled (h : host.Cancels) :
      Ends a target host tool reads before ds files (.error (.ofCause .cancelled))
  | rejected {config : String} {code : Int} {stdout : Bytes} {stderr : String}
      (ended : EndedWith before ds (a.call target config tool) code stdout)
      (h : code ∉ accepted tool) :
      Ends a target host tool reads before ds files (.error (.ofCause (.analyzer tool.name
        (Cause.command (a.call target config tool).argv code stderr).message)))
  | decoded {config : String} {code : Int} {stdout : Bytes} {r : Except Failure α} {t : FileTree}
      (ended : EndedWith before ds (a.call target config tool) code stdout)
      (h : code ∈ accepted tool) (read : reads t stdout r) (kept : host.Keeps t files) :
      Ends a target host tool reads before ds files r
  | unremoved (takes : tool ≠ .staticcheck) {now : Nat} {e : FileError}
      (h : host.removalFault now = some e) (gone : Over a target host tool before ds) :
      Ends a target host tool reads before ds files (.error (.ofCause (.file e)))

variable {reads : FileTree → Bytes → Except Failure α → Prop} {r : Except Failure α}
  {files : FileTree}

theorem Over.append (h : Over a target host tool before ds) (es : List Event) :
    Over a target host tool before (ds ++ es) := by
  cases h with
  | unconfigured h => exact .unconfigured h
  | unstarted h tried => exact .unstarted h (List.mem_append_left es tried)
  | cancelled h => exact .cancelled h
  | ended ended => exact .ended (ended.append es)

theorem Over.of_le {n : Nat} (h : Over a target host tool n ds) (hn : before ≤ n) :
    Over a target host tool before ds := by
  cases h with
  | unconfigured h => exact .unconfigured h
  | unstarted h tried => exact .unstarted h tried
  | cancelled h => exact .cancelled h
  | ended ended => exact .ended (ended.of_le hn)

theorem Over.of_waited {config : String} {r : Except Failure CommandResult}
    (h : Runner.Waited (a.call target config tool) host before (accepted tool) ds r) :
    Over a target host tool before ds := by
  cases h with
  | cancelled h => exact .cancelled h
  | rejected ended h => exact .ended ended
  | returned ended h => exact .ended ended

/-- An end stays one, whatever is done later, as long as the files are left alone. -/
theorem Ends.append (h : Ends a target host tool reads before ds files r) (es : List Event)
    {files' : FileTree} (hkept : host.Keeps files files') :
    Ends a target host tool reads before (ds ++ es) files' r := by
  cases h with
  | noPackages h => exact .noPackages h
  | noDirectory takes h => exact .noDirectory takes h
  | unconfigured takes h => exact .unconfigured takes h
  | refused h tried => exact .refused h (List.mem_append_left es tried)
  | barred h tried => exact .barred h (List.mem_append_left es tried)
  | cancelled h => exact .cancelled h
  | rejected ended h => exact .rejected (ended.append es) h
  | decoded ended h read kept => exact .decoded (ended.append es) h read (kept.trans hkept)
  | unremoved takes h gone => exact .unremoved takes h (gone.append es)

/-- What was called after more commands was called after fewer. -/
theorem Ends.of_le {n : Nat} (h : Ends a target host tool reads n ds files r) (hn : before ≤ n) :
    Ends a target host tool reads before ds files r := by
  cases h with
  | noPackages h => exact .noPackages h
  | noDirectory takes h => exact .noDirectory takes h
  | unconfigured takes h => exact .unconfigured takes h
  | refused h tried => exact .refused h tried
  | barred h tried => exact .barred h tried
  | cancelled h => exact .cancelled h
  | rejected ended h => exact .rejected (ended.of_le hn) h
  | decoded ended h read kept => exact .decoded (ended.of_le hn) h read kept
  | unremoved takes h gone => exact .unremoved takes h (gone.of_le hn)

/-! ## 3. Launched work -/

/-- Launched work that comes to an end of some kind, whenever it is carried on. -/
def Prepared (host : Host) (ends : List Event → FileTree → Except Failure α → Prop)
    (ds : List Event) : Launched α → Prop
  | .error f => ∀ files, ends ds files (.error f)
  | .ok rest => ∀ w es, w.deeds = ds ++ es →
      (Frame.onward host).rel w (rest host w).2 ∧
        ends (rest host w).2.deeds (rest host w).2.files (rest host w).1

/-- An outcome that was lost because a private directory could not be removed. -/
def Unremoved (tool : Tool) (host : Host) (r : Except Failure α) : Prop :=
  tool ≠ .staticcheck ∧ ∃ now e, host.removalFault now = some e ∧ r = .error (.ofCause (.file e))

/-- A command failure is blamed on the analyzer. -/
theorem blame_command (tool : Tool) {x : Action α} {argv : List String} {code : Int}
    {stderr : String} (h : x host w = (.error (.ofCause (.command argv code stderr)), w')) :
    blame tool x host w
      = (.error (.ofCause (.analyzer tool.name (Cause.command argv code stderr).message)), w') := by
  rw [blame, Action.onCommandFailure, Action.mapFailure_run, h]
  rfl

theorem blame_ok (tool : Tool) {x : Action α} {b : α} (h : x host w = (.ok b, w')) :
    blame tool x host w = (.ok b, w') := Action.mapFailure_of_ok h _

/-- Nothing but a command failure is blamed on the analyzer. -/
theorem blame_other (tool : Tool) {x : Action α} {cause : Cause}
    (h : x host w = (.error (.ofCause cause), w'))
    (hother : ∀ argv code stderr, cause ≠ .command argv code stderr) :
    blame tool x host w = (.error (.ofCause cause), w') := by
  rw [blame, Action.onCommandFailure, Action.mapFailure_run, h]
  cases cause with
  | command argv code stderr => exact absurd rfl (hother argv code stderr)
  | _ => rfl

/-- What is made of a command that was waited for ends as it should. -/
theorem ends_of_waited {config : String} {ending : Action CommandResult}
    {r : Except Failure CommandResult} {next : CommandResult → Action α}
    (hrun : ending host w = (r, w'))
    (h : Runner.Waited (a.call target config tool) host before (accepted tool) w'.deeds r)
    (hdeeds : ∀ result v, (next result host v).2.deeds = v.deeds)
    (hleft : ∀ result, Action.Within host (.keeping host) (next result))
    (hnext : ∀ result v, reads v.files result.stdout (next result host v).1 ∨
      host.Cancels ∧ (next result host v).1 = .error (.ofCause .cancelled)) :
    ((blame tool ending >>= next) host w).2.deeds = w'.deeds ∧
      Ends a target host tool reads before w'.deeds ((blame tool ending >>= next) host w).2.files
        ((blame tool ending >>= next) host w).1 := by
  cases h with
  | cancelled h =>
    rw [Action.bind_of_error (blame_other tool hrun nofun)]
    exact ⟨rfl, .cancelled h⟩
  | rejected ended h =>
    rw [Action.bind_of_error (blame_command tool hrun)]
    exact ⟨rfl, .rejected ended h⟩
  | @returned code result ended h =>
    rw [Action.bind_of_ok (blame_ok tool hrun)]
    refine ⟨hdeeds result w', ?_⟩
    rcases hnext result w' with hread | ⟨hcancels, hr⟩
    · exact .decoded ended h hread (hleft result w')
    · rw [hr]
      exact .cancelled hcancels

/-- What waits for a program, and may lose its outcome when it removes a private directory, ends as
it should. -/
theorem prepared_of_waiting {config : String} {running : Running} {ending : Action CommandResult}
    {next : CommandResult → Action α}
    (hbegun : Runner.Begun running (a.call target config tool) host before ds)
    (hending : ∀ v,
      (ending host v).2.deeds = (Runner.wait running (accepted tool) host v).2.deeds ∧
        ((ending host v).1 = (Runner.wait running (accepted tool) host v).1 ∨
          Unremoved tool host (ending host v).1))
    (hkept : Action.Within host (.keeping host) ending)
    (hdeeds : ∀ result v, (next result host v).2.deeds = v.deeds)
    (hleft : ∀ result, Action.Within host (.keeping host) (next result))
    (hnext : ∀ result v, reads v.files result.stdout (next result host v).1 ∨
      host.Cancels ∧ (next result host v).1 = .error (.ofCause .cancelled)) :
    Prepared host (Ends a target host tool reads before) ds
      (.ok (blame tool ending >>= next)) := by
  intro w es hw
  have keeping : Action.Within host (.keeping host) (blame tool ending >>= next) :=
    Action.within_bind (Action.within_mapFailure hkept) hleft
  obtain ⟨⟨e, hdone⟩, waited⟩ := Runner.waited_wait hbegun hw (accepted tool)
  obtain ⟨hsame, houtcome⟩ := hending w
  rw [← hsame] at hdone waited
  have ends : ((blame tool ending >>= next) host w).2.deeds = (ending host w).2.deeds ∧
      Ends a target host tool reads before (ending host w).2.deeds
        ((blame tool ending >>= next) host w).2.files
        ((blame tool ending >>= next) host w).1 := by
    rcases houtcome with houtcome | ⟨takes, now, error, hfault, hlost⟩
    · rw [← houtcome] at waited
      exact ends_of_waited rfl waited hdeeds hleft hnext
    · rw [Action.bind_of_error (blame_other tool (Prod.ext hlost rfl) nofun)]
      exact ⟨rfl, .unremoved takes hfault (.of_waited waited)⟩
  refine ⟨⟨⟨[e], ends.1.trans hdone⟩, keeping w⟩, ?_⟩
  rw [ends.1]
  exact ends.2

/-- **A program that was not started ends its analyzer.** -/
theorem exists_ends_of_unstarted (reads : FileTree → Bytes → Except Failure α → Prop)
    (before : Nat) {β : Type} {config : String} {cause : Cause} {x : Action β}
    (h : Runner.Unstarted host (a.call target config tool) cause)
    (hrun : x host w = (.error (.ofCause cause), w'))
    (tried : .started (a.call target config tool) ∈ w'.deeds) :
    ∃ f, blame tool x host w = (.error f, w') ∧
      ∀ files, Ends a target host tool reads before w'.deeds files (.error f) := by
  cases h with
  | refused h => exact ⟨_, blame_command tool hrun, fun _ => .refused h tried⟩
  | @barred started t fault h =>
    refine ⟨_, blame_other tool hrun ?_, fun _ => .barred h tried⟩
    cases fault <;> exact nofun
  | cancelled h => exact ⟨_, blame_other tool hrun nofun, fun _ => .cancelled h⟩

/-- The start of a program whose configuration is written first. -/
def configure (tool : Tool) (what name : String) (content : Bytes)
    (launch : String → Action Running) (directory : Nat) : Action Running := do
  (Action.writePrivate directory name content).onFileError fun e =>
    .analyzer tool.name ("writing " ++ what ++ ": " ++ e.message)
  launch (← Action.privateName directory name)

/-- What is left to do for a program that runs with a configuration. -/
def awaiting (running : Running) (accepted : List Int) (directory : Nat) :
    Action CommandResult := do
  let ended ← Action.attempt (Runner.wait running accepted)
  Action.removeDirectory directory
  Action.ofExcept ended

/-- What is left to do when the start of a program with a configuration has come to something. -/
def configured (accepted : List Int) (directory : Nat) :
    Except Failure Running → Action (Action CommandResult)
  | .error f => do
    Action.removeDirectory directory
    Action.fail f
  | .ok running => return awaiting running accepted directory

theorem withConfig_eq (tool : Tool) (what name : String) (content : Bytes)
    (launch : String → Action Running) (accepted : List Int) :
    withConfig tool what name content launch accepted =
      Action.makeDirectory >>= fun directory =>
        Action.attempt (configure tool what name content launch directory) >>=
          configured accepted directory := rfl

theorem withConfig_run {what name : String} {content : Bytes} {launch : String → Action Running}
    (accepted : List Int) {directory : Nat} {r : Except Failure Running} {v v' : World}
    (made : Action.makeDirectory host w = (.ok directory, v))
    (start : configure tool what name content launch directory host v = (r, v')) :
    withConfig tool what name content launch accepted host w
      = configured accepted directory r host v' := by
  rw [withConfig_eq, Action.bind_of_ok made, Action.bind_run, Action.attempt_run, start]

/-- How the start of a program whose configuration is written first ends. -/
theorem configure_cases {launch : String → Action Running} {call : String → Command}
    (hlaunch : ∀ path, Runner.Starts host (call path) (launch path)) (tool : Tool)
    (what name : String) (content : Bytes) (directory : Nat) (w : World) :
    ∃ r w', configure tool what name content launch directory host w = (r, w') ∧
      ((w'.deeds = w.deeds ∧ ∃ now fault m, host.privateFault now name = some fault ∧
          r = .error (.ofCause (.analyzer tool.name m))) ∨
        ∃ path, w'.deeds = w.deeds ++ [.started (call path)] ∧
          ((∃ cause, Runner.Unstarted host (call path) cause ∧ r = .error (.ofCause cause)) ∨
            ∃ running, r = .ok running ∧
              Runner.Begun running (call path) host w.started.length w'.deeds)) := by
  rcases Action.writePrivate_cases host directory name content w with
    ⟨now, fault, e, v, hfault, hwrite, hv⟩ | ⟨v, hwrite, hv⟩
  · have wrapped := Action.onFileError_of_file hwrite fun e =>
      .analyzer tool.name ("writing " ++ what ++ ": " ++ e.message)
    exact ⟨_, v, Action.bind_of_error wrapped _, Or.inl ⟨hv, now, fault, _, hfault, rfl⟩⟩
  · have written : (Action.writePrivate directory name content).onFileError
        (fun e => .analyzer tool.name ("writing " ++ what ++ ": " ++ e.message)) host w
          = (.ok (), v) := Action.mapFailure_of_ok hwrite _
    obtain ⟨r, w', hrun, hdeeds, hcases⟩ :=
      hlaunch (host.directoryName directory ++ "/" ++ name) v
    rw [World.started_congr hv] at hcases
    exact ⟨r, w', (Action.bind_of_ok written _).trans hrun,
      Or.inr ⟨_, hdeeds.trans (by rw [hv]), hcases⟩⟩

/-- A failed start ends its analyzer when the private directory is removed, and when it cannot be
removed. -/
theorem exists_ends_of_failed (reads : FileTree → Bytes → Except Failure α → Prop)
    (before : Nat) (takes : tool ≠ .staticcheck) {directory : Nat} {cause : Cause}
    {x : Action (Action CommandResult)} {v : World}
    (hx : x host w = configured (accepted tool) directory (.error (.ofCause cause)) host v)
    (gone : Over a target host tool before v.deeds)
    (hends : ∀ w', w'.deeds = v.deeds → x host w = (.error (.ofCause cause), w') →
      ∃ f, blame tool x host w = (.error f, w') ∧
        ∀ files, Ends a target host tool reads before w'.deeds files (.error f)) :
    ∃ f w', blame tool x host w = (.error f, w') ∧ w'.deeds = v.deeds ∧
      ∀ files, Ends a target host tool reads before w'.deeds files (.error f) := by
  obtain ⟨w', hw', ⟨now, e, hfault, hremove⟩ | hremove⟩ :=
    Action.removeDirectory_cases host directory v
  · rw [configured, Action.bind_of_error hremove] at hx
    exact ⟨_, w', blame_other tool hx nofun, hw', fun _ => .unremoved takes hfault (hw' ▸ gone)⟩
  · rw [configured, Action.bind_of_ok hremove] at hx
    obtain ⟨f, hf, hend⟩ := hends w' hw' hx
    exact ⟨f, w', hf, hw', hend⟩

/-- The wait for a program with a private directory is a wait whose outcome may be lost. -/
theorem awaiting_run (takes : tool ≠ .staticcheck) (running : Running) (directory : Nat)
    (host : Host) (v : World) :
    (awaiting running (accepted tool) directory host v).2.deeds
        = (Runner.wait running (accepted tool) host v).2.deeds ∧
      ((awaiting running (accepted tool) directory host v).1
          = (Runner.wait running (accepted tool) host v).1 ∨
        Unremoved tool host (awaiting running (accepted tool) directory host v).1) := by
  unfold awaiting
  rw [Action.bind_of_ok (Action.attempt_run (Runner.wait running (accepted tool)))]
  obtain ⟨v', hv', ⟨now, e, hfault, hremove⟩ | hremove⟩ := Action.removeDirectory_cases host
    directory (Runner.wait running (accepted tool) host v).2
  · rw [Action.bind_of_error hremove]
    exact ⟨hv', Or.inr ⟨takes, now, e, hfault, rfl⟩⟩
  · rw [Action.bind_of_ok hremove, Action.ofExcept_run]
    exact ⟨hv', Or.inl rfl⟩

/-- What is launched with a configuration file ends at once as an analyzer may, or leaves the wait
for its end. -/
theorem withConfig_cases (reads : FileTree → Bytes → Except Failure α → Prop)
    (takes : tool ≠ .staticcheck) {launch : String → Action Running}
    (hlaunch : ∀ path, Runner.Starts host (a.call target path tool) (launch path))
    (what name : String) (content : Bytes) (w : World) :
    ∃ r w' es, blame tool (withConfig tool what name content launch (accepted tool)) host w
        = (r, w') ∧ w'.deeds = w.deeds ++ es ∧
      ((∃ f, r = .error f ∧ ∀ files,
          Ends a target host tool reads w.started.length w'.deeds files (.error f)) ∨
        ∃ path running directory, r = .ok (awaiting running (accepted tool) directory) ∧
          Runner.Begun running (a.call target path tool) host w.started.length w'.deeds) := by
  rcases Action.makeDirectory_cases host w with
    ⟨now, e, v, hfault, hmake, hv⟩ | ⟨directory, v, hmake, hv⟩
  · have unmade : withConfig tool what name content launch (accepted tool) host w
        = (.error (.ofCause (.file e)), v) := Action.bind_of_error hmake _
    exact ⟨_, v, [], blame_other tool unmade nofun, by rw [hv, List.append_nil],
      Or.inl ⟨_, rfl, fun _ => .noDirectory takes hfault⟩⟩
  obtain ⟨r, v', hrun, hcases⟩ := configure_cases hlaunch tool what name content directory v
  have started := withConfig_run (accepted tool) hmake hrun
  rw [hv, World.started_congr hv] at hcases
  rcases hcases with ⟨hdeeds, now, fault, m, hfault, rfl⟩ |
    ⟨path, hdeeds, ⟨cause, hcause, rfl⟩ | ⟨running, rfl, hbegun⟩⟩
  · obtain ⟨f, w', hf, hw', hend⟩ := exists_ends_of_failed reads w.started.length takes started
      (.unconfigured hfault) fun w' _ hfailed =>
        ⟨_, blame_other tool hfailed nofun, fun _ => .unconfigured takes hfault⟩
    exact ⟨_, w', [], hf, by rw [hw', hdeeds, List.append_nil], Or.inl ⟨f, rfl, hend⟩⟩
  · have tried : .started (a.call target path tool) ∈ v'.deeds := by simp [hdeeds]
    obtain ⟨f, w', hf, hw', hend⟩ := exists_ends_of_failed reads w.started.length takes started
      (.unstarted hcause tried) fun w' hw' hfailed =>
        exists_ends_of_unstarted reads w.started.length hcause hfailed (hw' ▸ tried)
    exact ⟨_, w', _, hf, hw'.trans hdeeds, Or.inl ⟨f, rfl, hend⟩⟩
  · exact ⟨_, v', _, blame_ok tool started, hdeeds,
      Or.inr ⟨path, running, directory, rfl, hbegun⟩⟩

/-- **An analyzer with a configuration file comes to one of its ends**, at once or whenever it is
carried on. -/
theorem prepared_withConfig (takes : tool ≠ .staticcheck) {launch : String → Action Running}
    (hlaunch : ∀ path, Runner.Starts host (a.call target path tool) (launch path))
    (what name : String) (content : Bytes) {next : CommandResult → Action α}
    (hdeeds : ∀ result v, (next result host v).2.deeds = v.deeds)
    (hleft : ∀ result, Action.Within host (.keeping host) (next result))
    (hnext : ∀ result v, reads v.files result.stdout (next result host v).1 ∨
      host.Cancels ∧ (next result host v).1 = .error (.ofCause .cancelled)) (w : World) :
    ∃ l w' es, Action.attempt (do
        let ending ← blame tool (withConfig tool what name content launch (accepted tool))
        return (do let result ← blame tool ending; next result)) host w = (.ok l, w') ∧
      w'.deeds = w.deeds ++ es ∧
      Prepared host (Ends a target host tool reads w.started.length) w'.deeds l := by
  obtain ⟨r, w', es, hrun, hes, ⟨f, rfl, hend⟩ | ⟨path, running, directory, rfl, hbegun⟩⟩ :=
    withConfig_cases reads takes hlaunch what name content w
  · rw [Action.attempt_run, Action.bind_of_error hrun]
    exact ⟨_, w', es, rfl, hes, hend⟩
  · rw [Action.attempt_run, Action.bind_of_ok hrun]
    refine ⟨_, w', es, rfl, hes, prepared_of_waiting hbegun
      (awaiting_run takes running directory host) ?_ hdeeds hleft hnext⟩
    refine Action.within_bind (Action.within_attempt (Runner.within_wait_keeping _ _)) fun _ => ?_
    exact Action.within_bind (Action.within_removeDirectory _).keeping_of_aside fun _ =>
      Action.within_ofExcept _

/-! ## 4. The three analyzers -/

/-- What the output of capslock is decoded to, in the room there is at some moment. -/
def ReadsCapabilities (target : Target) (host : Host) (_ : FileTree) (stdout : Bytes)
    (r : Except Failure CapabilityReport) : Prop :=
  ∃ now, r = (Output.CallPaths.decode (.bytes stdout) target.moduleCache
    (host.nesting now)).mapError .ofCause

/-- What the output of golangci-lint is decoded to, in the room there is at some moment. -/
def ReadsReport (target : Target) (host : Host) (_ : FileTree) (stdout : Bytes)
    (r : Except Failure (List Issue)) : Prop :=
  ∃ now, r = (Output.LintReport.decode (.bytes stdout) target.moduleCache (some target.workDir)
    (host.nesting now)).mapError .ofCause

/-- What the output of staticcheck is decoded to at some moment, among the files there are. -/
def ReadsProblems (target : Target) (host : Host) (files : FileTree) (stdout : Bytes)
    (r : Except Failure (List Issue)) : Prop :=
  ∃ w, w.files = files ∧ r = (Output.CheckStream.decode (.bytes stdout) target.moduleCache
    (some target.workDir) host w).1

/-- How capslock may end. -/
abbrev CapslockEnds (a : Analyzers) (target : Target) (host : Host) :=
  Ends a target host .capslock (ReadsCapabilities target host)

/-- How golangci-lint may end. -/
abbrev GolangciLintEnds (a : Analyzers) (target : Target) (host : Host) :=
  Ends a target host .golangciLint (ReadsReport target host)

/-- How staticcheck may end. -/
abbrev StaticcheckEnds (a : Analyzers) (target : Target) (host : Host) :=
  Ends a target host .staticcheck (ReadsProblems target host)

theorem prepared_capslock (a : Analyzers) (target : Target) (host : Host) (w : World) :
    ∃ l w' es, Action.attempt (a.launchCapslock target) host w = (.ok l, w') ∧
      w'.deeds = w.deeds ++ es ∧
      Prepared host (CapslockEnds a target host w.started.length) w'.deeds l := by
  unfold launchCapslock
  split
  next hscope =>
    refine ⟨_, w, [], rfl, (List.append_nil _).symm, fun _ => ?_⟩
    exact Ends.noPackages ⟨rfl, List.isEmpty_iff.1 hscope⟩
  next =>
    have takes : Tool.capslock ≠ .staticcheck := by decide
    refine prepared_withConfig takes (fun path => ?_) _ _ _ (fun result v => ?_) (fun result => ?_)
      (fun result v => ?_) w
    · exact (Runner.starts_start _ _ _ _ host).log _ _ _ _
    · rw [Action.bind_of_ok (Action.room_run host v)]
      simp only [Action.bind_run, Action.ofCauses_run]
      cases Output.CallPaths.decode (.bytes result.stdout) target.moduleCache _ with
      | error c => rfl
      | ok report => exact World.deeds_logging _
    · refine Action.within_bind Action.within_room.keeping_of_aside fun _ =>
        Action.within_bind (Action.within_ofCauses _) fun _ => ?_
      exact Action.within_bind (Action.within_log_keeping _ _ _ _) fun _ => Action.within_pure _
    · rw [Action.bind_of_ok (Action.room_run host v)]
      simp only [Action.bind_run, Action.ofCauses_run]
      refine Or.inl ⟨v.clock, ?_⟩
      cases Output.CallPaths.decode (.bytes result.stdout) target.moduleCache _ <;> rfl

theorem prepared_golangciLint (a : Analyzers) (target : Target) (host : Host) (w : World) :
    ∃ l w' es, Action.attempt (a.launchGolangciLint target) host w = (.ok l, w') ∧
      w'.deeds = w.deeds ++ es ∧
      Prepared host (GolangciLintEnds a target host w.started.length) w'.deeds l := by
  have takes : Tool.golangciLint ≠ .staticcheck := by decide
  refine prepared_withConfig takes (fun path => ?_) _ _ _ (fun result v => ?_)
    (fun result => Action.within_bind Action.within_room.keeping_of_aside fun _ =>
      Action.within_ofCauses _) (fun result v => ?_) w
  · exact (Runner.starts_start _ _ _ _ host).log _ _ _ _
  · rw [Action.bind_of_ok (Action.room_run host v), Action.ofCauses_run]
    rfl
  · rw [Action.bind_of_ok (Action.room_run host v), Action.ofCauses_run]
    exact Or.inl ⟨v.clock, rfl⟩

/-- A wait for work of the audit itself is over, or was broken off. -/
theorem checkpoint_cases (host : Host) (w : World) :
    ∃ w', w'.files = w.files ∧
      (Action.checkpoint host w = (.ok (), w') ∨
        host.Cancels ∧ Action.checkpoint host w = (.error (.ofCause .cancelled), w')) := by
  refine ⟨(Action.checkpoint host w).2, Action.Within.files_eq Action.within_checkpoint w, ?_⟩
  unfold Action.checkpoint
  simp only [Action.bind_run, Action.moment_run, Action.host_run]
  by_cases h : host.interrupts w.clock = true
  · rw [if_pos h]
    exact Or.inr ⟨Or.inr (Or.inr ⟨_, h⟩), rfl⟩
  · rw [if_neg h]
    exact Or.inl rfl

theorem prepared_staticcheck (a : Analyzers) (target : Target) (host : Host) (w : World) :
    ∃ l w' es, Action.attempt (a.launchStaticcheck target) host w = (.ok l, w') ∧
      w'.deeds = w.deeds ++ es ∧
      Prepared host (StaticcheckEnds a target host w.started.length) w'.deeds l := by
  unfold launchStaticcheck
  simp only [Action.attempt_run, Action.bind_run, Action.log_run]
  generalize hlogged : w.logging host _ = v
  have hv : v.deeds = w.deeds := by rw [← hlogged, World.deeds_logging]
  obtain ⟨r, w', hrun, hstarted, hcases⟩ := Runner.starts_start a.runner
    ([a.staticcheck, "-checks=" ++ a.checks, "-f=json", "-tests=false"] ++ target.dirs)
    (some target.workDir) none host v
  rw [hv] at hstarted
  rw [World.started_congr hv] at hcases
  rcases hcases with ⟨cause, hcause, rfl⟩ | ⟨running, rfl, hbegun⟩
  · have unstarted : Runner.Unstarted host (a.call target "" .staticcheck) cause := hcause
    obtain ⟨f, hf, hend⟩ := exists_ends_of_unstarted (ReadsProblems target host)
      w.started.length unstarted hrun (by rw [hstarted]; simp [call])
    rw [hf]
    exact ⟨_, w', _, rfl, hstarted, hend⟩
  · rw [blame_ok .staticcheck hrun]
    refine ⟨_, w', _, rfl, hstarted, ?_⟩
    have hbegun' : Runner.Begun running (a.call target "" .staticcheck) host w.started.length
        w'.deeds := hbegun
    have decoding (result : CommandResult) : Action.Within host .aside (do
        Action.checkpoint
        Output.CheckStream.decode (.bytes result.stdout) target.moduleCache
          (some target.workDir)) :=
      Action.within_bind Action.within_checkpoint fun _ => Output.CheckStream.within_decode _ _ _
    refine prepared_of_waiting hbegun' (fun v => ⟨rfl, Or.inl rfl⟩) (Runner.within_wait_keeping _ _)
      (fun result => (decoding result).deeds_eq) (fun result => (decoding result).keeping_of_aside)
      fun result v => ?_
    obtain ⟨v', hfiles, hgoes | ⟨hcancels, hstops⟩⟩ := checkpoint_cases host v
    · rw [Action.bind_of_ok hgoes]
      exact Or.inl ⟨v', hfiles, rfl⟩
    · rw [Action.bind_of_error hstops]
      exact Or.inr ⟨hcancels, rfl⟩

/-! ## 5. Ends in any order -/

/-- Work that was prepared is prepared after anything else that was done. -/
theorem Prepared.append {ends : List Event → FileTree → Except Failure α → Prop} {l : Launched α}
    (hends : ∀ ds es files r, ends ds files r → ends (ds ++ es) files r)
    (h : Prepared host ends ds l) (es : List Event) : Prepared host ends (ds ++ es) l := by
  cases l with
  | error f => exact fun files => hends _ _ _ _ (h files)
  | ok rest =>
    intro w es' hw
    exact h w (es ++ es') (by rw [hw, List.append_assoc])

theorem Prepared.imp {ends ends' : List Event → FileTree → Except Failure α → Prop}
    {l : Launched α} (h : Prepared host ends ds l)
    (himp : ∀ ds files r, ends ds files r → ends' ds files r) : Prepared host ends' ds l := by
  cases l with
  | error f => exact fun files => himp _ _ _ (h files)
  | ok rest => exact fun w es hw => (h w es hw).imp_right (himp _ _ _)

/-- **Prepared work is carried through to its end.** -/
theorem Prepared.conclude {ends : List Event → FileTree → Except Failure α → Prop}
    {l : Launched α} {r : Except Failure α} (h : Prepared host ends w.deeds l)
    (hrun : Launched.conclude l host w = (.ok r, w')) :
    (Frame.onward host).rel w w' ∧ ends w'.deeds w'.files r := by
  cases l with
  | error f =>
    cases hrun
    exact ⟨Frame.refl _ w, h w.files⟩
  | ok rest =>
    cases hrun
    exact h w [] (List.append_nil _).symm

/-- An end that was come to is one in every world that is gone on to. -/
theorem Ends.onward (h : Ends a target host tool reads before w.deeds w.files r)
    (hw : (Frame.onward host).rel w w') :
    Ends a target host tool reads before w'.deeds w'.files r := by
  obtain ⟨⟨es, hes⟩, hkept⟩ := hw
  rw [hes]
  exact h.append es hkept

theorem Prepared.onward {l : Launched α}
    (h : Prepared host (Ends a target host tool reads before) w.deeds l)
    (hw : (Frame.onward host).rel w w') :
    Prepared host (Ends a target host tool reads before) w'.deeds l := by
  obtain ⟨⟨es, hes⟩, -⟩ := hw
  rw [hes]
  exact h.append (fun _ es _ _ h => h.append es .refl) es

end Analyzers

/-- A loop over analyzers each of whose steps fills a place, and keeps what was filled, fills the
places of all of them. -/
theorem Action.foldlM_fills {step : σ → Tool → Action σ} (inv : World → σ → Prop)
    (filled : σ → Tool → Prop)
    (hstep : ∀ s tool w, inv w s → ∃ s' w', step s tool host w = (.ok s', w') ∧ inv w' s' ∧
      filled s' tool ∧ ∀ other, filled s other → filled s' other)
    (tools : List Tool) (s : σ) (w : World) (h : inv w s) :
    ∃ s' w', tools.foldlM step s host w = (.ok s', w') ∧ inv w' s' ∧
      (∀ tool ∈ tools, filled s' tool) ∧ ∀ other, filled s other → filled s' other := by
  induction tools generalizing s w with
  | nil => exact ⟨s, w, rfl, h, by simp, fun _ hf => hf⟩
  | cons tool tools ih =>
    obtain ⟨s₁, w₁, hrun, hinv, hfilled, hkept⟩ := hstep s tool w h
    obtain ⟨s', w', hrest, hinv', hall, hkept'⟩ := ih s₁ w₁ hinv
    refine ⟨s', w', ?_, hinv', ?_, fun other hf => hkept' other (hkept other hf)⟩
    · rw [List.foldlM_cons, Action.bind_of_ok hrun]
      exact hrest
    · intro other hmem
      rcases List.mem_cons.1 hmem with rfl | hmem
      · exact hkept' other hfilled
      · exact hall other hmem

namespace Analyzers

variable {a : Analyzers} {target : Target}

/-- Work on a target that ends as the linters do, and outcomes of it that are ends of theirs, as
far as they are there. -/
structure LintersUnderWay (a : Analyzers) (target : Target) (host : Host) (before : Nat)
    (l : Linters) (w : World) (o : LintOutcomes) : Prop where
  golangciLint : Prepared host (GolangciLintEnds a target host before) w.deeds l.golangciLint
  staticcheck : Prepared host (StaticcheckEnds a target host before) w.deeds l.staticcheck
  golangciLintEnded : ∀ r, o.golangciLint = some r →
    GolangciLintEnds a target host before w.deeds w.files r
  staticcheckEnded : ∀ r, o.staticcheck = some r →
    StaticcheckEnds a target host before w.deeds w.files r

/-- Whether the outcome of a linter is there; none is awaited of capslock. -/
def LintOutcomes.Has (o : LintOutcomes) : Tool → Prop
  | .capslock => True
  | .golangciLint => o.golangciLint.isSome
  | .staticcheck => o.staticcheck.isSome

theorem LintersUnderWay.onward {l : Linters} {o : LintOutcomes}
    (h : LintersUnderWay a target host before l w o) (hw : (Frame.onward host).rel w w') :
    LintersUnderWay a target host before l w' o :=
  ⟨h.golangciLint.onward hw, h.staticcheck.onward hw,
    fun r hr => (h.golangciLintEnded r hr).onward hw,
    fun r hr => (h.staticcheckEnded r hr).onward hw⟩

theorem LintersUnderWay.of_le {n : Nat} {l : Linters} {o : LintOutcomes}
    (h : LintersUnderWay a target host n l w o) (hn : before ≤ n) :
    LintersUnderWay a target host before l w o :=
  ⟨h.golangciLint.imp fun _ _ _ h => h.of_le hn, h.staticcheck.imp fun _ _ _ h => h.of_le hn,
    fun r hr => (h.golangciLintEnded r hr).of_le hn, fun r hr => (h.staticcheckEnded r hr).of_le hn⟩

/-- Both linters are prepared, whatever came of the launch of either. -/
theorem prepared_linters (a : Analyzers) (target : Target) (host : Host) (w : World) :
    ∃ l w' es, a.launchLinters target host w = (.ok l, w') ∧ w'.deeds = w.deeds ++ es ∧
      LintersUnderWay a target host w.started.length l w' ⟨none, none⟩ := by
  obtain ⟨g, w₁, es₁, hg, hes₁, golangciLint⟩ := prepared_golangciLint a target host w
  obtain ⟨s, w₂, es₂, hs, hes₂, staticcheck⟩ := prepared_staticcheck a target host w₁
  have hlater : w.started.length ≤ w₁.started.length := by
    rw [World.length_started hes₁]
    exact Nat.le_add_right _ _
  refine ⟨⟨g, s⟩, w₂, es₁ ++ es₂, ?_, by rw [hes₂, hes₁, List.append_assoc], ?_, ?_,
    fun _ hr => (nomatch hr), fun _ hr => (nomatch hr)⟩
  · rw [launchLinters, Action.bind_of_ok hg, Action.bind_of_ok hs]
    rfl
  · rw [hes₂]
    exact golangciLint.append (fun _ es _ _ h => h.append es .refl) es₂
  · exact staticcheck.imp fun _ _ _ h => h.of_le hlater

/-- What the end of one linter makes of the outcomes: what has ended does not end again. -/
inductive LintOutcomes.Filled (l : Linters) (o : LintOutcomes) (host : Host) (w : World) :
    Tool → LintOutcomes → World → Prop
  | still {tool : Tool} (has : o.Has tool) : Filled l o host w tool o w
  | golangciLint {r : Except Failure (List Issue)} {w' : World} (lacks : o.golangciLint = none)
      (run : Launched.conclude l.golangciLint host w = (.ok r, w')) :
      Filled l o host w .golangciLint { o with golangciLint := some r } w'
  | staticcheck {r : Except Failure (List Issue)} {w' : World} (lacks : o.staticcheck = none)
      (run : Launched.conclude l.staticcheck host w = (.ok r, w')) :
      Filled l o host w .staticcheck { o with staticcheck := some r } w'

theorem LintOutcomes.filled (l : Linters) (o : LintOutcomes) (tool : Tool) (host : Host)
    (w : World) :
    ∃ o' w', l.conclude o tool host w = (.ok o', w') ∧ o.Filled l host w tool o' w' := by
  cases tool with
  | capslock => exact ⟨o, w, rfl, .still trivial⟩
  | golangciLint =>
    cases ho : o.golangciLint with
    | some r => exact ⟨o, w, by simp [Linters.conclude, ho], .still (by simp [Has, ho])⟩
    | none =>
      obtain ⟨r, w', hrun⟩ := l.golangciLint.conclude_ok host w
      refine ⟨_, w', ?_, .golangciLint ho hrun⟩
      simp only [Linters.conclude, ho]
      exact Action.bind_of_ok hrun _
  | staticcheck =>
    cases ho : o.staticcheck with
    | some r => exact ⟨o, w, by simp [Linters.conclude, ho], .still (by simp [Has, ho])⟩
    | none =>
      obtain ⟨r, w', hrun⟩ := Launched.conclude_ok l.staticcheck host w
      refine ⟨_, w', ?_, .staticcheck ho hrun⟩
      simp only [Linters.conclude, ho]
      exact Action.bind_of_ok hrun _

/-- The place of the linter is filled, and the other one is kept. -/
theorem LintOutcomes.Filled.has {l : Linters} {o o' : LintOutcomes} {tool : Tool}
    (h : o.Filled l host w tool o' w') :
    o'.Has tool ∧ ∀ other, o.Has other → o'.Has other := by
  cases h with
  | still has => exact ⟨has, fun _ h => h⟩
  | golangciLint =>
    refine ⟨rfl, fun other hhas => ?_⟩
    cases other with
    | golangciLint => rfl
    | capslock | staticcheck => exact hhas
  | staticcheck =>
    refine ⟨rfl, fun other hhas => ?_⟩
    cases other with
    | staticcheck => rfl
    | capslock | golangciLint => exact hhas

/-- An outcome that comes to its place is an end of its linter. -/
theorem LintersUnderWay.filled {l : Linters} {o o' : LintOutcomes} {tool : Tool}
    (h : LintersUnderWay a target host before l w o) (hfilled : o.Filled l host w tool o' w') :
    (Frame.onward host).rel w w' ∧ LintersUnderWay a target host before l w' o' := by
  cases hfilled with
  | still => exact ⟨Frame.refl _ w, h⟩
  | golangciLint _ run =>
    obtain ⟨honward, hend⟩ := h.golangciLint.conclude run
    exact ⟨honward,
      { h.onward honward with golangciLintEnded := fun r hr => Option.some.inj hr ▸ hend }⟩
  | staticcheck _ run =>
    obtain ⟨honward, hend⟩ := h.staticcheck.conclude run
    exact ⟨honward,
      { h.onward honward with staticcheckEnded := fun r hr => Option.some.inj hr ▸ hend }⟩

/-- Work on a target that ends as the analyzers do, and outcomes of it that are ends of theirs,
as far as they are there. -/
structure AllUnderWay (a : Analyzers) (target : Target) (host : Host) (before : Nat)
    (c : Launched CapabilityReport) (l : Linters) (w : World) (o : Outcomes) : Prop where
  capslock : Prepared host (CapslockEnds a target host before) w.deeds c
  capslockEnded : ∀ r, o.capslock = some r → CapslockEnds a target host before w.deeds w.files r
  linters : LintersUnderWay a target host before l w o.lint

theorem AllUnderWay.onward {c : Launched CapabilityReport} {l : Linters} {o : Outcomes}
    (h : AllUnderWay a target host before c l w o) (hw : (Frame.onward host).rel w w') :
    AllUnderWay a target host before c l w' o :=
  ⟨h.capslock.onward hw, fun r hr => (h.capslockEnded r hr).onward hw, h.linters.onward hw⟩

/-- Whether the outcome of an analyzer is there. -/
def Outcomes.Has (o : Outcomes) : Tool → Prop
  | .capslock => o.capslock.isSome
  | tool => o.lint.Has tool

/-- What the end of one analyzer makes of the outcomes. -/
inductive Outcomes.Filled (c : Launched CapabilityReport) (l : Linters) (o : Outcomes)
    (host : Host) (w : World) : Tool → Outcomes → World → Prop
  | still {tool : Tool} (has : o.Has tool) : Filled c l o host w tool o w
  | capslock {r : Except Failure CapabilityReport} {w' : World} (lacks : o.capslock = none)
      (run : Launched.conclude c host w = (.ok r, w')) :
      Filled c l o host w .capslock { o with capslock := some r } w'
  | linter {tool : Tool} {lint : LintOutcomes} {w' : World} (other : tool ≠ .capslock)
      (filled : o.lint.Filled l host w tool lint w') :
      Filled c l o host w tool { o with lint } w'

theorem Outcomes.filled (c : Launched CapabilityReport) (l : Linters) (o : Outcomes) (tool : Tool)
    (host : Host) (w : World) :
    ∃ o' w', concludeOne c l o tool host w = (.ok o', w') ∧ o.Filled c l host w tool o' w' := by
  -- a linter ends: its place is filled as it is when there are linters only
  have linter (htool : tool ≠ .capslock)
      (hrun : concludeOne c l o tool = do return { o with lint := ← l.conclude o.lint tool }) :
      ∃ o' w', concludeOne c l o tool host w = (.ok o', w') ∧ o.Filled c l host w tool o' w' := by
    obtain ⟨lint, w', hlint, filled⟩ := o.lint.filled l tool host w
    exact ⟨{ o with lint }, w', by rw [hrun]; exact Action.bind_of_ok hlint _, .linter htool filled⟩
  cases tool with
  | golangciLint => exact linter (by decide) (by rcases o with ⟨_ | _, _⟩ <;> rfl)
  | staticcheck => exact linter (by decide) (by rcases o with ⟨_ | _, _⟩ <;> rfl)
  | capslock =>
    cases ho : o.capslock with
    | some r => exact ⟨o, w, by simp [concludeOne, ho], .still (by simp [Has, ho])⟩
    | none =>
      obtain ⟨r, w', hrun⟩ := Launched.conclude_ok c host w
      refine ⟨_, w', ?_, .capslock ho hrun⟩
      simp only [concludeOne, ho]
      exact Action.bind_of_ok hrun _

/-- The place of the analyzer is filled, and the others are kept. -/
theorem Outcomes.Filled.has {c : Launched CapabilityReport} {l : Linters} {o o' : Outcomes}
    {tool : Tool} (h : o.Filled c l host w tool o' w') :
    o'.Has tool ∧ ∀ other, o.Has other → o'.Has other := by
  cases h with
  | still has => exact ⟨has, fun _ h => h⟩
  | capslock =>
    refine ⟨rfl, fun other hhas => ?_⟩
    cases other with
    | capslock => rfl
    | golangciLint | staticcheck => exact hhas
  | linter other filled =>
    obtain ⟨hhas, hkept⟩ := filled.has
    refine ⟨?_, ?_⟩
    · cases tool with
      | capslock => exact absurd rfl other
      | golangciLint | staticcheck => exact hhas
    · rintro (_ | _ | _) h
      · exact h
      · exact hkept .golangciLint h
      · exact hkept .staticcheck h

/-- An outcome that comes to its place is an end of its analyzer. -/
theorem AllUnderWay.filled {c : Launched CapabilityReport} {l : Linters} {o o' : Outcomes}
    {tool : Tool} (h : AllUnderWay a target host before c l w o)
    (hfilled : o.Filled c l host w tool o' w') : AllUnderWay a target host before c l w' o' := by
  cases hfilled with
  | still => exact h
  | capslock _ run =>
    obtain ⟨honward, hend⟩ := h.capslock.conclude run
    exact { h.onward honward with capslockEnded := fun r hr => Option.some.inj hr ▸ hend }
  | linter _ filled =>
    obtain ⟨honward, linters⟩ := h.linters.filled filled
    exact { h.onward honward with linters }

/-! ## 6. Analyses -/

/-- What comes of both linters. -/
def issuesOf (g s : Except Failure (List Issue)) : Except Failure (List Issue) :=
  (FanIn.both g s).map fun (a, b) => Issue.sort (a ++ b)

theorem issuesOf_error {g s : Except Failure (List Issue)} {f : Failure}
    (h : issuesOf g s = .error f) : FanIn.both g s = .error f := by
  unfold issuesOf at h
  cases hboth : FanIn.both g s with
  | ok found =>
    rw [hboth] at h
    cases h
  | error e =>
    rw [hboth] at h
    obtain rfl : e = f := Except.error.inj h
    rfl

theorem onward_reportIssues (target : Target) (outcome : Except Failure (List Issue)) (host : Host)
    (w : World) :
    ∃ w', reportIssues target outcome host w = (.ok (), w') ∧ (Frame.onward host).rel w w' := by
  cases outcome with
  | ok issues =>
    exact ⟨_, rfl, ⟨[], (World.deeds_logging _).trans (List.append_nil _).symm⟩, .single ⟨_, rfl⟩⟩
  | error f => exact ⟨w, rfl, Frame.refl _ w⟩

/-- Where both linters have ended, their outcomes are what comes of both. -/
theorem LintersUnderWay.issues {l : Linters} {o : LintOutcomes}
    (h : LintersUnderWay a target host before l w o) (hg : o.Has .golangciLint)
    (hs : o.Has .staticcheck) :
    ∃ g s, o.issues = issuesOf g s ∧ GolangciLintEnds a target host before w.deeds w.files g ∧
      StaticcheckEnds a target host before w.deeds w.files s := by
  obtain ⟨g, hg⟩ := Option.isSome_iff_exists.1 hg
  obtain ⟨s, hs⟩ := Option.isSome_iff_exists.1 hs
  refine ⟨g, s, ?_, h.golangciLintEnded g hg, h.staticcheckEnded s hs⟩
  rw [LintOutcomes.issues, hg, hs]
  rfl

/-- **All three analyzers come to an end of theirs**, in whatever order they end, and what comes
of them is known then. -/
theorem analyze_ends (a : Analyzers) (target : Target) (host : Host) (w : World)
    (h : target.dirs ≠ []) :
    ∃ c g s, (a.analyze target host w).1 = FanIn.both c (issuesOf g s) ∧
      CapslockEnds a target host w.started.length (a.analyze target host w).2.deeds
        (a.analyze target host w).2.files c ∧
      GolangciLintEnds a target host w.started.length (a.analyze target host w).2.deeds
        (a.analyze target host w).2.files g ∧
      StaticcheckEnds a target host w.started.length (a.analyze target host w).2.deeds
        (a.analyze target host w).2.files s := by
  obtain ⟨c, w₀, es₀, hcapslock, hw₀, capslock⟩ := prepared_capslock a target host w
  obtain ⟨l, w₁, es, hlaunch, hw₁, linters⟩ := prepared_linters a target host w₀
  have hlater : w.started.length ≤ w₀.started.length := by
    rw [World.length_started hw₀]
    exact Nat.le_add_right _ _
  have underWay : AllUnderWay a target host w.started.length c l w₁ ⟨none, ⟨none, none⟩⟩ :=
    ⟨hw₁ ▸ capslock.append (fun _ es _ _ h => h.append es .refl) es, fun _ hr => (nomatch hr),
      linters.of_le hlater⟩
  obtain ⟨o, w₂, hfold, ended, hall, -⟩ := Action.foldlM_fills
    (AllUnderWay a target host w.started.length c l) Outcomes.Has
    (fun o tool w h => by
      obtain ⟨o', w', hrun, filled⟩ := o.filled c l tool host w
      exact ⟨o', w', hrun, h.filled filled, filled.has⟩)
    (host.finishOrder w₁.clock ++ [Tool.capslock, Tool.golangciLint, Tool.staticcheck])
    ⟨none, ⟨none, none⟩⟩ { w₁ with clock := w₁.clock + 1 }
    (underWay.onward (Frame.onward_of_aside ⟨rfl, rfl⟩))
  obtain ⟨w₃, hreport, hw₃⟩ := onward_reportIssues target o.lint.issues host w₂
  have ended := ended.onward hw₃
  obtain ⟨c', hc⟩ := Option.isSome_iff_exists.1 (hall .capslock (by simp))
  obtain ⟨g, s, hissues, hg, hs⟩ :=
    ended.linters.issues (hall .golangciLint (by simp)) (hall .staticcheck (by simp))
  have hrun : a.analyze target host w = (FanIn.both c' o.lint.issues, w₃) := by
    unfold analyze
    rw [Action.bind_of_ok hcapslock, if_neg (by simpa using h), Action.bind_of_ok hlaunch]
    simp only [Action.bind_run, Action.host_run, Action.moment_run, hfold, hreport, hc,
      Option.getD_some, Action.ofExcept_run]
  rw [hrun, hissues]
  exact ⟨c', g, s, rfl, ended.capslockEnded c' hc, hg, hs⟩

end Analyzers
end UpgradeAudit
