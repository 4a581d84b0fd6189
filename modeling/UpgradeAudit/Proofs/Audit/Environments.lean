/-
# What is taken from the environment

An audit takes its settings from variables of its own and hands other variables on to the programs
it starts; nothing else of its environment matters.  `Settings.Heeds` says which variables these
are, and **two environments that agree on them cannot be told apart**: not by the settings, not by
what programs are given, and not by any run (`Call.run_confined`).

What programs are given does not depend on who starts them.  The build tool that is asked about the
module, the one that pins and lists, and the analyzers have one runner, which is fixed when the
workspace is set up (`Workspace.Owns.environment`), and its environment is the allow-list applied
to the environment of the audit: **every variable on the list that is set, with its value, and no
other one** (`Settings.Forwards`).
-/
import Mathlib.Data.List.Basic
import UpgradeAudit.Proofs.Audit.Restoration
import UpgradeAudit.Proofs.Tables

namespace UpgradeAudit

variable {host : Host} {w w' : World} {ws : Workspace} {settings : Settings}
  {env env' given : Environment} {dep version name : String} {es : List Event} {c : Command}

namespace Settings

/-! ## 1. The variables that are heeded -/

/-- The beginning of the names of an audit's own variables. -/
def ownPrefix : String := "DEP_INSPECTOR_"

/-- The variables that are to be handed on besides those that always are. -/
def requested (env : Environment) : List String := items env "DEP_INSPECTOR_FORWARD_ENV"

/-- Whether an audit takes notice of a variable. -/
inductive Heeds (env : Environment) (name : String) : Prop
  | own (h : ownPrefix.toList <+: name.toList)
  | always (h : name ∈ alwaysForwarded)
  | requested (h : name ∈ requested env)

/-- Environments with the same variables of those that are heeded, and the same values in them. -/
def SameHeeded (env env' : Environment) : Prop :=
  ∀ name, Heeds env name → Table.get? name env = Table.get? name env'

/-- A variable that is not heeded may have any value. -/
theorem sameHeeded_set (h : ¬ Heeds env name) (value : String) :
    SameHeeded env (Table.set name value env) := by
  intro other hother
  have hne : other ≠ name := by
    rintro rfl
    exact h hother
  exact (Table.get?_set_of_ne hne value env).symm

theorem mem_forwarded :
    name ∈ (ofEnvironment env).forwarded ↔ name ∈ alwaysForwarded ∨ name ∈ requested env := by
  by_cases h : name ∈ alwaysForwarded <;> simp [ofEnvironment, requested, h]

/-- The settings are told by an audit's own variables. -/
theorem ofEnvironment_congr (h : SameHeeded env env') : ofEnvironment env = ofEnvironment env' := by
  have own (name : String) (hname : ownPrefix.toList <+: name.toList) :
      Table.get? name env = Table.get? name env' := h name (.own hname)
  simp only [ofEnvironment, flag, items]
  rw [own "DEP_INSPECTOR_MODULE_DIR" (by decide), own "DEP_INSPECTOR_ALL_PACKAGES" (by decide),
    own "DEP_INSPECTOR_MATCH_COLUMNS" (by decide), own "DEP_INSPECTOR_FORWARD_ENV" (by decide),
    own "DEP_INSPECTOR_GO" (by decide), own "DEP_INSPECTOR_CAPSLOCK" (by decide),
    own "DEP_INSPECTOR_GOLANGCI_LINT" (by decide), own "DEP_INSPECTOR_STATICCHECK" (by decide),
    own "DEP_INSPECTOR_STATICCHECK_CHECKS" (by decide)]

/-! ## 2. What programs are given -/

/-- A program's environment that is made of the variables on the allow-list that are set. -/
structure Forwards (s : Settings) (env given : Environment) : Prop where
  once : (Table.keys given).Nodup
  value : ∀ name, Table.get? name given = if name ∈ s.forwarded then Table.get? name env else none

/-- What is listed for a name is its value, however often the name is on the list. -/
theorem mem_entries {s : Settings} {value : String} :
    (name, value) ∈ s.forwarded.filterMap
        (fun name => (Table.get? name env).map fun value => (name, value))
      ↔ name ∈ s.forwarded ∧ Table.get? name env = some value := by
  simp only [List.mem_filterMap, Option.map_eq_some_iff, Prod.mk.injEq]
  constructor
  · rintro ⟨_, hmem, _, hvalue, rfl, rfl⟩
    exact ⟨hmem, hvalue⟩
  · rintro ⟨hmem, hvalue⟩
    exact ⟨name, hmem, value, hvalue, rfl, rfl⟩

theorem get?_processEnvironment {s : Settings} {value : String} :
    Table.get? name (s.processEnvironment env) = some value
      ↔ name ∈ s.forwarded ∧ Table.get? name env = some value := by
  rw [processEnvironment, Table.get?_ofEntries]
  constructor
  · exact fun hlast => mem_entries.1 hlast.mem
  · intro h
    refine Table.last_of_mem (mem_entries.2 h) fun other hother => ?_
    have hsame := (mem_entries.1 hother).2
    rw [h.2] at hsame
    exact (Option.some.inj hsame).symm

/-- **Programs are given the variables on the allow-list that are set, and nothing else.** -/
theorem forwards_processEnvironment (s : Settings) (env : Environment) :
    s.Forwards env (s.processEnvironment env) where
  once := Table.nodup_keys_ofEntries _
  value name := by
    refine Option.ext fun value => ?_
    rw [get?_processEnvironment]
    split <;> simp [*]

/-- What programs are given is told by the variables on the allow-list. -/
theorem processEnvironment_congr {s : Settings}
    (h : ∀ name ∈ s.forwarded, Table.get? name env = Table.get? name env') :
    s.processEnvironment env = s.processEnvironment env' := by
  unfold processEnvironment
  congr 1
  refine List.filterMap_congr fun name hname => ?_
  rw [h name hname]

/-- Programs are given the same under environments that agree on what is heeded. -/
theorem processEnvironment_ofEnvironment (h : SameHeeded env env') :
    (ofEnvironment env).processEnvironment env = (ofEnvironment env').processEnvironment env' := by
  rw [← ofEnvironment_congr h]
  refine processEnvironment_congr fun name hname => h name ?_
  exact (mem_forwarded.1 hname).elim .always .requested

end Settings

/-! ## 3. Who starts programs -/

namespace Workspace

/-- What a workspace is prepared of, the settings and the environment of programs say. -/
theorem prepare_congr (h : settings.processEnvironment env = settings.processEnvironment env') :
    prepare settings env = prepare settings env' := by
  have hrunner : settings.runner env = settings.runner env' := by
    rw [Settings.runner, h, ← Settings.runner]
  unfold prepare Settings.analyzers
  rw [hrunner]

/-- **All commands of an inspection are given what was fixed when the workspace was set up.** -/
theorem Owns.environment (h : ws.Owns dep version c) (hws : ws.Known settings env) :
    c.environment = settings.processEnvironment env := by
  have hrunner : ws.runner.environment = settings.processEnvironment env := by
    rw [hws.runner_eq]
    rfl
  have hanalyzers : ws.analyzers.runner.environment = settings.processEnvironment env := by
    rw [hws.analyzers_eq]
    rfl
  cases h with
  | pin h => cases h <;> exact hrunner
  | list => exact hrunner
  | analyze _ _ h => cases h <;> exact hanalyzers

end Workspace

/-- A question to the build tool is given the same. -/
theorem Settings.Asks.environment (h : settings.Asks env c) :
    c.environment = settings.processEnvironment env := by
  cases h <;> rfl

/-- What an inspection starts belongs to its version. -/
theorem Inspected.owns_of_started {outcome : Except Failure (Inspection × Snapshot)}
    (h : Inspected ws dep version host w w' es outcome) (hc : Event.started c ∈ es) :
    ws.Owns dep version c := by
  cases h with
  | untouched looks => rcases looks with rfl | ⟨contents, rfl⟩ <;> simp at hc
  | @transacted d contents body missed found _ examined =>
    have hbody : Event.started c ∈ body := by simpa using hc
    rcases examined.isOwnStep _ hbody with hstep | ⟨_, he⟩
    · exact hstep
    · cases he

/-! ## 4. Whole runs -/

namespace Call

/-- **Every program of a run, whoever starts it, is given the allow-listed variables alone.** -/
theorem started_forwards {known : Option Workspace} (call : Call)
    (hknown : ∀ ws, known = some ws → ws.Known settings env) (host : Host) (w : World) :
    ∃ es, (call.run settings env known host w).2.deeds = w.deeds ++ es ∧
      ∀ c, Event.started c ∈ es → settings.Forwards env c.environment := by
  have forwards {c : Command} (h : c.environment = settings.processEnvironment env) :
      settings.Forwards env c.environment := h ▸ settings.forwards_processEnvironment env
  have asked {setup : List Event} (h : ∀ e ∈ setup, e.Prepares settings env) (c : Command)
      (hc : Event.started c ∈ setup) : settings.Forwards env c.environment := by
    rcases h _ hc with hstep | ⟨_, he⟩
    · exact forwards (Settings.Asks.environment hstep)
    · cases he
  rcases run_cases settings env known call host w with
    ⟨f, v, hready, hrun⟩ | ⟨ws, v, ss, hready, course, -⟩
  · obtain ⟨setup, hsetup, hprepares⟩ :=
      (within_ready_deeds settings env known host).rel_of_eq hready
    rw [hrun]
    exact ⟨setup, hsetup, asked hprepares⟩
  · obtain ⟨setup, hsetup, hprepares⟩ :=
      (within_ready_deeds settings env known host).rel_of_eq hready
    have hws : ws.Known settings env := by
      cases known with
      | none => exact (Workspace.prepare_ok hready).1
      | some ws' =>
        obtain ⟨rfl, -⟩ : ws' = ws ∧ w = v := by simpa [ready] using hready
        exact hknown ws' rfl
    refine ⟨setup ++ ss.flatMap fun s => s.deeds ws host, ?_, fun c hc => ?_⟩
    · rw [course.deeds_eq, hsetup, List.append_assoc]
    rcases List.mem_append.1 hc with hc | hc
    · exact asked hprepares c hc
    · obtain ⟨s, -, hc⟩ := List.mem_flatMap.1 hc
      exact forwards (((s.inspected ws host).2.owns_of_started hc).environment hws)

/-- **An audit takes notice of nothing in its environment but what it heeds**: under environments
that agree on that it has the same settings, gives its programs the same, and every run starts the
same commands and ends alike.  In no run, whatever the settings, is a program given anything but
the variables on the allow-list that are set. -/
theorem run_confined {known : Option Workspace} (hsame : Settings.SameHeeded env env')
    (hknown : ∀ ws, known = some ws →
      ∃ host' v v', Workspace.prepare settings env host' v = (.ok ws, v'))
    (call : Call) (host : Host) (w : World) :
    Settings.ofEnvironment env = Settings.ofEnvironment env' ∧
      (Settings.ofEnvironment env).processEnvironment env
        = (Settings.ofEnvironment env').processEnvironment env' ∧
      (∀ known', call.run (.ofEnvironment env) env known' host w
        = call.run (.ofEnvironment env') env' known' host w) ∧
      ∃ es, (call.run settings env known host w).2.deeds = w.deeds ++ es ∧
        ∀ c, Event.started c ∈ es → settings.Forwards env c.environment := by
  have hsettings := Settings.ofEnvironment_congr hsame
  have hgiven := Settings.processEnvironment_ofEnvironment hsame
  refine ⟨hsettings, hgiven, fun known' => ?_, ?_⟩
  · have hready :
        ready (.ofEnvironment env) env known' = ready (.ofEnvironment env') env' known' := by
      cases known' with
      | some ws => rfl
      | none =>
        rw [← hsettings] at hgiven ⊢
        exact Workspace.prepare_congr hgiven
    rw [run, run, hready]
  · refine call.started_forwards (fun ws hws => ?_) host w
    obtain ⟨_, _, _, hprepare⟩ := hknown ws hws
    exact (Workspace.prepare_ok hprepare).1

end Call

/-- An environment that asks for one variable twice, among blanks, and for one that is not set. -/
def Environment.blotted (token : String) : Environment :=
  [("HOME", "/home/a"), ("DEP_INSPECTOR_FORWARD_ENV", " GOPROXY ,, GOPROXY,GOFLAGS"),
   ("GOPROXY", "direct"), ("TOKEN", token)]

/-- A variable that nobody asks for has another value. -/
theorem Call.run_confined_blotted :
    Settings.SameHeeded (Environment.blotted "t") (Environment.blotted "u") ∧
      ∀ known, (Call.inspect "d" "v1").run (Settings.ofEnvironment (Environment.blotted "t"))
          (Environment.blotted "t") known Host.ruinous (World.ofFiles FileTree.emptyModule)
        = (Call.inspect "d" "v1").run (Settings.ofEnvironment (Environment.blotted "u"))
          (Environment.blotted "u") known Host.ruinous (World.ofFiles FileTree.emptyModule) := by
  have unheeded : ¬ Settings.Heeds (Environment.blotted "t") "TOKEN" := by
    rintro (h | h | h)
    · exact absurd h (by decide)
    · exact absurd h (by decide)
    · exact absurd h (by decide +kernel)
  have hsame : Settings.SameHeeded (Environment.blotted "t") (Environment.blotted "u") :=
    Settings.sameHeeded_set unheeded "u"
  have confined := @run_confined .standard _ _ none hsame (fun _ h => nomatch h) (.inspect "d" "v1")
    Host.ruinous (World.ofFiles FileTree.emptyModule)
  exact ⟨hsame, confined.2.2.1⟩

end UpgradeAudit
