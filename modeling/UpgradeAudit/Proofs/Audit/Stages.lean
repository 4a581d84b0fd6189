/-
# The stages of an inspection

Inside its transaction an inspection pins the version, reads the manifest back, lists the
packages and calls the analyzers, and each stage is the last one when it does not succeed
(`Examined`).  `Gate` says what has been done and answered when the analyzers are called: the
version was fetched and, when the module uses the dependency, the module tidied; the manifest
read back requires exactly this version; the listing could be decoded and gave a scope.  An
examination is its approach to the gate and then its analysis (`examine_eq`), and the approach
either passes the gate or is all there is of the examination (`approached`).
-/
import UpgradeAudit.Audit.Workspace
import UpgradeAudit.Proofs.Audit.Analyses
import UpgradeAudit.Proofs.Manifest.Transactions

namespace UpgradeAudit

variable {host : Host} {w w' : World} {dep version : String}

namespace Workspace

variable {ws : Workspace}

/-! ## 1. Commands of the build tool -/

/-- The build tool called with words, in the directory of the module. -/
def building (ws : Workspace) (words : List String) : Command :=
  ws.runner.command (ws.settings.buildTool :: words) none none

/-- Lists the packages that may be in scope. -/
def listing (ws : Workspace) (dep : String) : Command :=
  ws.building (["list", "-deps", "-json"] ++ patterns dep (ws.scopeMode dep))

/-- The commands by which a version is pinned. -/
inductive Pins (ws : Workspace) (dep version : String) : Command → Prop
  | fetch (h : ws.isUnused dep = false) :
      ws.Pins dep version (ws.building ["get", ModulePath.versioned dep version])
  | fetchAll (h : ws.isUnused dep = true) :
      ws.Pins dep version (ws.building ["get", ModulePath.versioned (dep ++ "/...") version])
  | tidy (h : ws.isUnused dep = false) : ws.Pins dep version (ws.building ["mod", "tidy"])

/-! ## 2. Pinning -/

/-- The steps by which a version was pinned after `n` commands, and how many there are then. -/
inductive Pinned (ws : Workspace) (dep version : String) (n : Nat) : List Event → Nat → Prop
  | used (h : ws.isUnused dep = false) (fetched tidied : Bytes) :
      ws.Pinned dep version n
        (Runner.succeeded (ws.building ["get", ModulePath.versioned dep version]) n fetched
          ++ Runner.succeeded (ws.building ["mod", "tidy"]) (n + 1) tidied)
        (n + 2)
  | unused (h : ws.isUnused dep = true) (fetched : Bytes) :
      ws.Pinned dep version n
        (Runner.succeeded (ws.building ["get", ModulePath.versioned (dep ++ "/...") version]) n
          fetched)
        (n + 1)

theorem within_pin (ws : Workspace) (dep version : String) :
    Action.Within host (.deeds (Event.IsStepOf (ws.Pins dep version))) (ws.pin dep version) := by
  unfold pin
  cases hunused : ws.isUnused dep with
  | true =>
    refine Action.within_bind (Action.within_onCommandFailure (Runner.within_run ?_)) fun _ => ?_
    · exact .fetchAll hunused
    · exact Action.within_pure _
  | false =>
    refine Action.within_bind (Action.within_onCommandFailure (Runner.within_run ?_)) fun _ => ?_
    · exact .fetch hunused
    · refine Action.within_bind (Action.within_onCommandFailure (Runner.within_run ?_)) fun _ => ?_
      · exact .tidy hunused
      · exact Action.within_pure _

/-- **A version is pinned by fetching it and, when it is used, by tidying the module.** -/
theorem pin_ok (h : ws.pin dep version host w = (.ok (), w')) :
    ∃ es, w'.deeds = w.deeds ++ es ∧
      ws.Pinned dep version w.started.length es w'.started.length := by
  unfold pin at h
  cases hunused : ws.isUnused dep with
  | true =>
    simp only [hunused] at h
    obtain ⟨fetched, v, hfetch, h⟩ := Action.bind_ok h
    obtain rfl : v = w' := congrArg Prod.snd h
    have hdeeds := Runner.run_ok (Action.mapFailure_ok hfetch)
    refine ⟨_, hdeeds, ?_⟩
    rw [World.length_started hdeeds]
    exact .unused hunused _
  | false =>
    simp only [hunused] at h
    obtain ⟨fetched, v, hfetch, h⟩ := Action.bind_ok h
    obtain ⟨tidied, v', htidy, h⟩ := Action.bind_ok h
    obtain rfl : v' = w' := congrArg Prod.snd h
    have hdeeds := Runner.run_ok (Action.mapFailure_ok hfetch)
    have hdeeds' := Runner.run_ok (Action.mapFailure_ok htidy)
    have hlength : v.started.length = w.started.length + 1 := World.length_started hdeeds
    rw [hlength, hdeeds, List.append_assoc] at hdeeds'
    refine ⟨_, hdeeds', ?_⟩
    rw [World.length_started hdeeds']
    exact .used hunused _ _

/-! ## 3. Listing -/

theorem within_list (ws : Workspace) (dep : String) :
    Action.Within host (.deeds (Event.IsStepOf (· = ws.listing dep)))
      (PackageGraph.list ws.runner ws.settings.buildTool (patterns dep (ws.scopeMode dep))) := by
  refine Action.within_bind (Runner.within_run rfl) fun result =>
    Action.within_bind Action.within_room.deeds_of_aside fun room => ?_
  split
  · exact Action.within_pure _
  · exact Action.within_fail _

theorem list_ok {graph : PackageGraph}
    (h : PackageGraph.list ws.runner ws.settings.buildTool (patterns dep (ws.scopeMode dep)) host w
      = (.ok graph, w')) :
    ∃ out room, w'.deeds
        = w.deeds ++ Runner.succeeded (ws.listing dep) w.started.length out ∧
      Package.ofListing (Text.Utf8.decodeLossy out) room = .ok graph := by
  obtain ⟨result, v, hrun, h⟩ := Action.bind_ok h
  have hdeeds := Runner.run_ok hrun
  rw [Action.bind_of_ok (Action.room_run host v)] at h
  cases hg : Package.ofListing result.text (host.nesting v.clock) with
  | error fault =>
    rw [hg] at h
    cases h
  | ok g =>
    rw [hg] at h
    cases h
    exact ⟨result.stdout, _, hdeeds, hg⟩

/-! ## 4. The gate before the analyzers -/

/-- The version that a manifest with these contents requires of a dependency. -/
def resolved (ws : Workspace) (contents : ManifestContents) (dep : String) : Option String :=
  Snapshot.versionOf? ⟨ws.manifest, contents⟩ dep

/-- What the analyzers look at when a listing gave a graph and a scope. -/
def target (ws : Workspace) (dep version : String) (graph : PackageGraph) (scope : List String) :
    Target where
  dep := dep
  version := version
  scope := scope
  dirs := PackageGraph.dirs dep graph
  moduleCache := ws.moduleCache
  workDir := ws.workDir

/-- The steps that were taken after `n` commands, all with success, when the analyzers are called
on a target. -/
inductive Gate (ws : Workspace) (dep version : String) (n : Nat) : List Event → Target → Prop
  | passed {pins : List Event} {m : Nat} {contents : ManifestContents} {out : Bytes} {room : Nat}
      {graph : PackageGraph} {scope : List String}
      (pinned : ws.Pinned dep version n pins m)
      (exact : ws.resolved contents dep = some version)
      (listed : Package.ofListing (Text.Utf8.decodeLossy out) room = .ok graph)
      (chosen : PackageGraph.scope dep graph (ws.scopeMode dep) (some ws.modulePath) = .ok scope) :
      ws.Gate dep version n
        (pins ++ .read contents :: Runner.succeeded (ws.listing dep) m out)
        (ws.target dep version graph scope)

/-- How far an examination comes, what is done in it, and what comes of it. -/
inductive Examined (ws : Workspace) (dep version : String) (n : Nat) {α : Type} :
    List Event → Except Failure α → Prop
  /-- The version was not pinned, or the manifest could not be read back. -/
  | unpinned {es : List Event} {f : Failure} (steps : ∀ e ∈ es, e.IsStepOf (ws.Pins dep version)) :
      ws.Examined dep version n es (.error f)
  /-- The manifest requires something else. -/
  | mismatched {pins : List Event} {m : Nat} {contents : ManifestContents}
      (pinned : ws.Pinned dep version n pins m)
      (mismatch : ws.resolved contents dep ≠ some version) :
      ws.Examined dep version n (pins ++ [.read contents])
        (.error (.ofCause (.versionMismatch dep version (ws.resolved contents dep))))
  /-- The packages could not be listed, or are in no scope. -/
  | unscoped {pins es : List Event} {m : Nat} {contents : ManifestContents} {f : Failure}
      (pinned : ws.Pinned dep version n pins m)
      (exact : ws.resolved contents dep = some version)
      (steps : ∀ e ∈ es, e.IsStepOf (· = ws.listing dep)) :
      ws.Examined dep version n (pins ++ .read contents :: es) (.error f)
  /-- The analyzers were called. -/
  | analyzed {gate es : List Event} {target : Target} {r : Except Failure α}
      (passed : ws.Gate dep version n gate target)
      (steps : ∀ e ∈ es, e.IsStepOf (ws.analyzers.Calls target)) :
      ws.Examined dep version n (gate ++ es) r

/-- The commands that belong to one version of a dependency. -/
inductive Owns (ws : Workspace) (dep version : String) : Command → Prop
  | pin {c : Command} (h : ws.Pins dep version c) : ws.Owns dep version c
  | list : ws.Owns dep version (ws.listing dep)
  | analyze {c : Command} (graph : PackageGraph) (scope : List String)
      (h : ws.analyzers.Calls (ws.target dep version graph scope) c) : ws.Owns dep version c

/-- A step of an examination: of a command that belongs to the version, or a look at the
manifest. -/
def IsOwnStep (ws : Workspace) (dep version : String) (e : Event) : Prop :=
  e.IsStepOf (ws.Owns dep version) ∨ ∃ contents, e = .read contents

theorem isStepOf_of_pinned {n m : Nat} {pins : List Event} (h : ws.Pinned dep version n pins m) :
    ∀ e ∈ pins, e.IsStepOf (ws.Pins dep version) := by
  intro e he
  cases h with
  | used h =>
    rcases List.mem_append.1 he with he | he
    · exact Runner.isStepOf_of_mem_succeeded (.fetch h) he
    · exact Runner.isStepOf_of_mem_succeeded (.tidy h) he
  | unused h => exact Runner.isStepOf_of_mem_succeeded (.fetchAll h) he

/-- Before the gate only the build tool is called, to pin the version and to list packages. -/
theorem isStepOf_of_gate {n : Nat} {gate : List Event} {target : Target}
    (h : ws.Gate dep version n gate target) :
    ∀ e ∈ gate, e.IsStepOf (fun c => ws.Pins dep version c ∨ c = ws.listing dep) ∨
      ∃ contents, e = .read contents := by
  intro e he
  cases h with
  | passed pinned =>
    rcases List.mem_append.1 he with he | he
    · exact Or.inl ((isStepOf_of_pinned pinned e he).mono fun _ => Or.inl)
    · rcases List.mem_cons.1 he with rfl | he
      · exact Or.inr ⟨_, rfl⟩
      · exact Or.inl (Runner.isStepOf_of_mem_succeeded (Or.inr rfl) he)

/-- **All that an examination does belongs to its version.** -/
theorem Examined.isOwnStep {α : Type} {n : Nat} {es : List Event} {r : Except Failure α}
    (h : ws.Examined dep version n es r) : ∀ e ∈ es, ws.IsOwnStep dep version e := by
  intro e he
  cases h with
  | unpinned steps => exact Or.inl ((steps e he).mono fun _ => .pin)
  | mismatched pinned =>
    rcases List.mem_append.1 he with he | he
    · exact Or.inl ((isStepOf_of_pinned pinned e he).mono fun _ => .pin)
    · exact Or.inr ⟨_, List.mem_singleton.1 he⟩
  | unscoped pinned exact steps =>
    rcases List.mem_append.1 he with he | he
    · exact Or.inl ((isStepOf_of_pinned pinned e he).mono fun _ => .pin)
    · rcases List.mem_cons.1 he with rfl | he
      · exact Or.inr ⟨_, rfl⟩
      · exact Or.inl ((steps e he).mono fun c hc => hc ▸ .list)
  | analyzed passed steps =>
    rcases List.mem_append.1 he with hgate | hrest
    · refine (isStepOf_of_gate passed e hgate).imp (fun h => h.mono ?_) id
      rintro c (hc | rfl)
      · exact .pin hc
      · exact .list
    · cases passed
      exact Or.inl ((steps e hrest).mono fun c hc => .analyze _ _ hc)

/-! ## 5. Up to the gate -/

/-- The work of an inspection before the analyzers are called. -/
def approach (ws : Workspace) (dep version : String) : Action (Snapshot × Target) := do
  let mode := ws.scopeMode dep
  let pinned ← ws.manifest.mutate (ws.pin dep version)
  Action.ofCauses (checkPinned pinned.requirements dep version)
  let graph ← PackageGraph.list ws.runner ws.settings.buildTool (patterns dep mode)
  let scope ← Action.ofCauses (PackageGraph.scope dep graph mode (some ws.modulePath))
  return (pinned, ws.target dep version graph scope)

/-- An examination is its approach and then its analysis. -/
theorem examine_eq (ws : Workspace) (dep version : String) :
    ws.examine dep version = ws.approach dep version >>= fun found =>
      ws.analyzers.analyze found.2 >>= fun findings => pure (found.1, findings) := by
  simp only [approach, Action.bind_assoc]
  rfl

/-- The version is pinned and the manifest is read back, or there are only steps to pin it. -/
theorem mutate_pin (ws : Workspace) (dep version : String) (host : Host) (w : World) :
    (∃ es f w', ws.manifest.mutate (ws.pin dep version) host w = (.error f, w') ∧
        w'.deeds = w.deeds ++ es ∧ ∀ e ∈ es, e.IsStepOf (ws.Pins dep version)) ∨
      ∃ pins s w', ws.manifest.mutate (ws.pin dep version) host w = (.ok s, w') ∧
        w'.deeds = w.deeds ++ (pins ++ [.read s.contents]) ∧
        ws.Pinned dep version w.started.length pins w'.started.length ∧
        s.files = ws.manifest := by
  unfold ManifestFiles.mutate
  rcases hpin : ws.pin dep version host w with ⟨f | ⟨⟩, w₁⟩
  · obtain ⟨es, hdeeds, hsteps⟩ := (within_pin ws dep version).rel_of_eq hpin
    exact Or.inl ⟨es, f, w₁, Action.bind_of_error hpin _, hdeeds, hsteps⟩
  rw [Action.bind_of_ok hpin]
  rcases hread : Snapshot.read ws.manifest host w₁ with ⟨f | s, w₂⟩
  · obtain ⟨es, hdeeds, hsteps⟩ := (within_pin ws dep version).rel_of_eq hpin
    have hunread := Frame.aside.deeds_eq (Snapshot.read_error hread)
    exact Or.inl ⟨es, f, w₂, rfl, hunread.trans hdeeds, hsteps⟩
  · obtain ⟨pins, hpins, hpinned⟩ := pin_ok hpin
    obtain ⟨hfiles, -, -, -, hreads⟩ := Snapshot.read_ok hread
    refine Or.inr ⟨pins, s, w₂, rfl, ?_, ?_, hfiles⟩
    · rw [hreads, hpins, List.append_assoc]
    · rwa [World.length_started hreads]

/-- What is done before the analyzers are called: all of the gate, or as much of it as there is of
an examination that ends before them. -/
theorem approached (ws : Workspace) (dep version : String) (host : Host) (w : World) :
    ∃ es, (ws.approach dep version host w).2.deeds = w.deeds ++ es ∧
      ((∃ f, (ws.approach dep version host w).1 = .error f ∧
          ∀ α, ws.Examined dep version w.started.length es (.error f : Except Failure α)) ∨
        ∃ found, (ws.approach dep version host w).1 = .ok found ∧
          ws.Gate dep version w.started.length es found.2) := by
  unfold approach
  rcases ws.mutate_pin dep version host w with
    ⟨es, f, w₁, hfailed, hdeeds, hsteps⟩ | ⟨pins, s, w₁, hread, hpins, hpinned, hfiles⟩
  · rw [Action.bind_of_error hfailed]
    exact ⟨es, hdeeds, Or.inl ⟨f, rfl, fun _ => .unpinned hsteps⟩⟩
  have hresolved : ws.resolved s.contents dep = Table.get? dep s.requirements := by
    rw [resolved, ← hfiles]
    rfl
  rw [Action.bind_of_ok hread]
  by_cases hexact : Table.get? dep s.requirements = some version
  · have hcheck : checkPinned s.requirements dep version = .ok () := if_pos hexact
    have hsome := hresolved.trans hexact
    rw [hcheck, Action.bind_of_ok (x := Action.ofCauses (.ok ())) rfl]
    rcases hlist : PackageGraph.list ws.runner ws.settings.buildTool
      (patterns dep (ws.scopeMode dep)) host w₁ with ⟨f | graph, w₂⟩
    · obtain ⟨es, hdeeds, hsteps⟩ := (within_list ws dep).rel_of_eq hlist
      rw [Action.bind_of_error hlist]
      refine ⟨pins ++ .read s.contents :: es, ?_, Or.inl ⟨f, rfl, fun _ => .unscoped hpinned hsome
        hsteps⟩⟩
      simp only [hdeeds, hpins, List.append_assoc, List.cons_append, List.nil_append]
    obtain ⟨out, room, hout, hlisted⟩ := list_ok hlist
    rw [Action.bind_of_ok hlist]
    have hdeeds : w₂.deeds = w.deeds ++ (pins ++ .read s.contents
        :: Runner.succeeded (ws.listing dep) w₁.started.length out) := by
      simp only [hout, hpins, List.append_assoc, List.cons_append, List.nil_append]
    cases hscope : PackageGraph.scope dep graph (ws.scopeMode dep) (some ws.modulePath) with
    | error cause =>
      exact ⟨_, hdeeds, Or.inl ⟨_, rfl, fun _ => .unscoped hpinned hsome fun e he =>
        Runner.isStepOf_of_mem_succeeded rfl he⟩⟩
    | ok scope => exact ⟨_, hdeeds, Or.inr ⟨_, rfl, .passed hpinned hsome hlisted hscope⟩⟩
  · have hcheck : checkPinned s.requirements dep version
        = .error (.versionMismatch dep version (Table.get? dep s.requirements)) := if_neg hexact
    rw [hcheck, Action.bind_of_error (x := Action.ofCauses (.error _)) rfl, ← hresolved]
    exact ⟨pins ++ [.read s.contents], hpins,
      Or.inl ⟨_, rfl, fun _ => .mismatched hpinned (hresolved ▸ hexact)⟩⟩

/-- **Every examination comes as far as one of the four ends.** -/
theorem examined (ws : Workspace) (dep version : String) (host : Host) (w : World) :
    ∃ es, (ws.examine dep version host w).2.deeds = w.deeds ++ es ∧
      ws.Examined dep version w.started.length es (ws.examine dep version host w).1 := by
  obtain ⟨es, hdeeds, ⟨f, hfailed, hends⟩ | ⟨found, hreached, hgate⟩⟩ :=
    ws.approached dep version host w
  · rw [examine_eq, Action.bind_of_error (Prod.ext hfailed rfl)]
    exact ⟨es, hdeeds, hends _⟩
  · rw [examine_eq, Action.bind_of_ok (Prod.ext hreached rfl)]
    obtain ⟨calls, hcalls, hsteps⟩ := Action.within_bind
      (Analyzers.within_analyze host ws.analyzers found.2)
      (fun r => Action.within_pure (found.1, r))
      (ws.approach dep version host w).2
    refine ⟨es ++ calls, ?_, .analyzed hgate hsteps⟩
    rw [hcalls, hdeeds, List.append_assoc]

end Workspace
end UpgradeAudit
