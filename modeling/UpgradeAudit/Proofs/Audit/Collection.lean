/-
# What an inspection collects

An inspection that reaches its analyzers carries all three through to their ends, in whatever
order they come, and makes one answer of the three outcomes: every finding when nothing failed,
and no finding but the cause of every failure otherwise.  Findings are not lost, and neither are
causes; both stand in a fixed order, and what went wrong when the manifest was put back stands
last (`Workspace.inspect_collects`).

The one thing that goes before all else is a cancellation, which is passed on as it is.
-/
import UpgradeAudit.Proofs.Audit.Containment
import UpgradeAudit.Proofs.Sorting

namespace UpgradeAudit

variable {α : Type} {host : Host} {w : World} {dep version : String}

/-! ## 1. Totals of findings -/

/-- Totals that count some capabilities and issues. -/
structure Totals.Count (totals : Totals) (capabilities : List Capability) (issues : List Issue) :
    Prop where
  capabilityTotal : totals.capabilityTotal = capabilities.length
  capabilities (c : String) : Counts.count c totals.capabilities
    = (capabilities.map Capability.category).count c
  issueTotal : totals.issueTotal = issues.length
  issues (c : String) : Counts.count c totals.issues = (issues.map Issue.category).count c

theorem Totals.count_ofFindings (capabilities : List Capability) (issues : List Issue) :
    (Totals.ofFindings capabilities issues).Count capabilities issues :=
  ⟨rfl, Counts.count_ofCategories _, rfl, Counts.count_ofCategories _⟩

/-! ## 2. Reaching the analyzers -/

namespace Workspace

variable {ws : Workspace} {pinned : Snapshot} {target : Target} {v : World}

/-- An inspection that reaches its analyzers: what was pinned, what the analyzers look at, and the
world in which they are called. -/
def Reaches (ws : Workspace) (dep version : String) (host : Host) (w : World) (pinned : Snapshot)
    (target : Target) (v : World) : Prop :=
  ∃ w₁ b w₂, ws.announce dep version host w = (.ok (), w₁) ∧
    Backup.take ws.manifest host w₁ = (.ok b, w₂) ∧
    ws.approach dep version host w₂ = (.ok (pinned, target), v)

theorem examine_of_approach {w₂ : World}
    (h : ws.approach dep version host w₂ = (.ok (pinned, target), v)) :
    ws.examine dep version host w₂
      = (((ws.analyzers.analyze target host v).1).map fun found => (pinned, found),
          (ws.analyzers.analyze target host v).2) := by
  rw [examine_eq, Action.bind_of_ok h]
  rcases hanalyzed : ws.analyzers.analyze target host v with ⟨f | found, u⟩
  · exact Action.bind_of_error hanalyzed _
  · exact Action.bind_of_ok hanalyzed _

/-! ## 3. Collecting -/

/-- What an inspection makes of the outcomes of its analyzers, `restores` being what went wrong when
the manifest was put back. -/
structure Collected (dep version : String) (pinned : Snapshot) (c : Except Failure CapabilityReport)
    (g s : Except Failure (List Issue)) (restores : List Cause)
    (outcome : Except Failure (Inspection × Snapshot)) : Prop where
  /-- When nothing failed, all that was found is there and is counted. -/
  found {report : CapabilityReport} {gi si : List Issue} (hc : c = .ok report) (hg : g = .ok gi)
    (hs : s = .ok si) (hrestored : restores = []) :
    ∃ i, outcome = .ok (i, pinned) ∧ i.dep = dep ∧ i.version = version ∧
      i.capabilities = report.capabilities ∧ i.modules = report.modules ∧
      StableSort Issue.order (gi ++ si) i.issues ∧ i.totals.Count i.capabilities i.issues
  unrestored {report : CapabilityReport} {gi si : List Issue} (hc : c = .ok report)
    (hg : g = .ok gi) (hs : s = .ok si) (hbroken : restores ≠ []) :
    ∃ f, outcome = .error f ∧ f.causes = restores
  /-- Every analyzer that fails does so for one cause. -/
  single {e : Failure} (h : c = .error e ∨ g = .error e ∨ s = .error e) :
    ∃ cause, e = .ofCause cause
  /-- When an analyzer failed, the causes are those of the analyzers, in their order. -/
  failed (h : ∃ e, c = .error e ∨ g = .error e ∨ s = .error e)
    (goes : ∀ e, c = .error e ∨ g = .error e ∨ s = .error e → e.isCancellation = false) :
    ∃ f, outcome = .error f ∧
      f.causes = FanIn.causes c ++ FanIn.causes g ++ FanIn.causes s ++ restores

end Workspace

namespace Analyzers

variable {c : Except Failure CapabilityReport} {g s : Except Failure (List Issue)} {f : Failure}

/-- What both linters come to has the causes of both, when neither was cancelled. -/
theorem causes_issuesOf (hg : .cancelled ∉ FanIn.causes g) (hs : .cancelled ∉ FanIn.causes s) :
    FanIn.causes (issuesOf g s) = FanIn.causes g ++ FanIn.causes s := by
  unfold issuesOf
  cases h : FanIn.both g s with
  | ok found =>
    obtain ⟨rfl, rfl⟩ := FanIn.both_eq_ok_iff.1 h
    rfl
  | error f => exact FanIn.causes_both hg hs h

/-- What all three analyzers come to, when none is cancelled: all that was found, or all causes. -/
theorem both_cases (hc : .cancelled ∉ FanIn.causes c) (hg : .cancelled ∉ FanIn.causes g)
    (hs : .cancelled ∉ FanIn.causes s) :
    (∃ report gi si, c = .ok report ∧ g = .ok gi ∧ s = .ok si ∧
        FanIn.both c (issuesOf g s) = .ok (report, Issue.sort (gi ++ si))) ∨
      ∃ f, FanIn.both c (issuesOf g s) = .error f ∧ f.isCancellation = false ∧
        f.causes = FanIn.causes c ++ FanIn.causes g ++ FanIn.causes s := by
  have linters := causes_issuesOf hg hs
  cases h : FanIn.both c (issuesOf g s) with
  | ok found =>
    obtain ⟨report, issues⟩ := found
    obtain ⟨rfl, hissues⟩ := FanIn.both_eq_ok_iff.1 h
    unfold issuesOf at hissues
    cases hboth : FanIn.both g s with
    | error f =>
      rw [hboth] at hissues
      cases hissues
    | ok found =>
      obtain ⟨gi, si⟩ := found
      rw [hboth] at hissues
      obtain rfl := Except.ok.inj hissues
      obtain ⟨rfl, rfl⟩ := FanIn.both_eq_ok_iff.1 hboth
      exact Or.inl ⟨report, gi, si, rfl, rfl, rfl, rfl⟩
  | error f =>
    have hcauses : f.causes = FanIn.causes c ++ FanIn.causes g ++ FanIn.causes s := by
      have hlint : .cancelled ∉ FanIn.causes (issuesOf g s) := by
        rw [linters, List.mem_append, not_or]
        exact ⟨hg, hs⟩
      rw [FanIn.causes_both hc hlint h, linters, List.append_assoc]
    refine Or.inr ⟨f, rfl, Bool.eq_false_iff.2 fun hcancelled => ?_, hcauses⟩
    have hmem := Failure.cancelled_mem_causes hcancelled
    rw [hcauses, List.mem_append, List.mem_append] at hmem
    rcases hmem with (hmem | hmem) | hmem
    · exact hc hmem
    · exact hg hmem
    · exact hs hmem

/-- An analyzer that failed for one cause and was not cancelled has no cancellation among its
causes. -/
theorem not_cancelled {r : Except Failure α} (single : ∀ e, r = .error e → ∃ x, e = .ofCause x)
    (goes : ∀ e, r = .error e → e.isCancellation = false) : .cancelled ∉ FanIn.causes r := by
  intro hmem
  obtain ⟨e, rfl, hmem⟩ := FanIn.mem_causes hmem
  obtain ⟨x, rfl⟩ := single e rfl
  obtain rfl := List.mem_singleton.1 hmem
  cases goes _ rfl

end Analyzers

namespace Workspace

variable {ws : Workspace} {pinned : Snapshot} {target : Target} {v : World}
  {c : Except Failure CapabilityReport} {g s : Except Failure (List Issue)}

/-- The inspection that is made of what was found counts it all. -/
theorem concluded_found (dep version : String) (pinned : Snapshot) (report : CapabilityReport)
    (gi si : List Issue) :
    ∃ i, concluded dep version (pinned, report, Issue.sort (gi ++ si)) = (i, pinned) ∧
      i.dep = dep ∧ i.version = version ∧ i.capabilities = report.capabilities ∧
      i.modules = report.modules ∧ StableSort Issue.order (gi ++ si) i.issues ∧
      i.totals.Count i.capabilities i.issues :=
  ⟨_, rfl, rfl, rfl, rfl, rfl, Issue.stableSort _, Totals.count_ofFindings _ _⟩

/-- What an inspection comes to after its analyzers ended, whether the manifest was put back or
not. -/
theorem collected {found : Except Failure Findings} {restores : List Cause}
    {outcome : Except Failure (Inspection × Snapshot)}
    (single : ∀ e, c = .error e ∨ g = .error e ∨ s = .error e → ∃ cause, e = .ofCause cause)
    (hfound : found = (FanIn.both c (Analyzers.issuesOf g s)).map fun found => (pinned, found))
    (houtcome : restores = [] ∧
        outcome = (found.mapError (inContext dep version)).map (concluded dep version) ∨
      restores ≠ [] ∧ ∃ lost : Failure, lost.causes = restores ∧
        outcome = .error (inContext dep version (Backup.combined found lost))) :
    Collected dep version pinned c g s restores outcome where
  found := by
    rintro report gi si rfl rfl rfl hrestored
    obtain ⟨-, rfl⟩ := houtcome.resolve_right fun h => h.1 hrestored
    obtain ⟨i, hi, hcounted⟩ := concluded_found dep version pinned report gi si
    subst hfound
    exact ⟨i, congrArg Except.ok hi, hcounted⟩
  unrestored := by
    rintro report gi si rfl rfl rfl hbroken
    obtain ⟨-, lost, hlost, rfl⟩ := houtcome.resolve_left fun h => hbroken h.1
    subst hfound
    exact ⟨_, rfl, (Failure.causes_inContext lost).trans hlost⟩
  single h := single _ h
  failed := by
    rintro ⟨e, he⟩ goes
    rcases Analyzers.both_cases
        (Analyzers.not_cancelled (fun e h => single e (.inl h)) fun e h => goes e (.inl h))
        (Analyzers.not_cancelled (fun e h => single e (.inr (.inl h)))
          fun e h => goes e (.inr (.inl h)))
        (Analyzers.not_cancelled (fun e h => single e (.inr (.inr h)))
          fun e h => goes e (.inr (.inr h))) with
      ⟨report, gi, si, rfl, rfl, rfl, -⟩ | ⟨f, hboth, hgoes, hcauses⟩
    · rcases he with he | he | he <;> cases he
    rw [hboth] at hfound
    subst hfound
    rcases houtcome with ⟨rfl, rfl⟩ | ⟨-, lost, rfl, rfl⟩
    · refine ⟨_, rfl, ?_⟩
      rw [Failure.causes_inContext, hcauses, List.append_nil]
    · refine ⟨_, rfl, ?_⟩
      rw [Failure.causes_inContext, Except.map, Backup.causes_combined hgoes, hcauses]

end Workspace

/-- An inspection that reaches its analyzers in a world `v` carries all three through to an end of
their own, puts the manifest back, and collects what came of the three. -/
def Workspace.Collects (ws : Workspace) (dep version : String) (host : Host) (w : World)
    (pinned : Snapshot) (target : Target) (v : World) : Prop :=
  ∃ c g s u, ws.analyzers.analyze target host v = (FanIn.both c (Analyzers.issuesOf g s), u) ∧
    ws.analyzers.CapslockEnds target host v.started.length u.deeds u.files c ∧
    ws.analyzers.GolangciLintEnds target host v.started.length u.deeds u.files g ∧
    ws.analyzers.StaticcheckEnds target host v.started.length u.deeds u.files s ∧
    ∃ directory missed restores,
      (ws.inspectPinned dep version host w).2.deeds
        = u.deeds ++ [.restored directory missed, .closed directory] ∧
      (restores = [] ↔ missed = []) ∧
      (∀ cause ∈ restores, ∃ path reason, cause = .restore path reason) ∧
      Collected dep version pinned c g s restores (ws.inspectPinned dep version host w).1

/-- **An inspection that reaches its analyzers collects all that was found, or all that failed**,
in whatever way and in whatever order the analyzers end. -/
theorem Workspace.inspect_collects {ws : Workspace} {pinned : Snapshot} {target : Target}
    {v : World} (h : ws.Reaches dep version host w pinned target v) (hdirs : target.dirs ≠ []) :
    ws.Collects dep version host w pinned target v := by
  obtain ⟨w₁, b, w₂, hannounced, htaken, happroach⟩ := h
  obtain ⟨c, g, s, hanalyzed, hc, hg, hs⟩ := Analyzers.analyze_ends ws.analyzers target host v hdirs
  have single (e : Failure) (h : c = .error e ∨ g = .error e ∨ s = .error e) :
      ∃ cause, e = .ofCause cause := by
    rcases h with rfl | rfl | rfl
    · exact hc.capslock_cause.imp fun _ => And.left
    · exact hg.golangciLint_cause.imp fun _ => And.left
    · exact hs.staticcheck_cause.imp fun _ => And.left
  refine ⟨c, g, s, (ws.analyzers.analyze target host v).2, Prod.ext hanalyzed rfl, hc, hg, hs, ?_⟩
  obtain ⟨hafter, houtcome⟩ := inspectPinned_of_announced Action.within_logs hannounced
  obtain ⟨missed, concluded⟩ :=
    (transacted ws.manifest (fun _ => ws.examine dep version) host w₁).concluded htaken
  simp only [examine_of_approach happroach, hanalyzed] at concluded
  have hdeeds := hafter.1.trans concluded.deeds
  rcases concluded.outcome with ⟨rfl, hr⟩ | ⟨hne, lost, hr, hnames, hrestores⟩
  · refine ⟨b.directory, [], [], hdeeds, by simp, by simp, ?_⟩
    exact collected single rfl (.inl ⟨rfl, houtcome.trans (by rw [hr])⟩)
  · have hlost : lost.causes ≠ [] := by
      obtain ⟨path, hpath⟩ := List.exists_mem_of_ne_nil missed hne
      obtain ⟨reason, hmem⟩ := hnames path hpath
      exact List.ne_nil_of_mem hmem
    refine ⟨b.directory, missed, lost.causes, hdeeds, iff_of_false hlost hne, hrestores, ?_⟩
    exact collected single rfl (.inr ⟨hlost, lost, rfl, houtcome.trans (by rw [hr]; rfl)⟩)

/-- A host on which a module can be pinned and its one package listed, and on which capslock and
staticcheck fail. -/
def Host.failing : Host := .quiet fun t c =>
  match c.argv with
  | _ :: "get" :: _ => .answering 0 ""
      ⟨[(["go.mod"], .file (Text.Utf8.encode "module m\nrequire d v1\n")), (["go.sum"], .file [])],
        none⟩
  | _ :: "list" :: _ => .answering 0
      "\x7b\"ImportPath\":\"d/p\",\"Dir\":\"p\",\"Module\":\x7b\"Path\":\"d\"\x7d\x7d" t
  | "golangci-lint" :: _ => .answering 0 "\x7b\x7d" t
  | _ => .answering 2 "" t

/-- A module that requires nothing, ready to be audited. -/
def Workspace.little : Workspace where
  settings := .standard
  runner := Settings.standard.runner []
  analyzers := Settings.standard.analyzers []
  moduleCache := "/cache"
  modulePath := "m"
  manifest := ⟨.ofText "go.mod", .ofText "go.sum"⟩
  baseline := ⟨⟨.ofText "go.mod", .ofText "go.sum"⟩, Text.Utf8.encode "module m\n", []⟩

theorem eq_ok_of_toOption {r : Except Failure α × World} {a : α} (h : r.1.toOption = some a) :
    r = (.ok a, r.2) := by
  obtain ⟨f | b, w⟩ := r
  · cases h
  · obtain rfl := Option.some.inj h
    rfl

/-- An inspection in which two of the three analyzers fail. -/
theorem Workspace.inspect_collects_failing :
    ∃ pinned target v, Workspace.little.Reaches "d" "v1" .failing (.ofFiles .emptyModule) pinned
        target v ∧ target.dirs ≠ [] ∧
      Workspace.little.Collects "d" "v1" .failing (.ofFiles .emptyModule) pinned target v := by
  have hannounced : (Workspace.little.announce "d" "v1" .failing (.ofFiles .emptyModule)).1.toOption
      = some () := by decide +kernel
  obtain ⟨b, hb⟩ := Option.isSome_iff_exists.1 (by decide +kernel :
    (Backup.take Workspace.little.manifest .failing
      (Workspace.little.announce "d" "v1" .failing (.ofFiles .emptyModule)).2).1.toOption.isSome)
  have hdirs : ((Workspace.little.approach "d" "v1" .failing
      (Backup.take Workspace.little.manifest .failing
        (Workspace.little.announce "d" "v1" .failing
          (.ofFiles .emptyModule)).2).2).1.toOption.map fun reached => reached.2.dirs)
        = some ["p"] := by decide +kernel
  obtain ⟨⟨pinned, target⟩, hreached, hp⟩ := Option.map_eq_some_iff.1 hdirs
  have hne : target.dirs ≠ [] := by
    rw [show target.dirs = ["p"] from hp]
    exact List.cons_ne_nil _ _
  have reaches :
      Workspace.little.Reaches "d" "v1" .failing (.ofFiles .emptyModule) pinned target _ :=
    ⟨_, b, _, eq_ok_of_toOption hannounced, eq_ok_of_toOption hb, eq_ok_of_toOption hreached⟩
  exact ⟨pinned, target, _, reaches, hne, inspect_collects reaches hne⟩

end UpgradeAudit
