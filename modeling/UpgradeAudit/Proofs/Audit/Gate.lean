/-
# The gate before the analyzers

No analyzer is started before its version was pinned, checked, listed and scoped.  Whatever an
inspection does is done in its one transaction and belongs to its version, and **an analyzer is
started only when all the steps of `Workspace.Gate` were taken before it in that transaction, one
right after the other** (`Gated`).  When the manifest read back requires another version,
nothing more is started, and the failure says so, joined with what could not be put back.

The commands of the build tool are told from calls of analyzers by their second word
(`not_isAnalysis_of_word`), so this does not depend on how the programs are named.
-/
import UpgradeAudit.Proofs.Audit.Restoration

namespace UpgradeAudit

variable {α : Type} {host : Host} {w w' : World} {ws : Workspace} {dep version : String} {n : Nat}
  {es : List Event}

/-! ## 1. Calls of analyzers -/

namespace Workspace

/-- Whether a command is a call of an analyzer. -/
def IsAnalysis (ws : Workspace) (c : Command) : Prop := ∃ target, ws.analyzers.Calls target c

/-- The second words of the commands of the build tool. -/
def buildWords : List String := ["get", "mod", "list", "env"]

theorem not_isAnalysis_of_word {c : Command} {word : String} (h : c.argv[1]? = some word)
    (hword : word ∈ buildWords) : ¬ ws.IsAnalysis c := by
  rintro ⟨target, hc⟩
  cases hc with
  | capslock =>
    obtain rfl : "-packages" = word := Option.some.inj h
    revert hword
    decide
  | golangciLint =>
    obtain rfl : "run" = word := Option.some.inj h
    revert hword
    decide
  | staticcheck =>
    obtain rfl : "-checks=" ++ ws.analyzers.checks = word := Option.some.inj h
    have head : ("-checks=" ++ ws.analyzers.checks).toList.head? = some '-' := by
      simp [String.toList_append]
    have others : ∀ other ∈ buildWords, other.toList.head? ≠ some '-' := by decide
    exact others _ hword head

theorem not_isAnalysis_pins {c : Command} (h : ws.Pins dep version c) : ¬ ws.IsAnalysis c := by
  cases h <;> exact not_isAnalysis_of_word rfl (by decide)

theorem not_isAnalysis_listing : ¬ ws.IsAnalysis (ws.listing dep) :=
  not_isAnalysis_of_word rfl (by decide)

/-- No question to the build tool is a call of an analyzer. -/
theorem not_isAnalysis_asks {settings : Settings} {env : Environment} {c : Command}
    (h : settings.Asks env c) : ¬ ws.IsAnalysis c := by
  cases h <;> exact not_isAnalysis_of_word rfl (by decide)

end Workspace

/-! ## 2. What an inspection may do -/

/-- What holds of all that an inspection of a version does, when `n` commands were started before
it, and of what comes of it. -/
structure Gated (ws : Workspace) (dep version : String) (n : Nat) (es : List Event)
    (outcome : Except Failure α) : Prop where
  /-- Nothing is started, or all that is done is done in one transaction and belongs to the
  version. -/
  inside : (∀ c, Event.started c ∉ es) ∨ ∃ directory contents body missed,
    es = [.read contents, .opened directory contents] ++ body
        ++ [.restored directory missed, .closed directory] ∧
      ∀ e ∈ body, ws.IsOwnStep dep version e
  /-- Before an analyzer is started, the steps of the gate were taken in the transaction. -/
  gate : ∀ pre c post, es = pre ++ .started c :: post → ws.IsAnalysis c →
    ∃ directory contents steps target since,
      pre = [.read contents, .opened directory contents] ++ steps ++ since ∧
        ws.Gate dep version n steps target ∧ ws.analyzers.Calls target c ∧
        ∀ e ∈ since, e.IsStepOf (ws.analyzers.Calls target)
  /-- When the manifest read back requires another version, nothing more is started. -/
  mismatch : ∀ pre contents post, es = pre ++ .read contents :: post →
    (∃ directory copied, Event.opened directory copied ∈ pre) →
    ws.resolved contents dep ≠ some version →
      (∀ c, Event.started c ∉ post) ∧ ∃ f restores, outcome = .error f ∧
        f.causes = .versionMismatch dep version (ws.resolved contents dep) :: restores ∧
        ∀ c ∈ restores, ∃ path reason, c = .restore path reason

theorem Failure.causes_inContext (f : Failure) :
    (Workspace.inContext dep version f).causes = f.causes := by
  unfold Workspace.inContext
  split
  · exact causes_addNote _ f
  · rfl

namespace Workspace

variable {found : Except Failure α} {body : List Event}

/-- **In an examination an analyzer is started behind the gate.** -/
theorem Examined.gate (h : ws.Examined dep version n body found) {pre post : List Event}
    {c : Command} (hbody : body = pre ++ .started c :: post) (hc : ws.IsAnalysis c) :
    ∃ steps target since, pre = steps ++ since ∧ ws.Gate dep version n steps target ∧
      ws.analyzers.Calls target c ∧ ∀ e ∈ since, e.IsStepOf (ws.analyzers.Calls target) := by
  have pins {n m : Nat} {pins : List Event} (h : ws.Pinned dep version n pins m) :
      Event.started c ∉ pins := fun hmem => not_isAnalysis_pins (isStepOf_of_pinned h _ hmem) hc
  have hmem : Event.started c ∈ body := by simp [hbody]
  cases h with
  | unpinned steps => exact absurd hc (not_isAnalysis_pins (steps _ hmem))
  | mismatched pinned => exact absurd hmem (by simp [pins pinned])
  | unscoped pinned exact steps =>
    have hlist : Event.started c ∉ _ := fun hmem => not_isAnalysis_listing (steps _ hmem ▸ hc)
    exact absurd hmem (by simp [pins pinned, hlist])
  | @analyzed gate es target _ passed steps =>
    have hgate : Event.started c ∉ gate := by
      intro hmem
      rcases isStepOf_of_gate passed _ hmem with (h | rfl) | ⟨_, he⟩
      · exact not_isAnalysis_pins h hc
      · exact not_isAnalysis_listing hc
      · cases he
    obtain ⟨since, rfl, rfl⟩ := eq_append_of_not_mem_left hbody.symm hgate
    exact ⟨gate, target, since, rfl, passed, steps (.started c) (by simp),
      fun e he => steps e (by simp [he])⟩

/-- A look at the manifest is taken once, and it decides. -/
theorem Examined.mismatch (h : ws.Examined dep version n body found) {pre post : List Event}
    {contents : ManifestContents} (hbody : body = pre ++ .read contents :: post)
    (hne : ws.resolved contents dep ≠ some version) :
    post = [] ∧
      found = .error (.ofCause (.versionMismatch dep version (ws.resolved contents dep))) := by
  have pins {n m : Nat} {pins : List Event} (h : ws.Pinned dep version n pins m) :
      Event.read contents ∉ pins := fun hmem => isStepOf_of_pinned h _ hmem
  have hmem : Event.read contents ∈ body := by simp [hbody]
  cases h with
  | unpinned steps => exact absurd (steps _ hmem) id
  | mismatched pinned =>
    obtain ⟨r, -, hr⟩ := eq_append_of_not_mem_left hbody.symm (pins pinned)
    cases r with
    | nil =>
      obtain ⟨hcontents, rfl⟩ := List.cons.inj hr
      obtain rfl := Event.read.inj hcontents
      exact ⟨rfl, rfl⟩
    | cons e r => simp at hr
  | unscoped pinned exact steps =>
    have hlist : Event.read contents ∉ _ := fun hmem => steps _ hmem
    obtain rfl : contents = _ := by simpa [pins pinned, hlist] using hmem
    exact absurd exact hne
  | @analyzed gate es target _ passed steps =>
    have hcalls : Event.read contents ∉ es := fun hmem => steps _ hmem
    cases passed with
    | passed pinned exact =>
      obtain rfl : contents = _ := by
        simpa [pins pinned, hcalls, Runner.succeeded] using hmem
      exact absurd exact hne

end Workspace
/-- **All that an inspection does is gated.** -/
theorem Inspected.gated {outcome : Except Failure (Inspection × Snapshot)}
    (h : Inspected ws dep version host w w' es outcome) :
    Gated ws dep version w.started.length es outcome := by
  cases h with
  | untouched looks =>
    have only : ∀ e ∈ es, ∃ contents, e = .read contents := by
      rcases looks with rfl | ⟨contents, rfl⟩ <;> simp
    have started (c : Command) : Event.started c ∉ es := fun hmem => nomatch only _ hmem
    refine ⟨Or.inl started, ?_, ?_⟩
    · rintro pre c post rfl
      exact absurd (by simp) (started c)
    · rintro pre contents post rfl ⟨d, copied, hmem⟩
      exact nomatch only (.opened d copied) (by simp [hmem])
  | @transacted d copied body missed found _ examined kept lost =>
    refine ⟨Or.inr ⟨d, copied, body, missed, rfl, examined.isOwnStep⟩, ?_, ?_⟩
    · intro pre c post hes hc
      obtain ⟨r, -, hr⟩ := eq_append_of_not_mem_right hes.symm (by simp)
      obtain ⟨pre', rfl, hbody⟩ := eq_append_of_not_mem_left hr.symm (by simp)
      obtain ⟨steps, target, since, rfl, hgate, hcalls, hsince⟩ := examined.gate hbody hc
      exact ⟨d, copied, steps, target, since, (List.append_assoc _ _ _).symm, hgate, hcalls, hsince⟩
    · rintro pre contents post hes ⟨d', copied', hmem⟩ hne
      obtain ⟨r, rfl, hr⟩ := eq_append_of_not_mem_right hes.symm (by simp)
      -- the look that was taken to copy the files comes before the transaction is open
      obtain ⟨pre', rfl⟩ : ∃ pre', pre = [.read copied, .opened d copied] ++ pre' := by
        match pre with
        | [] => exact nomatch hmem
        | [e] =>
          obtain rfl := (List.cons.inj hr).1
          exact absurd hmem (by simp)
        | e :: e' :: pre' =>
          obtain ⟨rfl, hr'⟩ := List.cons.inj hr
          obtain ⟨rfl, -⟩ := List.cons.inj hr'
          exact ⟨pre', rfl⟩
      have hbody : body = pre' ++ .read contents :: r := by simpa using hr
      obtain ⟨rfl, hfound⟩ := examined.mismatch hbody hne
      refine ⟨by simp, ?_⟩
      by_cases hmissed : missed = []
      · exact ⟨_, [], kept hmissed _ hfound, Failure.causes_inContext _, by simp⟩
      · obtain ⟨g, hg, -, hcauses⟩ := lost hmissed
        refine ⟨_, g.causes, hg, ?_, hcauses⟩
        rw [Failure.causes_inContext, hfound, Backup.causes_combined rfl]
        rfl

/-! ## 3. Whole runs -/

namespace Call

variable {settings : Settings} {env : Environment} {known : Option Workspace}

/-- **In every run, whatever the programs do, each inspection is gated.**  The run is setting up,
in which no analyzer is started, and then a course of sessions.  A workspace that is set up for
the run knows the manifest as it was read last before them, and unless something else than a
program interferes, every transaction begins with the manifest as it was then. -/
theorem run_gated (settings : Settings) (env : Environment) (known : Option Workspace) (c : Call)
    (host : Host) (w : World) :
    ∃ setup, (∀ e ∈ setup, e.Prepares settings env) ∧
      ((∃ f, (ready settings env known host w).1 = .error f ∧
          (c.run settings env known host w).1 = .error f ∧
          (c.run settings env known host w).2.deeds = w.deeds ++ setup) ∨
        ∃ ws ss, (ready settings env known host w).1 = .ok ws ∧
          (∀ c, Event.started c ∈ setup → ¬ ws.IsAnalysis c) ∧
          Course ws host (ready settings env known host w).2 ss
            (c.run settings env known host w).2 ∧
          (c.run settings env known host w).2.deeds
            = w.deeds ++ setup ++ ss.flatMap (fun s => s.deeds ws host) ∧
          (∀ s ∈ ss, Gated ws s.dep s.version s.before.started.length (s.deeds ws host)
            (s.outcome ws host)) ∧
          (known = none → setup.getLast? = some (.read ws.baseline.contents) ∧
            (ws.manifest.Undisturbed host → ∀ s ∈ ss, ∀ directory contents,
              Event.opened directory contents ∈ s.deeds ws host →
                contents = ws.baseline.contents))) := by
  rcases run_cases settings env known c host w with
    ⟨f, v, hready, hrun⟩ | ⟨ws, v, ss, hready, course, passes⟩
  · obtain ⟨setup, hsetup, hprepares⟩ :=
      (within_ready_deeds settings env known host).rel_of_eq hready
    rw [hready, hrun]
    exact ⟨setup, hprepares, Or.inl ⟨f, rfl, rfl, hsetup⟩⟩
  obtain ⟨setup, hsetup, hprepares⟩ := (within_ready_deeds settings env known host).rel_of_eq hready
  rw [hready]
  refine ⟨setup, hprepares, Or.inr ⟨ws, ss, rfl, fun c hc => ?_, course, ?_, ?_, ?_⟩⟩
  · rcases hprepares _ hc with hasks | ⟨_, he⟩
    · exact Workspace.not_isAnalysis_asks hasks
    · cases he
  · rw [course.deeds_eq, hsetup]
  · exact fun s _ => (s.inspected ws host).2.gated
  · rintro rfl
    obtain ⟨hknown, v₁, v₂, ⟨es, hes, -⟩, hread, logs⟩ := Workspace.prepare_ok hready
    obtain ⟨-, hhold, -, hsame, hreads⟩ := Snapshot.read_ok hread
    have hdeeds : setup = es ++ [.read ws.baseline.contents] := by
      rw [logs.1, hreads, hes, List.append_assoc] at hsetup
      exact (List.append_cancel_left hsetup).symm
    refine ⟨by simp [hdeeds], fun hu s hs d contents hmem => ?_⟩
    rw [← hsame] at hhold
    have opened := course.opened passes hu hknown.separate s hs d contents hmem
    exact opened.unique (hhold.of_alike (logs.2 _ hu))

end Call
end UpgradeAudit
