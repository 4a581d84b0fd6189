/-
# Putting the manifest files back

What becomes of the two manifest files when a copy of them is put back, whatever was done to
them before.

Each file is written and read back on its own.  Either it stands as it was copied afterwards, or
the failure says so: the only thing that can go wrong with a file that could be read before is
reported under its path (`restoreFile_cases`).  The second file does not undo the first, because
writing it spares the first one (`FileTree.Spares`), or both are one file with one content; so
every file that was not missed stands as it was copied (`restore_files`), and every one that was
missed is named (`restore_error`).

What is assumed of the surroundings is said in `ManifestFiles.Undisturbed`: log records are not
kept in one of the two files, and nobody but a program changes the manifest.
-/
import UpgradeAudit.Manifest.Transaction
import UpgradeAudit.Proofs.Failures
import UpgradeAudit.Proofs.Host.Actions
import UpgradeAudit.Proofs.Host.Files

namespace UpgradeAudit

variable {α : Type} {host : Host} {w w' : World} {path other : String} {content : Bytes}
  {files : ManifestFiles}

/-! ## 1. Files that stay as they are -/

namespace ManifestFiles

/-- Trees in which the same stands at both paths. -/
def Alike (files : ManifestFiles) (t t' : FileTree) : Prop :=
  t.standing files.manifest.text = t'.standing files.manifest.text ∧
    t.standing files.lock.text = t'.standing files.lock.text

theorem Alike.refl (files : ManifestFiles) (t : FileTree) : files.Alike t t := ⟨rfl, rfl⟩

theorem Alike.symm {t t' : FileTree} (h : files.Alike t t') : files.Alike t' t :=
  ⟨h.1.symm, h.2.symm⟩

theorem Alike.trans {t t' t'' : FileTree} (h : files.Alike t t') (h' : files.Alike t' t'') :
    files.Alike t t'' := ⟨h.1.trans h'.1, h.2.trans h'.2⟩

/-- Nothing but a program that is run changes the manifest files. -/
structure Undisturbed (files : ManifestFiles) (host : Host) : Prop where
  records : ∀ r t, files.Alike (host.keepRecord r t) t
  meddling : ∀ now t,
    (host.meddle now t).standing files.manifest.text = t.standing files.manifest.text

/-- The contents that stand at both paths. -/
def Hold (files : ManifestFiles) (contents : ManifestContents) (t : FileTree) : Prop :=
  t.standing files.manifest.text = .ok (some (.file contents.manifest)) ∧
    t.standing files.lock.text = .ok (some (.file contents.lock))

theorem Hold.alike {contents : ManifestContents} {t t' : FileTree} (h : files.Hold contents t)
    (h' : files.Hold contents t') : files.Alike t t' :=
  ⟨h.1.trans h'.1.symm, h.2.trans h'.2.symm⟩

theorem Hold.of_alike {contents : ManifestContents} {t t' : FileTree}
    (h : files.Hold contents t) (ha : files.Alike t' t) : files.Hold contents t' :=
  ⟨ha.1.trans h.1, ha.2.trans h.2⟩

/-- One path has one file. -/
theorem Hold.manifest_eq_lock {contents : ManifestContents} {t : FileTree}
    (h : files.Hold contents t) (hsame : files.manifest.text = files.lock.text) :
    contents.manifest = contents.lock := by
  have hm := h.1
  rw [hsame, h.2] at hm
  simpa using hm.symm

end ManifestFiles

/-- The host on which file operations succeed and nothing but a program changes a file. -/
def Host.quiet (respond : FileTree → Command → Start) : Host where
  respond _ := respond
  readFault _ _ := none
  writeFault _ _ := none
  meddle _ t := t
  directoryName _ := "/tmp/audit"
  directoryFault _ := none
  privateFault _ _ := none
  removalFault _ := none
  nesting _ := Json.usualRoom
  finishOrder _ := []
  interrupts _ := false
  keepRecord _ t := t

/-- The manifest files of a module in the working directory. -/
def ManifestFiles.here : ManifestFiles := ⟨.ofText "go.mod", .ofText "go.sum"⟩

theorem ManifestFiles.undisturbed_quiet (files : ManifestFiles)
    (respond : FileTree → Command → Start) : files.Undisturbed (.quiet respond) :=
  ⟨fun _ t => .refl files t, fun _ _ => rfl⟩

/-- What stands at a path stays there. -/
def Frame.keeps (path : String) : Frame where
  rel w w' := w'.files.standing path = w.files.standing path
  refl _ := rfl
  trans h h' := h'.trans h

namespace Action

theorem within_keeps_putFile (hs : FileTree.Spares path other) :
    Within host (.keeps other) (putFile path content) := by
  intro w
  rw [putFile, bind_run, world_run]
  cases h : w.files.write path content with
  | error fault => simp [h, Frame.keeps]
  | ok t => simpa [h, Frame.keeps] using hs _ _ _ h

/-! ## 2. Reading and writing one file -/

/-- A file that could be read has a name, and what was read stands at its path. -/
theorem readFile_ok (h : readFile path host w = (.ok content, w')) :
    Cause.ofFileName? path = none ∧ w.files.standing path = .ok (some (.file content)) ∧
      w'.files = w.files := by
  have hfiles : w'.files = w.files := ((within_readFile path).rel_of_eq h).1
  unfold readFile checkName at h
  cases hname : Cause.ofFileName? path with
  | some cause => simp [hname, bind_run] at h
  | none =>
    refine ⟨rfl, ?_⟩
    cases hfault : host.readFault w.clock path with
    | some fault => simp [hname, hfault, bind_run] at h
    | none =>
      cases hread : w.files.read path with
      | error fault => simp [hname, hfault, hread, bind_run] at h
      | ok c =>
        obtain rfl : c = content := by
          simp [hname, hfault, hread, bind_run] at h
          exact h.1
        exact ⟨FileTree.read_eq_ok_iff.1 hread, hfiles⟩

/-- All that can go wrong with reading a file that has a name is a file error. -/
theorem readFile_error {f : Failure} (hname : Cause.ofFileName? path = none)
    (h : (readFile path host w).1 = .error f) : ∃ e, f = .ofCause (.file e) := by
  unfold readFile checkName at h
  cases hfault : host.readFault w.clock path with
  | some fault =>
    simp [hname, hfault, bind_run] at h
    exact ⟨_, h.symm⟩
  | none =>
    cases hread : w.files.read path with
    | error fault =>
      simp [hname, hfault, hread, bind_run] at h
      exact ⟨_, h.symm⟩
    | ok c => simp [hname, hfault, hread, bind_run] at h

/-- All that can go wrong with writing a file that has a name is a file error. -/
theorem writeFile_error {f : Failure} (hname : Cause.ofFileName? path = none)
    (h : (writeFile path content host w).1 = .error f) : ∃ e, f = .ofCause (.file e) := by
  unfold writeFile putFile checkName at h
  cases hfault : host.writeFault w.clock path with
  | none =>
    cases hwrite : w.files.write path content with
    | error fault =>
      simp [hname, hfault, hwrite, bind_run] at h
      exact ⟨_, h.symm⟩
    | ok t => simp [hname, hfault, hwrite, bind_run] at h
  | some fault =>
    cases fault with
    | refused fault =>
      simp [hname, hfault, bind_run] at h
      exact ⟨_, h.symm⟩
    | torn fault left =>
      cases hwrite : w.files.write path left with
      | error fault =>
        simp [hname, hfault, hwrite, bind_run] at h
        exact ⟨_, h.symm⟩
      | ok t =>
        simp [hname, hfault, hwrite, bind_run] at h
        exact ⟨_, h.symm⟩

end Action

/-! ## 3. Putting files back -/

namespace Backup

/-- A file that was put back was written, others had their turn, and it still held what was
written. -/
theorem rewrite_steps (h : rewrite path content host w = (.ok (), w')) :
    ∃ w₁ w₂, Action.writeFile path content host w = (.ok (), w₁) ∧
      w₂.files = host.meddle w₁.clock w₁.files ∧
      Action.readFile path host w₂ = (.ok content, w') := by
  unfold rewrite at h
  obtain ⟨⟨⟩, w₁, hwrite, hchecked⟩ := Action.bind_ok h
  simp only [Action.bind_run, Action.moment_run, Action.host_run, Action.change_run] at hchecked
  split at hchecked
  · rename_i found w₂ hread
    split at hchecked
    · cases hchecked
    · rename_i hfound
      obtain rfl : found = content := by simpa using hfound
      obtain rfl : w₂ = w' := congrArg Prod.snd hchecked
      exact ⟨w₁, _, hwrite, rfl, hread⟩
  · cases hchecked

theorem rewrite_ok (h : rewrite path content host w = (.ok (), w')) :
    w'.files.standing path = .ok (some (.file content)) := by
  obtain ⟨w₁, w₂, -, -, hread⟩ := rewrite_steps h
  obtain ⟨-, hstands, hfiles⟩ := Action.readFile_ok hread
  rw [hfiles]
  exact hstands

theorem rewrite_error {f : Failure} (hname : Cause.ofFileName? path = none)
    (h : (rewrite path content host w).1 = .error f) :
    (∃ e, f = .ofCause (.file e)) ∨ ∃ reason, f = .ofCause (.restore path reason) := by
  unfold rewrite at h
  rcases Action.bind_cases host (Action.writeFile path content) _ w with
    ⟨⟨⟩, w₁, hwrite, hb⟩ | ⟨e, w₁, hwrite, hb⟩
  · rw [hb] at h
    simp only [Action.bind_run, Action.moment_run, Action.host_run, Action.change_run] at h
    split at h
    · split at h
      · exact Or.inr ⟨_, (Except.error.inj h).symm⟩
      · cases h
    · rename_i e w₂ hread
      obtain rfl : e = f := Except.error.inj h
      exact Or.inl (Action.readFile_error hname (congrArg Prod.fst hread))
  · rw [hb] at h
    exact Or.inl (Action.writeFile_error hname (by rw [hwrite]; exact h))

/-- **A file that has a name is put back, or the failure to do so is reported under it.** -/
theorem restoreFile_cases (hname : Cause.ofFileName? path = none) (content : Bytes) (w : World) :
    (∃ reason w', restoreFile path content host w
        = (.ok (some (.ofCause (.restore path reason))), w')) ∨
      ∃ w', restoreFile path content host w = (.ok none, w') ∧
        w'.files.standing path = .ok (some (.file content)) := by
  unfold restoreFile
  rw [Action.bind_run, Action.attempt_run]
  rcases h : rewrite path content host w with ⟨f | ⟨⟩, w'⟩
  · left
    rcases rewrite_error hname (by rw [h]) with ⟨e, rfl⟩ | ⟨reason, rfl⟩
    · exact ⟨e.message, w', rfl⟩
    · exact ⟨reason, w', rfl⟩
  · exact Or.inr ⟨w', rfl, rewrite_ok h⟩

/-- A file about which nothing is reported was put back. -/
theorem restoreFile_none (hname : Cause.ofFileName? path = none)
    (h : restoreFile path content host w = (.ok none, w')) :
    w'.files.standing path = .ok (some (.file content)) := by
  rcases restoreFile_cases hname content w with ⟨reason, v, hv⟩ | ⟨v, hv, hs⟩
  · cases hv.symm.trans h
  · obtain rfl : v = w' := congrArg Prod.snd (hv.symm.trans h)
    exact hs

theorem within_restoreFile {F : Frame} (h : Action.Within host F (rewrite path content)) :
    Action.Within host F (restoreFile path content) := by
  refine Action.within_bind (Action.within_attempt h) fun r => ?_
  split
  · exact Action.within_pure _
  · exact Action.within_pure _
  · exact Action.within_pure _

/-- Putting one file back writes it, after which others may meddle, and reads it. -/
theorem within_rewrite_of {F : Frame} (haside : ∀ {u v}, Frame.aside.rel u v → F.rel u v)
    (hput : ∀ c, Action.Within host F (Action.putFile path c))
    (hmeddle : ∀ now w, F.rel w { w with files := host.meddle now w.files }) :
    Action.Within host F (rewrite path content) := by
  refine Action.within_bind (Action.within_writeFile_of haside hput) fun _ =>
    Action.within_bind (Action.within_moment.mono haside) fun now =>
      Action.within_bind_of Action.within_host Action.yields_host fun h hh => ?_
  obtain rfl : h = host := hh
  refine Action.within_bind (fun w => hmeddle now w) fun _ =>
    Action.within_bind ((Action.within_readFile path).mono haside) fun c => ?_
  split
  · exact Action.within_fail _
  · exact Action.within_pure _

theorem within_rewrite (p : Event → Prop) : Action.Within host (.deeds p) (rewrite path content) :=
  within_rewrite_of (fun h => ⟨[], by simp [Frame.aside.deeds_eq h]⟩) (Action.within_putFile path)
    fun _ _ => ⟨[], by simp [World.deeds, World.history]⟩

theorem restoreFile_deeds {o : Option Failure} (h : restoreFile path content host w = (.ok o, w')) :
    w'.deeds = w.deeds := by
  obtain ⟨es, hes, hnone⟩ :=
    (within_restoreFile (within_rewrite fun _ => False)).rel_of_eq h
  obtain rfl : es = [] := List.eq_nil_iff_forall_not_mem.2 hnone
  rw [hes, List.append_nil]

/-- Putting one file back keeps another one, when nobody changes that one meanwhile. -/
theorem within_keeps_rewrite (hs : FileTree.Spares path other)
    (hm : ∀ now t, (host.meddle now t).standing other = t.standing other) :
    Action.Within host (.keeps other) (rewrite path content) :=
  within_rewrite_of (fun h => congrArg (FileTree.standing · other) h.1)
    (fun _ => Action.within_keeps_putFile hs) fun now w => hm now w.files

end Backup

/-! ## 4. Putting both files back -/

/-- The paths that an attempt to put files back missed. -/
def Event.missed? : Event → Option (List String)
  | .restored _ missed => some missed
  | _ => none

/-- Whether a failure to put a file back is among the causes. -/
def Failure.Names (f : Failure) (path : String) : Prop :=
  ∃ reason, Cause.restore path reason ∈ f.causes

namespace Backup

variable {b : Backup}

/-- What is known of a copy that was taken: its files have names and one path has one content. -/
structure Sound (b : Backup) : Prop where
  manifestName : Cause.ofFileName? b.snapshot.files.manifest.text = none
  lockName : Cause.ofFileName? b.snapshot.files.lock.text = none
  coherent : b.snapshot.files.manifest.text = b.snapshot.files.lock.text →
    b.snapshot.contents.manifest = b.snapshot.contents.lock

/-- What an attempt to put a file back may tell. -/
def Attempted (path : String) (o : Option Failure) : Prop :=
  o = none ∨ ∃ reason, o = some (.ofCause (.restore path reason))

/-- The files that were not put back, one by one. -/
def missedOf (b : Backup) (m l : Option Failure) : List String :=
  missed [(b.snapshot.files.manifest.text, m), (b.snapshot.files.lock.text, l)]

theorem mem_missedOf {m l : Option Failure} :
    path ∈ b.missedOf m l ↔ m.isSome ∧ path = b.snapshot.files.manifest.text ∨
      l.isSome ∧ path = b.snapshot.files.lock.text := by
  cases m <;> cases l <;> simp [missedOf, missed]

theorem restoreFile_attempted (hname : Cause.ofFileName? path = none) (host : Host)
    (content : Bytes) (w : World) :
    ∃ o w', restoreFile path content host w = (.ok o, w') ∧ Attempted path o := by
  rcases restoreFile_cases hname content w with ⟨reason, w', h⟩ | ⟨w', h, -⟩
  · exact ⟨_, w', h, Or.inr ⟨reason, rfl⟩⟩
  · exact ⟨_, w', h, Or.inl rfl⟩

/-- Once both files were attempted, putting them back ends with what went wrong with either. -/
theorem restore_of_attempts {m l : Option Failure} {w₁ w₂ : World}
    (hm : restoreFile b.snapshot.files.manifest.text b.snapshot.contents.manifest host w
      = (.ok m, w₁))
    (hl : restoreFile b.snapshot.files.lock.text b.snapshot.contents.lock host w₁ = (.ok l, w₂)) :
    (Failure.join [m, l] = none ∧
        b.restore host w = (.ok (), w₂.record (.restored b.directory (b.missedOf m l)))) ∨
      ∃ g r, Failure.join [m, l] = some g ∧
        b.restore host w
          = (.error g, (w₂.record (.restored b.directory (b.missedOf m l))).logging host r) := by
  unfold restore
  rw [Action.bind_of_ok hm, Action.bind_of_ok hl]
  cases hjoin : Failure.join [m, l] with
  | none => exact Or.inl ⟨rfl, rfl⟩
  | some g => exact Or.inr ⟨g, _, rfl, rfl⟩

/-- Both files are attempted, and what went wrong with either is reported together. -/
theorem restore_run (hb : b.Sound) (host : Host) (w : World) :
    ∃ (m l : Option Failure) (w₁ w₂ : World),
      restoreFile b.snapshot.files.manifest.text b.snapshot.contents.manifest host w = (.ok m, w₁) ∧
      restoreFile b.snapshot.files.lock.text b.snapshot.contents.lock host w₁ = (.ok l, w₂) ∧
      Attempted b.snapshot.files.manifest.text m ∧ Attempted b.snapshot.files.lock.text l ∧
      ((m = none ∧ l = none ∧
          b.restore host w = (.ok (), w₂.record (.restored b.directory []))) ∨
        ∃ g r, g.causes = Failure.causesOfPresent [m, l] ∧ b.missedOf m l ≠ [] ∧
          b.restore host w
            = (.error g, (w₂.record (.restored b.directory (b.missedOf m l))).logging host r)) := by
  obtain ⟨m, w₁, hm, hmm⟩ :=
    restoreFile_attempted hb.manifestName host b.snapshot.contents.manifest w
  obtain ⟨l, w₂, hl, hlm⟩ := restoreFile_attempted hb.lockName host b.snapshot.contents.lock w₁
  refine ⟨m, l, w₁, w₂, hm, hl, hmm, hlm, ?_⟩
  have hcauses := Failure.causes_join [m, l]
  rcases restore_of_attempts hm hl with ⟨hjoin, hr⟩ | ⟨g, r, hjoin, hr⟩ <;> rw [hjoin] at hcauses
  · rcases hmm with rfl | ⟨reason, rfl⟩ <;> rcases hlm with rfl | ⟨reason', rfl⟩
    · exact Or.inl ⟨rfl, rfl, hr⟩
    all_goals cases hjoin
  · refine Or.inr ⟨g, r, hcauses, ?_, hr⟩
    rcases hmm with rfl | ⟨reason, rfl⟩ <;> rcases hlm with rfl | ⟨reason', rfl⟩
    · cases hjoin
    all_goals simp [missedOf, missed]

/-- The attempt to put the files back is one deed. -/
theorem restore_deeds (hb : b.Sound) (h : b.restore host w = (.ok (), w')) :
    w'.deeds = w.deeds ++ [.restored b.directory []] := by
  obtain ⟨m, l, w₁, w₂, hm, hl, -, -, ⟨-, -, hr⟩ | ⟨g, r, -, -, hr⟩⟩ := restore_run hb host w
  · obtain rfl := congrArg Prod.snd (hr.symm.trans h)
    rw [World.deeds_record rfl, restoreFile_deeds hl, restoreFile_deeds hm]
  · cases hr.symm.trans h

/-- **Every file that was not put back is named, and nothing else goes wrong.** -/
theorem restore_error {g : Failure} (hb : b.Sound) (h : b.restore host w = (.error g, w')) :
    (∃ missed, w'.deeds = w.deeds ++ [.restored b.directory missed] ∧ missed ≠ [] ∧
        ∀ path ∈ missed, g.Names path) ∧
      ∀ c ∈ g.causes, ∃ path reason, c = .restore path reason := by
  obtain ⟨m, l, w₁, w₂, hm, hl, hmm, hlm, ⟨-, -, hr⟩ | ⟨g', r, hcauses, hne, hr⟩⟩ :=
    restore_run hb host w
  · cases hr.symm.trans h
  · obtain ⟨rfl, rfl⟩ : g' = g ∧ _ = w' := by simpa using hr.symm.trans h
    refine ⟨⟨_, ?_, hne, fun path hpath => ?_⟩, fun c hc => ?_⟩
    · rw [World.deeds_logging, World.deeds_record rfl, restoreFile_deeds hl, restoreFile_deeds hm]
    · rcases mem_missedOf.1 hpath with ⟨hsome, rfl⟩ | ⟨hsome, rfl⟩
      · obtain ⟨reason, rfl⟩ := hmm.resolve_left (Option.isSome_iff_ne_none.1 hsome)
        exact ⟨reason, by simp [hcauses, Failure.causesOfPresent, Failure.causes, Failure.ofCause]⟩
      · obtain ⟨reason, rfl⟩ := hlm.resolve_left (Option.isSome_iff_ne_none.1 hsome)
        exact ⟨reason, by simp [hcauses, Failure.causesOfPresent, Failure.causes, Failure.ofCause]⟩
    · rw [hcauses, Failure.causesOfPresent, List.flatMap_cons, List.mem_append,
        List.flatMap_singleton] at hc
      rcases hc with hc | hc
      · rcases hmm with rfl | ⟨reason, rfl⟩
        · exact absurd hc List.not_mem_nil
        · exact ⟨_, reason, List.mem_singleton.1 hc⟩
      · rcases hlm with rfl | ⟨reason, rfl⟩
        · exact absurd hc List.not_mem_nil
        · exact ⟨_, reason, List.mem_singleton.1 hc⟩

/-- Once both files have been attempted, one after the other, either stands as it was copied unless
it was missed. -/
theorem attempted_files (hb : b.Sound) (hu : b.snapshot.files.Undisturbed host)
    (hseparate : b.snapshot.files.Separate) {m l : Option Failure} {w₁ w₂ : World}
    (hm : restoreFile b.snapshot.files.manifest.text b.snapshot.contents.manifest host w
      = (.ok m, w₁))
    (hl : restoreFile b.snapshot.files.lock.text b.snapshot.contents.lock host w₁ = (.ok l, w₂)) :
    (b.snapshot.files.manifest.text ∉ b.missedOf m l →
      w₂.files.standing b.snapshot.files.manifest.text
        = .ok (some (.file b.snapshot.contents.manifest))) ∧
    (b.snapshot.files.lock.text ∉ b.missedOf m l →
      w₂.files.standing b.snapshot.files.lock.text
        = .ok (some (.file b.snapshot.contents.lock))) := by
  have lock : b.snapshot.files.lock.text ∉ b.missedOf m l →
      w₂.files.standing b.snapshot.files.lock.text
        = .ok (some (.file b.snapshot.contents.lock)) := by
    intro hmem
    rw [mem_missedOf, not_or] at hmem
    obtain rfl : l = none := by simpa using hmem.2
    exact restoreFile_none hb.lockName hl
  refine ⟨fun hmem => ?_, lock⟩
  rcases hseparate with hsame | ⟨-, hspares⟩
  · rw [hsame] at hmem ⊢
    rw [lock hmem, hb.coherent hsame]
  · rw [mem_missedOf, not_or] at hmem
    obtain rfl : m = none := by simpa using hmem.1
    -- the attempt at the lock file keeps the manifest
    have kept := (within_restoreFile (within_keeps_rewrite hspares hu.meddling)).rel_of_eq hl
    exact Eq.trans kept (restoreFile_none hb.manifestName hm)

/-- **Each file stands as it was copied, unless it is one of those that were missed.** -/
theorem restore_files (hb : b.Sound) (hu : b.snapshot.files.Undisturbed host)
    (hseparate : b.snapshot.files.Separate) (w : World) :
    ∃ missed, (b.restore host w).2.deeds = w.deeds ++ [.restored b.directory missed] ∧
      (b.snapshot.files.manifest.text ∉ missed →
        (b.restore host w).2.files.standing b.snapshot.files.manifest.text
          = .ok (some (.file b.snapshot.contents.manifest))) ∧
      (b.snapshot.files.lock.text ∉ missed →
        (b.restore host w).2.files.standing b.snapshot.files.lock.text
          = .ok (some (.file b.snapshot.contents.lock))) := by
  obtain ⟨m, l, w₁, w₂, hm, hl, -, -, hr⟩ := restore_run hb host w
  obtain ⟨manifest, lock⟩ := attempted_files hb hu hseparate hm hl
  have deeds (missed : List String) : (w₂.record (.restored b.directory missed)).deeds
      = w.deeds ++ [.restored b.directory missed] := by
    rw [World.deeds_record rfl, restoreFile_deeds hl, restoreFile_deeds hm]
  rcases hr with ⟨rfl, rfl, hr⟩ | ⟨g, r, -, -, hr⟩
  · rw [hr]
    exact ⟨_, deeds _, manifest, lock⟩
  · rw [hr]
    have alike := hu.records r w₂.files
    refine ⟨_, ?_, fun h => alike.1.trans (manifest h), fun h => alike.2.trans (lock h)⟩
    rw [World.deeds_logging, deeds]

end Backup

end UpgradeAudit
