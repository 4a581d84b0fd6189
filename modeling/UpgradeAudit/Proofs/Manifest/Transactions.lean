/-
# Manifest transactions

A transaction runs in one of three ways (`Transacted`): no copy of the files can be taken and
nothing is done, or the work is done and the files are put back, or one of them cannot be.  The
outcome is that of the work as long as both files were put back.  Otherwise it is a failure that
reports every file that was missed (`Failure.Reports`) and that ends the run (`Failure.Stops`).

So **a file that was not missed stands as it stood**, and one that was missed is reported
(`Transacted.ends`).
-/
import UpgradeAudit.Proofs.Manifest.Restoring

namespace UpgradeAudit

variable {α β : Type} {host : Host} {w w' : World} {path : String} {files : ManifestFiles}

/-! ## 1. Taking a copy -/

/-- A snapshot holds what stands at both paths, and taking one is the one thing that is done. -/
theorem Snapshot.read_ok {s : Snapshot} (h : Snapshot.read files host w = (.ok s, w')) :
    s.files = files ∧ files.Hold s.contents w.files ∧
      (Cause.ofFileName? files.manifest.text = none ∧ Cause.ofFileName? files.lock.text = none) ∧
      w'.files = w.files ∧ w'.deeds = w.deeds ++ [.read s.contents] := by
  unfold Snapshot.read at h
  simp only [Action.bind_run] at h
  split at h
  · rename_i manifest w₁ hm
    split at h
    · rename_i lock w₂ hl
      have first := Action.mapFailure_ok hm
      have second := Action.mapFailure_ok hl
      have aside₁ := (Action.within_readFile _).rel_of_eq first
      have aside₂ := (Action.within_readFile _).rel_of_eq second
      obtain ⟨hmname, hms, -⟩ := Action.readFile_ok first
      obtain ⟨hlname, hls, -⟩ := Action.readFile_ok second
      simp only [Action.record_run, Action.pure_run, Prod.mk.injEq, Except.ok.injEq] at h
      obtain ⟨rfl, rfl⟩ := h
      have aside := Frame.aside.trans aside₁ aside₂
      refine ⟨rfl, ⟨hms, ?_⟩, ⟨hmname, hlname⟩, aside.1, ?_⟩
      · rw [← aside₁.1]
        exact hls
      · rw [World.deeds_record rfl, Frame.aside.deeds_eq aside]
    · cases h
  · cases h

/-- Without a snapshot nothing is done. -/
theorem Snapshot.read_error {f : Failure} (h : Snapshot.read files host w = (.error f, w')) :
    Frame.aside.rel w w' := by
  unfold Snapshot.read at h
  simp only [Action.bind_run] at h
  split at h
  · rename_i manifest w₁ hm
    have aside₁ : Frame.aside.rel w w₁ :=
      (Action.within_onFileError (Action.within_readFile _)).rel_of_eq hm
    split at h
    · cases h
    · rename_i e w₂ hl
      have aside₂ : Frame.aside.rel w₁ w₂ :=
        (Action.within_onFileError (Action.within_readFile _)).rel_of_eq hl
      obtain rfl : w₂ = w' := congrArg Prod.snd h
      exact Frame.aside.trans aside₁ aside₂
  · rename_i e w₁ hm
    obtain rfl : w₁ = w' := congrArg Prod.snd h
    exact (Action.within_onFileError (Action.within_readFile _)).rel_of_eq hm

namespace Backup

variable {b : Backup}

theorem within_ofSnapshot (s : Snapshot) : Action.Within host .aside (ofSnapshot s) := by
  refine Action.within_bind (Action.within_onFileError Action.within_makeDirectory) fun d => ?_
  refine Action.within_bind (Action.within_attempt ?_) fun r => ?_
  · exact Action.within_bind (Action.within_writePrivate _ _ _) fun _ =>
      Action.within_writePrivate _ _ _
  · split
    · exact Action.within_pure _
    · exact Action.within_bind (Action.within_discardDirectory _) fun _ => Action.within_fail _
    · exact Action.within_fail _

theorem ofSnapshot_ok {s : Snapshot} (h : ofSnapshot s host w = (.ok b, w')) :
    b.snapshot = s := by
  unfold ofSnapshot at h
  rcases Action.bind_cases host (Action.onFileError Action.makeDirectory _) _ w with
    ⟨d, w₁, -, hb⟩ | ⟨f, w₁, -, hb⟩
  · rw [hb, Action.bind_run, Action.attempt_run] at h
    rcases hs : store ⟨s, d⟩ host w₁ with ⟨f | ⟨⟩, w₂⟩
    · rw [hs] at h
      rcases f with ⟨cause, notes⟩ | ⟨fs, notes⟩
      · cases cause <;> cases h
      · cases h
    · rw [hs] at h
      obtain rfl := Except.ok.inj (congrArg Prod.fst h)
      rfl
  · rw [hb] at h
    cases h

/-- **A copy holds what stands at both paths**, and taking it changes neither. -/
theorem take_ok (h : Backup.take files host w = (.ok b, w')) :
    b.snapshot.files = files ∧ b.Sound ∧ files.Hold b.snapshot.contents w.files ∧
      w'.files = w.files ∧
      w'.deeds
        = w.deeds ++ [.read b.snapshot.contents, .opened b.directory b.snapshot.contents] := by
  unfold take at h
  rcases hread : Snapshot.read files host w with ⟨f | s, w₁⟩
  · rw [Action.bind_of_error hread] at h
    cases h
  · rw [Action.bind_of_ok hread] at h
    rcases hkeep : ofSnapshot s host w₁ with ⟨f | b', w₂⟩
    · rw [Action.bind_of_error hkeep] at h
      cases h
    · rw [Action.bind_of_ok hkeep] at h
      simp only [Action.bind_run, Action.record_run, Action.pure_run, Prod.mk.injEq,
        Except.ok.injEq] at h
      obtain ⟨rfl, rfl⟩ := h
      have aside := (within_ofSnapshot s).rel_of_eq hkeep
      obtain rfl := ofSnapshot_ok hkeep
      obtain ⟨hfiles, hhold, ⟨hm, hl⟩, hsame, hdeeds⟩ := Snapshot.read_ok hread
      refine ⟨hfiles, ⟨hfiles ▸ hm, hfiles ▸ hl, fun h => hhold.manifest_eq_lock (hfiles ▸ h)⟩,
        hhold, aside.1.trans hsame, ?_⟩
      rw [World.deeds_record rfl, Frame.aside.deeds_eq aside, hdeeds, List.append_assoc]
      rfl

/-- Without a copy nothing is done but that the files may have been read. -/
theorem take_error {f : Failure} (h : Backup.take files host w = (.error f, w')) :
    w'.files = w.files ∧ (w'.deeds = w.deeds ∨ ∃ c, w'.deeds = w.deeds ++ [.read c]) := by
  unfold take at h
  rcases hread : Snapshot.read files host w with ⟨e | s, w₁⟩
  · rw [Action.bind_of_error hread] at h
    obtain rfl : w₁ = w' := congrArg Prod.snd h
    have aside := Snapshot.read_error hread
    exact ⟨aside.1, Or.inl (Frame.aside.deeds_eq aside)⟩
  · rw [Action.bind_of_ok hread] at h
    obtain ⟨-, -, -, hsame, hdeeds⟩ := Snapshot.read_ok hread
    rcases hkeep : ofSnapshot s host w₁ with ⟨e | b', w₂⟩
    · rw [Action.bind_of_error hkeep] at h
      obtain rfl : w₂ = w' := congrArg Prod.snd h
      have aside := (within_ofSnapshot s).rel_of_eq hkeep
      exact ⟨aside.1.trans hsame, Or.inr ⟨_, (Frame.aside.deeds_eq aside).trans hdeeds⟩⟩
    · rw [Action.bind_of_ok hkeep] at h
      cases h

/-! ## 2. The end of a transaction -/

/-- What is reported of work that ended as said when a file could not be put back. -/
def combined (outcome : Except Failure α) (g : Failure) : Failure :=
  match outcome with
  | .ok _ => g
  | .error e =>
    if e.isCancellation then e.addNote ("manifest restore also failed: " ++ g.message)
    else (Failure.join [some e, some g]).getD e

theorem close_deeds (b : Backup) (host : Host) (w : World) :
    (b.close host w).2.deeds = w.deeds := (Action.within_discardDirectory _).deeds_eq w

theorem finish_of_restored {outcome : Except Failure α} (h : b.restore host w = (.ok (), w')) :
    b.finish outcome host w
      = (outcome, (b.close host w').2.record (.closed b.directory)) := by
  unfold finish
  rw [Action.bind_run, Action.attempt_run, h]
  cases outcome <;> rfl

theorem finish_of_broken {outcome : Except Failure α} {g : Failure}
    (h : b.restore host w = (.error g, w')) :
    b.finish outcome host w
      = (.error (combined outcome g), w'.record (.closed b.directory)) := by
  unfold finish
  rw [Action.bind_run, Action.attempt_run, h]
  cases outcome with
  | ok a => rfl
  | error e =>
    by_cases hc : e.isCancellation = true
    · simp [combined, hc, Action.bind_run]
    · simp [combined, hc, Action.bind_run]

end Backup

/-- How a transaction runs: no copy is taken, or the files are put back after the work, or one
of them cannot be. -/
inductive Transacted (files : ManifestFiles) (work : Backup → Action α) (host : Host) (w : World) :
    Except Failure α → World → Prop
  | untaken {f : Failure} {w' : World} (taken : Backup.take files host w = (.error f, w')) :
      Transacted files work host w (.error f) w'
  | restored {b : Backup} {outcome : Except Failure α} {w₁ w₂ w₃ : World}
      (taken : Backup.take files host w = (.ok b, w₁))
      (worked : work b host w₁ = (outcome, w₂)) (restored : b.restore host w₂ = (.ok (), w₃)) :
      Transacted files work host w outcome ((b.close host w₃).2.record (.closed b.directory))
  | broken {b : Backup} {outcome : Except Failure α} {g : Failure} {w₁ w₂ w₃ : World}
      (taken : Backup.take files host w = (.ok b, w₁))
      (worked : work b host w₁ = (outcome, w₂)) (restored : b.restore host w₂ = (.error g, w₃)) :
      Transacted files work host w (.error (Backup.combined outcome g))
        (w₃.record (.closed b.directory))

theorem transacted (files : ManifestFiles) (work : Backup → Action α) (host : Host) (w : World) :
    Transacted files work host w (files.transaction work host w).1
      (files.transaction work host w).2 := by
  unfold ManifestFiles.transaction
  rcases htake : Backup.take files host w with ⟨f | b, w₁⟩
  · rw [Action.bind_of_error htake]
    exact .untaken htake
  · rw [Action.bind_of_ok htake, Action.bind_run, Action.attempt_run]
    rcases hrestore : b.restore host (work b host w₁).2 with ⟨g | ⟨⟩, w₃⟩
    · simp only [Backup.finish_of_broken hrestore]
      exact .broken htake rfl hrestore
    · simp only [Backup.finish_of_restored hrestore]
      exact .restored htake rfl hrestore

/-! ## 3. Reports -/

namespace Failure

/-- Whether a failure tells that a file could not be put back: among its causes, or in a note
when it is a cancellation. -/
def Reports (f : Failure) (path : String) : Prop :=
  f.Names path ∨
    f.isCancellation = true ∧
      ∃ g : Failure, g.Names path ∧ "manifest restore also failed: " ++ g.message ∈ f.notes

theorem Reports.addNote {f : Failure} (h : f.Reports path) (note : String) :
    (f.addNote note).Reports path := by
  rcases h with h | ⟨hc, g, hg, hnote⟩
  · exact Or.inl (by rwa [Names, causes_addNote])
  · refine Or.inr ⟨by rwa [isCancellation_addNote], g, hg, ?_⟩
    rw [notes_addNote]
    exact List.mem_append_left _ hnote

theorem Stops.addNote {f : Failure} (h : f.Stops) (note : String) : (f.addNote note).Stops := by
  rwa [Stops, isOfAudit_addNote, isFatal_addNote]

/-- A file that cannot be put back ends the run. -/
theorem Names.stops {f : Failure} (h : f.Names path) : f.Stops := by
  obtain ⟨reason, hmem⟩ := h
  exact Or.inr (isFatal_of_mem_causes hmem rfl)

end Failure

namespace Backup

/-- Unless it is a cancellation, the failure of the work is joined with the one to restore. -/
theorem causes_combined {e g : Failure} (hc : e.isCancellation = false) :
    (combined (.error e : Except Failure α) g).causes = e.causes ++ g.causes := by
  have join := Failure.causes_join [some e, some g]
  have parts_ne (f : Failure) : f.causes ≠ [] → f.parts ≠ [] := by
    rintro h hnil
    rw [← Failure.causesOf_parts, hnil] at h
    exact h rfl
  unfold combined
  simp only [hc, Bool.false_eq_true, if_false]
  cases hj : Failure.join [some e, some g] with
  | some f => simpa [hj, Failure.causesOfPresent] using join
  | none =>
    rw [hj] at join
    have none : e.causes ++ g.causes = [] := by
      simpa [Failure.causesOfPresent] using join.symm
    rw [none]
    exact (List.append_eq_nil_iff.1 none).1

/-- **What could not be put back is reported, whatever became of the work.** -/
theorem reports_combined {g : Failure} (h : g.Names path) (outcome : Except Failure α) :
    (combined outcome g).Reports path ∧ (combined outcome g).Stops := by
  cases outcome with
  | ok a => exact ⟨Or.inl h, h.stops⟩
  | error e =>
    cases hc : e.isCancellation with
    | true =>
      have hcombined : combined (.error e : Except Failure α) g
          = e.addNote ("manifest restore also failed: " ++ g.message) := by simp [combined, hc]
      rw [hcombined]
      refine ⟨Or.inr ⟨by simpa using hc, g, h, by simp⟩, Or.inl ?_⟩
      rw [Failure.isOfAudit_addNote]
      exact Failure.isOfAudit_of_isCancellation hc
    | false =>
      obtain ⟨reason, hmem⟩ := h
      have names : (combined (.error e : Except Failure α) g).Names path :=
        ⟨reason, by rw [causes_combined hc]; exact List.mem_append_right _ hmem⟩
      exact ⟨Or.inl names, names.stops⟩

end Backup

/-! ## 4. What a transaction does and leaves -/

/-- What a transaction does after its work: the files are put back as they were copied, and the
outcome is that of the work unless a file was missed. -/
structure Concluded (files : ManifestFiles) (host : Host) (w w₂ : World)
    (outcome r : Except Failure α) (w' : World) (b : Backup) (missed : List String) : Prop where
  deeds : w'.deeds = w₂.deeds ++ [.restored b.directory missed, .closed b.directory]
  outcome : missed = [] ∧ r = outcome ∨
    missed ≠ [] ∧ ∃ g : Failure, r = .error (Backup.combined outcome g) ∧
      (∀ path ∈ missed, g.Names path) ∧ ∀ c ∈ g.causes, ∃ path reason, c = .restore path reason
  files : files.Undisturbed host → files.Separate →
    (files.manifest.text ∉ missed →
        w'.files.standing files.manifest.text = w.files.standing files.manifest.text) ∧
      (files.lock.text ∉ missed →
        w'.files.standing files.lock.text = w.files.standing files.lock.text)

/-- Once a copy is taken, a transaction concludes its work. -/
theorem Transacted.concluded {work : Backup → Action α} {r : Except Failure α} {b : Backup}
    {w₁ : World} (h : Transacted files work host w r w')
    (taken : Backup.take files host w = (.ok b, w₁)) :
    ∃ missed, Concluded files host w (work b host w₁).2 (work b host w₁).1 r w' b missed := by
  obtain ⟨rfl, hb, hhold, -, -⟩ := Backup.take_ok taken
  -- what stands where a copy was taken, when it is put back
  have puts {w₂ w₃ w₄ : World} {r : Except Failure Unit} {missed : List String}
      (hr : b.restore host w₂ = (r, w₃))
      (hdeeds : w₃.deeds = w₂.deeds ++ [.restored b.directory missed]) (hw₄ : w₄.files = w₃.files)
      (hu : b.snapshot.files.Undisturbed host) (hseparate : b.snapshot.files.Separate) :
      (b.snapshot.files.manifest.text ∉ missed →
          w₄.files.standing b.snapshot.files.manifest.text
            = w.files.standing b.snapshot.files.manifest.text) ∧
        (b.snapshot.files.lock.text ∉ missed →
          w₄.files.standing b.snapshot.files.lock.text
            = w.files.standing b.snapshot.files.lock.text) := by
    obtain ⟨missed', hdeeds', hm, hl⟩ := Backup.restore_files hb hu hseparate w₂
    rw [hr] at hdeeds' hm hl
    obtain rfl : missed = missed' := by simpa using hdeeds.symm.trans hdeeds'
    rw [hw₄]
    exact ⟨fun h => (hm h).trans hhold.1.symm, fun h => (hl h).trans hhold.2.symm⟩
  cases h with
  | untaken taken' => cases taken'.symm.trans taken
  | restored taken' worked restored =>
    obtain ⟨rfl, rfl⟩ : _ = b ∧ _ = w₁ := by simpa using taken'.symm.trans taken
    have hrest := Backup.restore_deeds hb restored
    rw [worked]
    refine ⟨[], ?_, Or.inl ⟨rfl, rfl⟩, puts restored hrest rfl⟩
    rw [World.deeds_record rfl, Backup.close_deeds, hrest, List.append_assoc]
    rfl
  | broken taken' worked restored =>
    obtain ⟨rfl, rfl⟩ : _ = b ∧ _ = w₁ := by simpa using taken'.symm.trans taken
    obtain ⟨⟨missed, hrest, hne, hnames⟩, hcauses⟩ := Backup.restore_error hb restored
    rw [worked]
    refine ⟨missed, ?_, Or.inr ⟨hne, _, rfl, hnames, hcauses⟩, puts restored hrest rfl⟩
    rw [World.deeds_record rfl, hrest, List.append_assoc]
    rfl

/-- **A transaction does nothing, or it concludes its work by putting the files back.** -/
theorem Transacted.ends {work : Backup → Action α} {r : Except Failure α}
    (h : Transacted files work host w r w') :
    (∃ f, r = .error f ∧ w'.files = w.files ∧
        (w'.deeds = w.deeds ∨ ∃ c, w'.deeds = w.deeds ++ [.read c])) ∨
      ∃ b w₁ w₂ outcome missed,
        w₁.deeds = w.deeds ++ [.read b.snapshot.contents, .opened b.directory b.snapshot.contents] ∧
        files.Hold b.snapshot.contents w.files ∧ w₁.files = w.files ∧
        work b host w₁ = (outcome, w₂) ∧
        Concluded files host w w₂ outcome r w' b missed := by
  rcases htake : Backup.take files host w with ⟨f | b, w₁⟩
  · cases h with
    | untaken taken => exact Or.inl ⟨_, rfl, Backup.take_error taken⟩
    | restored taken => cases htake.symm.trans taken
    | broken taken => cases htake.symm.trans taken
  · obtain ⟨-, -, hhold, hfiles, hdeeds⟩ := Backup.take_ok htake
    obtain ⟨missed, concluded⟩ := h.concluded htake
    exact Or.inr ⟨b, w₁, _, _, missed, hdeeds, hhold, hfiles, rfl, concluded⟩

end UpgradeAudit
