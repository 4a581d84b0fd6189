/-
# The copy in the private directory

A transaction keeps its copy of the manifest files in a private directory too.  **Once the copy
is taken the directory holds both files exactly** (`Backup.take_copied`); when it cannot be taken
no directory is left behind (`Backup.take_spared`), as the only thing that can go wrong with
writing the copy is met by removing the directory.  Neither work that is tidy nor putting the files
back touches it, so when it is given up all is as it was before (`Backup.tidy_of_closed`), and until
then it is the one directory that was added (`Backup.copies_of_tidy`).
-/
import UpgradeAudit.Proofs.Host.Directories
import UpgradeAudit.Proofs.Manifest.Transactions
import UpgradeAudit.Proofs.Tables

namespace UpgradeAudit

variable {α : Type} {host : Host} {w w' : World} {files : ManifestFiles}

theorem Snapshot.within_directories_read (files : ManifestFiles) :
    Action.Within host .directories (Snapshot.read files) :=
  Action.within_bind (Action.within_onFileError (Action.within_directories_readFile _)) fun _ =>
    Action.within_bind (Action.within_onFileError (Action.within_directories_readFile _)) fun _ =>
      Action.within_bind (Action.within_directories_record _) fun _ => Action.within_pure _

namespace Backup

variable {b : Backup}

/-! ## 1. Taking a copy -/

/-- The files in the private directory of a copy. -/
def copies (b : Backup) : Table String Bytes :=
  Table.set b.lockName b.snapshot.contents.lock
    (Table.set b.manifestName b.snapshot.contents.manifest [])

/-- The private directory of a copy holds both files exactly. -/
structure Exact (b : Backup) : Prop where
  manifest : Table.get? b.manifestName b.copies = some b.snapshot.contents.manifest
  lock : Table.get? b.lockName b.copies = some b.snapshot.contents.lock

/-- Both files are in the copy, unless they share a name and not their contents. -/
theorem exact_of_names (h : b.manifestName = b.lockName →
    b.snapshot.contents.manifest = b.snapshot.contents.lock) : b.Exact where
  manifest := by
    by_cases hname : b.manifestName = b.lockName
    · rw [copies, hname, h hname, Table.get?_set_self]
    · rw [copies, Table.get?_set_of_ne hname, Table.get?_set_self]
  lock := Table.get?_set_self _ _ _

theorem store_ok {table : Table Nat (Table String Bytes)}
    (hempty : w.directories = Table.set b.directory [] table)
    (h : b.store host w = (.ok (), w')) :
    w'.made = w.made ∧ w'.directories = Table.set b.directory b.copies table := by
  obtain ⟨⟨⟩, v, hmanifest, hlock⟩ := Action.bind_ok h
  obtain ⟨hmade, hdirectories⟩ := Action.writePrivate_ok hmanifest
  obtain ⟨hmade', hdirectories'⟩ := Action.writePrivate_ok hlock
  rw [hempty, Table.get?_set_self, Table.set_set] at hdirectories
  rw [hdirectories, Table.get?_set_self, Table.set_set] at hdirectories'
  exact ⟨hmade'.trans hmade, hdirectories'⟩

/-- Only a file error keeps a copy from being written. -/
theorem store_error {f : Failure} (h : b.store host w = (.error f, w')) :
    ∃ e, f = .ofCause (.file e) := by
  unfold store at h
  rcases Action.bind_cases host (Action.writePrivate b.directory b.manifestName
    b.snapshot.contents.manifest) _ w with ⟨⟨⟩, v, hmanifest, hb⟩ | ⟨e, v, hmanifest, hb⟩
  · exact (Action.writePrivate_error (hb.symm.trans h)).2
  · obtain ⟨rfl, rfl⟩ : e = f ∧ v = w' := by simpa using hb.symm.trans h
    exact (Action.writePrivate_error hmanifest).2

theorem within_using_store (b : Backup) : Action.Within host (.using b.directory) b.store :=
  Action.within_bind (Action.within_using_writePrivate _ _ _) fun _ =>
    Action.within_using_writePrivate _ _ _

theorem ofSnapshot_copied {s : Snapshot} (h : ofSnapshot s host w = (.ok b, w')) :
    b.directory = w.made ∧ w'.made = w.made + 1 ∧
      w'.directories = Table.set b.directory b.copies w.directories := by
  unfold ofSnapshot at h
  obtain ⟨d, v, hmake, h⟩ := Action.bind_ok h
  obtain ⟨rfl, hmade, hempty⟩ := Action.makeDirectory_ok (Action.mapFailure_ok hmake)
  rw [Action.bind_run, Action.attempt_run] at h
  rcases hs : store ⟨s, w.made⟩ host v with ⟨f | ⟨⟩, v'⟩
  · rw [hs] at h
    obtain ⟨e, rfl⟩ := store_error hs
    cases h
  · rw [hs] at h
    obtain ⟨rfl, rfl⟩ : (⟨s, w.made⟩ : Backup) = b ∧ v' = w' := by simpa using h
    obtain ⟨hmade', hdirectories⟩ := store_ok hempty hs
    exact ⟨rfl, hmade'.trans hmade, hdirectories⟩

/-- **A copy that cannot be kept leaves no directory behind.** -/
theorem ofSnapshot_spared {s : Snapshot} {f : Failure}
    (h : ofSnapshot s host w = (.error f, w')) : Frame.tidy.rel w w' := by
  intro table ds howes
  unfold ofSnapshot at h
  rcases Action.bind_cases host (Action.onFileError Action.makeDirectory _) _ w with
    ⟨d, v, hmake, hb⟩ | ⟨e, v, hmake, hb⟩
  · obtain ⟨rfl, hmade, hempty⟩ := Action.makeDirectory_ok (Action.mapFailure_ok hmake)
    rw [hb, Action.bind_run, Action.attempt_run] at h
    rcases hs : store ⟨s, w.made⟩ host v with ⟨e | ⟨⟩, v'⟩
    · rw [hs] at h
      obtain ⟨e, rfl⟩ := store_error hs
      obtain rfl : (Action.discardDirectory w.made host v').2 = w' := congrArg Prod.snd h
      have kept := (within_using_store ⟨s, w.made⟩).rel_of_eq hs table (w.made :: ds)
        List.mem_cons_self (howes.of_made hmade hempty)
      exact kept.discarded host
    · rw [hs] at h
      cases h
  · obtain ⟨e', hfault, -⟩ := Action.mapFailure_error hmake
    obtain rfl : v = w' := congrArg Prod.snd (hb.symm.trans h)
    exact howes.of_directories (Action.makeDirectory_error hfault)

/-- **Once a copy is taken its private directory holds both files.** -/
theorem take_copied (h : Backup.take files host w = (.ok b, w')) :
    b.directory = w.made ∧ w'.made = w.made + 1 ∧
      w'.directories = Table.set b.directory b.copies w.directories := by
  obtain ⟨s, v, hread, h⟩ := Action.bind_ok h
  obtain ⟨b', v', hkeep, h⟩ := Action.bind_ok h
  obtain ⟨rfl, rfl⟩ : b' = b ∧ _ = w' := by simpa [Action.bind_run] using h
  obtain ⟨hdirectories, hmade⟩ := (Snapshot.within_directories_read files).rel_of_eq hread
  have hcopied := ofSnapshot_copied hkeep
  rw [hdirectories, hmade] at hcopied
  exact hcopied

/-- Without a copy there is no directory for it. -/
theorem take_spared {f : Failure} (h : Backup.take files host w = (.error f, w')) :
    Frame.tidy.rel w w' := by
  have looks := (@Snapshot.within_directories_read host files).tidy
  unfold take at h
  rcases hread : Snapshot.read files host w with ⟨e | s, v⟩
  · rw [Action.bind_of_error hread] at h
    obtain rfl : v = w' := congrArg Prod.snd h
    exact looks.rel_of_eq hread
  · rw [Action.bind_of_ok hread] at h
    rcases hkeep : ofSnapshot s host v with ⟨e | b, v'⟩
    · rw [Action.bind_of_error hkeep] at h
      obtain rfl : v' = w' := congrArg Prod.snd h
      exact Frame.trans _ (looks.rel_of_eq hread) (ofSnapshot_spared hkeep)
    · rw [Action.bind_of_ok hkeep] at h
      cases h

/-! ## 2. Putting the files back -/

theorem within_directories_rewrite (path : String) (content : Bytes) :
    Action.Within host .directories (rewrite path content) := by
  refine Action.within_bind (Action.within_directories_writeFile _ _) fun _ =>
    Action.within_bind Action.within_directories_moment fun now =>
      Action.within_bind Action.within_host fun h =>
        Action.within_bind (Action.within_directories_files _) fun _ =>
          Action.within_bind (Action.within_directories_readFile _) fun c => ?_
  split
  · exact Action.within_fail _
  · exact Action.within_pure _

/-- Putting the files back leaves the copy alone. -/
theorem within_directories_restore (b : Backup) (host : Host) :
    Action.Within host .directories b.restore := by
  refine Action.within_bind (within_restoreFile (within_directories_rewrite _ _)) fun m =>
    Action.within_bind (within_restoreFile (within_directories_rewrite _ _)) fun l =>
      Action.within_bind (Action.within_directories_record _) fun _ => ?_
  split
  · exact Action.within_pure _
  · exact Action.within_bind Action.within_host fun _ =>
      Action.within_bind (Action.within_directories_log _ _ _ _) fun _ => Action.within_fail _

/-! ## 3. After the work -/

/-- When the copy is given up after tidy work, all is as it was before it was taken. -/
theorem tidy_of_closed {w₁ w₂ : World} (htake : Backup.take files host w = (.ok b, w₁))
    (hwork : Frame.tidy.rel w₁ w₂) : Frame.tidy.rel w (b.close host w₂).2 := by
  intro table ds howes
  obtain ⟨hdirectory, hmade, hset⟩ := take_copied htake
  have owed := hwork table (b.directory :: ds)
    (hdirectory ▸ howes.of_made hmade (hdirectory ▸ hset))
  exact owed.discarded host

/-- **Until it is given up the copy is the one directory that was added.** -/
theorem copies_of_tidy {w₁ w₂ : World} (htake : Backup.take files host w = (.ok b, w₁))
    (hwork : Frame.tidy.rel w₁ w₂) (hw : w.Fresh) :
    w₂.Fresh ∧ w₂.directories = w.directories ++ [(b.directory, b.copies)] := by
  obtain ⟨hdirectory, hmade, hset⟩ := take_copied htake
  have taken := (World.Owes.refl hw).of_made hmade (hdirectory ▸ hset)
  have worked := hwork w₁.directories [] (.refl taken.fresh)
  refine ⟨worked.fresh, worked.directories_eq.trans ?_⟩
  rw [hset, Table.set_of_not_mem_keys (hdirectory ▸ hw.not_mem_keys)]

end Backup
end UpgradeAudit
