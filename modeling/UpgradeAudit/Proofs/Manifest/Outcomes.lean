/-
# What a transaction comes to

The body of a transaction may do anything and end in any way, and each of the two files may or
may not be put back after it.  `Backup.Settled` says what comes of every such combination, and
`ManifestFiles.transaction_settled` that a transaction is settled so.

Two facts decide.  The files have different names, so they lie in different places
(`ManifestFiles.apart_of_names`), and a file that was put back stands as it was copied whatever
is done to the other one afterwards (`Backup.within_stands_rewrite`).  And joining undoes one level
of joining only, so that what comes of a body that failed is made of the very failures that it
was joined of (`Failure.join_pair`).
-/
import UpgradeAudit.Proofs.Manifest.Copies

namespace UpgradeAudit

variable {α : Type} {host : Host} {w w' : World} {path other : String} {content : Bytes}
  {files : ManifestFiles}

/-! ## 1. A file beside another one -/

/-- A file or directory that stands at a path stays there. -/
def Frame.stands (path : String) (e : FileEntry) : Frame where
  rel w w' := w.files.standing path = .ok (some e) → w'.files.standing path = .ok (some e)
  refl _ := id
  trans h h' := h' ∘ h

theorem Frame.stands_of_eq {e : FileEntry} (h : w'.files = w.files) :
    (Frame.stands path e).rel w w' := fun hstands => h ▸ hstands

/-- **A file stays as it is when one in another place is put back.** -/
theorem Backup.within_stands_rewrite {e : FileEntry} (ha : FileTree.Apart path other)
    (hm : ∀ now t, (host.meddle now t).standing other = t.standing other) :
    Action.Within host (.stands other e) (Backup.rewrite path content) := by
  refine Backup.within_rewrite_of (fun h => Frame.stands_of_eq h.1) (fun c w hstands => ?_)
    fun now w hstands => (hm now w.files).trans hstands
  rw [Action.putFile, Action.bind_run, Action.world_run]
  cases hwrite : w.files.write path c with
  | error fault => simpa [hwrite] using hstands
  | ok t =>
    rcases FileTree.standing_write_other hwrite hstands with hstays | ⟨-, loc, hpath, hother⟩
    · simpa [hwrite] using hstays
    · exact absurd hother (ha _ loc hpath)

namespace ManifestFiles

/-- Both files are named, and lie in different places when the names differ. -/
theorem apart_of_names {manifest : String} {lock : Option String} {contents : ManifestContents}
    {t : FileTree} (hfiles : ofPaths manifest lock = .ok files)
    (hnames : files.manifest.name? ≠ files.lock.name?) (hhold : files.Hold contents t) :
    FileTree.Apart files.lock.text files.manifest.text ∧
      files.manifest.name?.getD "" ≠ files.lock.name?.getD "" := by
  obtain ⟨⟨hmanifest, hdot⟩, hlock, hdot'⟩ := clean_of_ofPaths hfiles
  obtain ⟨a, ha⟩ := FileTree.exists_name_of_standing hmanifest hdot hhold.1
  obtain ⟨b, hb⟩ := FileTree.exists_name_of_standing hlock hdot' hhold.2
  have hne : a ≠ b := fun he => hnames (by rw [ha.1, hb.1, he])
  refine ⟨FileTree.apart_of_names hlock hmanifest hb ha hne.symm, ?_⟩
  rw [ha.1, hb.1]
  exact hne

end ManifestFiles

/-! ## 2. Outcomes -/

/-- What comes of a transaction that keeps the copy `b`.  Its body began in `w₁`, left `w₂` and
ended as `outcome`; then `manifest` and `lock` tell what went wrong with putting each file back,
and the whole ended as `r` and left `w'`. -/
structure Backup.Settled (b : Backup) (host : Host) (w₁ w₂ : World) (outcome : Except Failure α)
    (manifest lock : Option Failure) (r : Except Failure α) (w' : World) : Prop where
  /-- Both files are attempted after the body, the lock file after the manifest. -/
  attempts : ∃ v v',
    restoreFile b.snapshot.files.manifest.text b.snapshot.contents.manifest host w₂
        = (.ok manifest, v) ∧
      restoreFile b.snapshot.files.lock.text b.snapshot.contents.lock host v = (.ok lock, v')
  attempted : Attempted b.snapshot.files.manifest.text manifest ∧
    Attempted b.snapshot.files.lock.text lock
  /-- Each file that was put back holds what it held, whatever became of the other one. -/
  manifestStands (h : manifest = none) : w'.files.standing b.snapshot.files.manifest.text
    = .ok (some (.file b.snapshot.contents.manifest))
  lockStands (h : lock = none) : w'.files.standing b.snapshot.files.lock.text
    = .ok (some (.file b.snapshot.contents.lock))
  /-- The transaction succeeds when its body did and both files were put back. -/
  succeeds (a : α) : r = .ok a ↔ outcome = .ok a ∧ manifest = none ∧ lock = none
  /-- After a body that succeeded it fails with what went wrong with the files. -/
  afterSuccess {a : α} (h : outcome = .ok a) :
    r = match Failure.join [manifest, lock] with
      | none => .ok a
      | some g => .error g
  /-- A failure of the body is passed on as it is, or joined with what went wrong with the files. -/
  afterFailure {e : Failure} (h : outcome = .error e) (hc : e.isCancellation = false)
      (hleaves : e.leaves ≠ []) :
    manifest = none ∧ lock = none ∧ r = .error e ∨
      ¬ (manifest = none ∧ lock = none) ∧ ∃ fs, r = .error (.joined fs []) ∧
        fs = e.parts ++ (manifest.toList ++ lock.toList) ∧
        Failure.leavesOf fs = e.leaves ++ (manifest.toList ++ lock.toList)
  /-- A cancellation is passed on, with a note when something went wrong with the files. -/
  afterCancellation {c : Failure} (h : outcome = .error c) (hc : c.isCancellation = true) :
    manifest = none ∧ lock = none ∧ r = .error c ∨
      ¬ (manifest = none ∧ lock = none) ∧ ∃ g, Failure.join [manifest, lock] = some g ∧
        r = .error (c.addNote ("manifest restore also failed: " ++ g.message))
  /-- The body begins with an exact copy of both files in the private directory. -/
  copied : Table.get? b.directory w₁.directories = some b.copies ∧ b.Exact
  /-- The directory is removed when both files were put back, and else kept as the body left it. -/
  directory : Table.get? b.directory w'.directories
    = if manifest = none ∧ lock = none then none else Table.get? b.directory w₂.directories

namespace Backup

variable {b : Backup} {w₁ w₂ w₃ : World} {m l : Option Failure} {outcome : Except Failure α}

/-! ## 3. Both attempts -/

/-- Both files have been attempted in `w`, one after the other: `m` and `l` tell what went wrong,
and in `w'` each of them stands that could be put back. -/
structure Tried (b : Backup) (host : Host) (w : World) (m l : Option Failure) (w' : World) :
    Prop where
  attempts : ∃ v,
    restoreFile b.snapshot.files.manifest.text b.snapshot.contents.manifest host w = (.ok m, v) ∧
      restoreFile b.snapshot.files.lock.text b.snapshot.contents.lock host v = (.ok l, w')
  attempted : Attempted b.snapshot.files.manifest.text m ∧ Attempted b.snapshot.files.lock.text l
  manifestStands (h : m = none) : w'.files.standing b.snapshot.files.manifest.text
    = .ok (some (.file b.snapshot.contents.manifest))
  lockStands (h : l = none) : w'.files.standing b.snapshot.files.lock.text
    = .ok (some (.file b.snapshot.contents.lock))

/-- **The attempt on the lock file leaves the manifest as it was put back.** -/
theorem tried (hb : b.Sound)
    (ha : FileTree.Apart b.snapshot.files.lock.text b.snapshot.files.manifest.text)
    (hu : b.snapshot.files.Undisturbed host) (w : World) :
    ∃ m l w', b.Tried host w m l w' := by
  obtain ⟨m, v, hm, hmm⟩ :=
    restoreFile_attempted hb.manifestName host b.snapshot.contents.manifest w
  obtain ⟨l, w', hl, hlm⟩ := restoreFile_attempted hb.lockName host b.snapshot.contents.lock v
  refine ⟨m, l, w', ⟨v, hm, hl⟩, ⟨hmm, hlm⟩, ?_, ?_⟩
  · rintro rfl
    exact (within_restoreFile (within_stands_rewrite ha hu.meddling)).rel_of_eq hl
      (restoreFile_none hb.manifestName hm)
  · rintro rfl
    exact restoreFile_none hb.lockName hl

/-- What went wrong with putting the files back is joined of one failure for each file. -/
theorem join_attempts (hm : Attempted b.snapshot.files.manifest.text m)
    (hl : Attempted b.snapshot.files.lock.text l) :
    Failure.join [m, l] = none ∧ m = none ∧ l = none ∨
      ¬ (m = none ∧ l = none) ∧ ∃ g, Failure.join [m, l] = some g ∧
        g.parts = m.toList ++ l.toList ∧ g.leaves = m.toList ++ l.toList := by
  rcases hm with rfl | ⟨reason, rfl⟩ <;> rcases hl with rfl | ⟨reason', rfl⟩
  · exact Or.inl ⟨rfl, rfl, rfl⟩
  · exact Or.inr ⟨by simp, _, rfl, rfl, by simp [Failure.leaves, Failure.ofCause]⟩
  · exact Or.inr ⟨by simp, _, rfl, rfl, by simp [Failure.leaves, Failure.ofCause]⟩
  · exact Or.inr ⟨by simp, _, rfl, rfl,
      by simp [Failure.parts, Failure.leaves, Failure.leavesOf, Failure.ofCause]⟩

/-- A failure of the body and the failure to put files back are joined, part by part. -/
theorem combined_of_failure {e g : Failure} (hc : e.isCancellation = false)
    (he : e.leaves ≠ []) (hg : g.leaves ≠ []) :
    combined (.error e : Except Failure α) g = .joined (e.parts ++ g.parts) [] := by
  simp [combined, hc, Failure.join_pair (Failure.parts_ne_nil he) (Failure.parts_ne_nil hg)]

/-! ## 4. The two ends -/

/-- Where both files were put back the outcome of the body stays. -/
theorem Tried.settled_of_restored (h : b.Tried host w₂ none none w₃)
    (copied : Table.get? b.directory w₁.directories = some b.copies ∧ b.Exact) :
    b.Settled host w₁ w₂ outcome none none (b.finish outcome host w₂).1
      (b.finish outcome host w₂).2 := by
  obtain ⟨v, hm, hl⟩ := h.attempts
  rcases restore_of_attempts hm hl with ⟨hjoin, hr⟩ | ⟨g, r, hjoin, -⟩
  · rw [finish_of_restored hr]
    exact {
      attempts := ⟨v, w₃, hm, hl⟩
      attempted := h.attempted
      manifestStands := h.manifestStands
      lockStands := h.lockStands
      succeeds := fun a => by simp
      afterSuccess := fun houtcome => by rw [hjoin, houtcome]
      afterFailure := fun houtcome _ _ => Or.inl ⟨rfl, rfl, houtcome⟩
      afterCancellation := fun houtcome _ => Or.inl ⟨rfl, rfl, houtcome⟩
      copied
      directory := by
        rw [if_pos ⟨rfl, rfl⟩]
        have hleft := Table.get?_filter (fun d => decide (d ≠ b.directory)) b.directory
          w₃.directories
        rwa [if_neg (by simp)] at hleft }
  · cases hjoin

/-- Where one of the files was not put back, or neither was, the outcome of the body is combined
with what went wrong, and the copy is kept. -/
theorem Tried.settled_of_broken (h : b.Tried host w₂ m l w₃) (hbroken : ¬ (m = none ∧ l = none))
    (hu : b.snapshot.files.Undisturbed host)
    (copied : Table.get? b.directory w₁.directories = some b.copies ∧ b.Exact) :
    b.Settled host w₁ w₂ outcome m l (b.finish outcome host w₂).1
      (b.finish outcome host w₂).2 := by
  obtain ⟨v, hm, hl⟩ := h.attempts
  obtain ⟨-, hnone⟩ | ⟨-, g, hjoin, hparts, hleaves⟩ := join_attempts h.attempted.1 h.attempted.2
  · exact absurd hnone hbroken
  obtain ⟨hjoin', -⟩ | ⟨g', r, hjoin', hr⟩ := restore_of_attempts hm hl
  · cases hjoin.symm.trans hjoin'
  obtain rfl : g = g' := Option.some.inj (hjoin.symm.trans hjoin')
  have alike := hu.records r w₃.files
  have hdirectories := within_directories_restore b host w₂
  have hgleaves : g.leaves ≠ [] := by
    rw [hleaves]
    cases m <;> cases l <;> simp_all
  rw [finish_of_broken hr]
  exact {
    attempts := ⟨v, w₃, hm, hl⟩
    attempted := h.attempted
    manifestStands := fun hnone => alike.1.trans (h.manifestStands hnone)
    lockStands := fun hnone => alike.2.trans (h.lockStands hnone)
    succeeds := fun a => by simp [hbroken]
    afterSuccess := fun houtcome => by rw [hjoin, houtcome]; rfl
    afterFailure := fun {e} houtcome hc he => by
      refine Or.inr ⟨hbroken, e.parts ++ g.parts, ?_, by rw [hparts], ?_⟩
      · rw [houtcome, combined_of_failure hc he hgleaves]
      · rw [Failure.leavesOf_append, Failure.leavesOf_parts, Failure.leavesOf_parts, hleaves]
    afterCancellation := fun houtcome hc =>
      Or.inr ⟨hbroken, g, hjoin, by simp [houtcome, combined, hc]⟩
    copied
    directory := by
      rw [if_neg hbroken, ← hdirectories.1, hr]
      rfl }

end Backup

/-- **A transaction is settled**, whatever its body does, however it ends, and whichever of the two
files can be put back; what it copies is what both files held when it began. -/
theorem ManifestFiles.transaction_settled {manifest : String} {lock : Option String} {b : Backup}
    {w₁ : World} (hfiles : ofPaths manifest lock = .ok files)
    (hnames : files.manifest.name? ≠ files.lock.name?) (hu : files.Undisturbed host)
    (htake : Backup.take files host w = (.ok b, w₁)) (work : Backup → Action α) :
    files.Hold b.snapshot.contents w.files ∧
      ∃ m l, b.Settled host w₁ (work b host w₁).2 (work b host w₁).1 m l
        (files.transaction work host w).1 (files.transaction work host w).2 := by
  obtain ⟨rfl, hb, hhold, -, -⟩ := Backup.take_ok htake
  obtain ⟨hapart, hname⟩ := apart_of_names hfiles hnames hhold
  rcases hwork : work b host w₁ with ⟨outcome, w₂⟩
  have htransaction : b.snapshot.files.transaction work host w = b.finish outcome host w₂ := by
    rw [transaction, Action.bind_of_ok htake, Action.bind_run, Action.attempt_run, hwork]
  have copied : Table.get? b.directory w₁.directories = some b.copies ∧ b.Exact := by
    rw [(Backup.take_copied htake).2.2]
    exact ⟨Table.get?_set_self _ _ _, Backup.exact_of_names fun h => absurd h hname⟩
  obtain ⟨m, l, w₃, tried⟩ := Backup.tried hb hapart hu w₂
  refine ⟨hhold, m, l, ?_⟩
  rw [htransaction]
  by_cases hnone : m = none ∧ l = none
  · obtain ⟨rfl, rfl⟩ := hnone
    exact tried.settled_of_restored copied
  · exact tried.settled_of_broken hnone hu copied

/-- A host on which the manifest cannot be written any more. -/
def Host.full : Host :=
  { Host.quiet fun _ _ => .interrupted with
    writeFault := fun _ path =>
      if path = "go.mod" then some (.torn (.device 28 "No space left on device") []) else none }

/-- A manifest that declares nothing, and an empty lock file. -/
def FileTree.bare : FileTree := ⟨[(["go.mod"], .file [109]), (["go.sum"], .file [])], none⟩

/-- Work that loses every file and is then cancelled. -/
def ruin : Action Unit := do
  Action.change fun w => { w with files := .empty }
  Action.failFor .cancelled

/-- A transaction that is cancelled, after which only the lock file can be put back. -/
theorem ManifestFiles.transaction_settled_ruin :
    ∃ b w₁, Backup.take ⟨.ofText "go.mod", .ofText "go.sum"⟩ .full (.ofFiles .bare) = (.ok b, w₁) ∧
      ManifestFiles.Hold ⟨.ofText "go.mod", .ofText "go.sum"⟩ b.snapshot.contents FileTree.bare ∧
      ∃ m l, b.Settled .full w₁ (ruin .full w₁).2 (ruin .full w₁).1 m l
        (transaction ⟨.ofText "go.mod", .ofText "go.sum"⟩ (fun _ => ruin) .full (.ofFiles .bare)).1
        (transaction ⟨.ofText "go.mod", .ofText "go.sum"⟩ (fun _ => ruin) .full
          (.ofFiles .bare)).2 := by
  have hfiles : ofPaths "go.mod" none = .ok ⟨.ofText "go.mod", .ofText "go.sum"⟩ := by rfl
  have hu : Undisturbed ⟨.ofText "go.mod", .ofText "go.sum"⟩ .full :=
    ⟨fun _ t => .refl _ t, fun _ _ => rfl⟩
  have htaken : (Backup.take ⟨.ofText "go.mod", .ofText "go.sum"⟩ .full
      (.ofFiles .bare)).1.toOption.isSome := by decide +kernel
  rcases h : Backup.take ⟨.ofText "go.mod", .ofText "go.sum"⟩ .full (.ofFiles .bare) with
    ⟨f | b, w₁⟩
  · rw [h] at htaken
    cases htaken
  · exact ⟨b, w₁, rfl, transaction_settled hfiles (by decide) hu h fun _ => ruin⟩

end UpgradeAudit
