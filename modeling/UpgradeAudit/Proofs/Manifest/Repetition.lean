/-
# Transactions that repeat

Under steady surroundings a transaction whose work repeats does so itself: the copy that is taken
is the same, the work ends alike, and putting the copy back goes alike, whether it succeeds or not
(`repeats_transaction`).  Where the private directory is, and when all this happens, does not
matter.
-/
import UpgradeAudit.Proofs.Manifest.Steady
import UpgradeAudit.Proofs.Manifest.Transactions

namespace UpgradeAudit

variable {α : Type} {host : Host} {files : ManifestFiles} {usual : FileTree → Prop}
  {path : String} {content : Bytes}

/-! ## 1. Writing a manifest file -/

theorem FileTree.write_congr {t t' : FileTree} (h : t.standing path = t'.standing path)
    (content : Bytes) :
    (∃ fault, t.write path content = .error fault ∧ t'.write path content = .error fault) ∨
      ∃ u u', t.write path content = .ok u ∧ t'.write path content = .ok u' := by
  unfold write
  rcases locate_cases h with ⟨fault, hl, hl'⟩ | ⟨loc, loc', hl, hl', he⟩
  · exact Or.inl ⟨fault, by rw [hl]; rfl, by rw [hl']; rfl⟩
  · simp only [hl, hl', bind, Except.bind, he]
    cases t'.entry? loc' with
    | none => exact Or.inr ⟨_, _, rfl, rfl⟩
    | some e =>
      cases e with
      | file c => exact Or.inr ⟨_, _, rfl, rfl⟩
      | directory => exact Or.inl ⟨_, rfl, rfl⟩

theorem ManifestFiles.Alike.standing {t t' : FileTree} (h : files.Alike t t')
    (hpath : files.Has path) : t.standing path = t'.standing path := by
  rcases hpath with rfl | rfl
  · exact h.1
  · exact h.2

/-- What is written to one of the two files leaves both alike. -/
theorem ManifestFiles.Alike.write {t t' u u' : FileTree} (hs : files.Separate)
    (hpath : files.Has path) (halike : files.Alike t t')
    (hu : t.write path content = .ok u) (hu' : t'.write path content = .ok u') :
    files.Alike u u' := by
  have here := (FileTree.standing_write hu).trans (FileTree.standing_write hu').symm
  have elsewhere {other : String} (h : FileTree.Spares path other)
      (ho : t.standing other = t'.standing other) : u.standing other = u'.standing other :=
    (h _ _ _ hu).trans (ho.trans (h _ _ _ hu').symm)
  rcases hs with hsame | ⟨manifest, lock⟩
  · have hboth : path = files.manifest.text ∧ path = files.lock.text := by
      rcases hpath with h | h
      · exact ⟨h, h.trans hsame⟩
      · exact ⟨h.trans hsame.symm, h⟩
    exact ⟨hboth.1 ▸ here, hboth.2 ▸ here⟩
  · rcases hpath with rfl | rfl
    · exact ⟨here, elsewhere manifest halike.2⟩
    · exact ⟨elsewhere lock halike.1, here⟩

namespace Action

theorem twin_change {E : FileTree → FileTree → Prop} {f g : World → World}
    (h : ∀ w v, E w.files v.files → E (f w).files (g v).files) :
    Twin host E (· = ·) (change f) (change g) :=
  fun w v halike => ⟨.ok rfl, h w v halike⟩

theorem repeats_putFile (h : host.Steady files usual) (hs : files.Separate)
    (hpath : files.Has path) : Repeats host (files.AlikeIn usual) (putFile path content) := by
  intro w v halike
  unfold putFile
  simp only [bind_run, world_run]
  rcases FileTree.write_congr (halike.alike.standing hpath) content with
    ⟨fault, hw, hv⟩ | ⟨u, u', hw, hv⟩
  · rw [hw, hv]
    exact ⟨.error _, halike⟩
  · rw [hw, hv]
    exact ⟨.ok trivial, h.written _ _ _ _ hpath halike.here hw,
      h.written _ _ _ _ hpath halike.there hv, halike.alike.write hs hpath hw hv⟩

theorem repeats_writeFile (h : host.Steady files usual) (hs : files.Separate)
    (hpath : files.Has path) : Repeats host (files.AlikeIn usual) (writeFile path content) := by
  refine repeats_bind (repeats_checkName path) fun _ =>
    twin_bind twin_moment fun now now' _ => twin_bind twin_host fun h₁ h₂ hosts => ?_
  rw [hosts.1, hosts.2, h.writeFault now, h.writeFault now']
  cases host.writeFault 0 path with
  | none => exact repeats_putFile h hs hpath
  | some fault =>
    cases fault with
    | refused fault => exact twin_fail _
    | torn fault left => exact repeats_bind (repeats_putFile h hs hpath) fun _ => twin_fail _

end Action

/-! ## 2. Putting the files back -/

namespace Backup

theorem repeats_rewrite (h : host.Steady files usual) (hs : files.Separate)
    (hpath : files.Has path) (content : Bytes) :
    Action.Repeats host (files.AlikeIn usual) (rewrite path content) := by
  refine Action.repeats_bind (Action.repeats_writeFile h hs hpath) fun _ =>
    Action.twin_bind Action.twin_moment fun now now' _ =>
      Action.twin_bind Action.twin_host fun h₁ h₂ hosts => ?_
  rw [hosts.1, hosts.2]
  refine Action.twin_bind (Action.twin_change fun w v halike => ?_) fun _ _ _ => ?_
  · exact ⟨h.meddled now _ halike.here, h.meddled now' _ halike.there,
      (h.meddling now w.files).trans (halike.alike.trans (h.meddling now' v.files).symm)⟩
  · refine Action.repeats_bind
      (Action.repeats_readFile h fun _ _ halike => halike.alike.standing hpath) fun c => ?_
    split
    · exact Action.twin_fail _
    · exact Action.twin_pure rfl

theorem repeats_restoreFile (h : host.Steady files usual) (hs : files.Separate)
    (hpath : files.Has path) (content : Bytes) :
    Action.Repeats host (files.AlikeIn usual) (restoreFile path content) := by
  refine Action.repeats_bind (Action.repeats_attempt (repeats_rewrite h hs hpath content))
    fun r => ?_
  split
  · exact Action.twin_pure rfl
  · exact Action.twin_pure rfl
  · exact Action.twin_pure rfl

variable {b b' : Backup}

/-- **Copies with the same contents are put back alike.** -/
theorem twin_restore (h : host.Steady b.snapshot.files usual) (hs : b.snapshot.files.Separate)
    (hb : b'.snapshot = b.snapshot) :
    Action.Twin host (b.snapshot.files.AlikeIn usual) (· = ·) b.restore b'.restore := by
  have manifest := repeats_restoreFile h hs (Or.inl rfl)
    b.snapshot.contents.manifest
  have lock := repeats_restoreFile h hs (Or.inr rfl) b.snapshot.contents.lock
  unfold restore
  rw [hb]
  refine Action.twin_bind manifest fun m _ same => ?_
  obtain rfl := same
  refine Action.twin_bind lock fun l _ same => ?_
  obtain rfl := same
  refine Action.twin_bind (Action.twin_record _ _) fun _ _ _ => ?_
  cases Failure.join [m, l] with
  | none => exact Action.twin_pure rfl
  | some f =>
    refine Action.twin_bind Action.twin_host fun _ _ _ => ?_
    exact Action.twin_bind (Action.twin_log h.spares) fun _ _ _ =>
      Action.twin_fail f

/-! ## 3. Taking a copy -/

end Backup

namespace Snapshot

/-- The same is read. -/
theorem twin_read (h : host.Steady files usual) :
    Action.Twin host (files.AlikeIn usual) (fun s s' => s = s' ∧ s.files = files) (read files)
      (read files) := by
  have reads {path : String} (hpath : files.Has path) (cause : FileError → Cause) :
      Action.Repeats host (files.AlikeIn usual) ((Action.readFile path).onFileError cause) :=
    Action.twin_mapFailure
      (Action.repeats_readFile h fun _ _ halike => halike.alike.standing hpath) _
  unfold read
  refine Action.twin_bind (reads (Or.inl rfl) _) fun manifest _ same => ?_
  obtain rfl := same
  refine Action.twin_bind (reads (Or.inr rfl) _) fun lock _ same => ?_
  obtain rfl := same
  exact Action.twin_bind (Action.twin_record _ _) fun _ _ _ => Action.twin_pure ⟨rfl, rfl⟩

theorem repeats_read (h : host.Steady files usual) :
    Action.Repeats host (files.AlikeIn usual) (read files) :=
  (twin_read h).imp fun _ _ same => same.1

end Snapshot

namespace Backup

variable {b b' : Backup}

/-- Copies of the same snapshot, wherever they are kept. -/
def Copies (s : Snapshot) (b b' : Backup) : Prop := b.snapshot = s ∧ b'.snapshot = s

theorem twin_store (h : host.Steady files usual) {s : Snapshot} (hb : Copies s b b') :
    Action.Twin host (files.AlikeIn usual) (· = ·) b.store b'.store := by
  unfold store manifestName lockName
  rw [hb.1, hb.2]
  exact Action.twin_bind (Action.twin_writePrivate h _ _ _ _) fun _ _ _ =>
    Action.twin_writePrivate h _ _ _ _

theorem twin_ofSnapshot (h : host.Steady files usual) (s : Snapshot) :
    Action.Twin host (files.AlikeIn usual) (Copies s) (ofSnapshot s) (ofSnapshot s) := by
  unfold ofSnapshot
  refine Action.twin_bind (Action.twin_mapFailure (Action.twin_makeDirectory h) _) fun d d' _ => ?_
  have stored : Action.Twin host (files.AlikeIn usual) (· = ·) (store ⟨s, d⟩) (store ⟨s, d'⟩) :=
    twin_store h ⟨rfl, rfl⟩
  refine Action.twin_bind (Action.twin_attempt stored) fun r r' agree => ?_
  obtain rfl := agree.eq
  have gone (cause : Cause) : Action.Twin host (files.AlikeIn usual) (Copies s)
      (Action.discardDirectory d >>= fun _ => Action.failFor cause)
      (Action.discardDirectory d' >>= fun _ => Action.failFor cause) :=
    Action.twin_bind (Action.twin_discardDirectory d d') fun _ _ _ => Action.twin_fail _
  rcases r with f | ⟨⟩
  · rcases f with ⟨cause, notes⟩ | ⟨fs, notes⟩
    · cases cause
      case file e => exact gone _
      all_goals exact Action.twin_fail _
    · exact Action.twin_fail _
  · exact Action.twin_pure ⟨rfl, rfl⟩

/-- **The same copy is taken.** -/
theorem twin_take (h : host.Steady files usual) :
    Action.Twin host (files.AlikeIn usual)
      (fun b b' => b.snapshot.files = files ∧ b'.snapshot = b.snapshot) (take files)
      (take files) := by
  unfold take
  refine Action.twin_bind (Snapshot.twin_read h) fun s _ same => ?_
  obtain ⟨rfl, hfiles⟩ := same
  refine Action.twin_bind (twin_ofSnapshot h s) fun b b' copies => ?_
  refine Action.twin_bind (Action.twin_record _ _) fun _ _ _ => Action.twin_pure ⟨?_, ?_⟩
  · rw [copies.1, hfiles]
  · rw [copies.1, copies.2]

/-- **However the work ended, the transaction ends alike.** -/
theorem twin_finish (h : host.Steady b.snapshot.files usual) (hs : b.snapshot.files.Separate)
    (hb : b'.snapshot = b.snapshot) (outcome : Except Failure α) :
    Action.Twin host (b.snapshot.files.AlikeIn usual) (· = ·) (b.finish outcome)
      (b'.finish outcome) := by
  have closes (e e' : Event) (x : Action α)
      (hx : Action.Repeats host (b.snapshot.files.AlikeIn usual) x) :
      Action.Twin host (b.snapshot.files.AlikeIn usual) (· = ·)
        (b.close >>= fun _ => Action.record e >>= fun _ => x)
        (b'.close >>= fun _ => Action.record e' >>= fun _ => x) :=
    Action.twin_bind (Action.twin_discardDirectory _ _) fun _ _ _ =>
      Action.twin_bind (Action.twin_record e e') fun _ _ _ => hx
  have keeps (e e' : Event) (x : Action α)
      (hx : Action.Repeats host (b.snapshot.files.AlikeIn usual) x) :
      Action.Twin host (b.snapshot.files.AlikeIn usual) (· = ·) (Action.record e >>= fun _ => x)
        (Action.record e' >>= fun _ => x) :=
    Action.twin_bind (Action.twin_record e e') fun _ _ _ => hx
  unfold finish
  refine Action.twin_bind (Action.twin_attempt (twin_restore h hs hb)) fun r r' agree => ?_
  obtain rfl := agree.eq
  rcases outcome with e | a <;> rcases r with f | ⟨⟩
  · refine keeps _ _ _ ?_
    split
    · exact Action.twin_fail _
    · exact Action.twin_fail _
  · exact closes _ _ _ (Action.twin_fail e)
  · exact keeps _ _ _ (Action.twin_fail f)
  · exact closes _ _ _ (Action.twin_pure rfl)

end Backup

/-! ## 4. Transactions -/

/-- **A transaction repeats when its work does**, whatever copy it is given. -/
theorem ManifestFiles.repeats_transaction (h : host.Steady files usual) (hs : files.Separate)
    {work : Action α} (hwork : Action.Repeats host (files.AlikeIn usual) work) :
    Action.Repeats host (files.AlikeIn usual) (files.transaction fun _ => work) := by
  unfold transaction
  refine Action.twin_bind (Backup.twin_take h) fun b b' copies => ?_
  obtain ⟨rfl, hb⟩ := copies
  refine Action.twin_bind (Action.repeats_attempt hwork) fun outcome _ same => ?_
  obtain rfl := same
  exact Backup.twin_finish h hs hb outcome

theorem ManifestFiles.repeats_mutate (h : host.Steady files usual) {work : Action Unit}
    (hwork : Action.Repeats host (files.AlikeIn usual) work) :
    Action.Repeats host (files.AlikeIn usual) (files.mutate work) :=
  Action.repeats_bind hwork fun _ => Snapshot.repeats_read h

end UpgradeAudit
