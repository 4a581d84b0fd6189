/-
# Private directories

Which private directories there are, and what they hold.  Most operations leave them alone
(`Frame.directories`); three do not.  Making one adds it under a number that none has had before
(`makeDirectory_ok`), writing in one changes that one (`writePrivate_ok`), and removing one
leaves the others (`discardDirectory_run`).

A directory that is made is to be removed again, and until then it is owed.  `World.Owes` says
which directories there are besides those that are owed.  Work is tidy when it leaves these as
they are (`Frame.tidy`), whatever is owed meanwhile, and work may pay what other work owes
(`Action.Pays`).  A debt is paid where no removal fails (`Host.Removes`).
-/
import UpgradeAudit.Proofs.Host.Actions
import UpgradeAudit.Proofs.Tables

namespace UpgradeAudit

variable {α β : Type} {host : Host} {w w' : World} {directory : Nat} {name : String}
  {content : Bytes} {table : Table Nat (Table String Bytes)} {ds : List Nat}

/-- Private directories stay as they are, and no other is made. -/
def Frame.directories : Frame where
  rel w w' := w'.directories = w.directories ∧ w'.made = w.made
  refl _ := ⟨rfl, rfl⟩
  trans h h' := ⟨h'.1.trans h.1, h'.2.trans h.2⟩

/-- No private directory has a number that is still to be given. -/
def World.Fresh (w : World) : Prop := ∀ d ∈ w.directories, d.1 < w.made

theorem World.fresh_ofFiles (t : FileTree) : (World.ofFiles t).Fresh := fun _ hd => nomatch hd

theorem World.Fresh.not_mem_keys (h : w.Fresh) : w.made ∉ Table.keys w.directories := by
  intro hmem
  obtain ⟨d, hd, hnumber⟩ := List.mem_map.1 hmem
  exact absurd (h d hd) (by omega)

theorem World.fresh_iff : w.Fresh ↔ ∀ d ∈ Table.keys w.directories, d < w.made := by
  simp [World.Fresh, Table.keys]

namespace Action

/-! ## 1. Operations that leave private directories alone -/

theorem within_directories_moment : Within host .directories moment := fun _ => ⟨rfl, rfl⟩

theorem within_directories_room : Within host .directories room := fun _ => ⟨rfl, rfl⟩

theorem within_directories_record (e : Event) : Within host .directories (record e) :=
  fun _ => ⟨rfl, rfl⟩

theorem within_directories_log (severity : Severity) (origin event : String)
    (details : List (String × Json)) :
    Within host .directories (log severity origin event details) := fun _ => ⟨rfl, rfl⟩

/-- Changing the files changes no private directory. -/
theorem within_directories_files (f : World → FileTree) :
    Within host .directories (change fun w => { w with files := f w }) := fun _ => ⟨rfl, rfl⟩

theorem within_directories_checkpoint : Within host .directories checkpoint := by
  refine within_bind within_directories_moment fun now => within_bind within_host fun h => ?_
  split
  · exact within_fail _
  · exact within_pure _

theorem within_directories_checkName (path : String) :
    Within host .directories (checkName path) := by
  unfold checkName
  split
  · exact within_fail _
  · exact within_pure _

theorem within_directories_readFile (path : String) :
    Within host .directories (readFile path) := by
  refine within_bind (within_directories_checkName path) fun _ =>
    within_bind within_directories_moment fun now => within_bind within_host fun h => ?_
  split
  · exact within_fail _
  · refine within_bind within_world fun v => ?_
    split
    · exact within_pure _
    · exact within_fail _

theorem within_directories_putFile (path : String) (content : Bytes) :
    Within host .directories (putFile path content) := by
  refine within_bind within_world fun v => ?_
  split
  · exact within_directories_files _
  · exact within_fail _

theorem within_directories_writeFile (path : String) (content : Bytes) :
    Within host .directories (writeFile path content) := by
  refine within_bind (within_directories_checkName path) fun _ =>
    within_bind within_directories_moment fun now => within_bind within_host fun h => ?_
  split
  · exact within_directories_putFile _ _
  · exact within_fail _
  · exact within_bind (within_directories_putFile _ _) fun _ => within_fail _

theorem within_directories_privateName (directory : Nat) (name : String) :
    Within host .directories (privateName directory name) :=
  within_bind within_host fun _ => within_pure _

/-! ## 2. Operations on private directories -/

/-- A directory that is made is empty, and has the number that comes next. -/
theorem makeDirectory_ok (h : makeDirectory host w = (.ok directory, w')) :
    directory = w.made ∧ w'.made = w.made + 1 ∧
      w'.directories = Table.set w.made [] w.directories := by
  unfold makeDirectory at h
  simp only [bind_run, moment_run, host_run] at h
  cases hfault : host.directoryFault w.clock with
  | some e => simp [hfault] at h
  | none =>
    simp only [hfault, Prod.mk.injEq, Except.ok.injEq] at h
    obtain ⟨rfl, rfl⟩ := h
    exact ⟨rfl, rfl, rfl⟩

theorem makeDirectory_error {f : Failure} (h : makeDirectory host w = (.error f, w')) :
    Frame.directories.rel w w' := by
  unfold makeDirectory at h
  simp only [bind_run, moment_run, host_run] at h
  cases hfault : host.directoryFault w.clock with
  | some e =>
    simp only [hfault, failFor_run, Prod.mk.injEq] at h
    exact h.2 ▸ ⟨rfl, rfl⟩
  | none => simp [hfault] at h

/-- A file that is written in a private directory takes its place among the others. -/
theorem writePrivate_ok (h : writePrivate directory name content host w = (.ok (), w')) :
    w'.made = w.made ∧ w'.directories = Table.set directory
      (Table.set name content ((Table.get? directory w.directories).getD [])) w.directories := by
  unfold writePrivate at h
  simp only [bind_run, moment_run, host_run] at h
  cases hfault : host.privateFault w.clock name with
  | some fault => simp [hfault, privateName, bind_run] at h
  | none =>
    simp only [hfault, change_run, Prod.mk.injEq, true_and] at h
    exact h ▸ ⟨rfl, rfl⟩

theorem writePrivate_error {f : Failure}
    (h : writePrivate directory name content host w = (.error f, w')) :
    Frame.directories.rel w w' ∧ ∃ e, f = .ofCause (.file e) := by
  unfold writePrivate at h
  simp only [bind_run, moment_run, host_run] at h
  cases hfault : host.privateFault w.clock name with
  | some fault =>
    simp only [hfault, privateName, bind_run, host_run, pure_run, failFor_run, Prod.mk.injEq,
      Except.error.injEq] at h
    obtain ⟨rfl, rfl⟩ := h
    exact ⟨⟨rfl, rfl⟩, _, rfl⟩
  | none => simp [hfault] at h

/-- Removing a directory leaves all others. -/
theorem discardDirectory_run (directory : Nat) (host : Host) (w : World) :
    (discardDirectory directory host w).2.directories
        = w.directories.filter (fun d => d.1 ≠ directory) ∧
      (discardDirectory directory host w).2.made = w.made := ⟨rfl, rfl⟩

end Action

/-- No removal of a private directory fails. -/
def Host.Removes (host : Host) : Prop := ∀ now, host.removalFault now = none

/-- Where no removal fails a directory that is removed is gone. -/
theorem Action.removeDirectory_run (hremoves : host.Removes) (directory : Nat) (w : World) :
    removeDirectory directory host w
      = discardDirectory directory host { w with clock := w.clock + 1 } := by
  unfold removeDirectory
  simp only [bind_run, moment_run, host_run, hremoves w.clock]

/-! ## 3. Directories that are owed -/

namespace World

/-- Besides the directories of a table there are none but some that are still to be removed. -/
structure Owes (w : World) (table : Table Nat (Table String Bytes)) (ds : List Nat) : Prop where
  fresh : w.Fresh
  made : ∀ d ∈ ds, d < w.made
  others : w.directories.filter (fun d => d.1 ∉ ds) = table

namespace Owes

theorem refl (hw : w.Fresh) : w.Owes w.directories [] :=
  ⟨hw, by simp, by simp⟩

/-- Where nothing is owed the table is all there is. -/
theorem directories_eq (h : w.Owes table []) : w.directories = table := by
  rw [← h.others, List.filter_eq_self.2 (by simp)]

/-- It does not matter in which order directories are owed. -/
theorem of_mem_iff {ds' : List Nat} (h : w.Owes table ds) (hds : ∀ d, d ∈ ds' ↔ d ∈ ds) :
    w.Owes table ds' :=
  ⟨h.fresh, fun d hd => h.made d ((hds d).1 hd), by simpa only [hds] using h.others⟩

theorem of_directories (h : w.Owes table ds) (h' : Frame.directories.rel w w') :
    w'.Owes table ds where
  fresh d hd := by
    rw [h'.2]
    exact h.fresh d (h'.1 ▸ hd)
  made d hd := h'.2 ▸ h.made d hd
  others := by rw [h'.1, h.others]

/-- A directory that is made is owed. -/
theorem of_made {held : Table String Bytes} (h : w.Owes table ds) (hmade : w'.made = w.made + 1)
    (hset : w'.directories = Table.set w.made held w.directories) :
    w'.Owes table (w.made :: ds) where
  fresh := by
    refine fresh_iff.2 fun d hd => ?_
    rw [hset] at hd
    rcases Table.mem_keys_set.1 hd with rfl | hd
    · omega
    · have := fresh_iff.1 h.fresh d hd
      omega
  made d hd := by
    rcases List.mem_cons.1 hd with rfl | hd
    · omega
    · have := h.made d hd
      omega
  others := by
    rw [hset, Table.filter_set (by simp), ← h.others]
    refine List.filter_congr fun d hd => ?_
    have hne : d.1 ≠ w.made := Nat.ne_of_lt (h.fresh d hd)
    simp [hne]

/-- What is written in a directory that is owed is removed with it. -/
theorem of_set {held : Table String Bytes} (h : w.Owes table ds) (hd : directory ∈ ds)
    (hmade : w'.made = w.made) (hset : w'.directories = Table.set directory held w.directories) :
    w'.Owes table ds where
  fresh := by
    refine fresh_iff.2 fun d hmem => ?_
    rw [hset] at hmem
    rw [hmade]
    rcases Table.mem_keys_set.1 hmem with rfl | hmem
    · exact h.made d hd
    · exact fresh_iff.1 h.fresh d hmem
  made d hmem := hmade ▸ h.made d hmem
  others := by rw [hset, Table.filter_set (by simp [hd]), h.others]

/-- A directory that is given up is owed no more. -/
theorem discarded (h : w.Owes table (directory :: ds)) (host : Host) :
    (Action.discardDirectory directory host w).2.Owes table ds where
  fresh d hd := h.fresh d (List.mem_filter.1 hd).1
  made d hd := h.made d (List.mem_cons_of_mem _ hd)
  others := by
    rw [(Action.discardDirectory_run directory host w).1, List.filter_filter, ← h.others]
    exact List.filter_congr fun d _ => by simp [Bool.and_comm]

/-- A directory that is removed is owed no more. -/
theorem removed (h : w.Owes table (directory :: ds)) (hremoves : host.Removes) :
    (Action.removeDirectory directory host w).2.Owes table ds := by
  rw [Action.removeDirectory_run hremoves]
  have later : World.Owes { w with clock := w.clock + 1 } table (directory :: ds) :=
    h.of_directories ⟨rfl, rfl⟩
  exact later.discarded host

end Owes
end World

/-- Directories come and go, but none is left behind and none that is not owed is touched. -/
def Frame.tidy : Frame where
  rel w w' := ∀ table ds, w.Owes table ds → w'.Owes table ds
  refl _ _ _ := id
  trans h h' table ds := h' table ds ∘ h table ds

/-- The same of work that may use a directory that is owed. -/
def Frame.using (directory : Nat) : Frame where
  rel w w' := ∀ table ds, directory ∈ ds → w.Owes table ds → w'.Owes table ds
  refl _ _ _ _ := id
  trans h h' table ds hd := h' table ds hd ∘ h table ds hd

namespace Action

theorem Within.tidy {x : Action α} (h : Within host .directories x) : Within host .tidy x :=
  fun w _ _ howes => howes.of_directories (h w)

theorem Within.using {x : Action α} (h : Within host .directories x) :
    Within host (.using directory) x :=
  fun w _ _ _ howes => howes.of_directories (h w)

theorem within_using_writePrivate (directory : Nat) (name : String) (content : Bytes) :
    Within host (.using directory) (writePrivate directory name content) := by
  intro w table ds hd howes
  rcases h : writePrivate directory name content host w with ⟨f | ⟨⟩, w'⟩
  · exact howes.of_directories (writePrivate_error h).1
  · obtain ⟨hmade, hset⟩ := writePrivate_ok h
    exact howes.of_set hd hmade hset

/-- Work that removes directories that are owed, and is tidy otherwise. -/
def Pays (host : Host) (ds : List Nat) (x : Action α) : Prop :=
  ∀ table rest w, w.Owes table (ds ++ rest) → (x host w).2.Owes table rest

theorem pays_of_tidy {x : Action α} (h : Within host .tidy x) : Pays host [] x :=
  fun table rest w howes => h w table rest howes

theorem Pays.bind {x : Action α} {f : α → Action β} (hx : Pays host ds x)
    (hf : ∀ a, Within host .tidy (f a)) : Pays host ds (x >>= f) := by
  intro table rest w howes
  have paid := hx table rest w howes
  rcases bind_cases host x f w with ⟨a, w', h, hb⟩ | ⟨e, w', h, hb⟩
  · rw [h] at paid
    rw [hb]
    exact hf a w' table rest paid
  · rw [h] at paid
    rw [hb]
    exact paid

theorem Pays.mapFailure {x : Action α} (hx : Pays host ds x) (replace : Failure → Failure) :
    Pays host ds (x.mapFailure replace) := by
  intro table rest w howes
  rw [mapFailure_run]
  exact hx table rest w howes

end Action
end UpgradeAudit
