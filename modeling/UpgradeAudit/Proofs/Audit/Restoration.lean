/-
# The manifest files after a run

A whole run leaves the two manifest files as it found them (`Restored`): **each file that no
attempt to put back has missed stands as it stood**, and the run fails with a failure that
reports every file that was missed.  After an attempt that missed a file nothing is started.

A single session is so because its transaction is (`Inspected.restored`).  A course of sessions
is so because a session that missed a file is its last one, so that all before it began with the
files as they were (`Course.restored`).
-/
import UpgradeAudit.Proofs.Audit.Sessions

namespace UpgradeAudit

variable {α β : Type} {host : Host} {w w' : World} {ws : Workspace} {dep version path : String}
  {files : ManifestFiles} {es es' : List Event}

/-! ## 1. Files that were missed -/

/-- Whether an attempt to put a file back failed in the course of events. -/
def MissedIn (es : List Event) (path : String) : Prop :=
  ∃ directory missed, Event.restored directory missed ∈ es ∧ path ∈ missed

theorem missedIn_iff :
    MissedIn es path ↔ ∃ missed ∈ es.filterMap Event.missed?, path ∈ missed := by
  simp only [MissedIn, List.mem_filterMap]
  constructor
  · rintro ⟨d, missed, hmem, hpath⟩
    exact ⟨missed, ⟨_, hmem, rfl⟩, hpath⟩
  · rintro ⟨missed, ⟨e, hmem, he⟩, hpath⟩
    cases e with
    | restored d missed' =>
      obtain rfl := Option.some.inj he
      exact ⟨d, missed', hmem, hpath⟩
    | _ => cases he

theorem missedIn_append : MissedIn (es ++ es') path ↔ MissedIn es path ∨ MissedIn es' path := by
  simp only [MissedIn, List.mem_append]
  constructor
  · rintro ⟨d, missed, h | h, hp⟩
    · exact Or.inl ⟨d, missed, h, hp⟩
    · exact Or.inr ⟨d, missed, h, hp⟩
  · rintro (⟨d, missed, h, hp⟩ | ⟨d, missed, h, hp⟩)
    · exact ⟨d, missed, Or.inl h, hp⟩
    · exact ⟨d, missed, Or.inr h, hp⟩

/-- Events among which nothing is put back. -/
def NoRestore (es : List Event) : Prop := ∀ d missed, Event.restored d missed ∉ es

theorem NoRestore.not_missedIn (h : NoRestore es) : ¬ MissedIn es path :=
  fun ⟨d, missed, hmem, _⟩ => h d missed hmem

/-- What an attempt at the end missed was missed, and nothing else. -/
theorem NoRestore.missedIn_attempt {d : Nat} {missed : List String} (h : NoRestore es) :
    MissedIn (es ++ [.restored d missed, .closed d]) path ↔ path ∈ missed := by
  rw [missedIn_append, or_iff_right h.not_missedIn]
  exact ⟨fun ⟨d', missed', hmem, hp⟩ => by simp_all, fun hp => ⟨d, missed, by simp, hp⟩⟩

/-- An attempt at the end is the only one, and nothing is started after it. -/
theorem NoRestore.not_started_after {d d' : Nat} {missed missed' : List String}
    {pre post : List Event} (h : NoRestore es)
    (he : es ++ [.restored d missed, .closed d] = pre ++ .restored d' missed' :: post)
    (c : Command) : Event.started c ∉ post := by
  obtain ⟨r, -, hr⟩ := eq_append_of_not_mem_left he.symm (h d' missed')
  cases r with
  | nil =>
    obtain ⟨-, rfl⟩ := List.cons.inj hr
    simp
  | cons e r =>
    obtain ⟨-, hr⟩ := List.cons.inj hr
    cases r <;> simp at hr

/-- What a run leaves of two files that it found in `t` and left in `t'`. -/
structure Restored (files : ManifestFiles) (t t' : FileTree) (es : List Event)
    (r : Except Failure α) : Prop where
  manifest : ¬ MissedIn es files.manifest.text →
    t'.standing files.manifest.text = t.standing files.manifest.text
  lock : ¬ MissedIn es files.lock.text →
    t'.standing files.lock.text = t.standing files.lock.text
  reported : ∀ path, MissedIn es path → ∃ f, r = .error f ∧ f.Stops ∧ f.Reports path
  last : ∀ pre d missed post, es = pre ++ .restored d missed :: post → missed ≠ [] →
    ∀ c, Event.started c ∉ post

namespace Restored

variable {t t' t'' : FileTree} {r : Except Failure α} {r' : Except Failure β}

/-- Where nothing was put back the files must not have changed. -/
theorem of_alike (h : files.Alike t' t) (hes : NoRestore es) : Restored files t t' es r where
  manifest _ := h.1
  lock _ := h.2
  reported _ hmissed := absurd hmissed hes.not_missedIn
  last pre d missed post he := absurd (he ▸ by simp) (hes d missed)

theorem alike (h : Restored files t t' es r) (hes : ∀ path, ¬ MissedIn es path) :
    files.Alike t' t := ⟨h.manifest (hes _), h.lock (hes _)⟩

/-- A failure may be passed on while the files stay as they are. -/
theorem conclude {f : Failure} (h : Restored files t t' es (.error f : Except Failure α))
    (h' : files.Alike t'' t') : Restored files t t'' es (.error f : Except Failure β) where
  manifest hm := h'.1.trans (h.manifest hm)
  lock hl := h'.2.trans (h.lock hl)
  reported path hmissed := by
    obtain ⟨f', hf, hrest⟩ := h.reported path hmissed
    exact ⟨f', congrArg Except.error (Except.error.inj hf), hrest⟩
  last := h.last

/-- One run after another, the first of which missed no file. -/
theorem append (h : Restored files t t' es r) (hes : ∀ path, ¬ MissedIn es path)
    (h' : Restored files t' t'' es' r') : Restored files t t'' (es ++ es') r' where
  manifest hmissed :=
    (h'.manifest fun hm => hmissed (missedIn_append.2 (Or.inr hm))).trans (h.manifest (hes _))
  lock hmissed :=
    (h'.lock fun hm => hmissed (missedIn_append.2 (Or.inr hm))).trans (h.lock (hes _))
  reported path hmissed :=
    h'.reported path ((missedIn_append.1 hmissed).resolve_left (hes path))
  last pre d missed post he hne := by
    obtain ⟨path, hpath⟩ := List.exists_mem_of_ne_nil missed hne
    obtain ⟨r, -, hr⟩ :=
      eq_append_of_not_mem_left he.symm fun hmem => hes path ⟨d, missed, hmem, hpath⟩
    exact h'.last r d missed post hr hne

end Restored

/-! ## 2. One session -/

theorem Workspace.Examined.noRestore {n : Nat} {r : Except Failure α}
    (h : ws.Examined dep version n es r) : NoRestore es := by
  intro d missed hmem
  rcases h.isOwnStep _ hmem with hstep | ⟨contents, he⟩
  · exact hstep
  · cases he

/-- The failure with the version at hand reports what it reported before. -/
theorem Failure.reports_inContext {f : Failure} (h : f.Reports path) :
    (Workspace.inContext dep version f).Reports path := by
  unfold Workspace.inContext
  split
  · exact h.addNote _
  · exact h

theorem Failure.stops_inContext {f : Failure} (h : f.Stops) :
    (Workspace.inContext dep version f).Stops := by
  unfold Workspace.inContext
  split
  · exact h.addNote _
  · exact h

/-- **A session leaves each file as it was, or reports it.** -/
theorem Inspected.restored {outcome : Except Failure (Inspection × Snapshot)}
    (h : Inspected ws dep version host w w' es outcome) (hu : ws.manifest.Undisturbed host)
    (hseparate : ws.manifest.Separate) : Restored ws.manifest w.files w'.files es outcome := by
  cases h with
  | untouched looks alike =>
    refine .of_alike (alike hu) fun d missed hmem => ?_
    rcases looks with rfl | ⟨contents, rfl⟩ <;> simp at hmem
  | @transacted directory contents body missed found outcome examined kept lost holds files =>
    obtain ⟨manifest, lock⟩ := files hu hseparate
    have hbody := examined.noRestore
    have hno : NoRestore ([.read contents, .opened directory contents] ++ body) := by
      intro d missed' hmem
      have := hbody d missed'
      simp_all
    refine ⟨fun h => manifest fun hm => h (hno.missedIn_attempt.2 hm),
      fun h => lock fun hl => h (hno.missedIn_attempt.2 hl), fun path h => ?_,
        fun pre d missed' post he _ => hno.not_started_after he⟩
    have hpath := hno.missedIn_attempt.1 h
    obtain ⟨g, hg, hnames, -⟩ := lost (List.ne_nil_of_mem hpath)
    obtain ⟨reports, stops⟩ := Backup.reports_combined (hnames path hpath) found
    exact ⟨_, hg, Failure.stops_inContext stops, Failure.reports_inContext reports⟩

/-! ## 3. Courses of sessions -/

theorem PassesOn.tail {s : Session} {ss : List Session} {r : Except Failure α}
    (h : PassesOn ws host (s :: ss) r) : PassesOn ws host ss r := by
  rintro pre s' post f rfl
  exact h (s :: pre) s' post f rfl

/-- **A course leaves each file as it was, or its last session reports it.** -/
theorem Course.restored {ss : List Session} {r : Except Failure α}
    (h : Course ws host w ss w') (hr : PassesOn ws host ss r) (hu : ws.manifest.Undisturbed host)
    (hseparate : ws.manifest.Separate) :
    Restored ws.manifest w.files w'.files (ss.flatMap fun s => s.deeds ws host) r := by
  induction h with
  | nil w => exact .of_alike (.refl _ w.files) fun d missed hmem => nomatch hmem
  | logged logs _ ih =>
    have start : Restored ws.manifest _ _ [] (.ok ()) :=
      .of_alike (logs.2 ws.manifest hu) fun d missed hmem => nomatch hmem
    exact start.append (fun path => fun ⟨_, _, hmem, _⟩ => nomatch hmem) (ih hr)
  | @session w' ss s rest ih =>
    have session := (s.inspected ws host).2.restored hu hseparate
    rw [List.flatMap_cons]
    by_cases hmissed : ∃ path, MissedIn (s.deeds ws host) path
    · -- a session that missed a file is the last one
      obtain ⟨path, hpath⟩ := hmissed
      obtain ⟨f, hf, hstops, -⟩ := session.reported path hpath
      obtain ⟨rfl, rfl⟩ := hr [] s ss f rfl hf hstops
      have logs := Course.logs_of_nil rest
      rw [List.flatMap_nil, List.append_nil]
      exact (hf ▸ session).conclude (logs.2 _ hu)
    · exact session.append (not_exists.1 hmissed) (ih hr.tail)

/-- What stands at both paths is one pair of contents. -/
theorem ManifestFiles.Hold.unique {c c' : ManifestContents} {t : FileTree}
    (h : files.Hold c t) (h' : files.Hold c' t) : c = c' := by
  obtain ⟨manifest, lock⟩ := c
  obtain ⟨manifest', lock'⟩ := c'
  have em : manifest = manifest' := by simpa using h.1.symm.trans h'.1
  have el : lock = lock' := by simpa using h.2.symm.trans h'.2
  rw [em, el]

/-- A transaction begins with the contents that stand at both paths. -/
theorem Inspected.opened {outcome : Except Failure (Inspection × Snapshot)} {d : Nat}
    {contents : ManifestContents} (h : Inspected ws dep version host w w' es outcome)
    (hu : ws.manifest.Undisturbed host) (hmem : Event.opened d contents ∈ es) :
    ws.manifest.Hold contents w.files := by
  cases h with
  | untouched looks => rcases looks with rfl | ⟨contents, rfl⟩ <;> simp at hmem
  | @transacted d' contents' body _ _ _ examined _ _ holds =>
    have hbody : Event.opened d contents ∉ body := by
      intro hb
      rcases examined.isOwnStep _ hb with hstep | ⟨_, he⟩
      · exact hstep
      · cases he
    obtain ⟨-, rfl⟩ : d = d' ∧ contents = contents' := by simpa [hbody] using hmem
    exact holds hu

/-- **Every transaction of a course begins with the contents that stood before the course.** -/
theorem Course.opened {ss : List Session} {r : Except Failure α} (h : Course ws host w ss w')
    (hr : PassesOn ws host ss r) (hu : ws.manifest.Undisturbed host)
    (hseparate : ws.manifest.Separate) :
    ∀ s ∈ ss, ∀ d contents, Event.opened d contents ∈ s.deeds ws host →
      ws.manifest.Hold contents w.files := by
  induction h with
  | nil => exact fun s hs => nomatch hs
  | logged logs _ ih =>
    exact fun s hs d c hmem => (ih hr s hs d c hmem).of_alike (logs.2 _ hu).symm
  | @session w' ss s rest ih =>
    have hs := (s.inspected ws host).2
    have session := hs.restored hu hseparate
    intro s' hs' d c hmem
    rcases List.mem_cons.1 hs' with rfl | hs'
    · exact hs.opened hu hmem
    · by_cases hmissed : ∃ path, MissedIn (s.deeds ws host) path
      · obtain ⟨path, hpath⟩ := hmissed
        obtain ⟨f, hf, hstops, -⟩ := session.reported path hpath
        obtain ⟨rfl, -⟩ := hr [] s ss f rfl hf hstops
        exact absurd hs' List.not_mem_nil
      · have halike := session.alike (not_exists.1 hmissed)
        exact (ih hr.tail s' hs' d c hmem).of_alike halike.symm

/-! ## 4. Whole runs -/

namespace Call

variable {settings : Settings} {env : Environment} {known : Option Workspace}

theorem within_ready_alike (hu : files.Undisturbed host)
    (hs : files.SparedBy host (settings.Asks env)) :
    Action.Within host (.alike files) (ready settings env known) := by
  cases known with
  | none => exact Workspace.within_prepare_alike settings env hu hs
  | some ws => exact Action.within_pure _

/-- A workspace that is ready was prepared, now or for an earlier call. -/
theorem known_of_ready
    (hknown : ∀ ws, known = some ws →
      ∃ host' v v', Workspace.prepare settings env host' v = (.ok ws, v'))
    (h : ready settings env known host w = (.ok ws, w')) : ws.Known settings env := by
  cases known with
  | none => exact (Workspace.prepare_ok h).1
  | some ws' =>
    obtain ⟨rfl, -⟩ : ws' = ws ∧ w = w' := by simpa [ready] using h
    obtain ⟨host', v, v', hprepare⟩ := hknown ws' rfl
    exact (Workspace.prepare_ok hprepare).1

/-- **Every run leaves the manifest files as it found them, or fails with a failure that reports
each file that could not be put back; after that nothing is started.**  The questions to the build
tool are assumed to spare the files; every other program may do anything to them. -/
theorem run_restored (c : Call)
    (hknown : ∀ ws, known = some ws →
      ∃ host' v v', Workspace.prepare settings env host' v = (.ok ws, v'))
    (hfiles : ∀ ws v, ready settings env known host w = (.ok ws, v) → ws.manifest = files)
    (hu : files.Undisturbed host) (hs : files.SparedBy host (settings.Asks env)) :
    ∃ es, (c.run settings env known host w).2.deeds = w.deeds ++ es ∧
      Restored files w.files (c.run settings env known host w).2.files es
        (c.run settings env known host w).1 := by
  have setup {v : World} {r : Except Failure Workspace}
      (hr : ready settings env known host w = (r, v)) :
      ∃ es, v.deeds = w.deeds ++ es ∧ NoRestore es ∧ files.Alike v.files w.files := by
    obtain ⟨es, hes, hsteps⟩ := (within_ready_deeds settings env known host).rel_of_eq hr
    refine ⟨es, hes, fun d missed hmem => ?_, (within_ready_alike hu hs).rel_of_eq hr⟩
    rcases hsteps _ hmem with hstep | ⟨contents, he⟩
    · exact hstep
    · cases he
  rcases run_cases settings env known c host w with
    ⟨f, v, hready, hrun⟩ | ⟨ws, v, ss, hready, course, passes⟩
  · obtain ⟨es, hes, hno, halike⟩ := setup hready
    rw [hrun]
    exact ⟨es, hes, .of_alike halike hno⟩
  · obtain ⟨es, hes, hno, halike⟩ := setup hready
    obtain rfl := hfiles ws v hready
    have start : Restored ws.manifest w.files v.files es (.ok ()) := .of_alike halike hno
    have sessions := course.restored passes hu (known_of_ready hknown hready).separate
    refine ⟨_, ?_, start.append (fun _ => hno.not_missedIn) sessions⟩
    rw [course.deeds_eq, hes, List.append_assoc]

end Call

/-- A program that ends with an exit code and an answer, and leaves some files. -/
def Start.answering (exitCode : Int) (answer : String) (files : FileTree) : Start :=
  .runs
    { files, ending := .exited (some exitCode), stdout := Text.Utf8.encode answer, stderr := [] }

/-- A directory with a module that requires nothing. -/
def FileTree.emptyModule : FileTree where
  entries := [(["go.mod"], .file (Text.Utf8.encode "module m\n")), (["go.sum"], .file [])]
  held := none

/-- A host whose build tool knows the manifest, and removes every file when it should fetch. -/
def Host.ruinous : Host := .quiet fun t c =>
  match c.argv[2]? with
  | some "GOMODCACHE" => .answering 0 "/cache" t
  | some "GOMOD" => .answering 0 "go.mod" t
  | _ => .answering 1 "" .empty

theorem Host.sparedBy_ruinous {host : Host} (h : host.respond = Host.ruinous.respond)
    (env : Environment) : ManifestFiles.here.SparedBy host (Settings.standard.Asks env) := by
  intro c hc history t behaviour hb
  rw [h] at hb
  cases hc <;> cases hb <;> exact .refl _ _

/-- A run in which both files are removed. -/
theorem Call.run_restored_ruinous :
    ∃ es, ((Call.inspect "d" "v1").run .standard [] none .ruinous (.ofFiles .emptyModule)).2.deeds
        = (World.ofFiles .emptyModule).deeds ++ es ∧
      Restored ⟨.ofText "go.mod", .ofText "go.sum"⟩ FileTree.emptyModule
        ((Call.inspect "d" "v1").run .standard [] none .ruinous (.ofFiles .emptyModule)).2.files es
        ((Call.inspect "d" "v1").run .standard [] none .ruinous (.ofFiles .emptyModule)).1 := by
  refine run_restored (.inspect "d" "v1") (fun _ h => nomatch h) ?_
    (ManifestFiles.undisturbed_quiet _ _) (Host.sparedBy_ruinous rfl [])
  intro ws v h
  have located :
      (ready .standard [] none .ruinous (.ofFiles .emptyModule)).1.toOption.map Workspace.manifest
        = some ⟨.ofText "go.mod", .ofText "go.sum"⟩ := by decide +kernel
  rw [h] at located
  exact Option.some.inj located

/-! ## 5. Files that are not left alone -/

/-- The surroundings when the lock file is a link to the manifest: once the lock file holds its
contents again, so does the manifest. -/
def Host.linking (lock : Bytes) (host : Host) : Host :=
  { host with
    meddle := fun _ t =>
      if (t.read "go.sum").toOption = some lock then (t.write "go.mod" lock).toOption.getD t
      else t }

/-- The surroundings when log records are kept at the end of the lock file. -/
def Host.logging (host : Host) : Host :=
  { host with
    keepRecord := fun _ t =>
      ((t.read "go.sum").bind fun content => t.write "go.sum" (content ++ [0x0a])).toOption.getD t }

/-- Nothing is missed when every attempt to put files back misses none. -/
theorem not_missedIn (h : (es.filterMap Event.missed?).all List.isEmpty) (path : String) :
    ¬ MissedIn es path := by
  rw [missedIn_iff]
  rintro ⟨missed, hmem, hpath⟩
  rw [List.isEmpty_iff.1 (List.all_eq_true.1 h missed hmem)] at hpath
  exact List.not_mem_nil hpath

/-- When nothing is missed, what can be read of both files is what could be read before. -/
theorem Restored.read_eq {t t' : FileTree} {r : Except Failure α} (h : Restored files t t' es r)
    (hmissed : (es.filterMap Event.missed?).all List.isEmpty) :
    (t'.read files.manifest.text).toOption = (t.read files.manifest.text).toOption ∧
      (t'.read files.lock.text).toOption = (t.read files.lock.text).toOption :=
  ⟨congrArg Except.toOption (FileTree.read_congr (h.manifest (not_missedIn hmissed _))),
    congrArg Except.toOption (FileTree.read_congr (h.lock (not_missedIn hmissed _)))⟩

/-- Whether a run in a directory leaves the files there as it should. -/
def Call.Restores (c : Call) (host : Host) (t : FileTree) : Prop :=
  Restored .here t (c.run .standard [] none host (.ofFiles t)).2.files
    (c.run .standard [] none host (.ofFiles t)).2.deeds
    (c.run .standard [] none host (.ofFiles t)).1

/-- **A file that is written through a link, or to which log records are added, is not left as it
was**, although both files are put back and the check of each succeeds. -/
theorem Call.run_unrestored :
    (ManifestFiles.here.SparedBy (.linking [] .ruinous) (Settings.standard.Asks []) ∧
      ¬ (Call.inspect "d" "v1").Restores (.linking [] .ruinous) .emptyModule) ∧
    (ManifestFiles.here.SparedBy (.logging .ruinous) (Settings.standard.Asks []) ∧
      ¬ (Call.inspect "d" "v1").Restores (.logging .ruinous) .emptyModule) := by
  refine ⟨⟨Host.sparedBy_ruinous rfl [], fun h => ?_⟩, Host.sparedBy_ruinous rfl [], fun h => ?_⟩
  · exact absurd (h.read_eq (by decide +kernel)).1 (by decide +kernel)
  · exact absurd (h.read_eq (by decide +kernel)).2 (by decide +kernel)

end UpgradeAudit
