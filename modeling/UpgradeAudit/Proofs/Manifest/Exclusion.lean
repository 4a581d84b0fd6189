/-
# One transaction at a time

Tasks take turns at the manifest files, and a scheduler moves them in any order and cancels them
wherever it likes.  What one move can do is said once (`Stepped`), and two things are carried
along a schedule:

* at most one transaction is open (`Exclusive`): one is opened only when none is;
* while no file was missed, every copy that is kept is one of the files as they were at the
  start, and so are the files whenever no transaction is open (`Kept`).

Which transactions a move opened or ended is read off the copies that are kept before and after
it, and what an attempt to put files back missed is read off the events (`deed?`).

The second rests on the first at one place only, where a copy is taken: the files are those that
the last transaction put back, and no other one has rewritten them since.

That the files are put back exactly is more than that both were written (`Backup.restore_ok`):
the second could be the first one under another path.  Then both had one content when they were
copied, because where a path leads is the same in every tree.  Nothing is assumed of the work
inside a transaction, and nothing of the paths.  What is assumed is that others leave the
manifest alone while the lock file is being written back.
-/
import UpgradeAudit.Manifest.Turns
import UpgradeAudit.Proofs.Manifest.Transactions

namespace UpgradeAudit

variable {α : Type} {host : Host} {files : ManifestFiles} {w w' : World}

/-! ## 1. Both files are put back -/

/-- Others leave the manifest alone between the moment a file is put back and its check. -/
def ManifestFiles.Unmeddled (files : ManifestFiles) (host : Host) : Prop :=
  ∀ now t, (host.meddle now t).standing files.manifest.text = t.standing files.manifest.text

theorem Action.writeFile_ok {path : String} {content : Bytes}
    (h : writeFile path content host w = (.ok (), w')) :
    w.files.write path content = .ok w'.files := by
  unfold writeFile putFile checkName at h
  cases hname : Cause.ofFileName? path with
  | some cause => simp [hname, bind_run] at h
  | none =>
    cases hfault : host.writeFault w.clock path with
    | none =>
      cases hwrite : w.files.write path content with
      | error fault => simp [hname, hfault, hwrite, bind_run] at h
      | ok t =>
        simp only [hname, hfault, hwrite, bind_run, pure_run, moment_run, host_run, world_run,
          change_run, Prod.mk.injEq, true_and] at h
        rw [← h]
    | some fault =>
      cases fault with
      | refused fault => simp [hname, hfault, bind_run] at h
      | torn fault left =>
        cases hwrite : w.files.write path left with
        | error fault => simp [hname, hfault, hwrite, bind_run] at h
        | ok t => simp [hname, hfault, hwrite, bind_run] at h

namespace Backup

variable {b : Backup} {path : String} {content : Bytes}

/-- The files after a file was put back are those that were written, as others left them. -/
theorem rewrite_files (h : rewrite path content host w = (.ok (), w')) :
    ∃ now t, w.files.write path content = .ok t ∧ w'.files = host.meddle now t := by
  obtain ⟨w₁, w₂, hwrite, hmeddled, hread⟩ := rewrite_steps h
  exact ⟨w₁.clock, w₁.files, Action.writeFile_ok hwrite,
    (Action.readFile_ok hread).2.2.trans hmeddled⟩

theorem restoreFile_ok (h : restoreFile path content host w = (.ok none, w')) :
    rewrite path content host w = (.ok (), w') := by
  unfold restoreFile at h
  rw [Action.bind_run, Action.attempt_run] at h
  rcases hr : rewrite path content host w with ⟨f | ⟨⟩, v⟩
  · rw [hr] at h
    rcases f with ⟨cause, notes⟩ | ⟨fs, notes⟩
    · cases cause <;> cases h
    · cases h
  · rw [hr] at h
    obtain rfl : v = w' := congrArg Prod.snd h
    rfl

/-- **Both files stand as they were copied when no failure to put them back is told.** -/
theorem restore_ok {t : FileTree} (hb : b.Sound)
    (hhold : b.snapshot.files.Hold b.snapshot.contents t)
    (hm : b.snapshot.files.Unmeddled host) (h : b.restore host w = (.ok (), w')) :
    b.snapshot.files.Hold b.snapshot.contents w'.files := by
  obtain ⟨m, l, w₁, w₂, hmrun, hlrun, -, -, ⟨rfl, rfl, hr⟩ | ⟨g, r, -, -, hr⟩⟩ :=
    restore_run hb host w
  · obtain rfl := congrArg Prod.snd (hr.symm.trans h)
    have manifest := rewrite_ok (restoreFile_ok hmrun)
    have lock := rewrite_ok (restoreFile_ok hlrun)
    refine ⟨?_, lock⟩
    obtain ⟨now, t', hwrite, hfiles⟩ := rewrite_files (restoreFile_ok hlrun)
    rw [World.files_record, hfiles, hm now t']
    rcases FileTree.standing_write_other hwrite manifest with hstays | ⟨hlock, loc, hl, hm⟩
    · exact hstays
    -- the two paths lead to one place, so one content was copied under both
    · rw [hlock, FileTree.content_eq_of_locate hm hl hhold.1 hhold.2]
  · cases hr.symm.trans h

end Backup

/-! ## 2. What one move does -/

/-- The copy that a task keeps while its transaction is open. -/
def Phase.backup? : Phase α → Option Backup
  | .inside backup _ _ => some backup
  | _ => none

theorem Phase.isInside_eq (phase : Phase α) : phase.isInside = phase.backup?.isSome := by
  cases phase <;> rfl

namespace Turns

variable {t t' : Turns α} {task other : Nat} {phase : Phase α}

/-- The copy that a task keeps while its transaction is open. -/
def backup? (t : Turns α) (task : Nat) : Option Backup := t.tasks[task]?.bind Phase.backup?

theorem backup?_of_eq (h : t.tasks[task]? = some phase) : t.backup? task = phase.backup? := by
  rw [backup?, h]
  rfl

theorem isFree_iff : t.isFree = true ↔ ∀ task, t.backup? task = none := by
  simp only [isFree, backup?, Bool.not_eq_true', List.any_eq_false, Phase.isInside_eq,
    Bool.not_eq_true, Option.isSome_eq_false_iff, Option.isNone_iff_eq_none]
  refine ⟨fun h task => ?_, fun h phase hphase => ?_⟩
  · cases hp : t.tasks[task]? with
    | none => rfl
    | some phase => exact h phase (List.mem_of_getElem? hp)
  · obtain ⟨task, htask⟩ := List.getElem?_of_mem hphase
    simpa [htask] using h task

theorem backup?_setTask_of_ne (t : Turns α) (phase : Phase α) (h : other ≠ task) :
    (t.setTask task phase).backup? other = t.backup? other := by
  simp [backup?, setTask, List.getElem?_set_ne (Ne.symm h)]

/-- What is kept once a task has another phase is kept by that phase, or was kept by another
task. -/
theorem backup?_setTask (t : Turns α) (task other : Nat) (phase : Phase α) {b : Backup}
    (h : (t.setTask task phase).backup? other = some b) :
    other = task ∧ phase.backup? = some b ∨ other ≠ task ∧ t.backup? other = some b := by
  by_cases hsame : other = task
  · subst hsame
    obtain ⟨p, hp, hb⟩ := Option.bind_eq_some_iff.1 h
    obtain rfl : phase = p := by
      have hlt := (List.getElem?_eq_some_iff.1 hp).1
      simpa [setTask, List.getElem?_set_self (by simpa [setTask] using hlt)] using hp
    exact Or.inl ⟨rfl, hb⟩
  · rw [backup?_setTask_of_ne t phase hsame] at h
    exact Or.inr ⟨hsame, h⟩

/-- What a move comes to for the manifest files. -/
inductive Deed where
  /-- A transaction was opened with a copy of the files. -/
  | opened (task : Nat) (backup : Backup)
  /-- An attempt to put the files back, and the paths of those that it missed. -/
  | restored (task : Nat) (missed : List String)

/-- Whether some file was not put back. -/
def Deed.isFailed : Deed → Bool
  | opened .. => false
  | restored _ missed => ! missed.isEmpty

/-- The paths that the latest attempt to put files back missed. -/
def latestMissed (w : World) : List String := (w.events.findSome? Event.missed?).getD []

/-- What a move came to for a task.  A copy that the task keeps now was taken in the move; of one
that it keeps no longer, the events tell how it was put back. -/
def deed? (before after : Turns α) (w : World) (task : Nat) : Option Deed :=
  match before.backup? task, after.backup? task with
  | none, some b => some (.opened task b)
  | some _, none => some (.restored task (latestMissed w))
  | _, _ => none

/-- What a move came to for all tasks. -/
def deedsOf (before after : Turns α) (w : World) : List Deed :=
  (List.range before.tasks.length).filterMap (before.deed? after w)

/-- What the moves of a schedule come to, in order. -/
def deeds (host : Host) (t : Turns α) (w : World) : List Move → List Deed
  | [] => []
  | m :: rest =>
    match t.move m host w with
    | (.ok t', w') => t.deedsOf t' w' ++ t'.deeds host w' rest
    | (.error _, _) => []

/-- **What one move can do.** -/
inductive Stepped (host : Host) (t : Turns α) (w : World) : Turns α → World → Prop
  /-- There is no such task, it has ended, or it cannot have its turn yet. -/
  | stays : Stepped host t w t w
  | asks {task : Nat} {work : List (Action α)} (h : t.tasks[task]? = some (.idle work)) :
      Stepped host t w { t.setTask task (.waiting work) with queue := t.queue ++ [task] } w
  /-- A task that is cancelled outside of a transaction. -/
  | leaves {task : Nat} (h : t.backup? task = none) :
      Stepped host t w
        { t.setTask task (.ended (.error (.ofCause .cancelled))) with
          queue := t.queue.filter (· ≠ task) } w
  | opens {task : Nat} {work : List (Action α)} {b : Backup} {w' : World}
      (h : t.tasks[task]? = some (.waiting work)) (free : t.isFree = true)
      (first : t.queue.head? = some task) (taken : Backup.take t.files host w = (.ok b, w')) :
      Stepped host t w { t.setTask task (.inside b work []) with queue := t.queue.tail } w'
  | refused {task : Nat} {work : List (Action α)} {f : Failure} {w' : World}
      (h : t.tasks[task]? = some (.waiting work)) (free : t.isFree = true)
      (first : t.queue.head? = some task) (taken : Backup.take t.files host w = (.error f, w')) :
      Stepped host t w { t.setTask task (.ended (.error f)) with queue := t.queue.tail } w'
  | works {task : Nat} {b : Backup} {step : Action α} {work : List (Action α)} {results : List α}
      {result : α} {w' : World} (h : t.tasks[task]? = some (.inside b (step :: work) results))
      (worked : step host w = (.ok result, w')) :
      Stepped host t w (t.setTask task (.inside b work (results ++ [result]))) w'
  /-- The work is done, is cancelled, or fails at its next step and leaves another world. -/
  | ends {task : Nat} {b : Backup} (outcome : Except Failure (List α)) {w₁ : World}
      (h : t.backup? task = some b)
      (worked : w₁ = w ∨ ∃ (step : Action α) (f : Failure), step host w = (.error f, w₁)) :
      Stepped host t w (t.setTask task (.ended (b.finish outcome host w₁).1))
        (b.finish outcome host w₁).2

theorem finish_run (t : Turns α) (task : Nat) (b : Backup) (outcome : Except Failure (List α))
    (host : Host) (w : World) :
    t.finish task b outcome host w
      = (.ok (t.setTask task (.ended (b.finish outcome host w).1)),
          (b.finish outcome host w).2) := by
  rw [finish, Action.bind_run, Action.attempt_run]
  rfl

theorem stepped_advance (t : Turns α) (task : Nat) (host : Host) (w : World) :
    ∃ t' w', t.advance task host w = (.ok t', w') ∧ Stepped host t w t' w' := by
  simp only [advance]
  rcases h : t.tasks[task]? with _ | ⟨work⟩ | ⟨work⟩ | ⟨b, _ | ⟨step, work⟩, results⟩ | _
  case none => exact ⟨_, _, rfl, .stays⟩
  case some.idle => exact ⟨_, _, rfl, .asks h⟩
  case some.waiting =>
    by_cases hturn : (t.isFree && decide (t.queue.head? = some task)) = true
    · simp only [if_pos hturn, Action.bind_run, Action.attempt_run]
      rw [Bool.and_eq_true, decide_eq_true_eq] at hturn
      rcases htake : Backup.take t.files host w with ⟨f | b, w'⟩
      · exact ⟨_, _, rfl, .refused h hturn.1 hturn.2 htake⟩
      · exact ⟨_, _, rfl, .opens h hturn.1 hturn.2 htake⟩
    · simp only [if_neg hturn]
      exact ⟨_, _, rfl, .stays⟩
  case some.inside.nil =>
    exact ⟨_, _, finish_run .., .ends (.ok results) (backup?_of_eq h) (.inl rfl)⟩
  case some.inside.cons =>
    simp only [Action.bind_run, Action.attempt_run]
    rcases hstep : step host w with ⟨f | result, w₁⟩
    · exact ⟨_, _, finish_run .., .ends (.error f) (backup?_of_eq h) (.inr ⟨step, f, hstep⟩)⟩
    · exact ⟨_, _, rfl, .works h hstep⟩
  case some.ended => exact ⟨_, _, rfl, .stays⟩

theorem stepped_cancel (t : Turns α) (task : Nat) (host : Host) (w : World) :
    ∃ t' w', t.cancel task host w = (.ok t', w') ∧ Stepped host t w t' w' := by
  simp only [cancel]
  rcases h : t.tasks[task]? with _ | ⟨work⟩ | ⟨work⟩ | ⟨b, work, results⟩ | _
  case none => exact ⟨_, _, rfl, .stays⟩
  case some.idle => exact ⟨_, _, rfl, .leaves (backup?_of_eq h)⟩
  case some.waiting => exact ⟨_, _, rfl, .leaves (backup?_of_eq h)⟩
  case some.inside =>
    exact ⟨_, _, finish_run .., .ends _ (backup?_of_eq h) (.inl rfl)⟩
  case some.ended => exact ⟨_, _, rfl, .stays⟩

/-- A move always comes to its end. -/
theorem stepped (t : Turns α) (m : Move) (host : Host) (w : World) :
    ∃ t' w', t.move m host w = (.ok t', w') ∧ Stepped host t w t' w' := by
  cases m with
  | advance task => exact stepped_advance t task host w
  | cancel task => exact stepped_cancel t task host w

/-! ## 3. What one move preserves -/

/-- At most one transaction is open. -/
def Exclusive (t : Turns α) : Prop :=
  ∀ task other b c, t.backup? task = some b → t.backup? other = some c → task = other

/-- Taking a copy away, or changing what a task with an open transaction keeps, opens none. -/
theorem Exclusive.of_sub (h : t.Exclusive)
    (hsub : ∀ task b, t'.backup? task = some b → ∃ c, t.backup? task = some c) : t'.Exclusive := by
  intro task other b c hb hc
  obtain ⟨b', hb'⟩ := hsub task b hb
  obtain ⟨c', hc'⟩ := hsub other c hc
  exact h task other b' c' hb' hc'

/-- What is kept after a task came to keep nothing was kept before. -/
theorem backup?_of_setTask (h : phase.backup? = none) {b : Backup}
    (hb : (t.setTask task phase).backup? other = some b) : t.backup? other = some b := by
  rcases backup?_setTask t task other phase hb with ⟨-, hphase⟩ | ⟨-, hkept⟩
  · rw [h] at hphase
    cases hphase
  · exact hkept

/-- **No move opens a second transaction.** -/
theorem Stepped.exclusive (hstep : Stepped host t w t' w') (h : t.Exclusive) : t'.Exclusive := by
  cases hstep with
  | stays => exact h
  | asks hidle => exact h.of_sub fun _ b hb => ⟨b, backup?_of_setTask rfl hb⟩
  | leaves hout => exact h.of_sub fun _ b hb => ⟨b, backup?_of_setTask rfl hb⟩
  | refused hwaits free first taken => exact h.of_sub fun _ b hb => ⟨b, backup?_of_setTask rfl hb⟩
  | ends outcome hopen worked => exact h.of_sub fun _ b hb => ⟨b, backup?_of_setTask rfl hb⟩
  | @works task b step work results result _ hopen worked =>
    refine h.of_sub fun other c hc => ?_
    rcases backup?_setTask t task other _ hc with ⟨rfl, -⟩ | ⟨-, hkept⟩
    · exact ⟨b, backup?_of_eq hopen⟩
    · exact ⟨c, hkept⟩
  | @opens task work b _ hwaits free first taken =>
    -- nobody else has a transaction open
    have only {other : Nat} {c : Backup}
        (hc : (t.setTask task (.inside b work [])).backup? other = some c) : other = task := by
      rcases backup?_setTask t task other _ hc with ⟨hsame, -⟩ | ⟨-, hkept⟩
      · exact hsame
      · rw [isFree_iff.1 free other] at hkept
        cases hkept
    exact fun i j c d hc hd => (only hc).trans (only hd).symm

/-- No attempt to put the files back failed. -/
def AllRestored (ds : List Deed) : Prop := ∀ d ∈ ds, d.isFailed = false

/-- What holds of the files and of the copies kept, as long as every file was put back: they are
those of the tree at the start. -/
structure Kept (files : ManifestFiles) (start : FileTree) (t : Turns α) (w : World) : Prop where
  guarded : t.files = files
  copies : ∀ task b, t.backup? task = some b →
    b.Sound ∧ b.snapshot.files = files ∧ files.Hold b.snapshot.contents start
  free : t.isFree = true → files.Alike w.files start

variable {start : FileTree}

/-- What was opened is kept after the move. -/
theorem backup?_of_mem_deedsOf {b : Backup} (h : .opened task b ∈ t.deedsOf t' w') :
    t'.backup? task = some b := by
  obtain ⟨i, -, hi⟩ := List.mem_filterMap.1 h
  unfold deed? at hi
  split at hi
  · rename_i c _ hkept
    obtain ⟨rfl, rfl⟩ : i = task ∧ c = b := by simpa using hi
    exact hkept
  · cases hi
  · cases hi

/-- A task that kept a copy is one of the tasks. -/
theorem lt_length_of_backup? {b : Backup} (h : t.backup? task = some b) :
    task < t.tasks.length := by
  obtain ⟨phase, hphase, -⟩ := Option.bind_eq_some_iff.1 h
  exact (List.getElem?_eq_some_iff.1 hphase).1

/-- A move in which every file was put back, and which ended a transaction, missed none. -/
theorem latestMissed_eq_nil {b : Backup} (hall : AllRestored (t.deedsOf t' w'))
    (h : t.backup? task = some b) (h' : t'.backup? task = none) : latestMissed w' = [] := by
  have told : Deed.restored task (latestMissed w') ∈ t.deedsOf t' w' :=
    List.mem_filterMap.2 ⟨task, List.mem_range.2 (lt_length_of_backup? h), by simp [deed?, h, h']⟩
  simpa [Deed.isFailed] using hall _ told

/-- Of an attempt that failed, the events tell which files it missed. -/
theorem latestMissed_of_broken {b : Backup} {outcome : Except Failure (List α)} {g : Failure}
    {w₁ w₂ : World} (hb : b.Sound) (h : b.restore host w₁ = (.error g, w₂)) :
    latestMissed (b.finish outcome host w₁).2 ≠ [] := by
  rw [Backup.finish_of_broken h]
  obtain ⟨m, l, v₁, v₂, -, -, -, -, ⟨-, -, hr⟩ | ⟨g', r, -, hne, hr⟩⟩ :=
    Backup.restore_run hb host w₁
  · cases hr.symm.trans h
  · obtain rfl := congrArg Prod.snd (hr.symm.trans h)
    exact hne

/-- Nothing happens to the files, and a task that keeps no copy comes to keep none. -/
theorem Kept.of_setTask (h : Kept files start t w) (hout : t.backup? task = none)
    (hphase : phase.backup? = none) (queue : List Nat) (hfiles : w'.files = w.files) :
    Kept files start { t.setTask task phase with queue } w' := by
  refine ⟨h.guarded, fun other b hb => h.copies other b (backup?_of_setTask hphase hb), ?_⟩
  intro hfree
  rw [hfiles]
  refine h.free (isFree_iff.2 fun other => ?_)
  by_cases hsame : other = task
  · rw [hsame, hout]
  · rw [← backup?_setTask_of_ne t phase hsame]
    exact isFree_iff.1 hfree other

/-- A task with an open transaction stands in the way of being free. -/
theorem not_isFree {b : Backup} (h : t.backup? task = some b) : ¬ t.isFree = true := by
  intro hfree
  rw [isFree_iff.1 hfree task] at h
  cases h

theorem backup?_setTask_self {before : Phase α} (h : t.tasks[task]? = some before) :
    (t.setTask task phase).backup? task = phase.backup? := by
  have hlt := (List.getElem?_eq_some_iff.1 h).1
  exact backup?_of_eq (List.getElem?_set_self hlt)

/-- A task that has ended keeps no copy. -/
theorem backup?_setTask_ended {b : Backup} {outcome : Except Failure (List α)}
    (h : t.backup? task = some b) : (t.setTask task (.ended outcome)).backup? task = none := by
  obtain ⟨before, hbefore, -⟩ := Option.bind_eq_some_iff.1 h
  exact backup?_setTask_self hbefore

/-- **Every copy is one of the files as they were at the start**, and so are the files when no
transaction is open. -/
theorem Stepped.kept (hstep : Stepped host t w t' w') (hm : files.Unmeddled host)
    (hall : AllRestored (t.deedsOf t' w')) (h : Kept files start t w) :
    Kept files start t' w' := by
  cases hstep with
  | stays => exact h
  | asks hidle => exact h.of_setTask (backup?_of_eq hidle) rfl _ rfl
  | leaves hout => exact h.of_setTask hout rfl _ rfl
  | refused hwaits free first taken =>
    exact h.of_setTask (backup?_of_eq hwaits) rfl _ (Backup.take_error taken).1
  | @works task b step work results result _ hopen worked =>
    refine ⟨h.guarded, fun other c hc => ?_, fun hfree => ?_⟩
    · rcases backup?_setTask t task other _ hc with ⟨rfl, hsame⟩ | ⟨-, hkept⟩
      · exact h.copies other c ((backup?_of_eq hopen).trans hsame)
      · exact h.copies other c hkept
    · exact absurd hfree (not_isFree (backup?_setTask_self hopen))
  | @opens task work b _ hwaits free first taken =>
    rw [h.guarded] at taken
    obtain ⟨hfiles, hsound, hhold, -, -⟩ := Backup.take_ok taken
    refine ⟨h.guarded, fun other c hc => ?_, fun hfree => ?_⟩
    · rcases backup?_setTask t task other _ hc with ⟨rfl, hsame⟩ | ⟨-, hkept⟩
      · obtain rfl : b = c := Option.some.inj hsame
        exact ⟨hsound, hfiles, hhold.of_alike (h.free free).symm⟩
      · exact h.copies other c hkept
    · exact absurd hfree (not_isFree (backup?_setTask_self hwaits))
  | @ends task b outcome w₁ hopen worked =>
    obtain ⟨hsound, rfl, hhold⟩ := h.copies task b hopen
    refine ⟨h.guarded, fun other c hc => h.copies other c (backup?_of_setTask rfl hc), fun _ => ?_⟩
    have hnone := latestMissed_eq_nil hall hopen (backup?_setTask_ended hopen)
    rcases hrestore : b.restore host w₁ with ⟨g | ⟨⟩, w₂⟩
    · exact absurd hnone (latestMissed_of_broken hsound hrestore)
    · rw [Backup.finish_of_restored hrestore]
      exact (Backup.restore_ok hsound hhold hm hrestore).alike hhold

/-! ## 4. Schedules -/

/-- **A schedule is carried out to its end, and opens one transaction at a time.** -/
theorem run_of_exclusive (host : Host) (moves : List Move) (w : World) (h : t.Exclusive) :
    ∃ t' w', t.run moves host w = (.ok t', w') ∧ t'.Exclusive := by
  induction moves generalizing t w with
  | nil => exact ⟨t, w, rfl, h⟩
  | cons m rest ih =>
    obtain ⟨t₁, w₁, hmove, hstep⟩ := stepped t m host w
    obtain ⟨t', w', hrun, hexclusive⟩ := ih w₁ (hstep.exclusive h)
    refine ⟨t', w', ?_, hexclusive⟩
    rw [run, Action.bind_of_ok hmove]
    exact hrun

/-- **A schedule in which every file is put back** copies the files of the start only, and has
them back in the end. -/
theorem run_of_kept (hm : files.Unmeddled host) (moves : List Move)
    (hrun : t.run moves host w = (.ok t', w')) (hall : AllRestored (t.deeds host w moves))
    (h : Kept files start t w) :
    Kept files start t' w' ∧
      ∀ task b, .opened task b ∈ t.deeds host w moves →
        files.Hold b.snapshot.contents start := by
  induction moves generalizing t w with
  | nil =>
    obtain ⟨rfl, rfl⟩ : t = t' ∧ w = w' := by simpa [run] using hrun
    exact ⟨h, fun _ _ hb => absurd hb List.not_mem_nil⟩
  | cons m rest ih =>
    obtain ⟨t₁, w₁, hmove, hstep⟩ := stepped t m host w
    rw [run, Action.bind_of_ok hmove] at hrun
    simp only [deeds, hmove] at hall ⊢
    have kept := hstep.kept hm (fun d hd => hall d (List.mem_append_left _ hd)) h
    obtain ⟨kept', later⟩ := ih hrun (fun d hd => hall d (List.mem_append_right _ hd)) kept
    refine ⟨kept', fun task b hb => ?_⟩
    rcases List.mem_append.1 hb with hb | hb
    · exact (kept.copies task b (backup?_of_mem_deedsOf hb)).2.2
    · exact later task b hb

/-! ## 5. Tasks that share the manifest files -/

theorem backup?_ofTasks (files : ManifestFiles) (tasks : List (List (Action α))) (task : Nat) :
    (ofTasks files tasks).backup? task = none := by
  simp only [backup?, ofTasks, List.getElem?_map]
  cases tasks[task]? <;> rfl

theorem kept_ofTasks (files : ManifestFiles) (tasks : List (List (Action α))) (w : World) :
    Kept files w.files (ofTasks files tasks) w := by
  refine ⟨rfl, fun task b hb => ?_, fun _ => .refl files w.files⟩
  rw [backup?_ofTasks] at hb
  cases hb

theorem exclusive_ofTasks (files : ManifestFiles) (tasks : List (List (Action α))) :
    (ofTasks files tasks).Exclusive := by
  intro task other b c hb
  rw [backup?_ofTasks] at hb
  cases hb

theorem isFree_of_ended (h : ∀ outcome ∈ t.outcomes, outcome.isSome = true) :
    t.isFree = true := by
  refine isFree_iff.2 fun task => ?_
  cases hp : t.tasks[task]? with
  | none => simp [backup?, hp]
  | some phase =>
    have ended := h _ (List.mem_map_of_mem (List.mem_of_getElem? hp))
    rw [backup?_of_eq hp]
    cases phase with
    | ended outcome => rfl
    | idle work => cases ended
    | waiting work => cases ended
    | inside b work results => cases ended

/-- **Transactions exclude each other.**  Whatever the tasks do inside their transactions and in
whatever order they are moved and cancelled, at most one transaction is open.  When no attempt
to put the files back fails, every copy that was taken is one of the files as they were at the
start, and so are the files whenever no transaction is open, as when all tasks have ended. -/
theorem run_exclusive (hm : files.Unmeddled host) (tasks : List (List (Action α)))
    (moves : List Move) (w : World) :
    ∃ t w', (ofTasks files tasks).run moves host w = (.ok t, w') ∧ t.Exclusive ∧
      (AllRestored ((ofTasks files tasks).deeds host w moves) →
        (∀ task b, .opened task b ∈ (ofTasks files tasks).deeds host w moves →
          files.Hold b.snapshot.contents w.files) ∧
        (t.isFree = true → files.Alike w'.files w.files) ∧
        ((∀ outcome ∈ t.outcomes, outcome.isSome = true) → files.Alike w'.files w.files)) := by
  obtain ⟨t, w', hrun, hexclusive⟩ :=
    run_of_exclusive host moves w (exclusive_ofTasks files tasks)
  refine ⟨t, w', hrun, hexclusive, fun hall => ?_⟩
  obtain ⟨kept, opened⟩ := run_of_kept hm moves hrun hall (kept_ofTasks files tasks w)
  exact ⟨opened, kept.free, fun h => kept.free (isFree_of_ended h)⟩

/-- A directory with both files. -/
def littleModule : FileTree :=
  ⟨[(["go.mod"], .file [109]), (["go.sum"], .file [])], none⟩

/-- Work that loses every file. -/
def lose : Action Unit := .change fun w => { w with files := .empty }

/-- Three tasks ask in turn.  The first one is cancelled at its work, the third one while it
waits, and the second one has its turn in between. -/
def cancelling : List Move :=
  [.advance 0, .advance 1, .advance 2, .advance 0, .advance 1, .advance 0, .cancel 2, .cancel 0,
    .advance 1, .advance 1, .advance 1]

theorem run_exclusive_losing :
    ManifestFiles.here.Unmeddled (.quiet fun _ _ => .interrupted) ∧
      AllRestored ((ofTasks .here [[lose, lose], [lose], [lose]]).deeds
        (.quiet fun _ _ => .interrupted) (.ofFiles littleModule) cancelling) ∧
      ∃ t w', (ofTasks .here [[lose, lose], [lose], [lose]]).run cancelling
          (.quiet fun _ _ => .interrupted) (.ofFiles littleModule) = (.ok t, w') ∧
        t.Exclusive ∧ ManifestFiles.here.Alike w'.files littleModule := by
  have hm : ManifestFiles.here.Unmeddled (.quiet fun _ _ => .interrupted) := fun _ _ => rfl
  have hall : AllRestored ((ofTasks .here [[lose, lose], [lose], [lose]]).deeds
      (.quiet fun _ _ => .interrupted) (.ofFiles littleModule) cancelling) := by
    unfold AllRestored
    decide +kernel
  have hfree : ((ofTasks .here [[lose, lose], [lose], [lose]]).run cancelling
      (.quiet fun _ _ => .interrupted) (.ofFiles littleModule)).1.toOption.map isFree
        = some true := by
    decide +kernel
  obtain ⟨t, w', hrun, hexclusive, hkept⟩ :=
    run_exclusive hm [[lose, lose], [lose], [lose]] cancelling (.ofFiles littleModule)
  rw [hrun] at hfree
  exact ⟨hm, hall, t, w', hrun, hexclusive, (hkept hall).2.1 (Option.some.inj hfree)⟩

end Turns
end UpgradeAudit
