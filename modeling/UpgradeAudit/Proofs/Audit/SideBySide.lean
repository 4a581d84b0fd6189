/-
# Analyzers side by side

The analyzers run side by side and may end in another order each time.  Each of them, carried
through from wherever the others have left off, comes to the same (`Launched.Settles`): none
changes a file that another one reads.  So the order in which they end does not matter
(`foldlM_concludeOne`), and under steady surroundings an analysis repeats (`repeats_analyze`).
-/
import UpgradeAudit.Proofs.Audit.Analyses
import UpgradeAudit.Proofs.Audit.Programs

namespace UpgradeAudit

variable {α β : Type} {host : Host} {files : ManifestFiles} {usual : FileTree → Prop}
  {E : FileTree → FileTree → Prop}

/-! ## 1. Source files -/

namespace Output.CheckStream

variable {moduleCache dir : String}

theorem repeats_issueOf (h : host.Steady files usual) {p : Problem}
    (hread : ∀ t t', E t t' → t.standing (sourcePath (some dir) p.location.file)
      = t'.standing (sourcePath (some dir) p.location.file)) :
    Action.Repeats host E (issueOf moduleCache (some dir) p) := by
  have lines (start stop : Int) : Action.Repeats host E
      (readLines (sourcePath (some dir) p.location.file) start stop) := by
    unfold readLines
    split
    · exact Action.twin_pure rfl
    · refine Action.repeats_bind (Action.repeats_readFile h hread) fun content => ?_
      split
      · exact Action.twin_bind (Action.twin_fail (P := fun _ _ => True) _) fun _ _ _ =>
          Action.twin_pure rfl
      · exact Action.twin_pure rfl
  unfold issueOf
  dsimp only
  split
  · exact Action.twin_pure rfl
  · exact Action.repeats_bind (Action.twin_mapFailure (lines _ _) _) fun _ => Action.twin_pure rfl

theorem repeats_issuesOf (h : host.Steady files usual) : ∀ {problems : List Problem},
    (∀ p ∈ problems, ∀ t t', E t t' → t.standing (sourcePath (some dir) p.location.file)
      = t'.standing (sourcePath (some dir) p.location.file)) →
    Action.Repeats host E (issuesOf moduleCache (some dir) problems)
  | [], _ => Action.twin_pure rfl
  | p :: problems, hread => by
    refine Action.repeats_bind (repeats_issueOf h (hread p List.mem_cons_self)) fun issue => ?_
    refine Action.repeats_bind (repeats_issuesOf h fun q hq => hread q (List.mem_cons_of_mem _ hq))
      fun issues => Action.twin_pure rfl

/-- **Output is decoded alike** where the source files that it names are alike. -/
theorem repeats_decode (h : host.Steady files usual) {stdout : Bytes}
    (hread : ∀ path ∈ sources (host.nesting 0) dir stdout, ∀ t t', E t t' →
      t.standing path = t'.standing path) :
    Action.Repeats host E (decode (.bytes stdout) moduleCache (some dir)) := by
  unfold sources at hread
  refine Action.twin_bind (Action.twin_room h) fun room room' rooms => ?_
  rw [rooms.1, rooms.2]
  cases hp : problems (.bytes stdout) (host.nesting 0) with
  | error cause => exact fun _ _ halike => ⟨.error _, halike⟩
  | ok ps =>
    rw [hp] at hread
    show Action.Repeats host E (issuesOf moduleCache (some dir) ps)
    exact repeats_issuesOf h fun p hmem => hread _ (List.mem_map_of_mem hmem)

end Output.CheckStream

/-! ## 2. Launching -/

/-- Actions that end alike wherever log records leave alike what is alike. -/
def Action.Left (host : Host) (x y : Action α) : Prop :=
  ∀ E, host.Spares E → Action.Twin host E (· = ·) x y

namespace Analyzers

theorem left_blame {x y : Action α} (h : Action.Left host x y) (tool : Tool) :
    Action.Left host (blame tool x) (blame tool y) :=
  fun E hE => Action.twin_mapFailure (h E hE) _

/-- Whatever private directory it is given, a program with a configuration is launched alike. -/
theorem twin_withConfig (h : host.Steady files usual) (tool : Tool) (what name : String)
    (content : Bytes) {launch : String → Action Running} (accepted : List Int)
    (hlaunch : ∀ path,
      Action.Twin host (files.AlikeIn usual) Running.Same (launch path) (launch path)) :
    Action.Twin host (files.AlikeIn usual) (Action.Left host)
      (withConfig tool what name content launch accepted)
      (withConfig tool what name content launch accepted) := by
  unfold withConfig
  refine Action.twin_bind (Action.twin_makeDirectory h) fun d d' _ => ?_
  refine Action.twin_bind (Action.twin_attempt (P := Running.Same) ?_) fun r r' agree => ?_
  · refine Action.twin_bind
      (Action.twin_mapFailure (Action.twin_writePrivate h d d' name content) _)
      fun _ _ _ => Action.twin_bind (Action.twin_privateName h d d' name) fun path _ same => ?_
    obtain rfl := same
    exact hlaunch path
  cases agree with
  | error f =>
    exact Action.twin_bind (Action.twin_removeDirectory h d d') fun _ _ _ => Action.twin_fail f
  | ok same =>
    refine Action.twin_pure fun E hE => ?_
    refine Action.twin_bind (Action.twin_attempt (Runner.twin_wait hE same accepted))
      fun ended ended' agree => ?_
    exact Action.twin_bind (Action.twin_removeDirectory h d d') fun _ _ _ =>
      Action.twin_ofExcept agree

theorem twin_launchCapslock (h : host.Steady files usual) (a : Analyzers) (target : Target) :
    Action.Twin host (files.AlikeIn usual) (Action.Left host) (a.launchCapslock target)
      (a.launchCapslock target) := by
  unfold launchCapslock
  split
  · exact Action.twin_fail _
  · refine Action.twin_bind (Action.twin_mapFailure (twin_withConfig h _ _ _ _ _ fun path => ?_) _)
      fun ending ending' left => ?_
    · exact Action.twin_bind (Action.twin_log h.spares) fun _ _ _ => Runner.twin_start h
    · refine Action.twin_pure fun E hE => ?_
      refine Action.twin_bind (left_blame left _ E hE) fun result _ same => ?_
      obtain rfl := same
      refine Action.twin_bind (Action.twin_room h) fun room room' rooms => ?_
      rw [rooms.1, rooms.2]
      refine Action.repeats_bind (Action.repeats_ofCauses _) fun report => ?_
      exact Action.twin_bind (Action.twin_log hE) fun _ _ _ => Action.twin_pure rfl

theorem twin_launchGolangciLint (h : host.Steady files usual) (a : Analyzers) (target : Target) :
    Action.Twin host (files.AlikeIn usual) (Action.Left host) (a.launchGolangciLint target)
      (a.launchGolangciLint target) := by
  unfold launchGolangciLint
  refine Action.twin_bind (Action.twin_mapFailure (twin_withConfig h _ _ _ _ _ fun path => ?_) _)
    fun ending ending' left => ?_
  · exact Action.twin_bind (Action.twin_log h.spares) fun _ _ _ => Runner.twin_start h
  · refine Action.twin_pure fun E hE => ?_
    refine Action.twin_bind (left_blame left _ E hE) fun result _ same => ?_
    obtain rfl := same
    refine Action.twin_bind (Action.twin_room h) fun room room' rooms => ?_
    rw [rooms.1, rooms.2]
    exact Action.repeats_ofCauses _

/-- Actions that end alike wherever, besides, what stands at some paths is alike. -/
def LeftReading (host : Host) (paths : List String) (x y : Action α) : Prop :=
  ∀ E, host.Spares E → (∀ path ∈ paths, ∀ t t', E t t' → t.standing path = t'.standing path) →
    Action.Twin host E (· = ·) x y

/-- Launches that leave the manifest files alike, and alike what is to be read of the source files
that a program names. -/
def LaunchesReading (host : Host) (files : ManifestFiles) (usual : FileTree → Prop)
    (x : Action (Action α)) : Prop :=
  ∀ w v, files.AlikeIn usual w.files v.files →
    files.AlikeIn usual (x host w).2.files (x host v).2.files ∧
      ∃ paths, (∀ path ∈ paths, host.Names usual path) ∧
        FileTree.AlikeAt paths (x host w).2.files (x host v).2.files ∧
        Agree (LeftReading host paths) (x host w).1 (x host v).1

theorem LaunchesReading.after {x : Action β} {f : β → Action (Action α)}
    (hx : Action.Repeats host (files.AlikeIn usual) x)
    (hf : ∀ b, LaunchesReading host files usual (f b)) :
    LaunchesReading host files usual (x >>= f) := by
  intro w v halike
  obtain ⟨agree, after⟩ := hx w v halike
  rcases hxw : x host w with ⟨e | b, w'⟩ <;> rcases hxv : x host v with ⟨e' | b', v'⟩ <;>
    rw [hxw, hxv] at agree after <;> cases agree
  case error =>
    rw [Action.bind_of_error hxw, Action.bind_of_error hxv]
    exact ⟨after, [], (fun _ hpath => nomatch hpath), (fun _ hpath => nomatch hpath), .error e⟩
  case ok same =>
    obtain rfl := same
    rw [Action.bind_of_ok hxw, Action.bind_of_ok hxv]
    exact hf b w' v' after

/-- **The last program is launched alike**: what is left reads the source files that its output
names, and these are alike. -/
theorem launchesReading_staticcheck (h : host.Steady files usual) (a : Analyzers) {target : Target}
    (hdir : target.workDir ≠ "") :
    LaunchesReading host files usual (a.launchStaticcheck target) := by
  have directory : a.runner.directory (some target.workDir) = target.workDir := by
    unfold Runner.directory
    split
    · contradiction
    · rename_i hd
      exact absurd (Option.some.inj hd) hdir
    · rename_i hd
      exact (Option.some.inj hd).symm
  refine LaunchesReading.after (Action.twin_log h.spares) fun _ w v halike => ?_
  obtain ⟨agree, alike, reads⟩ := Runner.start_twins h a.runner
    ([a.staticcheck, "-checks=" ++ a.checks, "-f=json", "-tests=false"] ++ target.dirs)
    (some target.workDir) none halike
  rw [directory] at reads
  unfold blame Action.onCommandFailure
  simp only [Action.bind_run, Action.mapFailure_run]
  revert agree alike reads
  generalize a.runner.start _ _ none host w = s
  generalize a.runner.start _ _ none host v = s'
  intro agree alike reads
  obtain ⟨r, w'⟩ := s
  obtain ⟨r', v'⟩ := s'
  cases agree with
  | error f =>
    exact ⟨alike, [], (fun _ hpath => nomatch hpath), (fun _ hpath => nomatch hpath), .error _⟩
  | @ok running running' same =>
    obtain ⟨sources, names⟩ := reads running rfl
    refine ⟨alike, _, names, sources, .ok fun E hE hread => ?_⟩
    refine Action.twin_bind (Action.twin_mapFailure (Runner.twin_wait_stdout hE same _) _)
      fun result _ written => ?_
    obtain ⟨rfl, hstdout⟩ := written
    refine Action.repeats_bind (Action.repeats_checkpoint h) fun _ => ?_
    rw [hstdout]
    exact Output.CheckStream.repeats_decode h hread

end Analyzers

/-! ## 3. Carrying through in any order -/

namespace Launched

/-- Carried through wherever the files are near to some others, the work comes to one outcome and
the files stay near. -/
def Settles (host : Host) (near : FileTree → Prop) (l : Launched α) (r : Except Failure α) : Prop :=
  ∀ w, near w.files → ∃ w', l.conclude host w = (.ok r, w') ∧ near w'.files

theorem twin_conclude {l l' : Launched α}
    (h : Agree (fun x y => Action.Twin host E (· = ·) x y) l l') :
    Action.Twin host E (· = ·) l.conclude l'.conclude := by
  cases h with
  | error f => exact Action.twin_pure rfl
  | ok h => exact (Action.twin_attempt h).imp fun _ _ agree => agree.eq

/-- **Twins settle to the same outcome.**  Each is compared with one run of the other. -/
theorem settles_of_twin {near near' : FileTree → Prop} {l l' : Launched α} {w v : World}
    (h : Action.Twin host (fun u u' => near u ∧ near' u') (· = ·) l.conclude l'.conclude)
    (hw : near w.files) (hv : near' v.files) :
    ∃ r, l.Settles host near r ∧ l'.Settles host near' r := by
  have meet {u u' : World} (hu : near u.files) (hu' : near' u'.files) :
      ∃ r u₁ u₁', l.conclude host u = (.ok r, u₁) ∧ l'.conclude host u' = (.ok r, u₁') ∧
        near u₁.files ∧ near' u₁'.files := by
    obtain ⟨agree, after⟩ := h u u' ⟨hu, hu'⟩
    obtain ⟨r, u₁, hr⟩ := l.conclude_ok host u
    obtain ⟨r', u₁', hr'⟩ := l'.conclude_ok host u'
    rw [hr, hr'] at agree after
    cases agree with
    | ok same => exact ⟨r, u₁, u₁', hr, same ▸ hr', after⟩
  obtain ⟨r, w₁, v₁, hr, hr', -⟩ := meet hw hv
  refine ⟨r, fun u hu => ?_, fun u' hu' => ?_⟩
  · obtain ⟨s, u₁, v₂, hs, hs', hnear, -⟩ := meet hu hv
    obtain rfl : r = s := Except.ok.inj (congrArg Prod.fst (hr'.symm.trans hs'))
    exact ⟨u₁, hs, hnear⟩
  · obtain ⟨s, w₂, u₁', hs, hs', -, hnear⟩ := meet hw hu'
    obtain rfl : r = s := Except.ok.inj (congrArg Prod.fst (hr.symm.trans hs))
    exact ⟨u₁', hs', hnear⟩

end Launched

namespace Analyzers

variable {c : Except Failure CapabilityReport} {g s : Except Failure (List Issue)}

/-- The outcomes when one more analyzer has ended as it does. -/
def Outcomes.fill (c : Except Failure CapabilityReport) (g s : Except Failure (List Issue))
    (o : Outcomes) : Tool → Outcomes
  | .capslock => { o with capslock := some c }
  | .golangciLint => { o with lint := { o.lint with golangciLint := some g } }
  | .staticcheck => { o with lint := { o.lint with staticcheck := some s } }

/-- Outcomes of some analyzers that are those given. -/
structure Outcomes.Among (c : Except Failure CapabilityReport) (g s : Except Failure (List Issue))
    (o : Outcomes) : Prop where
  capslock : ∀ r, o.capslock = some r → r = c
  golangciLint : ∀ r, o.lint.golangciLint = some r → r = g
  staticcheck : ∀ r, o.lint.staticcheck = some r → r = s

theorem Outcomes.Among.fill {o : Outcomes} (h : o.Among c g s) (tool : Tool) :
    (o.fill c g s tool).Among c g s := by
  obtain ⟨hc, hg, hs⟩ := h
  cases tool with
  | capslock => exact ⟨fun r hr => (Option.some.inj hr).symm, hg, hs⟩
  | golangciLint => exact ⟨hc, fun r hr => (Option.some.inj hr).symm, hs⟩
  | staticcheck => exact ⟨hc, hg, fun r hr => (Option.some.inj hr).symm⟩

section order

variable {near : FileTree → Prop} {capslock : Launched CapabilityReport} {linters : Linters}
  (hc : capslock.Settles host near c) (hg : linters.golangciLint.Settles host near g)
  (hs : linters.staticcheck.Settles host near s)

include hc hg hs

/-- The end of one analyzer, whichever have ended before it. -/
theorem concludeOne_run {o : Outcomes} (ho : o.Among c g s) (tool : Tool) {w : World}
    (hw : near w.files) :
    ∃ w', concludeOne capslock linters o tool host w = (.ok (o.fill c g s tool), w') ∧
      near w'.files := by
  obtain ⟨oc, og, os⟩ := o
  unfold concludeOne
  cases tool with
  | capslock =>
    cases oc with
    | none =>
      obtain ⟨w', hrun, hnear⟩ := hc w hw
      exact ⟨w', Action.bind_of_ok hrun _, hnear⟩
    | some r =>
      obtain rfl := ho.capslock r rfl
      exact ⟨w, rfl, hw⟩
  | golangciLint =>
    cases og with
    | none =>
      obtain ⟨w', hrun, hnear⟩ := hg w hw
      have inner : linters.conclude ⟨none, os⟩ .golangciLint host w = (.ok ⟨some g, os⟩, w') :=
        Action.bind_of_ok hrun _
      exact ⟨w', Action.bind_of_ok inner _, hnear⟩
    | some r =>
      obtain rfl := ho.golangciLint r rfl
      exact ⟨w, rfl, hw⟩
  | staticcheck =>
    cases os with
    | none =>
      obtain ⟨w', hrun, hnear⟩ := hs w hw
      have inner : linters.conclude ⟨og, none⟩ .staticcheck host w = (.ok ⟨og, some s⟩, w') :=
        Action.bind_of_ok hrun _
      exact ⟨w', Action.bind_of_ok inner _, hnear⟩
    | some r =>
      obtain rfl := ho.staticcheck r rfl
      exact ⟨w, rfl, hw⟩

/-- **In whatever order they end, the analyzers come to the same outcomes.** -/
theorem foldlM_concludeOne : ∀ (order : List Tool) {o : Outcomes}, o.Among c g s →
    ∀ {w : World}, near w.files →
    ∃ w', order.foldlM (concludeOne capslock linters) o host w
        = (.ok (order.foldl (Outcomes.fill c g s) o), w') ∧ near w'.files
  | [], o, _, w, hw => ⟨w, rfl, hw⟩
  | tool :: order, o, ho, w, hw => by
    obtain ⟨w', hrun, hnear⟩ := concludeOne_run hc hg hs ho tool hw
    obtain ⟨w'', hrest, hnear'⟩ := foldlM_concludeOne order (ho.fill tool) hnear
    refine ⟨w'', ?_, hnear'⟩
    rw [List.foldlM_cons, Action.bind_of_ok hrun, hrest, List.foldl_cons]

/-- When all have ended every outcome is known. -/
theorem conclude_all (order : List Tool) {w : World} (hw : near w.files) :
    ∃ w', (order ++ [Tool.capslock, Tool.golangciLint, Tool.staticcheck]).foldlM
        (concludeOne capslock linters) ⟨none, ⟨none, none⟩⟩ host w
          = (.ok ⟨some c, ⟨some g, some s⟩⟩, w') ∧ near w'.files := by
  have none : Outcomes.Among c g s ⟨none, ⟨none, none⟩⟩ :=
    ⟨nofun, nofun, nofun⟩
  obtain ⟨w', hrun, hnear⟩ := foldlM_concludeOne hc hg hs _ none hw
  exact ⟨w', by rw [hrun, List.foldl_append]; rfl, hnear⟩

end order

/-! ## 4. All analyzers -/

theorem repeats_reportIssues (h : host.Steady files usual) (target : Target)
    (outcome : Except Failure (List Issue)) :
    Action.Repeats host (files.AlikeIn usual) (reportIssues target outcome) := by
  cases outcome with
  | ok issues => exact Action.twin_log h.spares
  | error f => exact Action.twin_pure rfl

/-- Trees that do not differ from another one in the manifest files and at some paths. -/
def Near (files : ManifestFiles) (usual : FileTree → Prop) (paths : List String)
    (t u : FileTree) : Prop :=
  files.AlikeIn usual u t ∧ FileTree.AlikeAt paths u t

theorem near_self {t : FileTree} (ht : usual t) (paths : List String) :
    Near files usual paths t t := ⟨.refl files ht, fun _ _ => rfl⟩

theorem spares_near (h : host.Steady files usual) {paths : List String}
    (names : ∀ path ∈ paths, host.Names usual path) (t t' : FileTree) :
    host.Spares fun u u' => Near files usual paths t u ∧ Near files usual paths t' u' := by
  have keeps (r : LogRecord) {t u : FileTree} (hu : Near files usual paths t u) :
      Near files usual paths t (host.keepRecord r u) :=
    ⟨⟨h.recorded r u hu.1.here, hu.1.there, (h.records r u).trans hu.1.alike⟩, fun path hpath =>
      (h.recordsApart r u path (names path hpath)).trans (hu.2 path hpath)⟩
  exact fun r r' u u' hu => ⟨keeps r hu.1, keeps r' hu.2⟩

/-- Linters that were launched alike: the second one reads source files that are alike. -/
structure Linters.Same (host : Host) (paths : List String) (l l' : Linters) : Prop where
  golangciLint : Agree (Action.Left host) l.golangciLint l'.golangciLint
  staticcheck : Agree (LeftReading host paths) l.staticcheck l'.staticcheck

theorem launchLinters_twins (h : host.Steady files usual) (a : Analyzers) {target : Target}
    (hdir : target.workDir ≠ "") {w v : World} (halike : files.AlikeIn usual w.files v.files) :
    ∃ l l' w' v' paths, a.launchLinters target host w = (.ok l, w') ∧
      a.launchLinters target host v = (.ok l', v') ∧ files.AlikeIn usual w'.files v'.files ∧
      (∀ path ∈ paths, host.Names usual path) ∧ FileTree.AlikeAt paths w'.files v'.files ∧
      l.Same host paths l' := by
  obtain ⟨golangciLint, halike⟩ := twin_launchGolangciLint h a target w v halike
  obtain ⟨halike, paths, names, sources, staticcheck⟩ :=
    launchesReading_staticcheck h a hdir _ _ halike
  exact ⟨_, _, _, _, paths, rfl, rfl, halike, names, sources, golangciLint, staticcheck⟩

/-- **Analyzers that were launched alike settle to the same outcomes**, near to the files that
each launch has left. -/
theorem settle_alike (h : host.Steady files usual) {capslock capslock' : Launched CapabilityReport}
    {l l' : Linters} {paths : List String} {w v : World}
    (hcapslock : Agree (Action.Left host) capslock capslock') (hl : l.Same host paths l')
    (names : ∀ path ∈ paths, host.Names usual path) (halike : files.AlikeIn usual w.files v.files)
    (sources : FileTree.AlikeAt paths w.files v.files) :
    ∃ c g s,
      (capslock.Settles host (Near files usual paths w.files) c ∧
        capslock'.Settles host (Near files usual paths v.files) c) ∧
      (l.golangciLint.Settles host (Near files usual paths w.files) g ∧
        l'.golangciLint.Settles host (Near files usual paths v.files) g) ∧
      (l.staticcheck.Settles host (Near files usual paths w.files) s ∧
        l'.staticcheck.Settles host (Near files usual paths v.files) s) := by
  have spares := spares_near h names w.files v.files
  have reads : ∀ path ∈ paths, ∀ t t',
      Near files usual paths w.files t ∧ Near files usual paths v.files t' →
      t.standing path = t'.standing path := fun path hpath t t' near =>
    (near.1.2 path hpath).trans ((sources path hpath).trans (near.2.2 path hpath).symm)
  have here : Near files usual paths w.files w.files := near_self halike.here paths
  have there : Near files usual paths v.files v.files := near_self halike.there paths
  obtain ⟨c, hc⟩ := Launched.settles_of_twin
    (Launched.twin_conclude (hcapslock.imp fun _ _ left => left _ spares)) here there
  obtain ⟨g, hg⟩ := Launched.settles_of_twin
    (Launched.twin_conclude (hl.golangciLint.imp fun _ _ left => left _ spares)) here there
  obtain ⟨s, hs⟩ := Launched.settles_of_twin
    (Launched.twin_conclude (hl.staticcheck.imp fun _ _ left => left _ spares reads)) here there
  exact ⟨c, g, s, hc, hg, hs⟩

/-- **An analysis repeats**, in whatever order the analyzers end. -/
theorem repeats_analyze (h : host.Steady files usual) (a : Analyzers) {target : Target}
    (hdir : target.workDir ≠ "") :
    Action.Repeats host (files.AlikeIn usual) (a.analyze target) := by
  unfold analyze
  refine Action.twin_bind (Action.twin_attempt (twin_launchCapslock h a target))
    fun capslock capslock' left => ?_
  split
  · refine Action.twin_bind (Action.twin_log h.spares) fun _ _ _ => ?_
    refine Action.twin_bind (Launched.twin_conclude (left.imp fun _ _ hl => hl _ h.spares))
      fun outcome _ same => ?_
    obtain rfl := same
    exact Action.twin_ofExcept (.of_eq _)
  · intro w v halike
    obtain ⟨l, l', w', v', paths, hlaunch, hlaunch', halike', names, sources, hl⟩ :=
      launchLinters_twins h a hdir halike
    obtain ⟨c, g, s, hc, hg, hs⟩ := settle_alike h left hl names halike' sources
    rw [Action.bind_of_ok hlaunch, Action.bind_of_ok hlaunch',
      Action.bind_of_ok Action.host_run, Action.bind_of_ok Action.host_run,
      Action.bind_of_ok Action.moment_run, Action.bind_of_ok Action.moment_run]
    obtain ⟨w'', hfold, hnear⟩ := conclude_all hc.1 hg.1 hs.1 (host.finishOrder w'.clock)
      (w := { w' with clock := w'.clock + 1 }) (near_self halike'.here paths)
    obtain ⟨v'', hfold', hnear'⟩ := conclude_all hc.2 hg.2 hs.2 (host.finishOrder v'.clock)
      (w := { v' with clock := v'.clock + 1 }) (near_self halike'.there paths)
    rw [Action.bind_of_ok hfold, Action.bind_of_ok hfold']
    have halike'' : files.AlikeIn usual w''.files v''.files :=
      hnear.1.trans (halike'.trans hnear'.1.symm)
    exact Action.repeats_bind (repeats_reportIssues h target _)
      (fun _ => Action.twin_ofExcept (.of_eq _)) w'' v'' halike''

end Analyzers
end UpgradeAudit
