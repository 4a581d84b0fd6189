/-
# Steady surroundings

Surroundings in which two runs can be compared.  A program is **steady** when what it answers, and
what stands at the two manifest files after it, depends on its command and on what stood there
before it, and on nothing else (`Start.Same`); so does what stands at the source files that its
output names, because they are read after it.  Its command is all that it is told: private
directories are shown under one name.

A program that names a source file and leaves it as it is can be steady only where that file is
always the same.  So all this is said of the trees that the surroundings keep to, whichever these
are (`Host.KeepsTo`): those, say, in which the sources of a module are either absent or whole.

`Host.Steady` asks it of every program, and of the file system that it fails alike at every
moment.  In which order programs end is left open.
-/
import UpgradeAudit.Output.CheckStream
import UpgradeAudit.Proofs.Host.Twins
import UpgradeAudit.Proofs.Manifest.Restoring

namespace UpgradeAudit

variable {host : Host} {files : ManifestFiles} {usual : FileTree → Prop}
  {E : FileTree → FileTree → Prop}

/-! ## 1. Trees that are kept to -/

/-- Whether a path is that of one of the two files. -/
def ManifestFiles.Has (files : ManifestFiles) (path : String) : Prop :=
  path = files.manifest.text ∨ path = files.lock.text

/-- Surroundings that keep to some trees: programs, log records and whoever else changes files
leave such trees behind, and so does writing the manifest files. -/
structure Host.KeepsTo (host : Host) (files : ManifestFiles) (usual : FileTree → Prop) : Prop where
  left : ∀ history t c b, usual t → host.respond history t c = .runs b → usual b.files
  recorded : ∀ r t, usual t → usual (host.keepRecord r t)
  meddled : ∀ now t, usual t → usual (host.meddle now t)
  written : ∀ path content t t', files.Has path → usual t → t.write path content = .ok t' →
    usual t'

/-- Trees that are kept to and in which the two manifest files are alike. -/
structure ManifestFiles.AlikeIn (files : ManifestFiles) (usual : FileTree → Prop)
    (t t' : FileTree) : Prop where
  here : usual t
  there : usual t'
  alike : files.Alike t t'

namespace ManifestFiles.AlikeIn

variable {t t' t'' : FileTree}

theorem refl (files : ManifestFiles) (h : usual t) : files.AlikeIn usual t t := ⟨h, h, .refl _ _⟩

theorem symm (h : files.AlikeIn usual t t') : files.AlikeIn usual t' t :=
  ⟨h.there, h.here, h.alike.symm⟩

theorem trans (h : files.AlikeIn usual t t') (h' : files.AlikeIn usual t' t'') :
    files.AlikeIn usual t t'' := ⟨h.here, h'.there, h.alike.trans h'.alike⟩

end ManifestFiles.AlikeIn

/-! ## 2. Steady hosts -/

/-- Trees in which the same stands at every one of some paths. -/
def FileTree.AlikeAt (paths : List String) (t t' : FileTree) : Prop :=
  ∀ path ∈ paths, t.standing path = t'.standing path

/-- The source files that the output of a program run in a directory names, where there is so much
room to read it. -/
def Output.CheckStream.sources (room : Nat) (dir : String) (stdout : Bytes) : List String :=
  match problems (.bytes stdout) room with
  | .ok ps => ps.map fun p => sourcePath (some dir) p.location.file
  | .error _ => []

/-- Starts of a program in a directory that cannot be told apart: by what it answers, by the two
manifest files after it, and by the source files that its output names. -/
inductive Start.Same (files : ManifestFiles) (room : Nat) (dir : String) : Start → Start → Prop
  | refused (error : FileError) : Same files room dir (.refused error) (.refused error)
  | barred (fault : CommandFault) : Same files room dir (.barred fault) (.barred fault)
  | interrupted : Same files room dir .interrupted .interrupted
  | runs {b b' : Behaviour} (ending : b.ending = b'.ending) (stdout : b.stdout = b'.stdout)
      (stderr : b.stderr = b'.stderr) (alike : files.Alike b.files b'.files)
      (sources : FileTree.AlikeAt (Output.CheckStream.sources room dir b.stdout) b.files
        b'.files) :
      Same files room dir (.runs b) (.runs b')

/-- Whether the output of some program names a source file. -/
def Host.Names (host : Host) (usual : FileTree → Prop) (path : String) : Prop :=
  ∃ history t c b, usual t ∧ host.respond history t c = .runs b ∧
    path ∈ Output.CheckStream.sources (host.nesting 0) c.cwd b.stdout

/-- Surroundings that keep to some trees, and answer alike in two of them whenever the manifest
files are alike. -/
structure Host.Steady (host : Host) (files : ManifestFiles) (usual : FileTree → Prop) : Prop
    extends host.KeepsTo files usual where
  answers : ∀ history history' t t' c, files.AlikeIn usual t t' →
    Start.Same files (host.nesting 0) c.cwd (host.respond history t c)
      (host.respond history' t' c)
  records : ∀ r t, files.Alike (host.keepRecord r t) t
  recordsApart : ∀ r t path, host.Names usual path →
    (host.keepRecord r t).standing path = t.standing path
  meddling : ∀ now t, files.Alike (host.meddle now t) t
  oneName : ∀ directory, host.directoryName directory = host.directoryName 0
  readFault : ∀ now, host.readFault now = host.readFault 0
  writeFault : ∀ now, host.writeFault now = host.writeFault 0
  directoryFault : ∀ now, host.directoryFault now = host.directoryFault 0
  privateFault : ∀ now, host.privateFault now = host.privateFault 0
  removalFault : ∀ now, host.removalFault now = host.removalFault 0
  nesting : ∀ now, host.nesting now = host.nesting 0
  interrupts : ∀ now, host.interrupts now = host.interrupts 0

theorem Host.Steady.undisturbed (h : host.Steady files usual) : files.Undisturbed host :=
  ⟨h.records, fun now t => (h.meddling now t).1⟩

/-- A quiet host is as steady as its programs. -/
theorem Host.steady_quiet {respond : FileTree → Command → Start}
    (answers : ∀ t t' c, files.AlikeIn usual t t' →
      Start.Same files Json.usualRoom c.cwd (respond t c) (respond t' c))
    (left : ∀ t c b, usual t → respond t c = .runs b → usual b.files)
    (written : ∀ path content t t', files.Has path → usual t → t.write path content = .ok t' →
      usual t') :
    (Host.quiet respond).Steady files usual where
  left _ := left
  recorded _ _ := id
  meddled _ _ := id
  written := written
  answers _ _ := answers
  records _ t := .refl files t
  recordsApart _ _ _ _ := rfl
  meddling _ t := .refl files t
  oneName _ := rfl
  readFault _ := rfl
  writeFault _ := rfl
  directoryFault _ := rfl
  privateFault _ := rfl
  removalFault _ := rfl
  nesting _ := rfl
  interrupts _ := rfl

/-- Trees that are alike stay so when log records are kept. -/
def Host.Spares (host : Host) (E : FileTree → FileTree → Prop) : Prop :=
  ∀ r r' t t', E t t' → E (host.keepRecord r t) (host.keepRecord r' t')

theorem Host.Steady.spares (h : host.Steady files usual) : host.Spares (files.AlikeIn usual) :=
  fun r r' t t' halike => ⟨h.recorded r t halike.here, h.recorded r' t' halike.there,
    (h.records r t).trans (halike.alike.trans (h.records r' t').symm)⟩

/-! ## 3. Operations that repeat -/

namespace Action

theorem twin_log (h : host.Spares E) {severity severity' : Severity}
    {origin origin' event event' : String} {details details' : List (String × Json)} :
    Twin host E (· = ·) (log severity origin event details)
      (log severity' origin' event' details') :=
  fun _ _ halike => ⟨.ok rfl, h _ _ _ _ halike⟩

/-- **What is read is what stands at the path.** -/
theorem repeats_readFile (h : host.Steady files usual) {path : String}
    (hpath : ∀ t t', E t t' → t.standing path = t'.standing path) :
    Repeats host E (readFile path) := by
  refine twin_of_aside (within_readFile path) (within_readFile path) fun w v halike => ?_
  have same : w.files.read path = v.files.read path := FileTree.read_congr (hpath _ _ halike)
  unfold readFile checkName
  cases hname : Cause.ofFileName? path with
  | some cause => exact .error _
  | none =>
    simp only [pure_run, bind_run, moment_run, host_run, h.readFault w.clock,
      h.readFault v.clock]
    cases hfault : host.readFault 0 path with
    | some fault => exact .error _
    | none =>
      simp only [bind_run, world_run, same]
      cases v.files.read path with
      | error fault => exact .error _
      | ok content => exact .ok rfl

/-- There is as much room in both runs. -/
theorem twin_room (h : host.Steady files usual) :
    Twin host E (fun n n' => n = host.nesting 0 ∧ n' = host.nesting 0) room room :=
  twin_of_aside within_room within_room fun w v _ => by
    rw [room_run, room_run]
    exact .ok ⟨h.nesting w.clock, h.nesting v.clock⟩

theorem repeats_checkpoint (h : host.Steady files usual) : Repeats host E checkpoint := by
  refine twin_of_aside within_checkpoint within_checkpoint fun w v _ => ?_
  unfold checkpoint
  simp only [bind_run, moment_run, host_run, h.interrupts w.clock, h.interrupts v.clock]
  cases host.interrupts 0 with
  | false => exact .ok trivial
  | true => exact .error _

theorem twin_makeDirectory (h : host.Steady files usual) :
    Twin host E (fun _ _ => True) makeDirectory makeDirectory := by
  refine twin_of_aside within_makeDirectory within_makeDirectory fun w v _ => ?_
  unfold makeDirectory
  simp only [bind_run, moment_run, host_run, h.directoryFault w.clock, h.directoryFault v.clock]
  cases host.directoryFault 0 with
  | some error => exact .error _
  | none => exact .ok trivial

theorem twin_removeDirectory (h : host.Steady files usual) (d d' : Nat) :
    Twin host E (· = ·) (removeDirectory d) (removeDirectory d') := by
  refine twin_of_aside (within_removeDirectory d) (within_removeDirectory d') fun w v _ => ?_
  unfold removeDirectory
  simp only [bind_run, moment_run, host_run, h.removalFault w.clock, h.removalFault v.clock]
  cases host.removalFault 0 with
  | some error => exact .error _
  | none => exact .ok trivial

theorem twin_privateName (h : host.Steady files usual) (d d' : Nat) (name : String) :
    Twin host E (· = ·) (privateName d name) (privateName d' name) := by
  refine twin_bind twin_host fun h₁ h₂ hosts => twin_pure ?_
  rw [hosts.1, hosts.2, h.oneName d, h.oneName d']

theorem twin_writePrivate (h : host.Steady files usual) (d d' : Nat) (name : String)
    (content : Bytes) :
    Twin host E (· = ·) (writePrivate d name content) (writePrivate d' name content) := by
  refine twin_of_aside (within_writePrivate _ _ _) (within_writePrivate _ _ _) fun w v _ => ?_
  unfold writePrivate
  simp only [bind_run, moment_run, host_run, h.privateFault w.clock, h.privateFault v.clock]
  cases host.privateFault 0 name with
  | some fault =>
    simp only [privateName, bind_run, host_run, pure_run, failFor_run, h.oneName d, h.oneName d']
    exact .error _
  | none => exact .ok trivial

end Action
end UpgradeAudit
