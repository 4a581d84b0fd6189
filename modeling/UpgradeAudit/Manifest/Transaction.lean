/-
# Manifest transactions

Pinning a dependency rewrites the manifest and its lock file in place.  A transaction keeps an
exact copy of both, in memory and in a private directory, and puts it back however the work
inside it ends.

Both files are always attempted, and each is read back and compared after it was written.  A
failure to put one back is joined with the failure of the work; a cancellation is passed on
as it is, with a note.  The private directory is kept when a file could not be put back, so
that the copy can be recovered by hand, and removed otherwise.
-/
import UpgradeAudit.Manifest.Snapshot

namespace UpgradeAudit

/-- The copy that a transaction keeps: the snapshot, and the private directory that holds it
too. -/
structure Backup where
  snapshot : Snapshot
  directory : Nat
  deriving DecidableEq, Repr

namespace Backup

/-- The part of the program that the log names. -/
def origin : String := "dep_inspector.manifest"

/-- The name of the manifest in the private directory. -/
def manifestName (b : Backup) : String := b.snapshot.files.manifest.name?.getD ""

/-- The name of the lock file in the private directory. -/
def lockName (b : Backup) : String := b.snapshot.files.lock.name?.getD ""

/-- Writes the copy to the private directory. -/
def store (b : Backup) : Action Unit := do
  Action.writePrivate b.directory b.manifestName b.snapshot.contents.manifest
  Action.writePrivate b.directory b.lockName b.snapshot.contents.lock

/-- Keeps a snapshot in a private directory too. -/
def ofSnapshot (s : Snapshot) : Action Backup := do
  let directory ← Action.makeDirectory.onFileError fun e =>
    .setup ("creating backup directory: " ++ e.message)
  let b : Backup := ⟨s, directory⟩
  match ← Action.attempt b.store with
  | .ok () => return b
  | .error (.single (.file e) _) =>
    Action.discardDirectory directory
    Action.failFor (.setup ("writing manifest backup: " ++ e.message))
  | .error f => Action.fail f

/-- Takes a copy of both files. -/
def take (files : ManifestFiles) : Action Backup := do
  let b ← ofSnapshot (← Snapshot.read files)
  Action.record (.opened b.directory b.snapshot.contents)
  return b

/-- Writes one file and checks what it holds then. -/
def rewrite (path : String) (content : Bytes) : Action Unit := do
  Action.writeFile path content
  let now ← Action.moment
  let meddle := (← Action.host).meddle now
  Action.change fun w => { w with files := meddle w.files }
  if (← Action.readFile path) ≠ content then
    Action.failFor (.restore path "contents differ from backup after write")

/-- Puts one file back: nothing, or why it failed. -/
def restoreFile (path : String) (content : Bytes) : Action (Option Failure) := do
  match ← Action.attempt (rewrite path content) with
  | .ok () => return none
  | .error (.single (.file e) _) => return some (.ofCause (.restore path e.message))
  | .error f => return some f

/-- The paths of the files that were not put back. -/
def missed (attempts : List (String × Option Failure)) : List String :=
  (attempts.filter fun a => a.2.isSome).map Prod.fst

/-- Puts both files back. -/
def restore (b : Backup) : Action Unit := do
  let files := b.snapshot.files
  let manifest ← restoreFile files.manifest.text b.snapshot.contents.manifest
  let lock ← restoreFile files.lock.text b.snapshot.contents.lock
  Action.record (.restored b.directory
    (missed [(files.manifest.text, manifest), (files.lock.text, lock)]))
  match Failure.join [manifest, lock] with
  | none => return
  | some f =>
    Action.log .error origin "manifest.restore_failed"
      [("backup_dir", .text ((← Action.host).directoryName b.directory)),
       ("error", .text f.message)]
    Action.fail f

/-- Gives the private directory up. -/
def close (b : Backup) : Action Unit := Action.discardDirectory b.directory

/-- The end of a transaction whose work ended as said: the files are put back, and what went
wrong in the work and in putting them back is reported together. -/
def finish (b : Backup) (outcome : Except Failure α) : Action α := do
  match outcome, ← Action.attempt b.restore with
  | .ok a, .ok () =>
    b.close
    Action.record (.closed b.directory)
    return a
  | .ok _, .error f =>
    Action.record (.closed b.directory)
    Action.fail f
  | .error e, .ok () =>
    b.close
    Action.record (.closed b.directory)
    Action.fail e
  | .error e, .error f =>
    Action.record (.closed b.directory)
    if e.isCancellation then
      Action.fail (e.addNote ("manifest restore also failed: " ++ f.message))
    else Action.fail ((Failure.join [some e, some f]).getD e)

end Backup

namespace ManifestFiles

/-- Work inside a transaction: both files are put back when it ends. -/
def transaction (files : ManifestFiles) (work : Backup → Action α) : Action α := do
  let b ← Backup.take files
  b.finish (← Action.attempt (work b))

/-- Work that rewrites the files, and their contents after it. -/
def mutate (files : ManifestFiles) (work : Action Unit) : Action Snapshot := do
  work
  Snapshot.read files

end ManifestFiles
end UpgradeAudit
