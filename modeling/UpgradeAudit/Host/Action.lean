/-
# Actions

An action runs in a world under a host; it ends with a value or a failure and leaves a world
behind in either case.  Nothing is undone by a failure, so whatever has to be put back is put
back by an action that says so (`attempt`).
-/
import UpgradeAudit.Host.World

namespace UpgradeAudit

/-- A step of an audit: a value or a failure, and the world after it. -/
def Action (α : Type) : Type := Host → World → Except Failure α × World

namespace Action

/-! ## 1. Sequencing -/

/-- The action that does nothing. -/
def done (a : α) : Action α := fun _ w => (.ok a, w)

/-- One action after another; the second does not happen when the first fails. -/
def andThen (x : Action α) (f : α → Action β) : Action β := fun host w =>
  match x host w with
  | (.ok a, w) => f a host w
  | (.error e, w) => (.error e, w)

instance : Monad Action where
  pure := done
  bind := andThen

@[simp] theorem pure_run (a : α) (host : Host) (w : World) :
    (pure a : Action α) host w = (.ok a, w) := rfl

theorem bind_run (x : Action α) (f : α → Action β) (host : Host) (w : World) :
    (x >>= f) host w =
      match x host w with
      | (.ok a, w) => f a host w
      | (.error e, w) => (.error e, w) := rfl

/-- The action that fails. -/
def fail (f : Failure) : Action α := fun _ w => (.error f, w)

/-- The action that fails for one cause. -/
def failFor (c : Cause) : Action α := fail (.ofCause c)

/-- An action whose failure is a value. -/
def attempt (x : Action α) : Action (Except Failure α) := fun host w =>
  let (r, w) := x host w
  (.ok r, w)

/-- The action that ends as said. -/
def ofExcept : Except Failure α → Action α
  | .ok a => pure a
  | .error f => fail f

/-- The action that ends as said, a cause being a failure. -/
def ofCauses (r : Except Cause α) : Action α :=
  match r with
  | .ok a => pure a
  | .error c => failFor c

/-- An action with another failure in place of some of its own. -/
def mapFailure (replace : Failure → Failure) (x : Action α) : Action α := fun host w =>
  match x host w with
  | (.ok a, w) => (.ok a, w)
  | (.error e, w) => (.error (replace e), w)

/-- An action with a cause of its own for file errors. -/
def onFileError (x : Action α) (cause : FileError → Cause) : Action α :=
  mapFailure (fun
    | .single (.file e) _ => .ofCause (cause e)
    | f => f) x

/-- An action with a cause of its own for commands that fail. -/
def onCommandFailure (x : Action α) (cause : String → Cause) : Action α :=
  mapFailure (fun
    | .single c@(.command ..) _ => .ofCause (cause c.message)
    | f => f) x

/-! ## 2. The world -/

/-- The choices of the host. -/
def host : Action Host := fun host w => (.ok host, w)

/-- The world as it is. -/
def world : Action World := fun _ w => (.ok w, w)

/-- Changes the world. -/
def change (f : World → World) : Action Unit := fun _ w => (.ok (), f w)

/-- Adds an event. -/
def record (e : Event) : Action Unit := change (World.record e)

/-- Adds a log record and has it kept. -/
def log (severity : Severity) (origin event : String) (details : List (String × Json)) :
    Action Unit := fun host w =>
  let r : LogRecord := ⟨severity, origin, event, details⟩
  (.ok (), World.record (.logged r) { w with files := host.keepRecord r w.files })

/-- An action under a host that keeps log records in another way. -/
def keepingRecords (keep : LogRecord → FileTree → FileTree) (x : Action α) : Action α :=
  fun host w => x { host with keepRecord := keep } w

/-- The moment of an operation; no two operations share one. -/
def moment : Action Nat := fun _ w => (.ok w.clock, { w with clock := w.clock + 1 })

/-- How many collections inside one another there is room for in the document read next. -/
def room : Action Nat := do
  let now ← moment
  return (← host).nesting now

/-- Waits for work of its own; a cancellation may break the wait off. -/
def checkpoint : Action Unit := do
  let now ← moment
  if (← host).interrupts now then failFor .cancelled

/-! ## 3. Files -/

/-- Refuses a name that no file can have. -/
def checkName (path : String) : Action Unit :=
  match Cause.ofFileName? path with
  | some cause => failFor cause
  | none => pure ()

/-- The contents of a file. -/
def readFile (path : String) : Action Bytes := do
  checkName path
  let now ← moment
  match (← host).readFault now path with
  | some fault => failFor (.file (.at fault path))
  | none =>
    match (← world).files.read path with
    | .ok content => pure content
    | .error fault => failFor (.file (.at fault path))

/-- Gives a file new contents when its path can be written to. -/
def putFile (path : String) (content : Bytes) : Action Unit := do
  match (← world).files.write path content with
  | .ok files => change fun w => { w with files }
  | .error fault => failFor (.file (.at fault path))

/-- Gives a file new contents and sees to it that they are stored. -/
def writeFile (path : String) (content : Bytes) : Action Unit := do
  checkName path
  let now ← moment
  match (← host).writeFault now path with
  | none => putFile path content
  | some (.refused fault) => failFor (.file (.at fault path))
  | some (.torn fault left) => do
    putFile path left
    failFor (.file (.at fault path))

/-! ## 4. Private directories -/

/-- Makes a private directory and gives its number. -/
def makeDirectory : Action Nat := do
  let now ← moment
  match (← host).directoryFault now with
  | some error => failFor (.file error)
  | none => fun _ w =>
    (.ok w.made, { w with made := w.made + 1, directories := w.directories.set w.made [] })

/-- The name under which a file of a private directory is known. -/
def privateName (directory : Nat) (name : String) : Action String := do
  return (← host).directoryName directory ++ "/" ++ name

/-- Writes a file in a private directory. -/
def writePrivate (directory : Nat) (name : String) (content : Bytes) : Action Unit := do
  let now ← moment
  match (← host).privateFault now name with
  | some fault => failFor (.file (.at fault (← privateName directory name)))
  | none => change fun w =>
    let files := (w.directories.get? directory).getD []
    { w with directories := w.directories.set directory (files.set name content) }

/-- Gives a private directory up with all it holds.  Errors do not matter here; the directory is
taken to be gone. -/
def discardDirectory (directory : Nat) : Action Unit :=
  change fun w => { w with directories := w.directories.filter fun d => d.1 ≠ directory }

/-- Removes a private directory with all it holds.  When this fails the directory stays. -/
def removeDirectory (directory : Nat) : Action Unit := do
  let now ← moment
  match (← host).removalFault now with
  | some error => failFor (.file error)
  | none => discardDirectory directory

end Action
end UpgradeAudit
