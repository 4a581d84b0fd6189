/-
# Turns

Several tasks that each work inside a transaction on the same manifest files.  A task asks for
its turn and waits; turns are given in the order of asking, and only while no transaction is
open.  A scheduler moves one task at a time by one step, in any order it likes, and may cancel
a task at any point, waiting or not.

The lock that the tasks wait for is no state of its own: it is taken exactly while a transaction
is open (`Turns.isFree`).  Taking it and taking the copy are one move, and so are putting the
files back and giving it up, because tasks change over only where one of them waits, and none
waits between the two.
-/
import UpgradeAudit.Manifest.Transaction

namespace UpgradeAudit

/-- Where a task stands. -/
inductive Phase (α : Type) where
  /-- It has not asked for its turn. -/
  | idle (work : List (Action α))
  | waiting (work : List (Action α))
  /-- Its transaction is open: the copy taken, the steps left, and the results so far. -/
  | inside (backup : Backup) (work : List (Action α)) (results : List α)
  | ended (outcome : Except Failure (List α))

namespace Phase

/-- Whether the transaction of a task is open. -/
def isInside : Phase α → Bool
  | inside .. => true
  | _ => false

/-- How a task ended. -/
def outcome? : Phase α → Option (Except Failure (List α))
  | ended outcome => some outcome
  | _ => none

end Phase

/-- Tasks that share the manifest files. -/
structure Turns (α : Type) where
  files : ManifestFiles
  tasks : List (Phase α)
  /-- The tasks that wait, in the order of asking. -/
  queue : List Nat

/-- What a scheduler does next. -/
inductive Move where
  | advance (task : Nat)
  | cancel (task : Nat)
  deriving DecidableEq, Repr

namespace Turns

/-- Tasks that have not begun. -/
def ofTasks (files : ManifestFiles) (tasks : List (List (Action α))) : Turns α :=
  ⟨files, tasks.map .idle, []⟩

/-- Whether no transaction is open. -/
def isFree (t : Turns α) : Bool := ! t.tasks.any Phase.isInside

/-- The tasks with another phase for one of them. -/
def setTask (t : Turns α) (task : Nat) (phase : Phase α) : Turns α :=
  { t with tasks := t.tasks.set task phase }

/-- Ends the transaction of a task. -/
def finish (t : Turns α) (task : Nat) (backup : Backup) (outcome : Except Failure (List α)) :
    Action (Turns α) := do
  return t.setTask task (.ended (← Action.attempt (backup.finish outcome)))

/-- Moves a task by one step.  A task that waits and cannot have its turn yet stays as it is. -/
def advance (t : Turns α) (task : Nat) : Action (Turns α) := do
  match t.tasks[task]? with
  | some (.idle work) =>
    return { t.setTask task (.waiting work) with queue := t.queue ++ [task] }
  | some (.waiting work) =>
    if t.isFree && t.queue.head? = some task then
      let phase := match ← Action.attempt (Backup.take t.files) with
        | .ok backup => .inside backup work []
        | .error f => .ended (.error f)
      return { t.setTask task phase with queue := t.queue.tail }
    else return t
  | some (.inside backup [] results) => t.finish task backup (.ok results)
  | some (.inside backup (step :: work) results) =>
    match ← Action.attempt step with
    | .ok result => return t.setTask task (.inside backup work (results ++ [result]))
    | .error f => t.finish task backup (.error f)
  | some (.ended _) | none => return t

/-- Cancels a task: a transaction that is open is ended, and a task that waits leaves the
queue. -/
def cancel (t : Turns α) (task : Nat) : Action (Turns α) := do
  match t.tasks[task]? with
  | some (.inside backup ..) => t.finish task backup (.error (.ofCause .cancelled))
  | some (.idle _) | some (.waiting _) =>
    return { t.setTask task (.ended (.error (.ofCause .cancelled))) with
      queue := t.queue.filter (· ≠ task) }
  | some (.ended _) | none => return t

/-- One move. -/
def move (t : Turns α) : Move → Action (Turns α)
  | .advance task => t.advance task
  | .cancel task => t.cancel task

/-- The moves of a schedule, one after the other. -/
def run (t : Turns α) : List Move → Action (Turns α)
  | [] => return t
  | m :: rest => do run (← t.move m) rest

/-- The schedule in which every task asks at once and then each is moved to its end. -/
def inOrder (tasks : List (List (Action α))) : List Move :=
  (List.range tasks.length).map .advance
    ++ tasks.zipIdx.flatMap fun (work, i) => List.replicate (work.length + 2) (.advance i)

/-- How the tasks ended, as far as they have. -/
def outcomes (t : Turns α) : List (Option (Except Failure (List α))) := t.tasks.map Phase.outcome?

end Turns
end UpgradeAudit
