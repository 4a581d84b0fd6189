/-
# Fan-in

Several pieces of work are under way at once, and what comes of them is known only when all
have ended.  `FanIn` has a place for each outcome, filled in whatever order the work ends;
`outcome?` answers when every place is filled, and its answer depends on the places alone.

A cancellation is passed on as it is.  Otherwise the failures are joined in the order of the
places; without a failure the outcomes are returned.
-/
import UpgradeAudit.Failure

namespace UpgradeAudit

/-- Outcomes of work that was begun together, absent while it is under way. -/
structure FanIn (α : Type) where
  places : List (Option (Except Failure α))

namespace FanIn

/-- The failure of an outcome. -/
def failure? : Except Failure α → Option Failure
  | .ok _ => none
  | .error f => some f

/-- The failure of several outcomes: the first cancellation, or all failures joined. -/
def failureOf (failures : List (Option Failure)) : Option Failure :=
  match (failures.filterMap id).find? Failure.isCancellation with
  | some f => some f
  | none => Failure.join failures

/-- What comes of several outcomes. -/
def gather (outcomes : List (Except Failure α)) : Except Failure (List (Except Failure α)) :=
  match failureOf (outcomes.map failure?) with
  | some f => .error f
  | none => .ok outcomes

/-- What comes of two outcomes of different types. -/
def both (a : Except Failure α) (b : Except Failure β) : Except Failure (α × β) :=
  match failureOf [failure? a, failure? b], a, b with
  | some f, _, _ => .error f
  | none, .ok a, .ok b => .ok (a, b)
  | none, .error f, _ => .error f
  | none, _, .error f => .error f

/-- Work of which nothing has ended. -/
def begun (n : Nat) : FanIn α := ⟨List.replicate n none⟩

/-- The outcome of one piece of work. -/
def finish (f : FanIn α) (place : Nat) (outcome : Except Failure α) : FanIn α :=
  ⟨f.places.set place (some outcome)⟩

/-- The places that are filled. -/
def finished (f : FanIn α) : List Nat :=
  (f.places.zipIdx.filter fun p => p.1.isSome).map Prod.snd

/-- What comes of the work, once all of it has ended. -/
def outcome? (f : FanIn α) : Option (Except Failure (List (Except Failure α))) :=
  (f.places.mapM id).map gather

/-- The work after a sequence of endings. -/
def finishAll (f : FanIn α) (endings : List (Nat × Except Failure α)) : FanIn α :=
  endings.foldl (fun f e => f.finish e.1 e.2) f

end FanIn
end UpgradeAudit
