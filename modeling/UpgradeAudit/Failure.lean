/-
# Failures

Why an audit, or a part of it, did not succeed.  A failure is a tree: a single cause, or
several failures joined.  Notes say in which context it was met.

`join` combines failures and keeps every one of them in order, one level of joining undone; a
single failure is returned as it is.  A failure is fatal when it leaves the working tree in an
unknown state or shows that the environment is unusable, and then a run must stop.
-/
import UpgradeAudit.Text.Blank
import UpgradeAudit.Text.CodingFault
import UpgradeAudit.Text.Quoted
import UpgradeAudit.Text.Search

namespace UpgradeAudit

/-! ## 1. File errors -/

/-- What the system found wrong with a file operation. -/
inductive FileFault where
  | missing
  | isDirectory
  | notDirectory
  | nameTooLong
  /-- Any other error, by its number and its description. -/
  | device (code : Nat) (reason : String)
  deriving DecidableEq, Repr

/-- The number of a fault. -/
def FileFault.code : FileFault → Nat
  | .missing => 2
  | .isDirectory => 21
  | .notDirectory => 20
  | .nameTooLong => 36
  | .device code _ => code

/-- The description of a fault. -/
def FileFault.reason : FileFault → String
  | .missing => "No such file or directory"
  | .isDirectory => "Is a directory"
  | .notDirectory => "Not a directory"
  | .nameTooLong => "File name too long"
  | .device _ reason => reason

/-- A file operation that failed. -/
inductive FileError where
  /-- An operation on the file named `path`. -/
  | at (fault : FileFault) (path : String)
  /-- An error that comes with a wording of its own. -/
  | worded (fault : FileFault) (message : String)
  deriving DecidableEq, Repr

/-- The fault behind an error. -/
def FileError.fault : FileError → FileFault
  | .at fault _ => fault
  | .worded fault _ => fault

/-- The wording of a file error. -/
def FileError.message : FileError → String
  | .at fault path =>
    "[Errno " ++ toString fault.code ++ "] " ++ fault.reason ++ ": " ++ Text.quote path
  | .worded _ message => message

/-! ## 2. Causes -/

/-- A single cause of failure. -/
inductive Cause where
  /-- A failure of the audit that is none of the kinds below. -/
  | general (message : String)
  /-- The working environment cannot be prepared. -/
  | setup (message : String)
  /-- A manifest file could not be put back; the working tree may be modified. -/
  | restore (path reason : String)
  /-- A command could not be started, or ended with an exit code that is not accepted. -/
  | command (argv : List String) (exitCode : Int) (stderr : String)
  /-- The requested version cannot be fetched, pinned or tidied. -/
  | pin (message : String)
  /-- The package graph is inconsistent, or the dependency is not used. -/
  | resolution (message : String)
  /-- An analyzer failed or its output cannot be decoded. -/
  | analyzer (tool message : String)
  /-- The manifest resolved another version than the requested one. -/
  | versionMismatch (dep requested : String) (actual : Option String)
  /-- A value that no rule of the domain admits. -/
  | invalidValue (message : String)
  /-- A line number beyond every line that can be asked for. -/
  | lineOutOfRange (line : Int)
  /-- A path for a manifest that does not end in the name of a file. -/
  | unnamedManifest (path : String)
  /-- Something is larger than can be dealt with. -/
  | exhausted (message : String)
  /-- A defect of the program. -/
  | defect (message : String)
  /-- A file operation that nothing accounted for. -/
  | file (error : FileError)
  /-- Bytes that are no text. -/
  | undecodable (fault : Text.CodingFault)
  /-- A text that has no bytes. -/
  | unwritable (fault : Text.WritingFault)
  /-- The run was cancelled. -/
  | cancelled
  deriving DecidableEq, Repr

namespace Cause

/-- How many characters of a command's error output a message shows. -/
def shownOutput : Nat := 2000

/-- The wording of a cause. -/
def message : Cause → String
  | general m | setup m | pin m | resolution m | invalidValue m | exhausted m | defect m => m
  | restore path reason =>
    "restoring " ++ path ++ " failed, working tree may be modified: " ++ reason
  | command argv exitCode stderr =>
    "running " ++ Text.quote (" ".intercalate argv) ++ " failed (exit " ++ toString exitCode ++ ")"
      ++ (if stderr = "" then ""
        else ": " ++ Text.ofPoints (Text.last shownOutput (Text.points (Text.strip stderr))))
  | analyzer tool m => tool ++ ": " ++ m
  | lineOutOfRange _ =>
    "Stop argument for islice() must be None or an integer: 0 <= x <= sys.maxsize."
  | unnamedManifest path => "PosixPath(" ++ Text.quote path ++ ") has an empty name"
  | versionMismatch dep requested actual =>
    "requested " ++ dep ++ "@" ++ requested ++ " but the manifest resolved "
      ++ actual.getD "no version"
  | file error => error.message
  | undecodable fault => fault.message
  | unwritable fault => fault.message
  | cancelled => ""

/-- Whether a cause belongs to the audit itself, and so is recorded rather than passed on when
it concerns one dependency of several. -/
def isOfAudit : Cause → Bool
  | general _ | setup _ | restore .. | command .. | pin _ | resolution _ | analyzer ..
  | versionMismatch .. => true
  | invalidValue _ | lineOutOfRange _ | unnamedManifest _ | exhausted _ | defect _ | file _
  | undecodable _ | unwritable _ | cancelled => false

/-- Whether a cause must end the whole run. -/
def isFatal : Cause → Bool
  | setup _ | restore .. => true
  | _ => false

/-- The cause for which no file can have a name. -/
def ofFileName? (path : String) : Option Cause :=
  match Text.WritingFault.ofFileName? path with
  | some fault => some (unwritable fault)
  | none => if path.toList.contains '\x00' then some (invalidValue "embedded null byte") else none

end Cause

/-! ## 3. Failures -/

/-- A failure: one cause, or several failures joined, with notes. -/
inductive Failure where
  | single (cause : Cause) (notes : List String)
  | joined (failures : List Failure) (notes : List String)

namespace Failure

/-- The failure with a cause and no notes. -/
def ofCause (cause : Cause) : Failure := .single cause []

/-- The notes of a failure, oldest first. -/
def notes : Failure → List String
  | single _ notes | joined _ notes => notes

/-- The failure with one more note. -/
def addNote (note : String) : Failure → Failure
  | single cause notes => .single cause (notes ++ [note])
  | joined failures notes => .joined failures (notes ++ [note])

mutual

/-- The wording of a failure; those of joined failures stand one after the other. -/
def message : Failure → String
  | single cause _ => cause.message
  | joined failures _ => "; ".intercalate (messages failures)

/-- The wordings of several failures. -/
def messages : List Failure → List String
  | [] => []
  | f :: rest => message f :: messages rest

end

mutual

/-- Whether a failure, or any joined into it, must end the whole run. -/
def isFatal : Failure → Bool
  | single cause _ => cause.isFatal
  | joined failures _ => anyFatal failures

/-- Whether one of several failures must end the whole run. -/
def anyFatal : List Failure → Bool
  | [] => false
  | f :: rest => isFatal f || anyFatal rest

end

mutual

/-- The causes of a failure, in order. -/
def causes : Failure → List Cause
  | single cause _ => [cause]
  | joined failures _ => causesOf failures

/-- The causes of several failures, in order. -/
def causesOf : List Failure → List Cause
  | [] => []
  | f :: rest => causes f ++ causesOf rest

end

/-- Whether a failure belongs to the audit itself; joined failures do. -/
def isOfAudit : Failure → Bool
  | single cause _ => cause.isOfAudit
  | joined .. => true

/-- Whether a failure is a cancellation.  Everything else is an ordinary error, which a handler
may deal with. -/
def isCancellation : Failure → Bool
  | single cause _ => cause = .cancelled
  | joined .. => false

/-- The failures that a failure brings into a join. -/
def parts : Failure → List Failure
  | joined failures _ => failures
  | f => [f]

/-- Several failures as one, absent ones left out and one level of joining undone; `none` when
nothing is left. -/
def join (failures : List (Option Failure)) : Option Failure :=
  match failures.flatMap fun f => (f.map parts).getD [] with
  | [] => none
  | [f] => some f
  | fs => some (.joined fs [])

mutual

theorem isFatal_iff_causes : ∀ f : Failure, f.isFatal = f.causes.any Cause.isFatal
  | single cause notes => by simp [isFatal, causes]
  | joined failures notes => by simpa [isFatal, causes] using anyFatal_iff_causes failures

theorem anyFatal_iff_causes : ∀ fs : List Failure, anyFatal fs = (causesOf fs).any Cause.isFatal
  | [] => rfl
  | f :: rest => by
    simp [anyFatal, causesOf, isFatal_iff_causes f, anyFatal_iff_causes rest]

end

end Failure
end UpgradeAudit
