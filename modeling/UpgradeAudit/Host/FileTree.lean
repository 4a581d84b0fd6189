/-
# File trees

Files and directories by location.  A location is the list of components below the working
directory, or below the root of the file system for an absolute path; the absolute name of
the working directory itself is not known, so the two do not meet.  There are no links: no two
locations share a file, so what is written at one leaves the others alone.

A path is walked component by component: each one passed through must be a directory, and no
name may be longer than the system admits.
-/
import UpgradeAudit.Failure
import UpgradeAudit.Path
import UpgradeAudit.Table
import UpgradeAudit.Text.Utf8

namespace UpgradeAudit

/-- What stands at a location. -/
inductive FileEntry where
  | file (content : Bytes)
  | directory
  deriving DecidableEq, Repr

/-- A place in a file tree: the components from the working directory on, or from the root on
when the first is a slash. -/
abbrev Location := List String

/-- Files and directories by location. -/
structure FileTree where
  entries : Table Location FileEntry
  /-- The file that is held open, as long as it has not been removed. -/
  held : Option Location
  deriving DecidableEq, Repr

namespace FileTree

/-- The tree without files. -/
def empty : FileTree := ⟨[], none⟩

/-! ## 1. Locations -/

/-- The location above another one.  Above the root there is nothing; above the working
directory there are directories about which nothing else is known. -/
def above (loc : Location) : Location :=
  match loc.getLast? with
  | none => [".."]
  | some ".." => loc ++ [".."]
  | some "/" => loc
  | some _ => loc.dropLast

/-- What stands at a location. -/
def entry? (tree : FileTree) (loc : Location) : Option FileEntry :=
  if loc = ["/"] || loc.all (· = "..") then some .directory else tree.entries.get? loc

/-- How many bytes a name takes; a surrogate that stands for a byte takes one. -/
def nameSize (name : String) : Nat :=
  ((Text.points name).map fun n =>
    if Text.WritingFault.isNameByte n then 1 else (Text.Utf8.encodePoint n).length).foldr (· + ·) 0

/-- How many bytes a component of a path may take. -/
def componentLimit : Nat := 255

/-- How many bytes a path may take. -/
def pathLimit : Nat := 4095

/-- The location that components lead to from a directory.  The last component need not exist;
a fault is found at the first component that cannot be passed through. -/
def walk (tree : FileTree) (here : Location) : List String → Except FileFault Location
  | [] => .ok here
  | "." :: rest => walk tree here rest
  | ".." :: rest => walk tree (above here) rest
  | [part] => if nameSize part ≤ componentLimit then .ok (here ++ [part]) else .error .nameTooLong
  | part :: next :: rest =>
    if componentLimit < nameSize part then .error .nameTooLong
    else match tree.entry? (here ++ [part]) with
    | some .directory => walk tree (here ++ [part]) (next :: rest)
    | some (.file _) => .error .notDirectory
    | none => .error .missing

/-- The components of a path.  A slash at the end asks for a directory, as a dot does. -/
def components (path : String) : List String :=
  let parts := (Text.pieces '/' path).filter (· ≠ "")
  if path.toList.getLast? = some '/' then parts ++ ["."] else parts

/-- The location that a path names. -/
def locate (tree : FileTree) (path : String) : Except FileFault Location :=
  if path = "" then .error .missing
  else if pathLimit < nameSize path then .error .nameTooLong
  else walk tree (if path.toList.head? = some '/' then ["/"] else []) (components path)

/-! ## 2. Reading and writing -/

/-- The contents of a file. -/
def read (tree : FileTree) (path : String) : Except FileFault Bytes := do
  match tree.entry? (← tree.locate path) with
  | some (.file content) => .ok content
  | some .directory => .error .isDirectory
  | none => .error .missing

/-- The tree with a file at a location. -/
def put (tree : FileTree) (loc : Location) (content : Bytes) : FileTree :=
  { tree with entries := tree.entries.set loc (.file content) }

/-- The tree in which a file has new contents; the file is made when it does not exist. -/
def write (tree : FileTree) (path : String) (content : Bytes) : Except FileFault FileTree := do
  let loc ← tree.locate path
  match tree.entry? loc with
  | some .directory => .error .isDirectory
  | some (.file _) | none => .ok (tree.put loc content)

/-- The tree in which a file exists; one that is there keeps its contents. -/
def touch (tree : FileTree) (path : String) : Except FileFault FileTree :=
  match tree.read path with
  | .ok _ => .ok tree
  | .error .missing => tree.write path []
  | .error fault => .error fault

/-- The tree in which a file exists and is held open. -/
def hold (tree : FileTree) (path : String) : Except FileFault FileTree := do
  let tree ← tree.touch path
  return { tree with held := some (← tree.locate path) }

/-- The tree in which the file that is held open has more contents.  When it has been removed
they are lost. -/
def append (tree : FileTree) (content : Bytes) : FileTree :=
  match tree.held with
  | none => tree
  | some loc =>
    match tree.entry? loc with
    | some (.file before) => tree.put loc (before ++ content)
    | _ => tree

/-- Whether a path names a directory. -/
def isDirectory (tree : FileTree) (path : String) : Bool :=
  match tree.locate path with
  | .ok loc => tree.entry? loc = some .directory
  | .error _ => false

/-- The location of a path below the working directory. -/
def placeOf (path : String) : Location := (Path.ofText path).normalise.parts

/-- The tree with a directory and those above it. -/
def makeDirectories (tree : FileTree) (loc : Location) : FileTree :=
  (List.range (loc.length + 1)).foldl (fun tree n =>
    if (tree.entry? (loc.take n)).isSome then tree
    else { tree with entries := tree.entries.set (loc.take n) .directory }) tree

/-- The tree with a file and the directories above it. -/
def place (tree : FileTree) (path : String) (content : Bytes) : FileTree :=
  let loc := placeOf path
  (tree.makeDirectories loc.dropLast).put loc content

/-- The tree without a file, or without a directory and all it holds. -/
def remove (tree : FileTree) (path : String) : FileTree :=
  let loc := placeOf path
  { entries := tree.entries.filter fun e => ! loc.isPrefixOf e.1
    held := tree.held.filter fun h => ! loc.isPrefixOf h }

/-- Sets the contents of files, or removes what stands at a path, one entry after the other. -/
def apply (tree : FileTree) (changes : List (String × Option Bytes)) : FileTree :=
  changes.foldl (fun tree change =>
    match change.2 with
    | some content => tree.place change.1 content
    | none => tree.remove change.1) tree

/-- Every file and every directory that holds nothing, by path. -/
def leaves (tree : FileTree) : List (String × FileEntry) :=
  (tree.entries.filter fun e =>
    e.2 ≠ .directory || ! tree.entries.any fun other => other.1 ≠ e.1 && e.1.isPrefixOf other.1).map
    fun e => ("/".intercalate e.1, e.2)

end FileTree
end UpgradeAudit
