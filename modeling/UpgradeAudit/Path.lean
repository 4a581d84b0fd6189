/-
# Paths

A path is the number of its leading slashes and its components.  Reading one drops empty
components and single dots; `normalise` also resolves each `..` against the component before
it.  Exactly two leading slashes are kept apart from one; three or more count as one.

`relativeToRoot` names a file by its place below a root, so that the same file has the same
name wherever the root lies.
-/
import UpgradeAudit.Text.Search

namespace UpgradeAudit

/-- A path: leading slashes (none, one or two) and components. -/
structure Path where
  slashes : Nat
  parts : List String
  deriving DecidableEq, Repr

namespace Path

/-! ## 1. Text -/

/-- The number of leading slashes that count. -/
def leadingSlashes (s : List Char) : Nat :=
  match s with
  | '/' :: '/' :: '/' :: _ => 1
  | '/' :: '/' :: _ => 2
  | '/' :: _ => 1
  | _ => 0

/-- The path a text names. -/
def ofText (s : String) : Path :=
  ⟨leadingSlashes s.toList, (Text.pieces '/' s).filter fun p => p ≠ "" && p ≠ "."⟩

/-- The text of a path; the empty relative path is a single dot. -/
def text (p : Path) : String :=
  let body := "/".intercalate p.parts
  if p.slashes = 0 && p.parts.isEmpty then "."
  else String.ofList (List.replicate p.slashes '/') ++ body

/-- Whether a text names an absolute path. -/
def isAbsolute (s : String) : Bool := leadingSlashes s.toList ≠ 0

/-- A path below a base: an absolute one stands for itself. -/
def join (base s : String) : String :=
  if isAbsolute s then s
  else if base = "" || base.toList.getLast? = some '/' then base ++ s
  else base ++ "/" ++ s

/-! ## 2. Parts -/

/-- The last component, if there is one. -/
def name? (p : Path) : Option String := p.parts.getLast?

/-- The path without its last component. -/
def parent (p : Path) : Path := { p with parts := p.parts.dropLast }

/-- The path with another last component. -/
def withName (p : Path) (name : String) : Path := { p with parts := p.parts.dropLast ++ [name] }

/-! ## 3. Normal form -/

/-- Components with each `..` resolved against the one before it, those in `seen` (last first)
standing before them.  Above the root there is nothing; a relative path keeps what it cannot
resolve. -/
def resolve (absolute : Bool) (seen : List String) : List String → List String
  | [] => seen.reverse
  | ".." :: rest =>
    match seen with
    | [] => if absolute then resolve absolute [] rest else resolve absolute [".."] rest
    | ".." :: _ => resolve absolute (".." :: seen) rest
    | _ :: before => resolve absolute before rest
  | part :: rest => resolve absolute (part :: seen) rest

/-- The path with every `..` resolved that can be. -/
def normalise (p : Path) : Path := { p with parts := resolve (p.slashes ≠ 0) [] p.parts }

/-! ## 4. Below a root -/

/-- The components of `p` below `root`, when it lies there.  A root without components is the
whole tree when it is absolute, and only itself otherwise. -/
def below? (root p : Path) : Option (List String) :=
  if root.parts.isEmpty then
    if root.slashes = 0 then (if p = root then some [] else none)
    else if p.slashes = 0 then none else some p.parts
  else if p.slashes = root.slashes then root.parts.isPrefixOf? p.parts
  else none

/-- A file name made relative to `root` when it lies below it.  A relative name is first
resolved against `base`; without a base it only loses its empty components and dots. -/
def relativeToRoot (path root : String) (base : Option String) : String :=
  if path = "" then "" else
  let locate (path : String) : String :=
    let p := (ofText path).normalise
    if root = "" then p.text else
    match below? (ofText root).normalise p with
    | some parts => (Path.mk 0 parts).text
    | none => p.text
  if isAbsolute path then locate path
  else
    match base with
    | none => (ofText path).text
    | some base => locate (join base path)

end Path
end UpgradeAudit
