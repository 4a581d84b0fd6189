/-
# Manifest directives

The module path and the requirements that a manifest declares.

Requirements stand in single directives or in blocks of lines; a later line for a module
replaces an earlier one.  A comment runs from two slashes to the end of its line.  Lines that
are neither are passed over, so that directives of other kinds do no harm.
-/
import UpgradeAudit.Text.Blank
import UpgradeAudit.Text.Lines
import UpgradeAudit.Text.Search
import UpgradeAudit.Table

namespace UpgradeAudit

/-- Module paths and the versions required of them. -/
abbrev Requirements := Table String String

namespace Manifest

/-! ## 1. Lines and words -/

/-- The lines of a manifest. -/
def manifestLines (content : String) : List (List Char) := Text.lines Text.endsLine content.toList

/-- A line without its comment. -/
def dropComment (line : List Char) : List Char :=
  match Text.splitFirst? ['/', '/'] line with
  | some (before, _) => before
  | none => line

/-- The characters up to the first blank, and the rest. -/
def word (s : List Char) : List Char × List Char :=
  (s.takeWhile fun c => ! Text.isBlank c, s.dropWhile fun c => ! Text.isBlank c)

/-- The word after a keyword and the blanks that follow it, and what stands after that word;
`none` when the line does not start with the keyword and a word. -/
def wordAfter? (keyword : String) (line : List Char) : Option (List Char × List Char) :=
  match keyword.toList.isPrefixOf? line with
  | some (c :: rest) =>
    if Text.isBlank c then
      match word (Text.trimStart rest) with
      | ([], _) => none
      | found => some found
    else none
  | _ => none

/-- A word without the quotes around it. -/
def unquote (s : List Char) : String :=
  match s with
  | q :: rest =>
    if (q = '"' || q = '\x60') && rest.getLast? = some q then String.ofList rest.dropLast
    else String.ofList s
  | [] => ""

/-! ## 2. The module path -/

/-- The path of a line that declares the module. -/
def modulePathOfLine? (line : List Char) : Option String :=
  (wordAfter? "module" (Text.trim line)).map fun found => unquote found.1

/-- The path of the module that a manifest declares. -/
def modulePath? (content : String) : Option String :=
  (manifestLines content).findSome? modulePathOfLine?

/-! ## 3. Requirements -/

/-- What a line means for the requirements. -/
inductive Line where
  | opens
  | closes
  | requires (path version : String)
  | other
  deriving DecidableEq, Repr

/-- Whether a line opens a block. -/
def opensBlock (line : List Char) : Bool :=
  match "require".toList.isPrefixOf? line with
  | some rest => Text.trimStart rest = ['(']
  | none => false

/-- The requirement of a single directive. -/
def single? (line : List Char) : Option (String × String) := do
  let (path, rest) ← wordAfter? "require" line
  match word (Text.trimStart rest) with
  | ([], _) => none
  | (version, _) => some (unquote path, String.ofList version)

/-- The requirement of a line inside a block: its version starts with `v` and goes on. -/
def entry? (line : List Char) : Option (String × String) :=
  let (path, rest) := word line
  match word (Text.trimStart rest) with
  | ('v' :: c :: version, _) =>
    if path.isEmpty then none else some (unquote path, String.ofList ('v' :: c :: version))
  | _ => none

/-- What a line means, inside a block or outside. -/
def Line.ofText (inBlock : Bool) (raw : List Char) : Line :=
  let line := Text.trim (dropComment raw)
  if opensBlock line then .opens
  else if inBlock && line = [')'] then .closes
  else
    match (if inBlock then entry? line else single? line) with
    | some (path, version) => .requires path version
    | none => .other

/-- The requirements after a sequence of lines. -/
def requirementsFrom (inBlock : Bool) (known : Requirements) : List (List Char) → Requirements
  | [] => known
  | raw :: rest =>
    match Line.ofText inBlock raw with
    | .opens => requirementsFrom true known rest
    | .closes => requirementsFrom false known rest
    | .requires path version => requirementsFrom inBlock (known.set path version) rest
    | .other => requirementsFrom inBlock known rest

/-- The requirements that a manifest declares. -/
def requirements (content : String) : Requirements :=
  requirementsFrom false [] (manifestLines content)

end Manifest
end UpgradeAudit
