/-
# Capabilities

What a package can reach: the kind of capability, whether it is reached directly or through a
dependency, and the call path that reaches it, hop by hop.  A call path is never empty.
-/
import UpgradeAudit.Text.Search

namespace UpgradeAudit

/-! ## 1. Kinds and types -/

/-- The kinds of capability. -/
inductive CapabilityKind where
  | unspecified | safe | files | network | runtime | readSystemState | modifySystemState
  | operatingSystem | systemCalls | arbitraryExecution | cgo | unanalyzed | unsafePointer
  | reflect | exec
  deriving DecidableEq, Repr

namespace CapabilityKind

/-- Every kind, in the order of their definition. -/
def all : List CapabilityKind :=
  [unspecified, safe, files, network, runtime, readSystemState, modifySystemState,
   operatingSystem, systemCalls, arbitraryExecution, cgo, unanalyzed, unsafePointer, reflect, exec]

/-- The words of a kind's name. -/
def words : CapabilityKind → List String
  | unspecified => ["unspecified"]
  | safe => ["safe"]
  | files => ["files"]
  | network => ["network"]
  | runtime => ["runtime"]
  | readSystemState => ["read", "system", "state"]
  | modifySystemState => ["modify", "system", "state"]
  | operatingSystem => ["operating", "system"]
  | systemCalls => ["system", "calls"]
  | arbitraryExecution => ["arbitrary", "execution"]
  | cgo => ["cgo"]
  | unanalyzed => ["unanalyzed"]
  | unsafePointer => ["unsafe", "pointer"]
  | reflect => ["reflect"]
  | exec => ["exec"]

/-- The code of a kind in analyzer output and in reports. -/
def code (kind : CapabilityKind) : String :=
  "CAPABILITY_" ++ "_".intercalate (kind.words.map String.toUpper)

/-- The name of a kind in reports. -/
def displayName (kind : CapabilityKind) : String :=
  " ".intercalate (kind.words.map String.capitalize)

/-- The kind with a code. -/
def ofCode? (code : String) : Option CapabilityKind := all.find? fun kind => kind.code = code

end CapabilityKind

/-- Whether a package exercises a capability itself. -/
inductive CapabilityType where
  | unspecified | direct | transitive
  deriving DecidableEq, Repr

namespace CapabilityType

/-- Every type, in the order of their definition. -/
def all : List CapabilityType := [unspecified, direct, transitive]

/-- The name of a type in reports. -/
def displayName : CapabilityType → String
  | unspecified => "unspecified"
  | direct => "direct"
  | transitive => "transitive"

/-- The code of a type in analyzer output and in reports. -/
def code (type : CapabilityType) : String := "CAPABILITY_TYPE_" ++ type.displayName.toUpper

/-- The type with a code. -/
def ofCode? (code : String) : Option CapabilityType := all.find? fun type => type.code = code

end CapabilityType

/-! ## 2. Call paths -/

/-- Where a call stands in the source. -/
@[ext] structure CallSite where
  filename : String
  line : Option Int
  column : Option Int
  deriving DecidableEq, Repr

/-- The text of a call site: the file, and the line and the column as far as they are known. -/
def CallSite.text (site : CallSite) : String :=
  match site.line, site.column with
  | none, _ => site.filename
  | some line, none => site.filename ++ ":" ++ toString line
  | some line, some column => site.filename ++ ":" ++ toString line ++ ":" ++ toString column

/-- One hop of a call path. -/
@[ext] structure Hop where
  name : String
  site : Option CallSite
  deriving DecidableEq, Repr

/-- A call path from a package to a capability. -/
@[ext] structure Capability where
  packageName : String
  packageDir : String
  kind : CapabilityKind
  type : CapabilityType
  path : List Hop
  path_ne_nil : path ≠ []
  deriving DecidableEq, Repr

/-- A module that the capability analyzer loaded. -/
@[ext] structure CapabilityModule where
  path : String
  version : String
  deriving DecidableEq, Repr

namespace Capability

/-- Whether the package exercises the capability itself. -/
def direct (cap : Capability) : Bool := cap.type = .direct

/-- The category under which a capability is counted. -/
def category (cap : Capability) : String := cap.kind.displayName

/-! ## 3. Order -/

/-- The place of a hop in the order: unknown parts come first. -/
def hopOrder (a b : Hop) : Ordering :=
  let place (site : Option CallSite) (part : CallSite → Option Int) : Int :=
    ((site.bind part).getD (-1))
  let file (site : Option CallSite) : String := (site.map CallSite.filename).getD ""
  (Text.order a.name b.name).then <|
  (Text.order (file a.site) (file b.site)).then <|
  (compare (place a.site CallSite.line) (place b.site CallSite.line)).then <|
  compare (place a.site CallSite.column) (place b.site CallSite.column)

/-- Shorter call paths first, then by kind, package directory, type and hops. -/
def order (a b : Capability) : Ordering :=
  (compare a.path.length b.path.length).then <|
  (Text.order a.kind.code b.kind.code).then <|
  (Text.order a.packageDir b.packageDir).then <|
  (Text.order a.type.code b.type.code).then <|
  List.compareLex hopOrder a.path b.path

/-- Capabilities in their order; those that the order does not tell apart keep theirs. -/
def sort (caps : List Capability) : List Capability :=
  caps.mergeSort fun a b => (order a b).isLE

end Capability
end UpgradeAudit
