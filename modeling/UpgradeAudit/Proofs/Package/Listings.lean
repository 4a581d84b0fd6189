/-
# Package listings, written and read

What a listing of packages may look like (`Listing`): a record is an object that holds the fields of
a package under either of their spellings, in any order, with defaults left out or not, and anything
else besides (`Written`); the records stand one after the other, with blanks between them or
without.

**Every listing is read as its packages** (`ofListing_of_listing`): the paths in order of first
appearance, each bound to the last of its records.

The limits of reading are part of what a text of a record is.  An integer with too many digits makes
a listing unreadable even where no field of a package is looked up (`ofListing_longInteger`).
-/
import UpgradeAudit.Package.Listing
import UpgradeAudit.Proofs.Json.Fields
import UpgradeAudit.Proofs.Json.Streams

namespace UpgradeAudit.Package

/-! ## 1. Records -/

/-- A field stands in a record with its value under one spelling, or it is left out, where it may
be. -/
def Holds (fields : Json.Fields) (name : Json.Name) (v : Json) (omissible : Prop) : Prop :=
  fields.under (spellings name) = [v] ∨ omissible ∧ fields.under (spellings name) = []

/-- How the path and the version of a module stand in a record: a module without either is left out
or null. -/
inductive HoldsModule (fields : Json.Fields) : (path version : String) → Prop
  | absent (h : fields.under (spellings ["module"]) = []) : HoldsModule fields "" ""
  | null (h : fields.under (spellings ["module"]) = [.null]) : HoldsModule fields "" ""
  | object {inner : Json.Fields} {path version : String}
      (h : fields.under (spellings ["module"]) = [.object inner])
      (hpath : Holds inner ["path"] (.text path) (path = ""))
      (hversion : Holds inner ["version"] (.text version) (version = "")) :
      HoldsModule fields path version

/-- The fields of a record of a package.  Fields that are no spelling of any of these are free. -/
structure Written (p : Package) (fields : Json.Fields) : Prop where
  importPath : fields.under (spellings ["import", "path"]) = [.text p.importPath]
  dir : Holds fields ["dir"] (.text p.dir) (p.dir = "")
  name : Holds fields ["name"] (.text p.name) (p.name = "")
  module : HoldsModule fields p.modulePath p.moduleVersion
  standard : Holds fields ["standard"] (.bool p.standard) (p.standard = false)
  imports : Holds fields ["imports"] (Json.texts p.imports) (p.imports = [])
  deps : Holds fields ["deps"] (Json.texts p.deps) (p.deps = [])
  incomplete : Holds fields ["incomplete"] (.bool p.incomplete) (p.incomplete = false)

theorem Holds.optional {α : Type} {fields : Json.Fields} {name : Json.Name} {v : Json}
    {a absent : α} {value : Json.Reader α} (h : Holds fields name v (a = absent))
    (hvalue : value v = some a) :
    fields.optional (spellings name) value absent = some a := by
  rcases h with hone | ⟨rfl, hnone⟩
  · exact (Json.Fields.optional_of_under (o := some v) hone value absent).trans hvalue
  · exact Json.Fields.optional_of_under (o := none) hnone value a

/-- A module that is left out, or null, has neither path nor version. -/
theorem HoldsModule.optional {fields : Json.Fields} {path version : String}
    (h : HoldsModule fields path version) :
    ∃ module,
      fields.optional (spellings ["module"]) (Json.orAbsent moduleOfJson) none = some module ∧
      module.getD ("", "") = (path, version) := by
  cases h with
  | absent h => exact ⟨none, Json.Fields.optional_of_under (o := none) h _ _, rfl⟩
  | null h => exact ⟨none, Json.Fields.optional_of_under (o := some .null) h _ _, rfl⟩
  | @object inner _ _ h hpath hversion =>
    refine ⟨some (path, version),
      (Json.Fields.optional_of_under (o := some (.object inner)) h _ _).trans ?_, rfl⟩
    have hmodule : moduleOfJson (.object inner) = some (path, version) := by
      show (inner.optional (spellings ["path"]) Json.asText "" >>= fun path =>
        inner.optional (spellings ["version"]) Json.asText "" >>= fun version =>
          some (path, version)) = _
      rw [hpath.optional rfl, Option.bind_eq_bind, Option.bind_some, hversion.optional rfl]
      rfl
    show (moduleOfJson (.object inner)).map some = _
    rw [hmodule]
    rfl

/-- **A record of a package is read as the package.** -/
theorem Written.ofJson {p : Package} {fields : Json.Fields} (h : p.Written fields) :
    ofJson (.object fields) = some p := by
  have hpath : fields.required (spellings ["import", "path"]) Json.asText = some p.importPath :=
    Json.Fields.required_of_under (o := some (.text p.importPath)) h.importPath _
  obtain ⟨module, hmodule, hparts⟩ := h.module.optional
  simp only [Package.ofJson, Json.asFields, Option.bind_eq_bind, Option.bind_some,
    h.dir.optional (Json.asText_text _), hpath, h.name.optional (Json.asText_text _), hmodule,
    h.standard.optional (Json.asBool_bool _), h.imports.optional (Json.asList_texts _),
    h.deps.optional (Json.asList_texts _), h.incomplete.optional (Json.asBool_bool _), hparts,
    Option.pure_def]

/-! ## 2. Listings -/

/-- Records of packages one after the other, with blanks before, between and after them or without,
none deeper than there is room for. -/
inductive Listing (room : Nat) : List Package → List Char → Prop
  | blanks {gap : List Char} (hgap : ∀ c ∈ gap, Text.isBlank c = true) : Listing room [] gap
  | record {p : Package} {ps : List Package} {gap s rest : List Char} {fields : Json.Fields}
      (hgap : ∀ c ∈ gap, Text.isBlank c = true)
      (htext : Json.Spells room (.object fields) s) (hfields : p.Written fields)
      (hrest : Listing room ps rest) : Listing room (p :: ps) (gap ++ (s ++ rest))

variable {room : Nat}

/-- No number goes on where an object ends. -/
theorem stops_object (fields : Json.Fields) (s rest : List Char) :
    Json.Stops (.object fields) s rest := by
  intro h
  cases h

/-- A listing is read in one round for each record. -/
theorem Listing.rounds {ps : List Package} {s : List Char} (h : Listing room ps s) :
    ∃ vs, Json.Rounds room s vs none ∧ vs.mapM ofJson = some ps := by
  induction h with
  | blanks hgap => exact ⟨[], .done (List.dropWhile_eq_nil_iff.2 hgap), rfl⟩
  | @record p ps gap s rest fields hgap htext hfields _ ih =>
    obtain ⟨vs, hrounds, hread⟩ := ih
    obtain ⟨c, more, hs, hc⟩ := htext.exists_cons
    have hvalue := htext.value (stops_object fields s rest)
    have hstart : Text.trimStart (s ++ rest) = s ++ rest := by
      rw [hs]
      exact Text.trimStart_of_head hc
    have hshorter := Json.length_of_value hvalue
    rw [← hstart] at hvalue
    refine ⟨.object fields :: vs, (Json.Rounds.next hvalue hshorter hrounds).blanks hgap, ?_⟩
    rw [List.mapM_cons, hfields.ofJson, hread]
    rfl

theorem Listing.ofListing {ps : List Package} {text : String} (h : Listing room ps text.toList) :
    ofListing text room = .ok (graph ps) := by
  obtain ⟨vs, hrounds, hread⟩ := h.rounds
  rw [Package.ofListing, hrounds.stream, Json.Stream.decode]
  simp only [hread]
  rfl

/-- **Every listing of packages is read as them**: its paths are those of the packages in order of
first appearance, each bound to the last package of that path. -/
theorem ofListing_of_listing {room : Nat} {ps : List Package} {text : String}
    (h : Listing room ps text.toList) :
    ofListing text room = .ok (graph ps) ∧
      Table.keys (graph ps) = (ps.map Package.importPath).eraseDups ∧
      ∀ path p, Table.get? path (graph ps) = some p ↔
        Table.Last (ps.map fun p => (p.importPath, p)) path p := by
  refine ⟨h.ofListing, ?_, fun path p => Table.get?_ofEntries⟩
  rw [graph, Table.keys_ofEntries, Table.keys, List.map_map]
  rfl

/-- A record with an escape in its path and a key that is no field. -/
def accented : String :=
  "\x7b\"Module\": \x7b\"Path\": \"m\"\x7d, \"x\": [null], \"import_path\": \"\\u00e9\"\x7d"

/-- One record twice, with nothing between. -/
theorem ofListing_of_listing_twice :
    ofListing (accented ++ accented)
      = .ok [("é", ⟨"é", "", "", "m", "", false, [], [], false⟩)] := by
  let p : Package := ⟨"é", "", "", "m", "", false, [], [], false⟩
  let fields : Json.Fields :=
    [("Module", .object [("Path", .text "m")]), ("x", .array [.null]), ("import_path", .text "é")]
  have hprinted : Json.write .oneLine 0 (.object fields) = accented.toList := by decide +kernel
  have hshape : Json.Shaped 2 (.object fields) := by simp [fields, Table.keys]
  have htexts : ∀ t, .text t ∈ Json.leaves (.object fields) → Text.WellFormed t := by decide +kernel
  have hspells : Json.Spells Json.usualRoom (.object fields) accented.toList :=
    hprinted ▸ Json.spells_write Json.Layout.lawful_oneLine (hshape.mono (by decide))
      (fun t ht => (htexts t ht).whole) (by simp [fields]) 0
  have hmodule : fields.under (spellings ["module"]) = [.object [("Path", .text "m")]] := rfl
  have hfields : p.Written fields :=
    { importPath := rfl
      dir := .inr ⟨rfl, rfl⟩
      name := .inr ⟨rfl, rfl⟩
      module := .object hmodule (.inl rfl) (.inr ⟨rfl, rfl⟩)
      standard := .inr ⟨rfl, rfl⟩
      imports := .inr ⟨rfl, rfl⟩
      deps := .inr ⟨rfl, rfl⟩
      incomplete := .inr ⟨rfl, rfl⟩ }
  have hnone : ∀ c ∈ ([] : List Char), Text.isBlank c = true := by simp
  have hrecord {ps : List Package} {rest : List Char} (h : Listing Json.usualRoom ps rest) :
      Listing Json.usualRoom (p :: ps) ([] ++ (accented.toList ++ rest)) :=
    .record hnone hspells hfields h
  have hlisting := hrecord (hrecord (.blanks hnone))
  rw [List.nil_append, List.nil_append, List.append_nil, ← String.toList_append] at hlisting
  rw [(ofListing_of_listing hlisting).1]
  decide +kernel

/-- **An integer with a digit too many makes a listing unreadable**, even under a key that is no
field of a package. -/
theorem ofListing_longInteger :
    ofListing (String.ofList ('\x7b' :: ("\"x\"".toList ++ ':' ::
        (List.replicate (Json.digitLimit + 1) '1' ++ ",\"ImportPath\":\"a\"\x7d".toList))))
      = .error (.longInteger (Json.digitLimit + 1)) := by
  have hends : Json.Ends ",\"ImportPath\":\"a\"\x7d".toList := .cons (by decide) _
  have hvalue := Json.value_overlong hends (show Json.usualRoom ≠ 0 by decide)
  have hrounds : Json.Rounds Json.usualRoom (String.ofList ('\x7b' :: ("\"x\"".toList ++ ':' ::
      (List.replicate (Json.digitLimit + 1) '1' ++ ",\"ImportPath\":\"a\"\x7d".toList)))).toList []
        (some (.longInteger (Json.digitLimit + 1))) := by
    rw [String.toList_ofList]
    rw [← Text.trimStart_of_head (show Text.isBlank '\x7b' = false by decide)] at hvalue
    exact .stop (by rw [Text.trimStart_of_head (by decide)]; simp) hvalue
  rw [ofListing, hrounds.stream]
  rfl

end UpgradeAudit.Package
