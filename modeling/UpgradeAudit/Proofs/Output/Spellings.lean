/-
# Spellings of one document

Two documents of an analyzer can hold the same in different spellings (`ReportRespelled`): at every
level the fields that are looked up stand under one of their spellings at most, whichever it is and
wherever among the fields of the object; an integer stands as itself or inside a string; and keys
that are no spelling of a field are free.

**Such documents are decoded to the same** (`decode_respelled`), and where they are not decoded,
both are laid to the analyzer.  A reader follows the schema: it respects the differences that a
value may have when the readers that it is made of respect those of the parts (`Respects`).

Keys that nobody looks up are free only as far as a document can be read.  An integer with a digit
too many under such a key makes a document unreadable (`decode_of_longInteger`).
-/
import UpgradeAudit.Proofs.Json.Fields
import UpgradeAudit.Proofs.Json.Numbers
import UpgradeAudit.Proofs.Json.Parsing
import UpgradeAudit.Proofs.Output.CacheLocation
import UpgradeAudit.Proofs.Output.Faults

namespace UpgradeAudit.Output

variable {α : Type}

/-! ## 1. Values in different spellings -/

/-- The values that stand for an integer: itself, or a string that spells it. -/
inductive Denotes (n : Int) : Json → Prop
  | plain : Denotes n (.int n)
  | decimal {s : String} (h : Json.DecimalText n s.toList) : Denotes n (.text s)

/-- Values that are the same, or stand for the same integer. -/
inductive SameInteger : Json → Json → Prop
  | same (v : Json) : SameInteger v v
  | integer {n : Int} {v w : Json} (hv : Denotes n v) (hw : Denotes n w) : SameInteger v w

/-- The fields that are looked up in an object, each with the differences its values may have. -/
abbrev Schema := List (Json.Name × (Json → Json → Prop))

/-- Each field of a schema stands under one of its spellings at most in either object, in both or in
neither, and its values are related. -/
def SameFields (schema : Schema) (f g : Json.Fields) : Prop :=
  ∀ field ∈ schema, ∃ x y : Option Json, f.under (spellings field.1) = x.toList ∧
    g.under (spellings field.1) = y.toList ∧ Option.Rel field.2 x y

/-- Values that are the same, or objects with the same fields of a schema. -/
inductive Respelled (schema : Schema) : Json → Json → Prop
  | same (v : Json) : Respelled schema v v
  | object {f g : Json.Fields} (h : SameFields schema f g) :
      Respelled schema (.object f) (.object g)

theorem sameFields_nil (f g : Json.Fields) : SameFields [] f g := by
  simp [SameFields]

theorem SameFields.cons {name : Json.Name} {related : Json → Json → Prop} {schema : Schema}
    {f g : Json.Fields} (x y : Option Json) (hx : f.under (spellings name) = x.toList)
    (hy : g.under (spellings name) = y.toList) (hxy : Option.Rel related x y)
    (h : SameFields schema f g) : SameFields ((name, related) :: schema) f g :=
  List.forall_mem_cons.2 ⟨⟨x, y, hx, hy, hxy⟩, h⟩

/-! ## 2. Readers that respect differences -/

/-- A reader makes the same of values that are related. -/
def Respects (related : Json → Json → Prop) (reader : Json.Reader α) : Prop :=
  ∀ v w, related v w → reader v = reader w

theorem respects_eq (reader : Json.Reader α) : Respects Eq reader :=
  fun _ _ h => congrArg reader h

theorem Denotes.asInt {n : Int} {v : Json} (h : Denotes n v) : Json.asInt v = some n := by
  cases h with
  | plain => rfl
  | decimal h => exact Json.integerOfText?_of_decimal h

theorem respects_int : Respects SameInteger Json.asInt := by
  intro v w h
  cases h with
  | same => rfl
  | integer hv hw => rw [hv.asInt, hw.asInt]

theorem respects_list {related : Json → Json → Prop} {item : Json.Reader α}
    (h : Respects related item) : Respects (EachItem related) (Json.asList item) := by
  intro v w hvw
  cases hvw with
  | other => rfl
  | array hitems =>
    -- arrays are read item by item, along the relation between their items
    show List.mapM item _ = List.mapM item _
    induction hitems with
    | nil => rfl
    | cons hhead _ ih => rw [List.mapM_cons, List.mapM_cons, h _ _ hhead, ih]

/-- Values of which both or neither are null. -/
def SameNull (related : Json → Json → Prop) : Prop :=
  ∀ v w, related v w → (v = .null ↔ w = .null)

theorem Denotes.ne_null {n : Int} {v : Json} (h : Denotes n v) : v ≠ .null := by
  cases h <;> simp

theorem sameNull_integer : SameNull SameInteger := by
  intro v w h
  cases h with
  | same => rfl
  | integer hv hw => exact iff_of_false hv.ne_null hw.ne_null

theorem sameNull_eachItem (related : Json → Json → Prop) : SameNull (EachItem related) := by
  intro v w h
  cases h with
  | other => rfl
  | array => simp

theorem sameNull_respelled (schema : Schema) : SameNull (Respelled schema) := by
  intro v w h
  cases h with
  | same => rfl
  | object => simp

theorem respects_orAbsent {related : Json → Json → Prop} {reader : Json.Reader α}
    (h : Respects related reader) (hnull : SameNull related) :
    Respects related (Json.orAbsent reader) := by
  intro v w hvw
  by_cases hv : v = .null
  · rw [hv, (hnull v w hvw).1 hv]
  · have hw : w ≠ .null := fun hw => hv ((hnull v w hvw).2 hw)
    have hmap {u : Json} (hu : u ≠ .null) : Json.orAbsent reader u = (reader u).map some := by
      cases u with
      | null => exact absurd rfl hu
      | _ => rfl
    rw [hmap hv, hmap hw, h v w hvw]

section fields

variable {schema : Schema} {f g : Json.Fields} {related : Json → Json → Prop}
  {reader : Json.Reader α}

theorem optional_respelled (h : SameFields schema f g) (name : Json.Name)
    (hfield : (name, related) ∈ schema) (hreader : Respects related reader) (absent : α) :
    optional f name reader absent = optional g name reader absent := by
  obtain ⟨x, y, hx, hy, hxy⟩ := h _ hfield
  rw [optional, optional, Json.Fields.optional_of_under hx, Json.Fields.optional_of_under hy]
  cases hxy with
  | none => rfl
  | some hvw => exact hreader _ _ hvw

theorem required_respelled (h : SameFields schema f g) (name : Json.Name)
    (hfield : (name, related) ∈ schema) (hreader : Respects related reader) :
    required f name reader = required g name reader := by
  obtain ⟨x, y, hx, hy, hxy⟩ := h _ hfield
  rw [required, required, Json.Fields.required_of_under hx, Json.Fields.required_of_under hy]
  cases hxy with
  | none => rfl
  | some hvw => exact hreader _ _ hvw

/-- **A record is read from the fields of its schema alone.** -/
theorem respects_record {record : Json.Fields → Option α}
    (h : ∀ f g, SameFields schema f g → record f = record g) :
    Respects (Respelled schema) fun v => Json.asFields v >>= record := by
  intro v w hvw
  cases hvw with
  | same => rfl
  | object hfields => exact h _ _ hfields

end fields

/-! ## 3. Documents of capslock -/

namespace CallPaths

abbrev SiteRespelled : Json → Json → Prop :=
  Respelled [(["filename"], Eq), (["line"], SameInteger), (["column"], SameInteger)]

abbrev HopRespelled : Json → Json → Prop :=
  Respelled [(["name"], Eq), (["site"], SiteRespelled)]

abbrev EntryRespelled : Json → Json → Prop :=
  Respelled [(["package", "name"], Eq), (["capability"], Eq), (["path"], EachItem HopRespelled),
    (["package", "dir"], Eq), (["capability", "type"], Eq)]

abbrev ModuleRespelled : Json → Json → Prop :=
  Respelled [(["path"], Eq), (["version"], Eq)]

/-- Documents of capslock that hold the same in different spellings. -/
abbrev ReportRespelled : Json → Json → Prop :=
  Respelled [(["capability", "info"], EachItem EntryRespelled),
    (["module", "info"], EachItem ModuleRespelled)]

theorem respects_site : Respects SiteRespelled siteOfJson := by
  refine respects_record fun f g h => ?_
  have hinteger := respects_orAbsent respects_int sameNull_integer
  simp only [optional_respelled h ["filename"] (by simp) (respects_eq Json.asText),
    optional_respelled h ["line"] (by simp) hinteger,
    optional_respelled h ["column"] (by simp) hinteger]

theorem respects_hop : Respects HopRespelled hopOfJson := by
  refine respects_record fun f g h => ?_
  simp only [required_respelled h ["name"] (by simp) (respects_eq Json.asText),
    optional_respelled h ["site"] (by simp)
      (respects_orAbsent respects_site (sameNull_respelled _))]

theorem respects_entry : Respects EntryRespelled entryOfJson := by
  refine respects_record fun f g h => ?_
  simp only [optional_respelled h ["package", "name"] (by simp) (respects_eq Json.asText),
    required_respelled h ["capability"] (by simp)
      (respects_eq (Json.asNamed CapabilityKind.ofCode?)),
    optional_respelled h ["path"] (by simp) (respects_list respects_hop),
    optional_respelled h ["package", "dir"] (by simp) (respects_eq Json.asText),
    optional_respelled h ["capability", "type"] (by simp)
      (respects_eq (Json.asNamed CapabilityType.ofCode?))]

theorem respects_module : Respects ModuleRespelled moduleOfJson := by
  refine respects_record fun f g h => ?_
  simp only [required_respelled h ["path"] (by simp) (respects_eq Json.asText),
    optional_respelled h ["version"] (by simp) (respects_eq Json.asText)]

theorem respects_report : Respects ReportRespelled reportOfJson := by
  refine respects_record fun f g h => ?_
  simp only [
    optional_respelled h ["capability", "info"] (by simp) (respects_list respects_entry),
    optional_respelled h ["module", "info"] (by simp) (respects_list respects_module)]

end CallPaths

/-! ## 4. Documents of golangci-lint -/

namespace LintReport

abbrev PositionRespelled : Json → Json → Prop :=
  Respelled [(["filename"], Eq), (["offset"], SameInteger), (["line"], SameInteger),
    (["column"], SameInteger)]

abbrev IssueRespelled : Json → Json → Prop :=
  Respelled [(["from", "linter"], Eq), (["text"], Eq), (["source", "lines"], Eq),
    (["pos"], PositionRespelled)]

/-- Documents of golangci-lint that hold the same in different spellings. -/
abbrev ReportRespelled : Json → Json → Prop :=
  Respelled [(["issues"], EachItem IssueRespelled)]

theorem respects_position : Respects PositionRespelled positionOfJson := by
  refine respects_record fun f g h => ?_
  simp only [optional_respelled h ["filename"] (by simp) (respects_eq Json.asText),
    optional_respelled h ["offset"] (by simp) respects_int,
    optional_respelled h ["line"] (by simp) respects_int,
    optional_respelled h ["column"] (by simp) respects_int]

theorem respects_issue : Respects IssueRespelled issueOfJson := by
  refine respects_record fun f g h => ?_
  simp only [required_respelled h ["from", "linter"] (by simp) (respects_eq Json.asText),
    optional_respelled h ["text"] (by simp) (respects_eq Json.asText),
    optional_respelled h ["source", "lines"] (by simp)
      (respects_eq (Json.orAbsent (Json.asList Json.asText))),
    required_respelled h ["pos"] (by simp) respects_position]

theorem respects_report : Respects ReportRespelled reportOfJson := by
  refine respects_record fun f g h => ?_
  simp only [optional_respelled h ["issues"] (by simp)
    (respects_orAbsent (respects_list respects_issue) (sameNull_eachItem _))]

end LintReport

/-! ## 5. Decoding -/

section document

variable {tool : Tool} {d d' : Document} {v w : Json} {room room' : Nat}

/-- A document that was read is not unread. -/
theorem Document.not_unread (h : d.value? room = some v) (c : Cause) : ¬ d.Unread tool room c := by
  obtain ⟨s, htext, hread⟩ := Document.value?_eq_some h
  intro hunread
  cases hunread with
  | noText h =>
    rw [htext] at h
    cases h
  | beyond text read =>
    rw [htext] at text
    obtain rfl := Except.ok.inj text
    rw [hread] at read
    cases read

theorem Document.decode_congr {record : Json.Reader α} (hv : d.value? room = some v)
    (hw : d'.value? room' = some w) (h : record v = record w) :
    d.decode tool record room = d'.decode tool record room' := by
  obtain ⟨s, htext, hread⟩ := Document.value?_eq_some hv
  obtain ⟨t, htext', hread'⟩ := Document.value?_eq_some hw
  unfold Document.decode
  simp only [htext, htext', bind, Except.bind, hread, hread', h]

end document

/-- **Documents that hold the same in different spellings are decoded to the same**, or both are
laid to the analyzer.  There may be more room for one of them than for the other, so long as both
can be read. -/
theorem decode_respelled (room room' : Nat) :
    (∀ (d d' : Document) (v w : Json) (moduleCache : String), d.value? room = some v →
        d'.value? room' = some w → CallPaths.ReportRespelled v w →
        CallPaths.decode d moduleCache room = CallPaths.decode d' moduleCache room' ∧
          ∀ c, CallPaths.decode d moduleCache room = .error c → c.IsLaidTo .capslock) ∧
      ∀ (d d' : Document) (v w : Json) (moduleCache : String) (workDir : Option String),
        d.value? room = some v → d'.value? room' = some w → LintReport.ReportRespelled v w →
        LintReport.decode d moduleCache workDir room
            = LintReport.decode d' moduleCache workDir room' ∧
          ∀ c, LintReport.decode d moduleCache workDir room = .error c →
            c.IsLaidTo .golangciLint := by
  refine ⟨fun d d' v w moduleCache hv hw h => ⟨?_, fun c hc => ?_⟩,
    fun d d' v w moduleCache workDir hv hw h => ⟨?_, fun c hc => ?_⟩⟩
  · unfold CallPaths.decode
    rw [Document.decode_congr hv hw (CallPaths.respects_report v w h)]
  · exact (CallPaths.decode_error hc).resolve_right (Document.not_unread hv c)
  · unfold LintReport.decode
    rw [Document.decode_congr hv hw (LintReport.respects_report v w h)]
  · exact (LintReport.decode_error hc).resolve_right (Document.not_unread hv c)

/-- A document of capslock with a module, and the same respelled. -/
def oneModule : Json × Json :=
  (.object [("moduleInfo", .array [.object [("Path", .text "m"), ("x", .int 0)]])],
    .object [("y", .array []), ("module_info", .array [.object [("path", .text "m")]])])

theorem respelled_oneModule : CallPaths.ReportRespelled oneModule.1 oneModule.2 := by
  have hmodule : CallPaths.ModuleRespelled (.object [("Path", .text "m"), ("x", .int 0)])
      (.object [("path", .text "m")]) := by
    refine .object (.cons (some (.text "m")) (some (.text "m")) ?_ ?_ (.some rfl)
      (.cons none none ?_ ?_ .none (sameFields_nil _ _))) <;> rfl
  refine .object (.cons none none ?_ ?_ .none (.cons (some (.array [_])) (some (.array [_])) ?_ ?_
    (.some (.array (.cons hmodule .nil))) (sameFields_nil _ _))) <;> rfl

/-- A document of golangci-lint with an issue, and the same respelled, with an integer inside a
string. -/
def oneIssue : Json × Json :=
  (.object [("issues", .array [.object
      [("fromLinter", .text "l"), ("pos", .object [("column", .int 2)])]])],
    .object [("Issues", .array [.object
      [("Pos", .object [("Column", .text "+02")]), ("FromLinter", .text "l")]])])

theorem respelled_oneIssue : LintReport.ReportRespelled oneIssue.1 oneIssue.2 := by
  have hdecimal : Json.DecimalText 2 "+02".toList :=
    @Json.DecimalText.mk (['+'], false) ['0', '2'] (by decide)
      ⟨by decide, List.forall_mem_cons.2 ⟨rfl, List.forall_mem_singleton.2 rfl⟩⟩ (by decide)
  have hposition : LintReport.PositionRespelled (.object [("column", .int 2)])
      (.object [("Column", .text "+02")]) := by
    refine .object (.cons none none ?_ ?_ .none (.cons none none ?_ ?_ .none
      (.cons none none ?_ ?_ .none (.cons (some (.int 2)) (some (.text "+02")) ?_ ?_
        (.some (.integer .plain (.decimal hdecimal))) (sameFields_nil _ _))))) <;> rfl
  have hissue : LintReport.IssueRespelled
      (.object [("fromLinter", .text "l"), ("pos", .object [("column", .int 2)])])
      (.object [("Pos", .object [("Column", .text "+02")]), ("FromLinter", .text "l")]) := by
    refine .object (.cons (some (.text "l")) (some (.text "l")) ?_ ?_ (.some rfl)
      (.cons none none ?_ ?_ .none (.cons none none ?_ ?_ .none
        (.cons (some (.object _)) (some (.object _)) ?_ ?_ (.some hposition)
          (sameFields_nil _ _))))) <;> rfl
  refine .object (.cons (some (.array [_])) (some (.array [_])) ?_ ?_
    (.some (.array (.cons hissue .nil))) (sameFields_nil _ _)) <;> rfl

theorem decode_respelled_pair :
    CallPaths.decode (.text oneModule.1.indented) ""
        = CallPaths.decode (.text oneModule.2.indented) "" ∧
      LintReport.decode (.text oneIssue.1.indented) "" none
        = LintReport.decode (.text oneIssue.2.indented) "" none := by
  have hvalue {v : Json} (hshape : Json.Shaped 6 v)
      (htexts : ∀ s, .text s ∈ v.leaves → Text.WellFormed s) (hints : v.isWritable = true) :
      (Document.text v.indented).value? Json.usualRoom = some v :=
    Document.value?_indented (hshape.mono (by decide)) (fun s hs => (htexts s hs).whole) hints
  have hmodule : Json.Shaped 6 oneModule.1 ∧ Json.Shaped 6 oneModule.2 := by
    simp [oneModule, Table.keys]
  have hissue : Json.Shaped 6 oneIssue.1 ∧ Json.Shaped 6 oneIssue.2 := by
    simp [oneIssue, Table.keys]
  constructor
  · exact ((decode_respelled _ _).1 _ _ _ _ ""
      (hvalue hmodule.1 (by decide +kernel) (by decide +kernel))
      (hvalue hmodule.2 (by decide +kernel) (by decide +kernel)) respelled_oneModule).1
  · exact ((decode_respelled _ _).2 _ _ _ _ "" none
      (hvalue hissue.1 (by decide +kernel) (by decide +kernel))
      (hvalue hissue.2 (by decide +kernel) (by decide +kernel)) respelled_oneIssue).1

/-- **A key that nobody looks up can make a document unreadable.** -/
theorem decode_of_longInteger :
    LintReport.decode (.text "\x7b\"issues\":[]\x7d") "" none = .ok [] ∧
      LintReport.decode (.text (String.ofList ('\x7b' :: ("\"x\"".toList ++ ':' ::
        (List.replicate (Json.digitLimit + 1) '1' ++ ",\"issues\":[]\x7d".toList))))) "" none
        = .error (.invalidValue (Json.Fault.longInteger (Json.digitLimit + 1)).message) := by
  refine ⟨by decide +kernel, ?_⟩
  have hends : Json.Ends ",\"issues\":[]\x7d".toList := .cons (by decide) _
  exact LintReport.decode_of_unread (.beyond rfl
    (Json.read_error (Json.value_overlong hends (show Json.usualRoom ≠ 0 by decide))) rfl)

end UpgradeAudit.Output
