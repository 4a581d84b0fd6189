/-
# Reports as JSON tell everything

A record keeps every field of what it stands for, so different results have different records
(`result_injective`), and no record is deeper than nine collections inside one another
(`shaped_result`).  Its text can be read back (`print_faithful`), and so different results have
different texts.

Two things are asked of a result.  Its texts are well-formed, and its tables of numbers have every
category once (`Proper`).  An integer that has too many digits stands in the way of any text at
all, and `unprintable` has one.
-/
import Mathlib.Data.List.Basic
import UpgradeAudit.Proofs.Json.Values
import UpgradeAudit.Report.Record

namespace UpgradeAudit

/-! ## 1. Codes -/

/-- What is searched for under a name that no two have is found. -/
theorem find?_of_nodup {α β : Type} [DecidableEq β] {f : α → β} {all : List α}
    (h : (all.map f).Nodup) {a : α} (ha : a ∈ all) : all.find? (fun b => f b = f a) = some a := by
  induction all with
  | nil => simp at ha
  | cons b all ih =>
    rw [List.map_cons, List.nodup_cons] at h
    rcases List.mem_cons.1 ha with rfl | ha
    · simp
    · have hne : f b ≠ f a := fun he => h.1 (he ▸ List.mem_map_of_mem ha)
      rw [List.find?_cons_of_neg (by simpa using hne), ih h.2 ha]

namespace CapabilityKind

theorem map_code : all.map code =
    ["CAPABILITY_UNSPECIFIED", "CAPABILITY_SAFE", "CAPABILITY_FILES", "CAPABILITY_NETWORK",
     "CAPABILITY_RUNTIME", "CAPABILITY_READ_SYSTEM_STATE", "CAPABILITY_MODIFY_SYSTEM_STATE",
     "CAPABILITY_OPERATING_SYSTEM", "CAPABILITY_SYSTEM_CALLS", "CAPABILITY_ARBITRARY_EXECUTION",
     "CAPABILITY_CGO", "CAPABILITY_UNANALYZED", "CAPABILITY_UNSAFE_POINTER", "CAPABILITY_REFLECT",
     "CAPABILITY_EXEC"] := by
  decide +kernel

theorem mem_all (k : CapabilityKind) : k ∈ all := by
  cases k <;> decide

theorem ofCode?_code (k : CapabilityKind) : ofCode? k.code = some k := by
  refine find?_of_nodup ?_ k.mem_all
  rw [map_code]
  decide

/-- A code is ASCII. -/
theorem ascii_code (k : CapabilityKind) : (k.code.toList.all fun c => c.toNat < 0x80) = true := by
  have hall : (all.map code).all (fun code => code.toList.all fun c => c.toNat < 0x80) = true := by
    rw [map_code]
    decide +kernel
  exact List.all_eq_true.1 hall _ (List.mem_map_of_mem k.mem_all)

theorem code_injective : Function.Injective code := fun a b h =>
  Option.some.inj (by rw [← ofCode?_code a, ← ofCode?_code b, h])

end CapabilityKind

namespace CapabilityType

theorem map_code : all.map code =
    ["CAPABILITY_TYPE_UNSPECIFIED", "CAPABILITY_TYPE_DIRECT", "CAPABILITY_TYPE_TRANSITIVE"] := by
  decide +kernel

theorem mem_all (t : CapabilityType) : t ∈ all := by
  cases t <;> decide

theorem ofCode?_code (t : CapabilityType) : ofCode? t.code = some t := by
  refine find?_of_nodup ?_ t.mem_all
  rw [map_code]
  decide

/-- A code is ASCII. -/
theorem ascii_code (t : CapabilityType) : (t.code.toList.all fun c => c.toNat < 0x80) = true := by
  have hall : (all.map code).all (fun code => code.toList.all fun c => c.toNat < 0x80) = true := by
    rw [map_code]
    decide +kernel
  exact List.all_eq_true.1 hall _ (List.mem_map_of_mem t.mem_all)

theorem code_injective : Function.Injective code := fun a b h =>
  Option.some.inj (by rw [← ofCode?_code a, ← ofCode?_code b, h])

end CapabilityType

namespace Report.Record

open Json (Shaped)

/-! ## 2. Nothing is lost -/

theorem orNull_injective {α : Type} {encode : α → Json} (h : Function.Injective encode)
    (hnull : ∀ a, encode a ≠ .null) : Function.Injective (Json.orNull encode) := by
  rintro (_ | a) (_ | b) hab
  · rfl
  · exact absurd hab.symm (hnull b)
  · exact absurd hab (hnull a)
  · exact congrArg some (h hab)

theorem int_injective : Function.Injective Json.int := fun _ _ => Json.int.inj

theorem text_injective : Function.Injective Json.text := fun _ _ => Json.text.inj

theorem callSite_injective : Function.Injective callSite := by
  intro a b h
  simp only [callSite, Json.object.injEq, List.cons.injEq, Prod.mk.injEq, Json.text.injEq,
    true_and, and_true] at h
  obtain ⟨hfile, hline, hcolumn⟩ := h
  have horNull := orNull_injective int_injective (by simp)
  exact CallSite.ext hfile (horNull hline) (horNull hcolumn)

theorem hop_injective : Function.Injective hop := by
  intro a b h
  simp only [hop, Json.object.injEq, List.cons.injEq, Prod.mk.injEq, Json.text.injEq,
    true_and, and_true] at h
  obtain ⟨hname, hsite⟩ := h
  exact Hop.ext hname (orNull_injective callSite_injective (by simp [callSite]) hsite)

theorem capability_injective : Function.Injective capability := by
  intro a b h
  simp only [capability, Json.object.injEq, List.cons.injEq, Prod.mk.injEq, Json.text.injEq,
    Json.array.injEq, true_and, and_true] at h
  obtain ⟨hname, hdir, hkind, htype, hpath⟩ := h
  exact Capability.ext hname hdir (CapabilityKind.code_injective hkind)
    (CapabilityType.code_injective htype) (List.map_injective_iff.2 hop_injective hpath)

theorem module_injective : Function.Injective module := by
  intro a b h
  simpa [module, CapabilityModule.ext_iff] using h

theorem position_injective : Function.Injective position := by
  intro a b h
  simpa [position, Position.ext_iff, and_assoc] using h

theorem issue_injective : Function.Injective issue := by
  intro a b h
  simp only [issue, Json.object.injEq, List.cons.injEq, Prod.mk.injEq, Json.text.injEq,
    Json.texts, Json.array.injEq, true_and, and_true] at h
  obtain ⟨hlinter, htext, hposition, hlines⟩ := h
  exact Issue.ext hlinter htext (position_injective hposition)
    (List.map_injective_iff.2 text_injective hlines)

theorem diff_injective {α : Type} {finding : α → Json} (h : Function.Injective finding) :
    Function.Injective (diff finding) := by
  intro a b hab
  simp only [diff, Json.object.injEq, List.cons.injEq, Prod.mk.injEq, Json.array.injEq,
    true_and, and_true] at hab
  obtain ⟨hremoved, hstale, hadded⟩ := hab
  have hlist := List.map_injective_iff.2 h
  exact Diff.ext (hlist hremoved) (hlist hstale) (hlist hadded)

theorem counts_injective : Function.Injective counts := by
  intro a b h
  rw [counts, counts, Json.object.injEq] at h
  refine List.map_injective_iff.2 (fun e e' he => ?_) h
  simpa [Prod.ext_iff] using he

theorem totals_injective : Function.Injective totals := by
  intro a b h
  simp only [totals, Json.object.injEq, List.cons.injEq, Prod.mk.injEq, Json.int.injEq,
    Json.bool.injEq, true_and, and_true] at h
  obtain ⟨hcaps, hcapabilities, hissueTotal, hissues, hdeltas, hcapDeltas, hissueDeltas⟩ := h
  exact Totals.ext hcaps (counts_injective hcapabilities) hissueTotal (counts_injective hissues)
    hdeltas (counts_injective hcapDeltas) (counts_injective hissueDeltas)

theorem inspection_injective : Function.Injective inspection := by
  intro a b h
  simp only [inspection, Json.object.injEq, List.cons.injEq, Prod.mk.injEq, Json.text.injEq,
    Json.array.injEq, true_and, and_true] at h
  obtain ⟨hdep, hversion, hcapabilities, hissues, hmodules, htotals⟩ := h
  exact Inspection.ext hdep hversion (List.map_injective_iff.2 capability_injective hcapabilities)
    (List.map_injective_iff.2 issue_injective hissues)
    (List.map_injective_iff.2 module_injective hmodules) (totals_injective htotals)

theorem comparison_injective : Function.Injective comparison := by
  intro a b h
  simp only [comparison, Json.object.injEq, List.cons.injEq, Prod.mk.injEq, Json.text.injEq,
    Json.array.injEq, true_and, and_true] at h
  obtain ⟨hdep, hold, hnew, hcapabilities, hissues, holdModules, hnewModules, hremoved, hstale,
    hadded, htotals⟩ := h
  have hmodules := List.map_injective_iff.2 module_injective
  exact Comparison.ext hdep hold hnew (diff_injective capability_injective hcapabilities)
    (diff_injective issue_injective hissues) (hmodules holdModules) (hmodules hnewModules)
    (totals_injective hremoved) (totals_injective hstale) (totals_injective hadded)
    (totals_injective htotals)

theorem changedDependency_injective : Function.Injective changedDependency := by
  intro a b h
  simp only [changedDependency, Json.object.injEq, List.cons.injEq, Prod.mk.injEq,
    Json.text.injEq, true_and, and_true] at h
  obtain ⟨hpath, hnew, hold⟩ := h
  exact ChangedDependency.ext hpath hnew (orNull_injective text_injective (by simp) hold)

theorem failure_injective : Function.Injective failure := by
  intro a b h
  simp only [failure, Json.object.injEq, List.cons.injEq, Prod.mk.injEq, Json.text.injEq,
    true_and, and_true] at h
  exact DependencyFailure.ext (changedDependency_injective h.1) h.2

theorem full_injective : Function.Injective full := by
  intro a b h
  simp only [full, Json.object.injEq, List.cons.injEq, Prod.mk.injEq, Json.array.injEq,
    true_and, and_true] at h
  obtain ⟨hroot, hchanged, hcomparisons, hinspections, hfailures⟩ := h
  exact FullComparison.ext (comparison_injective hroot) (Resolution.ext
    (List.map_injective_iff.2 changedDependency_injective hchanged)
    (List.map_injective_iff.2 comparison_injective hcomparisons)
    (List.map_injective_iff.2 inspection_injective hinspections)
    (List.map_injective_iff.2 failure_injective hfailures))

/-- **Different results have different records**, of one kind or of two. -/
theorem result_injective : Function.Injective result := by
  rintro (a | a | a) (b | b | b) h
  · exact congrArg _ (inspection_injective h)
  · simp [result, inspection, comparison] at h
  · simp [result, inspection, full] at h
  · simp [result, inspection, comparison] at h
  · exact congrArg _ (comparison_injective h)
  · simp [result, comparison, full] at h
  · simp [result, inspection, full] at h
  · simp [result, comparison, full] at h
  · exact congrArg _ (full_injective h)

/-! ## 3. Shapes -/

theorem shaped_orNull {α : Type} {encode : α → Json} {room : Nat} (h : ∀ a, Shaped room (encode a))
    (a : Option α) : Shaped room (.orNull encode a) := by
  cases a with
  | none => exact .null
  | some a => exact h a

/-- A list of records is one collection deeper than its records. -/
theorem shaped_list {α : Type} {encode : α → Json} {room room' : Nat}
    (h : ∀ a, Shaped room (encode a)) (hroom : room < room') (as : List α) :
    Shaped room' (.array (as.map encode)) := by
  refine Shaped.mono (.array fun v hv => ?_) hroom
  obtain ⟨a, -, rfl⟩ := List.mem_map.1 hv
  exact h a

theorem shaped_callSite (s : CallSite) : Shaped 1 (callSite s) := by
  refine .object (by simp [Table.keys]) ?_
  simp [shaped_orNull]

theorem shaped_hop (h : Hop) : Shaped 2 (hop h) := by
  refine .object (by simp [Table.keys]) ?_
  simp [shaped_orNull shaped_callSite]

theorem shaped_capability (c : Capability) : Shaped 4 (capability c) := by
  refine .object (by simp [Table.keys]) ?_
  simp [shaped_list shaped_hop]

theorem shaped_module (m : CapabilityModule) : Shaped 1 (module m) := by
  refine .object (by simp [Table.keys]) ?_
  simp

theorem shaped_position (p : Position) : Shaped 1 (position p) := by
  refine .object (by simp [Table.keys]) ?_
  simp

theorem shaped_issue (i : Issue) : Shaped 2 (issue i) := by
  refine .object (by simp [Table.keys]) ?_
  simp [shaped_position, Json.texts, shaped_list Shaped.text]

theorem shaped_diff {α : Type} {finding : α → Json} {room : Nat} (h : ∀ a, Shaped room (finding a))
    (d : Diff α) : Shaped (room + 2) (diff finding d) := by
  refine .object (by simp [Table.keys]) ?_
  simp [shaped_list h]

theorem shaped_changedDependency (c : ChangedDependency) : Shaped 1 (changedDependency c) := by
  refine .object (by simp [Table.keys]) ?_
  simp [shaped_orNull]

theorem shaped_failure (f : DependencyFailure) : Shaped 2 (failure f) := by
  refine .object (by simp [Table.keys]) ?_
  simp [shaped_changedDependency]

end Report.Record

/-! ## 4. Results with proper tables -/

/-- Totals whose tables have every category once. -/
structure Totals.Keyed (t : Totals) : Prop where
  capabilities : (Table.keys t.capabilities).Nodup
  issues : (Table.keys t.issues).Nodup
  capabilityDeltas : (Table.keys t.capabilityDeltas).Nodup
  issueDeltas : (Table.keys t.issueDeltas).Nodup

/-- The totals in a comparison. -/
def Comparison.allTotals (r : Comparison) : List Totals :=
  [r.removedTotals, r.staleTotals, r.addedTotals, r.totals]

/-- The totals in a result. -/
def AuditResult.allTotals : AuditResult → List Totals
  | .inspection r => [r.totals]
  | .comparison r => r.allTotals
  | .full r => r.root.allTotals ++ r.others.comparisons.flatMap Comparison.allTotals
      ++ r.others.inspections.map Inspection.totals

/-- A result with well-formed texts, whose tables have every category once. -/
structure AuditResult.Proper (r : AuditResult) : Prop where
  texts : ∀ s, Json.text s ∈ (Report.Record.result r).leaves → Text.WellFormed s
  tables : ∀ t ∈ r.allTotals, t.Keyed

instance (t : Totals) : Decidable t.Keyed :=
  decidable_of_iff ((Table.keys t.capabilities).Nodup ∧ (Table.keys t.issues).Nodup ∧
      (Table.keys t.capabilityDeltas).Nodup ∧ (Table.keys t.issueDeltas).Nodup)
    ⟨fun h => ⟨h.1, h.2.1, h.2.2.1, h.2.2.2⟩, fun h => ⟨h.1, h.2, h.3, h.4⟩⟩

instance (r : AuditResult) : Decidable r.Proper :=
  decidable_of_iff ((∀ s, Json.text s ∈ (Report.Record.result r).leaves → Text.WellFormed s) ∧
      ∀ t ∈ r.allTotals, t.Keyed)
    ⟨fun h => ⟨h.1, h.2⟩, fun h => ⟨h.texts, h.tables⟩⟩

namespace Report.Record

open Json (Shaped)

theorem shaped_counts {c : Counts} (h : (Table.keys c).Nodup) : Shaped 1 (counts c) := by
  refine .object ?_ fun f hf => ?_
  · simpa [Table.keys, Function.comp_def] using h
  · obtain ⟨e, -, rfl⟩ := List.mem_map.1 hf
    exact .int e.2

theorem shaped_totals {t : Totals} (h : t.Keyed) : Shaped 2 (totals t) := by
  refine .object (by simp [Table.keys]) ?_
  simp [shaped_counts h.capabilities, shaped_counts h.issues, shaped_counts h.capabilityDeltas,
    shaped_counts h.issueDeltas]

theorem shaped_inspection {r : Inspection} (h : r.totals.Keyed) : Shaped 6 (inspection r) := by
  refine .object (by simp [Table.keys]) ?_
  simp [shaped_list shaped_capability, shaped_list shaped_issue, shaped_list shaped_module,
    (shaped_totals h).mono]

theorem shaped_comparison {r : Comparison} (h : ∀ t ∈ r.allTotals, t.Keyed) :
    Shaped 7 (comparison r) := by
  have htotals : ∀ t ∈ r.allTotals, Shaped 6 (totals t) := fun t ht =>
    (shaped_totals (h t ht)).mono (by omega)
  simp only [Comparison.allTotals, List.forall_mem_cons] at htotals
  refine .object (by simp [Table.keys]) ?_
  simp [shaped_list shaped_module, shaped_diff shaped_capability,
    (shaped_diff shaped_issue r.issues).mono, htotals]

/-- **No record is deeper than nine collections inside one another.** -/
theorem shaped_result {r : AuditResult} (h : ∀ t ∈ r.allTotals, t.Keyed) :
    Shaped 9 (result r) := by
  cases r with
  | inspection r =>
    exact (shaped_inspection (h _ (by simp [AuditResult.allTotals]))).mono (by omega)
  | comparison r => exact (shaped_comparison h).mono (by omega)
  | full r =>
    have hroot : Shaped 7 (comparison r.root) :=
      shaped_comparison fun t ht => h t (by simp [AuditResult.allTotals, ht])
    have hcomparisons : Shaped 8 (.array (r.others.comparisons.map comparison)) := by
      refine .array fun v hv => ?_
      obtain ⟨c, hc, rfl⟩ := List.mem_map.1 hv
      refine shaped_comparison fun t ht => h t ?_
      simp only [AuditResult.allTotals, List.mem_append, List.mem_flatMap]
      exact Or.inl (Or.inr ⟨c, hc, ht⟩)
    have hinspections : Shaped 8 (.array (r.others.inspections.map inspection)) := by
      refine .array fun v hv => ?_
      obtain ⟨i, hi, rfl⟩ := List.mem_map.1 hv
      refine (shaped_inspection (h _ ?_)).mono (by omega)
      simp only [AuditResult.allTotals, List.mem_append, List.mem_map]
      exact Or.inr ⟨i, hi, rfl⟩
    refine .object (by simp [Table.keys]) ?_
    simp [hroot.mono, hcomparisons, hinspections, shaped_list shaped_changedDependency,
      shaped_list shaped_failure]

/-! ## 5. Texts -/

theorem print_ok {r : AuditResult} {text : String} (h : print r = .ok text) :
    (result r).isWritable = true ∧ text = (result r).indented := by
  rw [print] at h
  split at h
  · exact ⟨‹_›, (Except.ok.inj h).symm⟩
  · cases h

/-- The text of a result is read as its record. -/
theorem read_print {r : AuditResult} (h : r.Proper) {text : String} (htext : print r = .ok text)
    {room : Nat} (hroom : 9 ≤ room) : Json.read text room = .ok (result r) := by
  obtain ⟨hwritable, rfl⟩ := print_ok htext
  exact Json.read_indented ((shaped_result h.tables).mono hroom)
    (fun s hs => (h.texts s hs).whole) hwritable

/-- **A result is told by its text**, wherever there is room for the nine collections of a
record. -/
theorem print_faithful {r : AuditResult} (h : r.Proper) :
    ((∃ text, print r = .ok text) ↔
        ∀ n, Json.int n ∈ (result r).leaves → n.natAbs < 10 ^ Json.digitLimit) ∧
      ∀ text, print r = .ok text → (∀ room, 9 ≤ room → Json.read text room = .ok (result r)) ∧
        ∀ r' : AuditResult, r'.Proper → print r' = .ok text → r' = r := by
  refine ⟨?_, fun text htext => ⟨fun room => read_print h htext,
    fun r' h' htext' => result_injective ?_⟩⟩
  · simp only [← Json.isShort_iff, ← Json.isWritable_iff]
    constructor
    · rintro ⟨text, htext⟩
      exact (print_ok htext).1
    · intro hwritable
      exact ⟨_, if_pos hwritable⟩
  · have hread := read_print h htext (Nat.le_refl 9)
    rw [read_print h' htext' (Nat.le_refl 9)] at hread
    exact Except.ok.inj hread

/-- An inspection with every kind of character in a text, and a call site without a line. -/
def sample : AuditResult := .inspection
  { dep := "example.com/Dep"
    version := "v1.2.3"
    capabilities := [⟨"dep", "example.com/Dep", .files, .direct,
      [⟨"dep.Open", none⟩, ⟨"os.Open", some ⟨"os/file.go", none, none⟩⟩], by simp⟩]
    issues := [⟨"revive", "say \"no\"\n\\ \x01 é 😀", ⟨"a.go", -3, 7, 0⟩, ["\tx := 1", ""]⟩]
    modules := [⟨"std", ""⟩]
    totals := ⟨1, [("direct", 1)], 1, [("revive", 1)], true, [], [("revive", -2)]⟩ }

theorem print_sample : sample.Proper ∧ ∃ text, print sample = .ok text ∧
    (∀ room, 9 ≤ room → Json.read text room = .ok (result sample)) ∧
      ∀ r' : AuditResult, r'.Proper → print r' = .ok text → r' = sample := by
  have hproper : sample.Proper := by decide +kernel
  have htext : print sample = .ok (result sample).indented := if_pos (by decide +kernel)
  exact ⟨hproper, _, htext, (print_faithful hproper).2 _ htext⟩

/-- An inspection with an issue on a line that has more digits than may be written. -/
def unprintable : AuditResult := .inspection
  { dep := "example.com/dep"
    version := "v1.2.3"
    capabilities := []
    issues := [⟨"revive", "exported", ⟨"a.go", 10 ^ Json.digitLimit, 0, 0⟩, []⟩]
    modules := []
    totals := ⟨0, [], 1, [("revive", 1)], false, [], []⟩ }

theorem print_unprintable : unprintable.Proper ∧ ∀ text, print unprintable ≠ .ok text := by
  have hproper : unprintable.Proper := by decide +kernel
  refine ⟨hproper, fun text htext => ?_⟩
  have hline : Json.int (10 ^ Json.digitLimit) ∈ (result unprintable).leaves := by
    simp [unprintable, result, inspection, issue, position]
  have hshort := Json.isWritable_iff.1 (print_ok htext).1 _ hline
  exact lt_irrefl _ (Json.isShort_pow.1 hshort)

end Report.Record
end UpgradeAudit
