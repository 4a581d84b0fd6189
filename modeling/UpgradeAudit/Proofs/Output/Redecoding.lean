/-
# Decoding a printed report

A report of capslock can be printed as a document of capslock again (`printed`).  Decoding that
document gives the report back: its records are read as they were written, a file name that was
made relative once stays as it is, and what was sorted stays in its place.

One thing stands in the way.  A text of the report may hold a surrogate and the other half of a
pair right after it, which no escape joined; printed, they are two escapes in a row, and these are
read as one code point.  So **a report is decoded again as itself exactly when none of its texts has
such a pair** (`decode_printed`), and `splitPair` has one.
-/
import UpgradeAudit.Output.CallPaths
import UpgradeAudit.Proofs.Output.CacheLocation
import UpgradeAudit.Proofs.Output.Readers
import UpgradeAudit.Proofs.Path.Names
import UpgradeAudit.Proofs.Report.Records
import UpgradeAudit.Proofs.Sorting

namespace UpgradeAudit.Output

/-! ## 1. Documents that are spelled -/

/-- A document as it comes from outside: what is text is spelled. -/
def Document.Spelled : Document → Prop
  | .text s => Text.Spelled s
  | .bytes _ => True

theorem spelled_textOfBytes {b : Bytes} {s : String} (h : Json.textOfBytes b = .ok s) :
    Text.Spelled s := by
  unfold Json.textOfBytes at h
  dsimp only at h
  split at h
  · exact Except.ok.inj h ▸ Text.spelled_ofPoints _
  · cases h

theorem Document.spelled_jsonText {d : Document} (hd : d.Spelled) {s : String}
    (h : d.jsonText = .ok s) : Text.Spelled s := by
  cases d with
  | text t => exact Except.ok.inj h ▸ hd
  | bytes b =>
    unfold Document.jsonText at h
    dsimp only at h
    split at h
    · rename_i t ht
      exact Except.ok.inj h ▸ spelled_textOfBytes ht
    · cases h

/-- The texts in a document are spelled, and its integers are short. -/
theorem Document.allGood_value {room : Nat} {d : Document} (hd : d.Spelled) {v : Json}
    (h : d.value? room = some v) : AllGood Text.Marked v := by
  obtain ⟨s, hs, hread⟩ := Document.value?_eq_some h
  intro a ha
  cases a with
  | text t =>
    exact Text.spelled_iff.1 (Json.spelled_of_read hread (Document.spelled_jsonText hd hs) ha)
  | int n => exact Json.isShort_of_read hread ha
  | _ => trivial

namespace CallPaths

open Report

/-! ## 2. The records of a report -/

/-- The document that a report is printed as. -/
def printed (r : CapabilityReport) : Json :=
  .object [("capability_info", .array (r.capabilities.map Record.capability)),
    ("module_info", .array (r.modules.map Record.module))]

theorem asInt_int (n : Int) : Json.asInt (.int n) = some n := rfl

theorem siteOfJson_callSite (s : CallSite) : siteOfJson (Record.callSite s) = some s := by
  unfold siteOfJson Record.callSite
  simp only [Json.asFields, Option.bind_eq_bind, Option.bind_some]
  rw [optional_of_get? "filename" (by decide) rfl, optional_of_get? "line" (by decide) rfl,
    optional_of_get? "column" (by decide) rfl, orAbsent_orNull asInt_int (by simp),
    orAbsent_orNull asInt_int (by simp)]
  rfl

theorem hopOfJson_hop (h : Hop) : hopOfJson (Record.hop h) = some h := by
  unfold hopOfJson Record.hop
  simp only [Json.asFields, Option.bind_eq_bind, Option.bind_some]
  rw [required_of_get? "name" (by decide) rfl, optional_of_get? "site" (by decide) rfl,
    orAbsent_orNull siteOfJson_callSite (by simp [Record.callSite])]
  rfl

/-- A capability as it is reported. -/
def Entry.ofCapability (c : Capability) : Entry :=
  ⟨c.packageName, c.packageDir, c.kind, c.type, c.path⟩

theorem entryOfJson_capability (c : Capability) :
    entryOfJson (Record.capability c) = some (Entry.ofCapability c) := by
  have hkind : Json.asNamed CapabilityKind.ofCode? (.text c.kind.code) = some c.kind :=
    CapabilityKind.ofCode?_code c.kind
  have htype : Json.asNamed CapabilityType.ofCode? (.text c.type.code) = some c.type :=
    CapabilityType.ofCode?_code c.type
  unfold entryOfJson Record.capability
  simp only [Json.asFields, Option.bind_eq_bind, Option.bind_some]
  rw [optional_of_get? "package_name" (by decide) rfl,
    required_of_get? "capability" (by decide) rfl,
    optional_of_get? "path" (by decide) rfl, optional_of_get? "package_dir" (by decide) rfl,
    optional_of_get? "capability_type" (by decide) rfl, hkind, htype,
    Json.asList_map (f := id) fun h _ => hopOfJson_hop h]
  simp [Json.asText, Entry.ofCapability]

theorem moduleOfJson_module (m : CapabilityModule) :
    moduleOfJson (Record.module m) = some m := by
  unfold moduleOfJson Record.module
  simp only [Json.asFields, Option.bind_eq_bind, Option.bind_some]
  rw [required_of_get? "path" (by decide) rfl, optional_of_get? "version" (by decide) rfl]
  rfl

theorem reportOfJson_printed (r : CapabilityReport) :
    reportOfJson (printed r) = some (r.capabilities.map Entry.ofCapability, r.modules) := by
  unfold reportOfJson printed
  simp only [Json.asFields, Option.bind_eq_bind, Option.bind_some]
  rw [optional_of_get? "capability_info" (by decide) rfl,
    optional_of_get? "module_info" (by decide) rfl,
    Json.asList_map fun c _ => entryOfJson_capability c,
    Json.asList_map (f := id) fun m _ => moduleOfJson_module m]
  simp

/-! ## 3. Capabilities that were located -/

theorem locateSite_locateSite {moduleCache : String} {site located : CallSite}
    (h : locateSite moduleCache site = some located) :
    locateSite moduleCache located = some located := by
  unfold locateSite at h ⊢
  split at h
  · cases h
  · rename_i hne
    obtain rfl := Option.some.inj h
    rw [if_neg (Path.relativeToRoot_ne_empty hne moduleCache),
      Path.relativeToRoot_relativeToRoot]

/-- **A hop that was located stays where it is.** -/
theorem locateHop_locateHop (moduleCache : String) (hop : Hop) :
    locateHop moduleCache (locateHop moduleCache hop) = locateHop moduleCache hop := by
  simp only [locateHop_eq]
  congr 1
  cases hop.site with
  | none => rfl
  | some site =>
    rw [Option.bind_some]
    cases h : locateSite moduleCache site with
    | none => rfl
    | some located => exact locateSite_locateSite h

/-- A capability whose hops are located. -/
def Located (moduleCache : String) (c : Capability) : Prop :=
  c.path.map (locateHop moduleCache) = c.path

theorem located_capability {moduleCache : String} {e : Entry} {c : Capability}
    (h : e.capability moduleCache = .ok c) : Located moduleCache c := by
  unfold Entry.capability at h
  dsimp only at h
  split at h
  · cases h
  · obtain rfl := Except.ok.inj h
    simp [Located, Function.comp_def, locateHop_locateHop]

theorem capability_ofCapability {moduleCache : String} {c : Capability}
    (h : Located moduleCache c) : (Entry.ofCapability c).capability moduleCache = .ok c := by
  unfold Entry.capability
  dsimp only
  split
  · rename_i hnil
    exact absurd (List.map_eq_nil_iff.1 hnil) c.path_ne_nil
  · exact congrArg Except.ok (Capability.ext rfl rfl rfl rfl h)

/-- What a list of attempts gives comes from one of them. -/
theorem exists_of_mem_mapM {α β ε : Type} {f : α → Except ε β} {as : List α} {bs : List β}
    (h : as.mapM f = .ok bs) : ∀ b ∈ bs, ∃ a ∈ as, f a = .ok b := by
  induction as generalizing bs with
  | nil =>
    obtain rfl : [] = bs := Except.ok.inj h
    simp
  | cons a as ih =>
    rw [List.mapM_cons] at h
    cases ha : f a with
    | error e =>
      rw [ha] at h
      cases h
    | ok b =>
      cases has : as.mapM f with
      | error e =>
        rw [ha, has] at h
        cases h
      | ok rest =>
        rw [ha, has] at h
        obtain rfl : b :: rest = bs := Except.ok.inj h
        intro c hc
        rcases List.mem_cons.1 hc with rfl | hc
        · exact ⟨a, List.mem_cons_self, ha⟩
        · obtain ⟨a', ha', hfa'⟩ := ih has c hc
          exact ⟨a', List.mem_cons_of_mem _ ha', hfa'⟩

theorem mapM_ofCapability {moduleCache : String} {caps : List Capability}
    (h : ∀ c ∈ caps, Located moduleCache c) :
    (caps.map Entry.ofCapability).mapM (Entry.capability moduleCache) = .ok caps := by
  induction caps with
  | nil => rfl
  | cons c caps ih =>
    rw [List.map_cons, List.mapM_cons, capability_ofCapability (h c List.mem_cons_self),
      ih fun d hd => h d (List.mem_cons_of_mem _ hd)]
    rfl

/-! ## 4. Reports -/

/-- How a document comes to its report. -/
theorem decode_eq_ok {room : Nat} {d : Document} {moduleCache : String} {r : CapabilityReport} :
    decode d moduleCache room = .ok r ↔ ∃ v entries caps, d.value? room = some v ∧
      reportOfJson v = some (entries, r.modules) ∧
      entries.mapM (Entry.capability moduleCache) = .ok caps ∧
      r.capabilities = Capability.sort caps := by
  obtain ⟨capabilities, modules⟩ := r
  rw [eq_ok_iff, toOption_decode]
  simp only [Option.bind_eq_bind, Option.bind_eq_some_iff, Option.map_eq_some_iff, ← eq_ok_iff,
    CapabilityReport.mk.injEq, Prod.exists]
  constructor
  · rintro ⟨entries, modules', ⟨v, hv, hrecord⟩, caps, hcaps, rfl, rfl⟩
    exact ⟨v, entries, caps, hv, hrecord, hcaps, rfl⟩
  · rintro ⟨v, entries, caps, hv, hrecord, hcaps, rfl⟩
    exact ⟨entries, modules, ⟨v, hv, hrecord⟩, caps, hcaps, rfl, rfl⟩

/-! ## 5. What a report is made of -/

section good

variable {P : List Char → Prop} (hP : Componentwise P)

include hP

/-- A record with names in ASCII is good when the values of its fields are. -/
theorem allGood_record {fields : Json.Fields}
    (hnames :
      (Table.keys fields).all (fun name => name.toList.all fun c => c.toNat < 0x80) = true) :
    AllGood P (.object fields) ↔ ∀ f ∈ fields, AllGood P f.2 := by
  have hname {f : String × Json} (hf : f ∈ fields) : P f.1.toList :=
    hP.of_all (List.all_eq_true.1 hnames f.1 (List.mem_map_of_mem hf))
  rw [allGood_object]
  exact ⟨fun h f hf => (h f hf).2, fun h f hf => ⟨hname hf, h f hf⟩⟩

theorem allGood_callSite {s : CallSite} : AllGood P (Record.callSite s) ↔
    P s.filename.toList ∧ (∀ n ∈ s.line, Json.isShort n = true) ∧
      ∀ n ∈ s.column, Json.isShort n = true := by
  refine (allGood_record hP (by simp [Table.keys])).trans ?_
  simp [allGood_orNull]

theorem allGood_hop {h : Hop} : AllGood P (Record.hop h) ↔
    P h.name.toList ∧ ∀ s ∈ h.site, AllGood P (Record.callSite s) := by
  refine (allGood_record hP (by simp [Table.keys])).trans ?_
  simp [allGood_orNull]

theorem allGood_module {m : CapabilityModule} : AllGood P (Record.module m) ↔
    P m.path.toList ∧ P m.version.toList := by
  refine (allGood_record hP (by simp [Table.keys])).trans ?_
  simp

theorem allGood_capability {c : Capability} : AllGood P (Record.capability c) ↔
    P c.packageName.toList ∧ P c.packageDir.toList ∧ ∀ h ∈ c.path, AllGood P (Record.hop h) := by
  have hkind : P c.kind.code.toList := hP.of_all c.kind.ascii_code
  have htype : P c.type.code.toList := hP.of_all c.type.ascii_code
  refine (allGood_record hP (by simp [Table.keys])).trans ?_
  simp [hkind, htype]

theorem yields_site : Yields P siteOfJson fun s => AllGood P (Record.callSite s) := by
  intro v hv s hs
  simp only [siteOfJson, Option.bind_eq_bind, Option.bind_eq_some_iff, Option.pure_def] at hs
  obtain ⟨fields, hfields, filename, hfilename, line, hline, column, hcolumn, heq⟩ := hs
  obtain rfl := asFields_some hfields
  obtain rfl := Option.some.inj heq
  have hfile := yields_optional yields_text hv hP.empty filename hfilename
  have hlines := yields_optional (yields_orAbsent yields_int) hv (by simp) line hline
  have hcolumns := yields_optional (yields_orAbsent yields_int) hv (by simp) column hcolumn
  exact (allGood_callSite hP).2 ⟨hfile, hlines, hcolumns⟩

theorem yields_hop : Yields P hopOfJson fun h => AllGood P (Record.hop h) := by
  intro v hv h hh
  simp only [hopOfJson, Option.bind_eq_bind, Option.bind_eq_some_iff, Option.pure_def] at hh
  obtain ⟨fields, hfields, name, hname, site, hsite, heq⟩ := hh
  obtain rfl := asFields_some hfields
  obtain rfl := Option.some.inj heq
  have hnames := yields_required yields_text hv name hname
  have hsites := yields_optional (yields_orAbsent (yields_site hP)) hv (by simp) site hsite
  exact (allGood_hop hP).2 ⟨hnames, hsites⟩

/-- A hop keeps what goes by components when it is located. -/
theorem allGood_locateHop {moduleCache : String} {h : Hop} (hh : AllGood P (Record.hop h)) :
    AllGood P (Record.hop (locateHop moduleCache h)) := by
  obtain ⟨hname, hsite⟩ := (allGood_hop hP).1 hh
  rw [locateHop_eq, allGood_hop hP]
  refine ⟨hname, fun located hlocated => ?_⟩
  obtain ⟨site, hs, hlocate⟩ := Option.bind_eq_some_iff.1 hlocated
  obtain ⟨hfile, hline, hcolumn⟩ := (allGood_callSite hP).1 (hsite site hs)
  unfold locateSite at hlocate
  split at hlocate
  · cases hlocate
  · obtain rfl := Option.some.inj hlocate
    exact (allGood_callSite hP).2 ⟨hP.relativeToRoot hfile moduleCache, hline, hcolumn⟩

/-- An entry whose texts have a property. -/
def GoodEntry (P : List Char → Prop) (e : Entry) : Prop :=
  P e.packageName.toList ∧ P e.packageDir.toList ∧ ∀ h ∈ e.path, AllGood P (Record.hop h)

theorem yields_entry : Yields P entryOfJson (GoodEntry P) := by
  intro v hv e he
  simp only [entryOfJson, Option.bind_eq_bind, Option.bind_eq_some_iff, Option.pure_def] at he
  obtain ⟨fields, hfields, name, hname, kind, -, path, hpath, dir, hdir, type, -, heq⟩ := he
  obtain rfl := asFields_some hfields
  obtain rfl := Option.some.inj heq
  exact ⟨yields_optional yields_text hv hP.empty name hname,
    yields_optional yields_text hv hP.empty dir hdir,
    yields_optional (yields_list (yields_hop hP)) hv (by simp) path hpath⟩

theorem yields_module : Yields P moduleOfJson fun m => AllGood P (Record.module m) := by
  intro v hv m hm
  simp only [moduleOfJson, Option.bind_eq_bind, Option.bind_eq_some_iff, Option.pure_def] at hm
  obtain ⟨fields, hfields, path, hpath, version, hversion, heq⟩ := hm
  obtain rfl := asFields_some hfields
  obtain rfl := Option.some.inj heq
  have hpaths := yields_required yields_text hv path hpath
  have hversions := yields_optional yields_text hv hP.empty version hversion
  exact (allGood_module hP).2 ⟨hpaths, hversions⟩

theorem yields_report : Yields P reportOfJson fun found =>
    (∀ e ∈ found.1, GoodEntry P e) ∧ ∀ m ∈ found.2, AllGood P (Record.module m) := by
  intro v hv found hfound
  simp only [reportOfJson, Option.bind_eq_bind, Option.bind_eq_some_iff, Option.pure_def] at hfound
  obtain ⟨fields, hfields, entries, hentries, modules, hmodules, heq⟩ := hfound
  obtain rfl := asFields_some hfields
  obtain rfl := Option.some.inj heq
  exact ⟨yields_optional (yields_list (yields_entry hP)) hv (by simp) entries hentries,
    yields_optional (yields_list (yields_module hP)) hv (by simp) modules hmodules⟩

theorem GoodEntry.capability {moduleCache : String} {e : Entry} {c : Capability}
    (he : GoodEntry P e) (h : e.capability moduleCache = .ok c) :
    AllGood P (Record.capability c) := by
  unfold Entry.capability at h
  dsimp only at h
  split at h
  · cases h
  · obtain rfl := Except.ok.inj h
    obtain ⟨hname, hdir, hpath⟩ := he
    refine (allGood_capability hP).2 ⟨hname, hdir, fun hop hhop => ?_⟩
    obtain ⟨hop', hhop', rfl⟩ := List.mem_map.1 hhop
    exact allGood_locateHop hP (hpath hop' hhop')

/-- **A report has no texts but those of its document.** -/
theorem allGood_printed {room : Nat} {d : Document} {v : Json} (hv : d.value? room = some v)
    (hgood : AllGood P v) {moduleCache : String} {r : CapabilityReport}
    (h : decode d moduleCache room = .ok r) :
    AllGood P (printed r) := by
  obtain ⟨w, entries, caps, hw, hrecord, hcaps, hsorted⟩ := decode_eq_ok.1 h
  obtain rfl := Option.some.inj (hv.symm.trans hw)
  obtain ⟨hentries, hmodules⟩ := yields_report hP v hgood _ hrecord
  have hcapabilities : ∀ c ∈ r.capabilities, AllGood P (Record.capability c) := by
    intro c hc
    rw [hsorted] at hc
    obtain ⟨e, he, hcapability⟩ :=
      exists_of_mem_mapM hcaps c ((Capability.stableSort caps).perm.subset hc)
    exact (hentries e he).capability hP hcapability
  refine (allGood_record hP (by simp [Table.keys])).2 ?_
  simpa using ⟨hcapabilities, hmodules⟩

end good

/-! ## 6. Decoding again -/

theorem shaped_printed (r : CapabilityReport) : Json.Shaped 6 (printed r) := by
  refine .object (by simp [Table.keys]) ?_
  simp [Record.shaped_list Record.shaped_capability, Record.shaped_list Record.shaped_module]

/-- What is written is ASCII, so the texts that are read there have no pairs of surrogates. -/
theorem unpaired_of_decode {layout : Json.Layout} (hlayout : layout.Lawful) {v : Json}
    {depth room : Nat} (hshape : Json.Shaped depth v) {moduleCache : String} {r : CapabilityReport}
    (h : decode (.text (String.ofList (Json.write layout 0 v))) moduleCache room = .ok r)
    {s : String} (hs : .text s ∈ (printed r).leaves) : Text.Unpaired (Text.points s) := by
  obtain ⟨w, -, -, hw, -⟩ := decode_eq_ok.1 h
  obtain ⟨t, ht, hread⟩ := Document.value?_eq_some hw
  obtain rfl := Except.ok.inj ht
  have hascii : Json.Ascii (String.ofList (Json.write layout 0 v)).toList := by
    rw [String.toList_ofList]
    exact Json.ascii_write hlayout hshape 0
  have hgood : AllGood (fun cs => Text.Unpaired (Text.readPoints cs)) w := by
    intro a ha
    cases a with
    | text u => exact Json.unpaired_of_read hread hascii ha
    | int n => exact Json.isShort_of_read hread ha
    | _ => trivial
  exact allGood_printed Text.componentwise_unpaired hw hgood h _ hs

/-- A document whose capabilities are in order already. -/
theorem decode_of_ascending {room : Nat} {d : Document} {moduleCache : String}
    (entries : List Entry) {modules : List CapabilityModule} {caps : List Capability}
    (h : (d.value? room >>= reportOfJson) = some (entries, modules))
    (hcaps : (entries.mapM (Entry.capability moduleCache)).toOption = some caps)
    (hsorted : caps.Pairwise fun a b => (Capability.order a b).isLE = true) :
    decode d moduleCache room = .ok ⟨caps, modules⟩ := by
  obtain ⟨v, hv, hrecord⟩ := Option.bind_eq_some_iff.1 h
  exact decode_eq_ok.2 ⟨v, entries, caps, hv, hrecord, eq_ok_iff.2 hcaps,
    (List.mergeSort_of_pairwise hsorted).symm⟩

/-- **A report that was printed is decoded as itself exactly when none of its texts has a surrogate
with the other half of a pair right after it**, given room for the six collections of its
document. -/
theorem decode_printed {layout : Json.Layout} (hlayout : layout.Lawful) {d : Document}
    (hd : d.Spelled) {moduleCache : String} {r : CapabilityReport} {room room' : Nat}
    (h : decode d moduleCache room = .ok r) (hroom : 6 ≤ room') :
    (printed r).isWritable = true ∧
      (decode (.text (String.ofList (Json.write layout 0 (printed r)))) moduleCache room' = .ok r ↔
        ∀ s, .text s ∈ (printed r).leaves → Text.Unpaired (Text.points s)) := by
  obtain ⟨v, entries, caps, hv, -, hcaps, hsorted⟩ := decode_eq_ok.1 h
  have hgood := allGood_printed Text.componentwise_marked hv (Document.allGood_value hd hv) h
  have hwritable : (printed r).isWritable = true := Json.isWritable_iff.2 fun n hn => hgood _ hn
  refine ⟨hwritable, fun hagain s hs => unpaired_of_decode hlayout (shaped_printed r) hagain hs,
    fun hunpaired => ?_⟩
  have hread : Json.read (String.ofList (Json.write layout 0 (printed r))) room'
      = .ok (printed r) :=
    Json.read_write hlayout ((shaped_printed r).mono hroom)
      (fun s hs => ⟨Text.spelled_iff.2 (hgood _ hs), hunpaired s hs⟩) hwritable
  have hlocated : ∀ c ∈ r.capabilities, Located moduleCache c := by
    intro c hc
    rw [hsorted] at hc
    obtain ⟨e, -, he⟩ := exists_of_mem_mapM hcaps c ((Capability.stableSort caps).perm.subset hc)
    exact located_capability he
  refine decode_eq_ok.2 ⟨printed r, _, r.capabilities, ?_, reportOfJson_printed r,
    mapM_ofCapability hlocated, ?_⟩
  · rw [Document.value?_text, hread]
    rfl
  · rw [hsorted, Capability.sort_sort]

/-- What is written is ASCII, so it is spelled. -/
theorem spelled_written {layout : Json.Layout} (hlayout : layout.Lawful) {v : Json} {room : Nat}
    (hshape : Json.Shaped room v) :
    (Document.text (String.ofList (Json.write layout 0 v))).Spelled := by
  refine Text.spelled_iff.2 (Text.marked_of_ascii ?_)
  rw [String.toList_ofList]
  exact Json.ascii_write hlayout hshape 0

/-- The report of the document with one call site below `/go`. -/
def siteReport : CapabilityReport :=
  ⟨[⟨"", "", .files, .unspecified, [⟨"os.Open", some ⟨"m@v1/a.go", some 3, none⟩⟩], by simp⟩], []⟩

theorem decode_printed_oneSite : (Document.text (oneSite "/go").indented).Spelled ∧
    decode (.text (oneSite "/go").indented) "/go" = .ok siteReport ∧
    decode (.text (printed siteReport).indented) "/go" = .ok siteReport := by
  have hspelled : (Document.text (oneSite "/go").indented).Spelled :=
    spelled_written Json.Layout.lawful_indented shaped_oneSite
  have hdecode : decode (.text (oneSite "/go").indented) "/go" = .ok siteReport := by
    refine decode_of_ascending [⟨"", "", .files, .unspecified,
      [⟨"os.Open", some ⟨"/go/m@v1/a.go", some 3, none⟩⟩]⟩] ?_ (by decide +kernel)
      (List.pairwise_singleton _ _)
    rw [value?_oneSite (by decide +kernel) (by decide)]
    decide +kernel
  have htexts : ∀ s, .text s ∈ (printed siteReport).leaves → Text.WellFormed s := by
    decide +kernel
  exact ⟨hspelled, hdecode, (decode_printed Json.Layout.lawful_indented hspelled hdecode
    (show 6 ≤ Json.usualRoom by decide)).2.2 fun s hs => (htexts s hs).whole.unpaired⟩

/-- A document with a module whose path is a high surrogate, written as an escape, and a low one,
written as it is. -/
def splitPair : String :=
  "\x7b\"module_info\": [\x7b\"path\": \"\\ud800" ++ Text.ofPoints [0xdc00] ++ "\"\x7d]\x7d"

/-- The report of that document. -/
def splitReport : CapabilityReport := ⟨[], [⟨Text.ofPoints [0xd800, 0xdc00], ""⟩]⟩

theorem decode_splitPair : decode (.text splitPair) "" = .ok splitReport ∧
    decode (.text (printed splitReport).indented) "" ≠ .ok splitReport := by
  constructor
  · exact decode_of_ascending [] (by decide +kernel) rfl .nil
  · intro hagain
    have hmem : Json.text (Text.ofPoints [0xd800, 0xdc00]) ∈ (printed splitReport).leaves := by
      simp [printed, splitReport, Record.module]
    have hunpaired := unpaired_of_decode Json.Layout.lawful_indented (shaped_printed splitReport)
      hagain hmem
    rw [Text.points_ofPoints (by decide)] at hunpaired
    exact absurd hunpaired.rel (by decide)

end CallPaths
end UpgradeAudit.Output
