/-
# Where the module cache lies

Two documents of capslock can tell the same story about two machines: everything in them is the
same but the files of the call sites, and those below the module cache of one machine stand at the
same place below the module cache of the other (`ReportMoved`).  The reports of two such documents
are the same, and where one of them has no report the other has none (`decode_moved`).

The readers are followed through the document from the outside in.  What a reader makes of two
values that are the same but for one field depends on that field alone (`rel_optional`), and at the
end of the way stands the file of a site, whose name the cache does not enter.
-/
import Mathlib.Data.List.Forall2
import UpgradeAudit.Output.CallPaths
import UpgradeAudit.Proofs.Output.Documents
import UpgradeAudit.Proofs.Path.Below

namespace UpgradeAudit.Output

variable {α β : Type}

/-! ## 1. Values that are the same but for one part -/

/-- Values that are the same, or objects that are the same but for the value of one field. -/
inductive SameBut (name : Json.Name) (related : Json → Json → Prop) : Json → Json → Prop where
  | object {f g : Json.Fields}
      (others : ∀ key ∉ spellings name, Table.get? key f = Table.get? key g)
      (field : Option.Rel related (f.find? (spellings name)) (g.find? (spellings name))) :
      SameBut name related (.object f) (.object g)
  | other {v : Json} (h : Json.asFields v = none) : SameBut name related v v

/-- Values that are the same, or arrays whose items are related one by one. -/
inductive EachItem (related : Json → Json → Prop) : Json → Json → Prop where
  | array {items items' : List Json} (h : List.Forall₂ related items items') :
      EachItem related (.array items) (.array items')
  | other {v : Json} (h : ∀ items, v ≠ .array items) : EachItem related v v

/-- Objects that differ in the value of one entry are the same but for that field. -/
theorem SameBut.entry {name : Json.Name} {related : Json → Json → Prop} (key : String)
    (hkey : name.snake = key) (before : Json.Fields) (hnew : key ∉ Table.keys before)
    (after : Json.Fields) {v w : Json} (h : related v w) :
    SameBut name related (.object (before ++ (key, v) :: after))
      (.object (before ++ (key, w) :: after)) := by
  refine .object (fun k hk => ?_) ?_
  · have hne : key ≠ k := fun he => hk (by simp [spellings, hkey, he])
    simp only [Table.get?_append, Table.get?, if_neg hne]
  · have hfound (u : Json) :
        Json.Fields.find? (spellings name) (before ++ (key, u) :: after) = some u :=
      find?_of_get? (by simp [hkey, Table.get?_append, Table.get?_eq_none_iff.2 hnew, Table.get?])
    rw [hfound, hfound]
    exact .some h

/-! ## 2. Readers on such values -/

theorem rel_bind {A : α → α → Prop} {B : β → β → Prop} {x y : Option α} {f g : α → Option β}
    (h : Option.Rel A x y) (hnext : ∀ a b, A a b → Option.Rel B (f a) (g b)) :
    Option.Rel B (x >>= f) (y >>= g) := by
  cases h with
  | none => exact .none
  | some hab => exact hnext _ _ hab

theorem bind_eq_bind {A : α → α → Prop} {x y : Option α} {f g : α → Option β}
    (h : Option.Rel A x y) (hnext : ∀ a b, A a b → f a = g b) : (x >>= f) = y >>= g := by
  cases h with
  | none => rfl
  | some hab => exact hnext _ _ hab

/-- What was read alike before does not tell the values apart. -/
theorem rel_bind_same {B : β → β → Prop} {x y : Option α} {f g : α → Option β} (h : x = y)
    (hnext : ∀ a, Option.Rel B (f a) (g a)) : Option.Rel B (x >>= f) (y >>= g) := by
  subst h
  cases x with
  | none => exact .none
  | some a => exact hnext a

section fields

variable {name other : Json.Name} {f g : Json.Fields}

/-- Fields with other names are looked up alike. -/
theorem find?_same (others : ∀ key ∉ spellings name, Table.get? key f = Table.get? key g)
    (h : ∀ key ∈ spellings other, key ∉ spellings name) :
    f.find? (spellings other) = g.find? (spellings other) := by
  have hspelled (keys : List String) (hkeys : ∀ key ∈ keys, key ∉ spellings name) :
      keys.findSome? (fun key => Table.get? key f)
        = keys.findSome? fun key => Table.get? key g := by
    induction keys with
    | nil => rfl
    | cons key keys ih =>
      rw [List.findSome?_cons, List.findSome?_cons, others key (hkeys key List.mem_cons_self),
        ih fun k hk => hkeys k (List.mem_cons_of_mem _ hk)]
  exact hspelled _ h

theorem optional_same (others : ∀ key ∉ spellings name, Table.get? key f = Table.get? key g)
    (h : ∀ key ∈ spellings other, key ∉ spellings name) (value : Json.Reader α) (absent : α) :
    optional f other value absent = optional g other value absent := by
  rw [optional, optional, Json.Fields.optional, Json.Fields.optional, find?_same others h]

theorem required_same (others : ∀ key ∉ spellings name, Table.get? key f = Table.get? key g)
    (h : ∀ key ∈ spellings other, key ∉ spellings name) (value : Json.Reader α) :
    required f other value = required g other value := by
  rw [required, required, Json.Fields.required, Json.Fields.required, find?_same others h]

/-- **A field whose values are related is read as related records.** -/
theorem rel_optional {related : Json → Json → Prop} {A : α → α → Prop} {value : Json.Reader α}
    {absent : α} (field : Option.Rel related (f.find? (spellings name)) (g.find? (spellings name)))
    (hvalue : ∀ v w, related v w → Option.Rel A (value v) (value w)) (habsent : A absent absent) :
    Option.Rel A (optional f name value absent) (optional g name value absent) := by
  unfold optional Json.Fields.optional
  generalize f.find? (spellings name) = x at field
  generalize g.find? (spellings name) = y at field
  cases field with
  | none => exact .some habsent
  | some h => exact hvalue _ _ h

end fields

/-- A value that is no record is none in both documents. -/
theorem rel_asFields {name : Json.Name} {related : Json → Json → Prop} {A : α → α → Prop}
    {record : Json.Fields → Option α} {v w : Json} (h : SameBut name related v w)
    (hrecord : ∀ f g : Json.Fields, (∀ key ∉ spellings name, Table.get? key f = Table.get? key g) →
      Option.Rel related (f.find? (spellings name)) (g.find? (spellings name)) →
      Option.Rel A (record f) (record g)) :
    Option.Rel A (Json.asFields v >>= record) (Json.asFields w >>= record) := by
  cases h with
  | object others field => exact hrecord _ _ others field
  | other h =>
    rw [h]
    exact .none

theorem rel_asList {related : Json → Json → Prop} {A : α → α → Prop} {item : Json.Reader α}
    {v w : Json} (h : EachItem related v w)
    (hitem : ∀ v w, related v w → Option.Rel A (item v) (item w)) :
    Option.Rel (List.Forall₂ A) (Json.asList item v) (Json.asList item w) := by
  cases h with
  | array h =>
    show Option.Rel _ (List.mapM item _) (List.mapM item _)
    induction h with
    | nil => exact .some .nil
    | cons hhead _ ih =>
      rw [List.mapM_cons, List.mapM_cons]
      refine rel_bind (hitem _ _ hhead) fun a b hab => rel_bind ih fun as bs habs => ?_
      exact .some (.cons hab habs)
  | other h =>
    have hnone : Json.asList item v = none := by
      unfold Json.asList
      split
      · exact absurd rfl (h _)
      · rfl
    rw [hnone]
    exact .none

/-- A value that may be null is null in both documents or in none. -/
theorem rel_orAbsent {name : Json.Name} {related : Json → Json → Prop} {A : α → α → Prop}
    {value : Json.Reader α} {v w : Json} (h : SameBut name related v w)
    (hvalue : Option.Rel A (value v) (value w)) :
    Option.Rel (Option.Rel A) (Json.orAbsent value v) (Json.orAbsent value w) := by
  have hmap : Option.Rel (Option.Rel A) ((value v).map some) ((value w).map some) := by
    generalize value v = x at hvalue
    generalize value w = y at hvalue
    cases hvalue with
    | none => exact .none
    | some hab => exact .some (.some hab)
  cases h with
  | object others field => exact hmap
  | other h =>
    cases v with
    | null => exact .some .none
    | _ => exact hmap

namespace CallPaths

/-! ## 3. The files of the call sites -/

variable {root root' : String}

/-- The file of a call site: below one root and at the same place below the other, or outside
both. -/
inductive FileMoved (root root' : String) : Json → Json → Prop where
  | below {s : String} (h : Path.Tidy s) :
      FileMoved root root' (.text (root ++ "/" ++ s)) (.text (root' ++ "/" ++ s))
  | outside {file : String} (h : Path.Outside root file) (h' : Path.Outside root' file) :
      FileMoved root root' (.text file) (.text file)
  | other {v : Json} (h : Json.asText v = none) : FileMoved root root' v v

/-- Call sites that are the same but for where their files stand. -/
abbrev SiteMoved (root root' : String) : Json → Json → Prop :=
  SameBut ["filename"] (FileMoved root root')

/-- Hops of call paths that are the same but for where their files stand. -/
abbrev HopMoved (root root' : String) : Json → Json → Prop :=
  SameBut ["site"] (SiteMoved root root')

/-- Capabilities that are the same but for where the files of their call paths stand. -/
abbrev EntryMoved (root root' : String) : Json → Json → Prop :=
  SameBut ["path"] (EachItem (HopMoved root root'))

/-- Documents that are the same but for where the files of the call paths stand. -/
abbrev ReportMoved (root root' : String) : Json → Json → Prop :=
  SameBut ["capability", "info"] (EachItem (EntryMoved root root'))

/-! ## 4. Reports of moved documents -/

/-- A call site with its file named below the module cache. -/
def locateSite (moduleCache : String) (site : CallSite) : Option CallSite :=
  if site.filename = "" then none
  else some { site with filename := Path.relativeToRoot site.filename moduleCache none }

theorem locateHop_eq (moduleCache : String) (hop : Hop) :
    locateHop moduleCache hop = ⟨hop.name, hop.site.bind (locateSite moduleCache)⟩ := rfl

/-- The report of a document in terms of the value that it holds. -/
theorem toOption_decode (d : Document) (moduleCache : String) (room : Nat) :
    (decode d moduleCache room).toOption = d.value? room >>= reportOfJson >>= fun found =>
      (found.1.mapM (Entry.capability moduleCache)).toOption.map fun capabilities =>
        ⟨Capability.sort capabilities, found.2⟩ := by
  rw [← d.toOption_decode .capslock]
  unfold decode
  cases d.decode .capslock reportOfJson room with
  | error cause => rfl
  | ok found =>
    show (found.1.mapM (Entry.capability moduleCache) >>= fun capabilities =>
      Except.ok (CapabilityReport.mk (Capability.sort capabilities) found.2)).toOption = _
    cases h : found.1.mapM (Entry.capability moduleCache) with
    | error cause => simp [Except.toOption, h]; rfl
    | ok capabilities => simp [Except.toOption, h]; rfl

section roots

variable (hroot : Path.Settled root) (hroot' : Path.Settled root')

include hroot hroot'

/-- Files whose place is the same below both roots. -/
theorem rel_file {v w : Json} (h : FileMoved root root' v w) :
    Option.Rel (fun a b => ∀ line column, locateSite root ⟨a, line, column⟩
      = locateSite root' ⟨b, line, column⟩) (Json.asText v) (Json.asText w) := by
  cases h with
  | @below s h =>
    refine .some fun line column => ?_
    have hne (r : String) : r ++ "/" ++ s ≠ "" := by
      intro he
      have := congrArg String.toList he
      simp [String.toList_append] at this
    simp only [locateSite, if_neg (hne root), if_neg (hne root'),
      Path.relativeToRoot_below hroot h, Path.relativeToRoot_below hroot' h]
  | outside h h' =>
    refine .some fun line column => ?_
    simp only [locateSite, Path.relativeToRoot_of_outside hroot hroot' h h']
  | other h =>
    rw [h]
    exact .none

theorem rel_site {v w : Json} (h : SiteMoved root root' v w) :
    Option.Rel (fun a b => locateSite root a = locateSite root' b) (siteOfJson v)
      (siteOfJson w) := by
  refine rel_asFields h fun f g others field => ?_
  refine rel_bind (rel_optional field (fun _ _ => rel_file hroot hroot') fun _ _ => rfl)
    fun a b hab => ?_
  refine rel_bind_same (optional_same others (by decide) _ _) fun line => ?_
  refine rel_bind_same (optional_same others (by decide) _ _) fun column => ?_
  exact .some (hab line column)

theorem rel_hop {v w : Json} (h : HopMoved root root' v w) :
    Option.Rel (fun a b => locateHop root a = locateHop root' b) (hopOfJson v) (hopOfJson w) := by
  refine rel_asFields h fun f g others field => ?_
  refine rel_bind_same (required_same others (by decide) _) fun name => ?_
  refine rel_bind (rel_optional field
    (fun _ _ hsite => rel_orAbsent hsite (rel_site hroot hroot' hsite)) .none) fun a b hab => ?_
  refine .some ?_
  cases hab with
  | none => rfl
  | some hab => simp only [locateHop_eq, Option.bind_some, hab]

theorem rel_entry {v w : Json} (h : EntryMoved root root' v w) :
    Option.Rel (fun a b => Entry.capability root a = Entry.capability root' b) (entryOfJson v)
      (entryOfJson w) := by
  refine rel_asFields h fun f g others field => ?_
  refine rel_bind_same (optional_same others (by decide) _ _) fun packageName => ?_
  refine rel_bind_same (required_same others (by decide) _) fun kind => ?_
  refine rel_bind (rel_optional field (fun _ _ hpath => rel_asList hpath fun _ _ =>
    rel_hop hroot hroot') .nil) fun path path' hpath => ?_
  refine rel_bind_same (optional_same others (by decide) _ _) fun packageDir => ?_
  refine rel_bind_same (optional_same others (by decide) _ _) fun type => ?_
  have hlocated : path.map (locateHop root) = path'.map (locateHop root') := by
    rw [← List.forall₂_eq_eq_eq, List.forall₂_map_left_iff, List.forall₂_map_right_iff]
    exact hpath
  refine .some ?_
  simp only [Entry.capability, hlocated]

theorem rel_report {v w : Json} (h : ReportMoved root root' v w) :
    Option.Rel (fun a b => a.1.mapM (Entry.capability root) = b.1.mapM (Entry.capability root')
      ∧ a.2 = b.2) (reportOfJson v) (reportOfJson w) := by
  refine rel_asFields h fun f g others field => ?_
  refine rel_bind (rel_optional field (fun _ _ hentries => rel_asList hentries fun _ _ =>
    rel_entry hroot hroot') .nil) fun entries entries' hentries => ?_
  refine rel_bind_same (optional_same others (by decide) _ _) fun modules => ?_
  refine .some ⟨?_, rfl⟩
  dsimp only
  induction hentries with
  | nil => rw [List.mapM_nil, List.mapM_nil]
  | cons hentry _ ih => rw [List.mapM_cons, List.mapM_cons, hentry, ih]

/-- **The report does not know where the module cache lies.**  Documents that are the same but for
the files below the cache have the same report, or none of them has one. -/
theorem decode_moved {d d' : Document} {room room' : Nat}
    (h : Option.Rel (ReportMoved root root') (d.value? room) (d'.value? room')) :
    (decode d root room).toOption = (decode d' root' room').toOption := by
  rw [toOption_decode, toOption_decode]
  refine bind_eq_bind (rel_bind h fun _ _ => rel_report hroot hroot') fun found found' hfound => ?_
  rw [hfound.1, hfound.2]

end roots

/-- A document with one call site, in a file below a root. -/
def oneSite (root : String) : Json :=
  .object [("capability_info", .array [.object [("capability", .text "CAPABILITY_FILES"),
    ("path", .array [.object [("name", .text "os.Open"),
      ("site", .object [("filename", .text (root ++ "/" ++ "m@v1/a.go")), ("line", .int 3)])]])]])]

theorem reportMoved_oneSite : ReportMoved root root' (oneSite root) (oneSite root') := by
  refine .entry "capability_info" (by decide) [] (by decide) [] (.array (.cons ?_ .nil))
  refine .entry "path" (by decide) [("capability", .text "CAPABILITY_FILES")] (by decide) []
    (.array (.cons ?_ .nil))
  refine .entry "site" (by decide) [("name", .text "os.Open")] (by decide) [] ?_
  exact .entry "filename" (by decide) [] (by decide) [("line", .int 3)] (.below (by decide))

theorem shaped_oneSite : Json.Shaped 6 (oneSite root) := by simp [oneSite, Table.keys]

theorem value?_oneSite (h : ∀ s, .text s ∈ (oneSite root).leaves → Text.WellFormed s) {room : Nat}
    (hroom : 6 ≤ room) :
    (Document.text (oneSite root).indented).value? room = some (oneSite root) := by
  refine Document.value?_indented (shaped_oneSite.mono hroom) (fun s hs => (h s hs).whole) ?_
  simp [oneSite, Json.isWritable]
  decide

/-- The two documents of one call site below two roots have one report. -/
theorem decode_oneSite : Path.Settled "/go" ∧ Path.Settled "/home/me/go" ∧
    Option.Rel (ReportMoved "/go" "/home/me/go")
      ((Document.text (oneSite "/go").indented).value? Json.usualRoom)
      ((Document.text (oneSite "/home/me/go").indented).value? Json.usualRoom) ∧
    (decode (.text (oneSite "/go").indented) "/go").toOption
      = (decode (.text (oneSite "/home/me/go").indented) "/home/me/go").toOption ∧
    (decode (.text (oneSite "/go").indented) "/go").toOption.isSome = true := by
  have hroot : Path.Settled "/go" := by decide +kernel
  have hroot' : Path.Settled "/home/me/go" := by decide +kernel
  have hvalue : (Document.text (oneSite "/go").indented).value? Json.usualRoom = _ :=
    value?_oneSite (by decide +kernel) (by decide)
  have hvalue' : (Document.text (oneSite "/home/me/go").indented).value? Json.usualRoom = _ :=
    value?_oneSite (by decide +kernel) (by decide)
  have hmoved : Option.Rel (ReportMoved "/go" "/home/me/go")
      ((Document.text (oneSite "/go").indented).value? Json.usualRoom)
      ((Document.text (oneSite "/home/me/go").indented).value? Json.usualRoom) := by
    rw [hvalue, hvalue']
    exact .some reportMoved_oneSite
  refine ⟨hroot, hroot', hmoved, decode_moved hroot hroot' hmoved, ?_⟩
  rw [toOption_decode, hvalue]
  decide +kernel

end CallPaths
end UpgradeAudit.Output
