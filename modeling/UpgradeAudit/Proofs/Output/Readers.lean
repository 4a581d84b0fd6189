/-
# What readers take from a value

A reader of records takes nothing from outside the value: what it gives has a property when every
leaf of the value has it (`Yields`), defaults apart.  Readers are made of readers, and one lemma for
each way of making them carries the property along.

In the other direction a record that was written is read back field by field
(`optional_of_get?`, `orAbsent_orNull`).
-/
import UpgradeAudit.Proofs.Json.Fields
import UpgradeAudit.Proofs.Json.Reading
import UpgradeAudit.Proofs.Output.Documents

namespace UpgradeAudit.Output

variable {α β : Type}

/-! ## 1. Values with good leaves -/

/-- A leaf whose text has a property, or whose integer is short. -/
def Good (P : List Char → Prop) : Json → Prop
  | .text s => P s.toList
  | .int n => Json.isShort n = true
  | _ => True

/-- A value whose leaves are good. -/
def AllGood (P : List Char → Prop) (v : Json) : Prop := ∀ a ∈ v.leaves, Good P a

section good

variable {P : List Char → Prop}

@[simp] theorem allGood_null : AllGood P .null := by simp [AllGood, Good]

@[simp] theorem allGood_text {s : String} : AllGood P (.text s) ↔ P s.toList := by
  simp [AllGood, Good]

@[simp] theorem allGood_int {n : Int} : AllGood P (.int n) ↔ Json.isShort n = true := by
  simp [AllGood, Good]

@[simp] theorem allGood_array {items : List Json} :
    AllGood P (.array items) ↔ ∀ v ∈ items, AllGood P v := by
  simp only [AllGood, Json.leaves_array, List.mem_flatMap]
  exact ⟨fun h v hv a ha => h a ⟨v, hv, ha⟩, fun h a ⟨v, hv, ha⟩ => h v hv a ha⟩

@[simp] theorem allGood_object {fields : List (String × Json)} :
    AllGood P (.object fields) ↔ ∀ f ∈ fields, P f.1.toList ∧ AllGood P f.2 := by
  simp only [AllGood, Json.leaves_object, List.mem_flatMap]
  constructor
  · exact fun h f hf => ⟨h _ ⟨f, hf, List.mem_cons_self⟩,
      fun a ha => h a ⟨f, hf, List.mem_cons_of_mem _ ha⟩⟩
  · rintro h a ⟨f, hf, ha⟩
    rcases List.mem_cons.1 ha with rfl | ha
    · exact (h f hf).1
    · exact (h f hf).2 a ha

theorem allGood_orNull {encode : α → Json} {a : Option α} :
    AllGood P (.orNull encode a) ↔ ∀ x ∈ a, AllGood P (encode x) := by
  cases a with
  | none => simp [Json.orNull]
  | some a => simp [Json.orNull]

/-! ## 2. Readers -/

/-- What a reader gives for values with good leaves. -/
def Yields (P : List Char → Prop) (reader : Json.Reader α) (ok : α → Prop) : Prop :=
  ∀ v, AllGood P v → ∀ a, reader v = some a → ok a

theorem yields_text : Yields P Json.asText fun s => P s.toList := by
  intro v hv s hs
  cases v with
  | text t => exact Option.some.inj hs ▸ allGood_text.1 hv
  | _ => cases hs

/-- An integer that a text stands for is read as one that a document holds. -/
theorem isShort_integerOfText? {s : String} {n : Int} (h : Json.integerOfText? s = some n) :
    Json.isShort n = true := by
  simp only [Json.integerOfText?, Option.bind_eq_bind, Option.bind_eq_some_iff] at h
  obtain ⟨signed, -, cs, -, hnumber⟩ := h
  split at hnumber
  · rename_i m hm
    obtain rfl := Option.some.inj hnumber
    obtain ⟨text, -, htext⟩ := Json.numberText_of_number hm
    exact htext.found (.int m) (by simp)
  · cases hnumber

theorem yields_int : Yields P Json.asInt fun n => Json.isShort n = true := by
  intro v hv n hn
  cases v with
  | int m => exact Option.some.inj hn ▸ allGood_int.1 hv
  | bool b =>
    obtain rfl := Option.some.inj hn
    cases b <;> decide
  | float x =>
    obtain ⟨m, -, hm⟩ := Option.bind_eq_some_iff.1 hn
    split at hm
    · rename_i hlimit
      obtain rfl := Option.some.inj hm
      have hsmall : m.natAbs < 10 ^ 19 := by
        simp only [Json.integerLimit] at hlimit
        omega
      exact Json.isShort_iff.2
        (Nat.lt_of_lt_of_le hsmall (Nat.pow_le_pow_right (by decide) (by decide)))
    · cases hm
  | text s => exact isShort_integerOfText? hn
  | _ => cases hn

theorem yields_orAbsent {reader : Json.Reader α} {ok : α → Prop} (h : Yields P reader ok) :
    Yields P (Json.orAbsent reader) fun o => ∀ a ∈ o, ok a := by
  intro v hv o ho
  have hmap {x : Option α} (hx : x.map some = some o) (hok : ∀ a, x = some a → ok a) :
      ∀ a ∈ o, ok a := by
    obtain ⟨a, rfl, rfl⟩ := Option.map_eq_some_iff.1 hx
    intro b hb
    exact Option.some.inj hb ▸ hok a rfl
  cases v with
  | null =>
    obtain rfl := Option.some.inj ho
    simp
  | _ => exact hmap ho (h _ hv)

theorem yields_list {reader : Json.Reader α} {ok : α → Prop} (h : Yields P reader ok) :
    Yields P (Json.asList reader) fun as => ∀ a ∈ as, ok a := by
  intro v hv as has
  cases v with
  | array items =>
    rw [allGood_array] at hv
    change items.mapM reader = some as at has
    induction items generalizing as with
    | nil =>
      obtain rfl := Option.some.inj (by simpa using has)
      simp
    | cons item items ih =>
      obtain ⟨hitem, hitems⟩ := List.forall_mem_cons.1 hv
      simp only [List.mapM_cons, Option.bind_eq_bind, Option.bind_eq_some_iff, Option.pure_def]
        at has
      obtain ⟨a, ha, rest, hrest, heq⟩ := has
      obtain rfl := Option.some.inj heq
      exact List.forall_mem_cons.2 ⟨h item hitem a ha, ih rest hitems hrest⟩
  | _ => cases has

/-- A field that is found is one of the fields. -/
theorem allGood_of_find? {fields : Json.Fields} (hfields : AllGood P (.object fields))
    {keys : List String} {v : Json} (h : fields.find? keys = some v) : AllGood P v := by
  obtain ⟨key, -, hkey⟩ := List.exists_of_findSome?_eq_some h
  exact (allGood_object.1 hfields _ (Table.mem_of_get? hkey)).2

/-- A field that may be left out. -/
theorem yields_optional {reader : Json.Reader α} {ok : α → Prop} (h : Yields P reader ok)
    {fields : Json.Fields} (hfields : AllGood P (.object fields)) {name : Json.Name} {absent : α}
    (habsent : ok absent) : ∀ a, optional fields name reader absent = some a → ok a := by
  intro a ha
  unfold optional Json.Fields.optional at ha
  split at ha
  · rename_i v hv
    exact h v (allGood_of_find? hfields hv) a ha
  · exact Option.some.inj ha ▸ habsent

/-- A field that must be present. -/
theorem yields_required {reader : Json.Reader α} {ok : α → Prop} (h : Yields P reader ok)
    {fields : Json.Fields} (hfields : AllGood P (.object fields)) {name : Json.Name} :
    ∀ a, required fields name reader = some a → ok a := by
  intro a ha
  obtain ⟨v, hv, hread⟩ := Option.bind_eq_some_iff.1 ha
  exact h v (allGood_of_find? hfields hv) a hread

theorem asFields_some {v : Json} {fields : Json.Fields} (h : Json.asFields v = some fields) :
    v = .object fields := by
  cases v with
  | object f => rw [Option.some.inj h]
  | _ => cases h

end good

/-! ## 3. Records that were written -/

/-- A field that is present under its first spelling is read there. -/
theorem optional_of_get? {name : Json.Name} (key : String) (hkey : name.snake = key)
    {fields : Json.Fields} {v : Json} (h : Table.get? key fields = some v)
    (reader : Json.Reader α) (absent : α) : optional fields name reader absent = reader v := by
  rw [optional, Json.Fields.optional, find?_of_get? (by rw [hkey, h])]

theorem required_of_get? {name : Json.Name} (key : String) (hkey : name.snake = key)
    {fields : Json.Fields} {v : Json} (h : Table.get? key fields = some v)
    (reader : Json.Reader α) : required fields name reader = reader v := by
  rw [required, Json.Fields.required, find?_of_get? (by rw [hkey, h])]
  rfl

theorem orAbsent_orNull {reader : Json.Reader α} {encode : α → Json}
    (h : ∀ a, reader (encode a) = some a) (hnull : ∀ a, encode a ≠ .null) (a : Option α) :
    Json.orAbsent reader (.orNull encode a) = some a := by
  cases a with
  | none => rfl
  | some a =>
    have hread := h a
    have hne := hnull a
    show Json.orAbsent reader (encode a) = some (some a)
    cases hencoded : encode a with
    | null => exact absurd hencoded hne
    | _ =>
      rw [hencoded] at hread
      simp [Json.orAbsent, hread]

end UpgradeAudit.Output
