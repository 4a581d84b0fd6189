/-
# Values of JSON, written and read

A value can be read back when it has a form that a document keeps (`Shaped`): no numbers of
floating point, no more collections inside one another than may be open, and no name twice in one
object.  When its texts are whole and its integers short besides, **the text of the value is read
as the value** (`read_indented`, `read_compact`), so different values have different texts.

The induction is on the shape: at every depth, what is written is a text of the value
(`spells_write`).
-/
import UpgradeAudit.Json.Schema
import UpgradeAudit.Proofs.Json.Numbers
import UpgradeAudit.Proofs.Json.Strings
import UpgradeAudit.Proofs.Tables

namespace UpgradeAudit.Json

/-! ## 1. Leaves and shapes -/

@[simp] theorem leaves_null : leaves .null = [.null] := rfl

@[simp] theorem leaves_bool (b : Bool) : leaves (.bool b) = [.bool b] := rfl

@[simp] theorem leaves_int (n : Int) : leaves (.int n) = [.int n] := rfl

@[simp] theorem leaves_float (x : Decimal.Binary64) : leaves (.float x) = [.float x] := rfl

@[simp] theorem leaves_text (s : String) : leaves (.text s) = [.text s] := rfl

@[simp] theorem leaves_array (items : List Json) :
    leaves (.array items) = items.flatMap leaves := by
  change itemLeaves items = items.flatMap leaves
  induction items with
  | nil => rfl
  | cons item rest ih => exact congrArg (leaves item ++ ·) ih

@[simp] theorem leaves_object (fields : List (String × Json)) :
    leaves (.object fields) = fields.flatMap fun f => .text f.1 :: f.2.leaves := by
  change fieldLeaves fields = fields.flatMap fun f => .text f.1 :: f.2.leaves
  induction fields with
  | nil => rfl
  | cons f rest ih => exact congrArg (.text f.1 :: f.2.leaves ++ ·) ih

/-- A value whose collections fit into so much room, with no name twice in an object, and without
numbers of floating point. -/
inductive Shaped : (room : Nat) → Json → Prop
  | null {room : Nat} : Shaped room .null
  | bool {room : Nat} (b : Bool) : Shaped room (.bool b)
  | int {room : Nat} (n : Int) : Shaped room (.int n)
  | text {room : Nat} (s : String) : Shaped room (.text s)
  | array {room : Nat} {items : List Json} (h : ∀ v ∈ items, Shaped room v) :
      Shaped (room + 1) (.array items)
  | object {room : Nat} {fields : List (String × Json)} (names : (Table.keys fields).Nodup)
      (h : ∀ f ∈ fields, Shaped room f.2) : Shaped (room + 1) (.object fields)

attribute [simp] Shaped.null Shaped.bool Shaped.int Shaped.text

@[simp] theorem shaped_array {room : Nat} {items : List Json} :
    Shaped (room + 1) (.array items) ↔ ∀ v ∈ items, Shaped room v :=
  ⟨fun h => by cases h; assumption, .array⟩

@[simp] theorem shaped_object {room : Nat} {fields : List (String × Json)} :
    Shaped (room + 1) (.object fields) ↔
      (Table.keys fields).Nodup ∧ ∀ f ∈ fields, Shaped room f.2 :=
  ⟨fun h => by cases h; exact ⟨‹_›, ‹_›⟩, fun h => .object h.1 h.2⟩

theorem Shaped.mono {room room' : Nat} {v : Json} (h : Shaped room v) (hle : room ≤ room') :
    Shaped room' v := by
  induction h generalizing room' with
  | null => exact .null
  | bool b => exact .bool b
  | int n => exact .int n
  | text s => exact .text s
  | array _ ih =>
    obtain ⟨more, rfl⟩ := Nat.exists_eq_add_of_lt hle
    exact .array fun v hv => ih v hv (by omega)
  | object names _ ih =>
    obtain ⟨more, rfl⟩ := Nat.exists_eq_add_of_lt hle
    exact .object names fun f hf => ih f hf (by omega)

/-- Whether the texts of a value have a property can be looked up in its leaves. -/
instance decidableTexts (v : Json) (p : String → Prop) [DecidablePred p] :
    Decidable (∀ s, .text s ∈ v.leaves → p s) :=
  decidable_of_iff (∀ s ∈ v.leaves.filterMap asText, p s) <| by
    have hmem (s : String) : s ∈ v.leaves.filterMap asText ↔ .text s ∈ v.leaves := by
      rw [List.mem_filterMap]
      constructor
      · rintro ⟨a, ha, hs⟩
        cases a with
        | text t => exact Option.some.inj hs ▸ ha
        | _ => cases hs
      · exact fun hs => ⟨_, hs, rfl⟩
    simp only [hmem]

theorem isWritable_iff {v : Json} :
    v.isWritable = true ↔ ∀ n, .int n ∈ v.leaves → isShort n = true := by
  rw [isWritable, List.all_eq_true]
  constructor
  · intro h n hn
    exact h _ hn
  · intro h a ha
    cases a with
    | int n => exact h n ha
    | _ => rfl

/-! ## 2. Blanks -/

/-- A layout that adds nothing but blanks to the commas and colons. -/
structure Layout.Lawful (layout : Layout) : Prop where
  lineStart (depth : Nat) : ∀ c ∈ layout.lineStart depth, isSpace c = true
  separator : ∃ blanks, layout.separator = ',' :: blanks ∧ ∀ c ∈ blanks, isSpace c = true
  colon : ∃ blanks, layout.colon = ':' :: blanks ∧ ∀ c ∈ blanks, isSpace c = true

theorem Layout.lawful_oneLine : Layout.oneLine.Lawful where
  lineStart _ := by simp [Layout.oneLine]
  separator := ⟨[' '], rfl, List.all_eq_true.1 rfl⟩
  colon := ⟨[' '], rfl, List.all_eq_true.1 rfl⟩

theorem Layout.lawful_indented : Layout.indented.Lawful where
  lineStart depth := by
    intro c hc
    rcases List.mem_cons.1 hc with rfl | hc
    · decide
    · rw [List.eq_of_mem_replicate hc]
      decide
  separator := ⟨[], rfl, List.all_eq_true.1 rfl⟩
  colon := ⟨[' '], rfl, List.all_eq_true.1 rfl⟩

/-! ## 3. Values -/

section layout

variable {layout : Layout} {room : Nat}

theorem write_null (depth : Nat) : write layout depth .null = "null".toList := rfl

theorem write_bool (depth : Nat) (b : Bool) :
    write layout depth (.bool b) = (if b then "true" else "false").toList := rfl

theorem write_nil (depth : Nat) : write layout depth (.array []) = ['[', ']'] ∧
    write layout depth (.object []) = ['\x7b', '\x7d'] := ⟨rfl, rfl⟩

theorem write_array (depth : Nat) (v : Json) (items : List Json) :
    write layout depth (.array (v :: items)) = '[' :: writeItems layout (depth + 1) (v :: items)
      ++ layout.lineStart depth ++ [']'] := rfl

theorem write_object (depth : Nat) (f : String × Json) (fields : List (String × Json)) :
    write layout depth (.object (f :: fields)) = '\x7b' :: writeFields layout (depth + 1)
      (f :: fields) ++ layout.lineStart depth ++ ['\x7d'] := rfl

theorem writeItems_singleton (depth : Nat) (v : Json) :
    writeItems layout depth [v] = layout.lineStart depth ++ write layout depth v := rfl

theorem writeItems_cons (depth : Nat) (v w : Json) (items : List Json) :
    writeItems layout depth (v :: w :: items) = layout.lineStart depth ++ write layout depth v
      ++ layout.separator ++ writeItems layout depth (w :: items) := rfl

theorem writeFields_singleton (depth : Nat) (name : String) (v : Json) :
    writeFields layout depth [(name, v)] = layout.lineStart depth ++ writeText name
      ++ layout.colon ++ write layout depth v := rfl

theorem writeFields_cons (depth : Nat) (name : String) (v : Json) (g : String × Json)
    (fields : List (String × Json)) :
    writeFields layout depth ((name, v) :: g :: fields) = layout.lineStart depth ++ writeText name
      ++ layout.colon ++ write layout depth v ++ layout.separator
      ++ writeFields layout depth (g :: fields) := rfl

/-- Items with commas between them, and so much before the first and after the last of them. -/
theorem items_write (hlayout : layout.Lawful) {items : List Json} (hne : items ≠ []) (depth : Nat)
    (h : ∀ v ∈ items, Spells room v (write layout depth v)) {before after : List Char}
    (hbefore : Blanks before) (hafter : Blanks after) :
    ∃ parts : List Item, parts ≠ [] ∧ (∀ i ∈ parts, i.place.Blank) ∧
      (∀ i ∈ parts, Spells room i.value i.place.text) ∧ parts.map Item.value = items ∧
      itemsText parts = before ++ writeItems layout depth items ++ after := by
  induction items generalizing before with
  | nil => exact absurd rfl hne
  | cons v items ih =>
    obtain ⟨hv, hitems⟩ := List.forall_mem_cons.1 h
    have hstart : Blanks (before ++ layout.lineStart depth) :=
      List.forall_mem_append.2 ⟨hbefore, hlayout.lineStart depth⟩
    cases items with
    | nil =>
      refine ⟨[⟨⟨_, write layout depth v, after⟩, v⟩], by simp, by simpa using ⟨hstart, hafter⟩,
        by simpa using hv, rfl, ?_⟩
      simp [itemsText, Spaced.chars, writeItems_singleton]
    | cons w items =>
      obtain ⟨gap, hseparator, hgap⟩ := hlayout.separator
      obtain ⟨parts, hparts, hblank, hspells, hvalues, htext⟩ := ih (by simp) hitems hgap
      obtain ⟨j, parts, rfl⟩ := List.exists_cons_of_ne_nil hparts
      refine ⟨⟨⟨_, write layout depth v, []⟩, v⟩ :: j :: parts, by simp,
        List.forall_mem_cons.2 ⟨⟨hstart, blanks_nil⟩, hblank⟩,
        List.forall_mem_cons.2 ⟨hv, hspells⟩, by rw [List.map_cons, hvalues], ?_⟩
      rw [itemsText_cons, htext, writeItems_cons, hseparator]
      simp [Spaced.chars]

/-- Fields with commas between them, and so much before the first and after the last of them. -/
theorem fields_write (hlayout : layout.Lawful) {fields : List (String × Json)} (hne : fields ≠ [])
    (depth : Nat)
    (h : ∀ f ∈ fields, Text.Whole f.1 ∧ Spells room f.2 (write layout depth f.2))
    {before after : List Char} (hbefore : Blanks before) (hafter : Blanks after) :
    ∃ parts : List Field, parts ≠ [] ∧
      (∀ f ∈ parts, f.namePlace.Blank ∧ StringText f.name f.namePlace.text) ∧
      (∀ f ∈ parts, f.item.place.Blank) ∧
      (∀ f ∈ parts, Spells room f.item.value f.item.place.text) ∧
      parts.map Field.entry = fields ∧
      fieldsText parts = before ++ writeFields layout depth fields ++ after := by
  induction fields generalizing before with
  | nil => exact absurd rfl hne
  | cons f fields ih =>
    obtain ⟨name, v⟩ := f
    obtain ⟨⟨hname, hv⟩, hfields⟩ := List.forall_mem_cons.1 h
    obtain ⟨colonGap, hcolon, hcolonGap⟩ := hlayout.colon
    have hstart : Blanks (before ++ layout.lineStart depth) :=
      List.forall_mem_append.2 ⟨hbefore, hlayout.lineStart depth⟩
    have hstring := stringText_writeText hname
    cases fields with
    | nil =>
      refine ⟨[⟨⟨_, writeText name, []⟩, name, ⟨⟨colonGap, write layout depth v, after⟩, v⟩⟩],
        by simp, by simpa using ⟨⟨hstart, blanks_nil⟩, hstring⟩,
        by simpa using ⟨hcolonGap, hafter⟩, by simpa using hv, rfl, ?_⟩
      simp [fieldsText, Field.chars, Spaced.chars, writeFields_singleton, hcolon]
    | cons g fields =>
      obtain ⟨gap, hseparator, hgap⟩ := hlayout.separator
      obtain ⟨parts, hparts, hnames, hblank, hspells, hentries, htext⟩ := ih (by simp) hfields hgap
      obtain ⟨j, parts, rfl⟩ := List.exists_cons_of_ne_nil hparts
      refine ⟨⟨⟨_, writeText name, []⟩, name, ⟨⟨colonGap, write layout depth v, []⟩, v⟩⟩ :: j ::
          parts,
        by simp, List.forall_mem_cons.2 ⟨⟨⟨hstart, blanks_nil⟩, hstring⟩, hnames⟩,
        List.forall_mem_cons.2 ⟨⟨hcolonGap, blanks_nil⟩, hblank⟩,
        List.forall_mem_cons.2 ⟨hv, hspells⟩, by rw [List.map_cons, hentries]; rfl, ?_⟩
      rw [fieldsText_cons, htext, writeFields_cons, hseparator, hcolon]
      simp [Field.chars, Spaced.chars]

theorem spells_array (hlayout : layout.Lawful) {items : List Json} (depth : Nat)
    (h : ∀ v ∈ items, Spells room v (write layout (depth + 1) v)) :
    Spells (room + 1) (.array items) (write layout depth (.array items)) := by
  cases items with
  | nil => exact .emptyArray blanks_nil
  | cons v items =>
    obtain ⟨parts, hne, hblank, hspells, hvalues, htext⟩ :=
      items_write hlayout (by simp) (depth + 1) h blanks_nil
        (hlayout.lineStart depth)
    have harray := Spells.array hne hblank hspells
    rw [hvalues, htext] at harray
    exact harray

theorem spells_object (hlayout : layout.Lawful) {fields : List (String × Json)}
    (names : (Table.keys fields).Nodup) (depth : Nat)
    (h : ∀ f ∈ fields, Text.Whole f.1 ∧ Spells room f.2 (write layout (depth + 1) f.2)) :
    Spells (room + 1) (.object fields) (write layout depth (.object fields)) := by
  cases fields with
  | nil => exact .emptyObject blanks_nil
  | cons f fields =>
    obtain ⟨parts, hne, hnames, hblank, hspells, hentries, htext⟩ :=
      fields_write hlayout (by simp) (depth + 1) h blanks_nil
        (hlayout.lineStart depth)
    have hobject := Spells.object hne hnames hblank hspells
    rw [hentries, Table.ofEntries_of_nodup names, htext] at hobject
    exact hobject

/-- **A value with the shape of a document, whole texts and short integers is written as a text of
it.** -/
theorem spells_write (hlayout : layout.Lawful) {v : Json} (hshape : Shaped room v)
    (htexts : ∀ s, .text s ∈ v.leaves → Text.Whole s)
    (hints : ∀ n, .int n ∈ v.leaves → isShort n = true) (depth : Nat) :
    Spells room v (write layout depth v) := by
  induction hshape generalizing depth with
  | null => exact .word (w := ("null", .null)) (by simp [words])
  | bool b =>
    cases b with
    | false => exact .word (w := ("false", .bool false)) (by simp [words])
    | true => exact .word (w := ("true", .bool true)) (by simp [words])
  | int n => exact .number (numberText_writeInt (hints n (by simp)))
  | text s => exact .text (stringText_writeText (htexts s (by simp)))
  | @array room items _ ih =>
    rw [leaves_array] at htexts hints
    exact spells_array hlayout depth fun v hv =>
      ih v hv (fun s hs => htexts s (List.mem_flatMap.2 ⟨v, hv, hs⟩))
        (fun n hn => hints n (List.mem_flatMap.2 ⟨v, hv, hn⟩)) (depth + 1)
  | @object room fields names _ ih =>
    rw [leaves_object] at htexts hints
    exact spells_object hlayout names depth fun f hf =>
      ⟨htexts f.1 (List.mem_flatMap.2 ⟨f, hf, List.mem_cons_self⟩),
        ih f hf (fun s hs => htexts s (List.mem_flatMap.2 ⟨f, hf, List.mem_cons_of_mem _ hs⟩))
          (fun n hn => hints n (List.mem_flatMap.2 ⟨f, hf, List.mem_cons_of_mem _ hn⟩)) (depth + 1)⟩

end layout

/-! ## 4. Documents -/

theorem read_write {layout : Layout} (hlayout : layout.Lawful) {room : Nat} {v : Json}
    (hshape : Shaped room v) (htexts : ∀ s, .text s ∈ v.leaves → Text.Whole s)
    (hints : v.isWritable = true) : read (String.ofList (write layout 0 v)) room = .ok v := by
  have hread := (spells_write hlayout hshape htexts (isWritable_iff.1 hints) 0).read blanks_nil
    blanks_nil
  rwa [List.append_nil] at hread

/-- **The text of a value with one part a line is read as the value.** -/
theorem read_indented {room : Nat} {v : Json} (hshape : Shaped room v)
    (htexts : ∀ s, .text s ∈ v.leaves → Text.Whole s) (hints : v.isWritable = true) :
    read v.indented room = .ok v :=
  read_write Layout.lawful_indented hshape htexts hints

/-- **The text of a value on one line is read as the value.** -/
theorem read_compact {room : Nat} {v : Json} (hshape : Shaped room v)
    (htexts : ∀ s, .text s ∈ v.leaves → Text.Whole s) (hints : v.isWritable = true) :
    read v.compact room = .ok v :=
  read_write Layout.lawful_oneLine hshape htexts hints

end UpgradeAudit.Json
