/-
# Documents and the fields in them

What a document of an analyzer holds (`Document.value?`), and how a field is found: the first of
its spellings that is present decides, and the first of them is the one with underscores.
-/
import UpgradeAudit.Output.Document
import UpgradeAudit.Proofs.Counts
import UpgradeAudit.Proofs.Json.Values

namespace UpgradeAudit

theorem Table.get?_append {κ α : Type} [DecidableEq κ] (key : κ) (t u : Table κ α) :
    Table.get? key (t ++ u) = (Table.get? key t).or (Table.get? key u) := by
  induction t with
  | nil => rfl
  | cons e t ih =>
    obtain ⟨k, v⟩ := e
    by_cases h : k = key
    · simp [get?, h]
    · simp [get?, h, ih]

namespace Output

variable {α : Type}

theorem eq_ok_iff {ε : Type} {x : Except ε α} {a : α} : x = .ok a ↔ x.toOption = some a := by
  cases x <;> simp [Except.toOption]

/-- The value that a document holds; none when it cannot be read in the room there is. -/
def Document.value? (room : Nat) (d : Document) : Option Json :=
  match d.jsonText with
  | .ok s => (Json.read s room).toOption
  | .error _ => none

theorem Document.toOption_decode (tool : Tool) (record : Json.Reader α) (d : Document)
    (room : Nat) :
    (d.decode tool record room).toOption = d.value? room >>= record := by
  unfold Document.decode Document.value?
  cases d.jsonText with
  | error cause => rfl
  | ok s =>
    simp only [bind, Except.bind]
    cases Json.read s room with
    | error fault => rfl
    | ok v =>
      simp only [Except.toOption, Option.bind]
      cases record v <;> rfl

theorem Document.value?_eq_some {room : Nat} {d : Document} {v : Json}
    (h : d.value? room = some v) : ∃ s, d.jsonText = .ok s ∧ Json.read s room = .ok v := by
  unfold Document.value? at h
  split at h
  · rename_i s hs
    exact ⟨s, hs, eq_ok_iff.2 h⟩
  · cases h

theorem Document.value?_text (room : Nat) (s : String) :
    (Document.text s).value? room = (Json.read s room).toOption := rfl

/-- A document that was written holds what was written. -/
theorem Document.value?_indented {room : Nat} {v : Json} (hshape : Json.Shaped room v)
    (htexts : ∀ s, .text s ∈ v.leaves → Text.Whole s) (hints : v.isWritable = true) :
    (Document.text v.indented).value? room = some v := by
  rw [Document.value?_text, Json.read_indented hshape htexts hints]
  rfl

/-- A field that is present under its first spelling is found there. -/
theorem find?_of_get? {name : Json.Name} {fields : Json.Fields} {v : Json}
    (h : Table.get? name.snake fields = some v) : fields.find? (spellings name) = some v := by
  rw [Json.Fields.find?, spellings, List.findSome?_cons, h]

end Output
end UpgradeAudit
