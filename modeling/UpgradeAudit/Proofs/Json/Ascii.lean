/-
# Written JSON is ASCII

Whatever a text holds, it is written in ASCII (`Written.ascii`), and so is every value without
numbers of floating point (`ascii_write`), in every layout that adds nothing but blanks.
-/
import UpgradeAudit.Proofs.Json.Values

namespace UpgradeAudit.Json

/-- Characters that are all ASCII. -/
def Ascii (cs : List Char) : Prop := ∀ c ∈ cs, c.toNat < 0x80

theorem ascii_append {a b : List Char} : Ascii (a ++ b) ↔ Ascii a ∧ Ascii b :=
  List.forall_mem_append

theorem ascii_cons {c : Char} {cs : List Char} : Ascii (c :: cs) ↔ c.toNat < 0x80 ∧ Ascii cs :=
  List.forall_mem_cons

theorem ascii_nil : Ascii [] := by simp [Ascii]

theorem ascii_escapeUnit (n : Nat) : Ascii (escapeUnit n) := by
  have hdigit (m : Nat) : (Text.Hex.digit (m % 16)).toNat < 0x80 := by
    have hall : ∀ k ∈ List.range 16, (Text.Hex.digit k).toNat < 0x80 := by decide
    exact hall _ (List.mem_range.2 (Nat.mod_lt _ (by decide)))
  rw [escapeUnit, Text.Hex.fixed_four]
  simp only [ascii_cons, hdigit, ascii_nil, and_true]
  decide

theorem Written.ascii {n : Nat} {cs : List Char} (hcs : Written n cs) : Ascii cs := by
  cases hcs with
  | letter hletter =>
    have hall : ∀ l ∈ letters, l.2.toNat < 0x80 := by decide
    exact ascii_cons.2 ⟨by decide, ascii_cons.2 ⟨hall _ hletter, ascii_nil⟩⟩
  | plain hplain hquote hslash =>
    rw [ascii_cons, Text.toNat_ofNat (by omega) (by omega)]
    exact ⟨by omega, ascii_nil⟩
  | unit hsmall hsingle => exact ascii_escapeUnit n
  | pair hlarge => exact ascii_append.2 ⟨ascii_escapeUnit _, ascii_escapeUnit _⟩

theorem ascii_writeText (s : String) : Ascii (writeText s) := by
  rw [writeText, List.cons_append, ascii_cons, ascii_append, ascii_cons]
  refine ⟨by decide, fun c hc => ?_, by decide, ascii_nil⟩
  obtain ⟨n, -, hc⟩ := List.mem_flatMap.1 hc
  exact (written_writePoint n).ascii c hc

theorem ascii_writeInt (n : Int) : Ascii (writeInt n) := by
  have hdigits : Ascii (Nat.toDigits 10 n.natAbs) := by
    intro c hc
    have := isDigit_of_mem_toDigits hc
    simp only [Char.isDigit, Bool.and_eq_true, decide_eq_true_eq] at this
    have hle : c.toNat ≤ 0x39 := this.2
    omega
  unfold writeInt
  split
  · exact ascii_cons.2 ⟨by decide, hdigits⟩
  · exact hdigits

theorem Layout.Lawful.ascii {layout : Layout} (h : layout.Lawful) (depth : Nat) :
    Ascii (layout.lineStart depth) ∧ Ascii layout.separator ∧ Ascii layout.colon := by
  have hspace {cs : List Char} (hcs : ∀ c ∈ cs, isSpace c = true) : Ascii cs := by
    intro c hc
    have := hcs c hc
    simp only [isSpace, Bool.or_eq_true, decide_eq_true_eq] at this
    rcases this with ((rfl | rfl) | rfl) | rfl <;> decide
  obtain ⟨gap, hseparator, hgap⟩ := h.separator
  obtain ⟨before, hcolon, hbefore⟩ := h.colon
  rw [hseparator, hcolon, ascii_cons, ascii_cons]
  exact ⟨hspace (h.lineStart depth), ⟨by decide, hspace hgap⟩, by decide, hspace hbefore⟩

section layout

variable {layout : Layout} (hlayout : layout.Lawful)

include hlayout

theorem ascii_writeItems {items : List Json}
    (h : ∀ v ∈ items, ∀ depth, Ascii (write layout depth v)) (depth : Nat) :
    Ascii (writeItems layout depth items) := by
  obtain ⟨hline, hseparator, -⟩ := hlayout.ascii depth
  induction items with
  | nil => exact ascii_nil
  | cons v items ih =>
    have hv := h v List.mem_cons_self depth
    cases items with
    | nil => exact ascii_append.2 ⟨hline, hv⟩
    | cons w items =>
      rw [writeItems_cons]
      simp only [ascii_append]
      exact ⟨⟨⟨hline, hv⟩, hseparator⟩, ih fun u hu => h u (List.mem_cons_of_mem _ hu)⟩

theorem ascii_writeFields {fields : List (String × Json)}
    (h : ∀ f ∈ fields, ∀ depth, Ascii (write layout depth f.2)) (depth : Nat) :
    Ascii (writeFields layout depth fields) := by
  obtain ⟨hline, hseparator, hcolon⟩ := hlayout.ascii depth
  induction fields with
  | nil => exact ascii_nil
  | cons f fields ih =>
    obtain ⟨name, v⟩ := f
    have hv : Ascii (write layout depth v) := h (name, v) List.mem_cons_self depth
    cases fields with
    | nil =>
      rw [writeFields_singleton]
      simp only [ascii_append]
      exact ⟨⟨⟨hline, ascii_writeText name⟩, hcolon⟩, hv⟩
    | cons g fields =>
      rw [writeFields_cons]
      simp only [ascii_append]
      exact ⟨⟨⟨⟨⟨hline, ascii_writeText name⟩, hcolon⟩, hv⟩, hseparator⟩,
        ih fun f hf => h f (List.mem_cons_of_mem _ hf)⟩

/-- **A value of the shape of a document is written in ASCII.** -/
theorem ascii_write {room : Nat} {v : Json} (h : Shaped room v) (depth : Nat) :
    Ascii (write layout depth v) := by
  induction h generalizing depth with
  | null => simp [write_null, Ascii]
  | bool b => cases b <;> simp [write_bool, Ascii]
  | int n => exact ascii_writeInt n
  | text s => exact ascii_writeText s
  | @array room items _ ih =>
    cases items with
    | nil => simp [write_nil, Ascii]
    | cons v items =>
      rw [write_array]
      simp only [List.cons_append, ascii_cons, ascii_append]
      exact ⟨by decide, ⟨ascii_writeItems hlayout ih _, (hlayout.ascii depth).1⟩, by decide,
        ascii_nil⟩
  | @object room fields _ _ ih =>
    cases fields with
    | nil => simp [write_nil, Ascii]
    | cons f fields =>
      rw [write_object]
      simp only [List.cons_append, ascii_cons, ascii_append]
      exact ⟨by decide, ⟨ascii_writeFields hlayout ih _, (hlayout.ascii depth).1⟩, by decide,
        ascii_nil⟩

end layout

end UpgradeAudit.Json
