/-
# Bytes of plain characters

A byte below 0x80 is never part of a longer sequence, however broken the bytes around it are.  So a
text can be cut at such a byte before or after it is decoded (`toList_decodeLossy_append`), and the
character that it stands for comes from no other bytes (`exists_of_mem_decodeLossy`).

Both follow from what a single byte does in a state (`feed_plain`, `feed_other`).  The states that a
decoder reaches are `Proper`: a sequence that is under way takes bytes from 0x80 on only, and its
code point will be at least 0x80.
-/
import UpgradeAudit.Proofs.Text.Spelling
import UpgradeAudit.Text.Utf8

namespace UpgradeAudit.Text.Utf8

variable {surrogates : Bool} {state : State}

/-! ## 1. States -/

/-- A state that a decoder reaches. -/
def Proper : State → Prop
  | .idle => True
  | .inside more low high bits =>
    0x80 ≤ low ∧ (2 ≤ bits ∨ 2 ≤ more ∧ (1 ≤ bits ∨ 0x90 ≤ low ∧ high ≤ 0xbf))

theorem lead_plain {b : Nat} (hb : b < 0x80) : lead surrogates b = ([some b], .idle) := by
  rw [lead, if_pos hb]

/-- **A byte below 0x80 breaks off what was under way and stands for itself.** -/
theorem feed_plain (h : Proper state) {b : Nat} (hb : b < 0x80) :
    feed surrogates state b = (unitsFrom surrogates state [] ++ [some b], .idle) := by
  cases state with
  | idle => exact lead_plain hb
  | inside more low high bits =>
    rw [feed, if_neg fun hin => by have := h.1; omega, lead_plain hb]
    rfl

theorem lead_other (surrogates : Bool) {b : Nat} (hb : 0x80 ≤ b) :
    Proper (lead surrogates b).2 ∧ (∀ n, some n ∉ (lead surrogates b).1) ∧
      ((lead surrogates b).1 = [] → (lead surrogates b).2 ≠ .idle) := by
  unfold lead
  rw [if_neg (by omega)]
  repeat' split
  all_goals simp [Proper]
  all_goals omega

/-- **Any other byte leads to no code point below 0x80**, and to nothing at all only where a
sequence goes on. -/
theorem feed_other (surrogates : Bool) (h : Proper state) {b : Nat} (hb : 0x80 ≤ b) :
    Proper (feed surrogates state b).2 ∧
      (∀ n, some n ∈ (feed surrogates state b).1 → 0x80 ≤ n) ∧
      ((feed surrogates state b).1 = [] → (feed surrogates state b).2 ≠ .idle) := by
  obtain ⟨hproper, hnone, hgoes⟩ := lead_other surrogates hb
  cases state with
  | idle => exact ⟨hproper, fun n hn => absurd hn (hnone n), hgoes⟩
  | inside more low high bits =>
    obtain ⟨hlow, hbits⟩ := h
    rw [feed]
    split
    · rename_i hin
      dsimp only
      split
      · refine ⟨trivial, fun n hn => ?_, by simp⟩
        obtain rfl := Option.some.inj (List.mem_singleton.1 hn)
        omega
      · refine ⟨⟨by omega, Or.inl (by omega)⟩, by simp, by simp⟩
    · exact ⟨hproper, fun n hn => absurd hn (by simp [hnone n]), by simp⟩

theorem proper_feed (h : Proper state) (b : Nat) : Proper (feed surrogates state b).2 := by
  by_cases hb : b < 0x80
  · rw [feed_plain h hb]
    trivial
  · exact (feed_other surrogates h (Nat.le_of_not_lt hb)).1

theorem unitsFrom_cons (surrogates : Bool) (state : State) (b : UInt8) (rest : Bytes) :
    unitsFrom surrogates state (b :: rest) = (feed surrogates state b.toNat).1
      ++ unitsFrom surrogates (feed surrogates state b.toNat).2 rest := by
  cases state <;> rfl

/-! ## 2. Code points and faults -/

/-- **What follows a byte below 0x80, and the byte itself, do not depend on what is before.** -/
theorem unitsFrom_append (h : Proper state) {b : UInt8} (hb : b.toNat < 0x80) (s t : Bytes) :
    unitsFrom surrogates state (s ++ b :: t)
      = unitsFrom surrogates state s ++ some b.toNat :: unitsFrom surrogates .idle t := by
  induction s generalizing state with
  | nil => rw [List.nil_append, unitsFrom_cons, feed_plain h hb, List.append_assoc]; rfl
  | cons c s ih =>
    rw [List.cons_append, unitsFrom_cons, unitsFrom_cons, ih (proper_feed h c.toNat),
      List.append_assoc]

/-- A code point below 0x80 comes from the byte that stands for it. -/
theorem exists_of_mem_unitsFrom (h : Proper state) {n : Nat} (hn : n < 0x80) {s : Bytes}
    (hmem : some n ∈ unitsFrom surrogates state s) : ∃ b ∈ s, b.toNat = n := by
  induction s generalizing state with
  | nil => cases state <;> simp [unitsFrom] at hmem
  | cons b s ih =>
    rw [unitsFrom_cons, List.mem_append] at hmem
    rcases hmem with hmem | hmem
    · by_cases hb : b.toNat < 0x80
      · rw [feed_plain h hb] at hmem
        refine ⟨b, List.mem_cons_self, ?_⟩
        cases state <;> simpa [unitsFrom, eq_comm] using hmem
      · have hlarge := (feed_other surrogates h (Nat.le_of_not_lt hb)).2.1 n hmem
        omega
    · obtain ⟨c, hc, rfl⟩ := ih (proper_feed h b.toNat) hmem
      exact ⟨c, List.mem_cons_of_mem b hc, rfl⟩

/-- A code point below 0x80 that comes first is that of the first byte. -/
theorem exists_of_head?_unitsFrom (h : Proper state) {n : Nat} (hn : n < 0x80) {s : Bytes}
    (hhead : (unitsFrom surrogates state s).head? = some (some n)) :
    state = .idle ∧ ∃ b rest, s = b :: rest ∧ b.toNat = n := by
  induction s generalizing state with
  | nil => cases state <;> simp [unitsFrom] at hhead
  | cons b s ih =>
    rw [unitsFrom_cons] at hhead
    by_cases hb : b.toNat < 0x80
    · rw [feed_plain h hb] at hhead
      cases state with
      | idle => exact ⟨rfl, b, s, rfl, by simpa [unitsFrom] using hhead⟩
      | inside => simp [unitsFrom] at hhead
    · obtain ⟨hproper, hlarge, hgoes⟩ := feed_other surrogates h (Nat.le_of_not_lt hb)
      cases hout : (feed surrogates state b.toNat).1 with
      | nil =>
        rw [hout] at hhead
        exact absurd (ih hproper hhead).1 (hgoes hout)
      | cons u us =>
        rw [hout] at hhead hlarge
        obtain rfl : u = some n := Option.some.inj hhead
        have := hlarge n List.mem_cons_self
        omega

/-- Bytes stand for something. -/
theorem unitsFrom_ne_nil (h : Proper state) {s : Bytes} (hs : state ≠ .idle ∨ s ≠ []) :
    unitsFrom surrogates state s ≠ [] := by
  induction s generalizing state with
  | nil =>
    cases state with
    | idle => simp at hs
    | inside => simp [unitsFrom]
  | cons b s ih =>
    rw [unitsFrom_cons]
    intro hnil
    obtain ⟨hout, hrest⟩ := List.append_eq_nil_iff.1 hnil
    by_cases hb : b.toNat < 0x80
    · simp [feed_plain h hb] at hout
    · obtain ⟨hproper, -, hgoes⟩ := feed_other surrogates h (Nat.le_of_not_lt hb)
      exact ih hproper (Or.inl (hgoes hout)) hrest

/-! ## 3. Texts -/

/-- The characters that code points and faults are spelled with, faults replaced. -/
def spellUnits (us : List (Option Nat)) : List Char := us.flatMap fun u => spell (u.getD 0xfffd)

theorem toList_decodeLossy (s : Bytes) :
    (decodeLossy s).toList = spellUnits (unitsFrom false .idle s) := by
  rw [decodeLossy, ofPoints, String.toList_ofList, List.flatMap_map]
  rfl

/-- **A text can be cut at a byte below 0x80.** -/
theorem toList_decodeLossy_append {b : UInt8} (hb : b.toNat < 0x80) (s t : Bytes) :
    (decodeLossy (s ++ b :: t)).toList
      = (decodeLossy s).toList ++ Char.ofNat b.toNat :: (decodeLossy t).toList := by
  have hidle : Proper .idle := trivial
  rw [toList_decodeLossy, toList_decodeLossy, toList_decodeLossy, unitsFrom_append hidle hb,
    spellUnits, List.flatMap_append, List.flatMap_cons, Option.getD_some, spell_plain hb]
  rfl

/-- Which unit a character below 0x80 is spelled for. -/
theorem eq_of_mem_spell_getD {c : Char} (hpos : 0 < c.toNat) (hplain : c.toNat < 0x80)
    {u : Option Nat} (h : c ∈ spell (u.getD 0xfffd)) : u = some c.toNat := by
  have hpoint := eq_toNat_of_mem_spell hpos hplain h
  cases u with
  | some n => exact congrArg some hpoint
  | none =>
    rw [Option.getD_none] at hpoint
    omega

/-- **A character below 0x80 comes from the byte that stands for it.** -/
theorem exists_of_mem_decodeLossy {c : Char} (hpos : 0 < c.toNat) (hplain : c.toNat < 0x80)
    {s : Bytes} (h : c ∈ (decodeLossy s).toList) : ∃ b ∈ s, b.toNat = c.toNat := by
  rw [toList_decodeLossy, spellUnits] at h
  obtain ⟨u, hu, hc⟩ := List.mem_flatMap.1 h
  obtain rfl := eq_of_mem_spell_getD hpos hplain hc
  have hidle : Proper .idle := trivial
  exact exists_of_mem_unitsFrom hidle hplain hu

/-- One that comes first is that of the first byte. -/
theorem exists_of_head?_decodeLossy {c : Char} (hpos : 0 < c.toNat) (hplain : c.toNat < 0x80)
    {s : Bytes} (h : (decodeLossy s).toList.head? = some c) :
    ∃ b rest, s = b :: rest ∧ b.toNat = c.toNat := by
  rw [toList_decodeLossy] at h
  cases hunits : unitsFrom false .idle s with
  | nil => simp [hunits, spellUnits] at h
  | cons u us =>
    obtain ⟨d, ds, hspell⟩ := List.exists_cons_of_ne_nil (spell_ne_nil (u.getD 0xfffd))
    rw [hunits, spellUnits, List.flatMap_cons, hspell] at h
    obtain rfl : d = c := Option.some.inj h
    obtain rfl := eq_of_mem_spell_getD hpos hplain (hspell ▸ List.mem_cons_self)
    have hidle : Proper .idle := trivial
    exact (exists_of_head?_unitsFrom hidle hplain (by rw [hunits]; rfl)).2

/-- Bytes stand for a text that is not empty. -/
theorem toList_decodeLossy_ne_nil {s : Bytes} (h : s ≠ []) : (decodeLossy s).toList ≠ [] := by
  have hidle : Proper .idle := trivial
  obtain ⟨u, us, hunits⟩ := List.exists_cons_of_ne_nil (unitsFrom_ne_nil hidle (Or.inr h))
  rw [toList_decodeLossy, hunits, spellUnits, List.flatMap_cons]
  intro hnil
  exact spell_ne_nil _ (List.append_eq_nil_iff.1 hnil).1

end UpgradeAudit.Text.Utf8
