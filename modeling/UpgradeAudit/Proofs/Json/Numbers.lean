/-
# Integers of JSON, written and read

An integer is written as its digits, without zeros at the front, and so as a number that stands for
it when it is short (`numberText_writeInt`).

Inside a string an integer may be written more freely, with a plus sign and with zeros at the front
(`DecimalText`), and **is read there as the same integer** (`integerOfText?_of_decimal`).
-/
import Mathlib.Algebra.Group.Nat.Defs
import Mathlib.Algebra.Ring.Int.Defs
import UpgradeAudit.Json.Schema
import UpgradeAudit.Json.Writer
import UpgradeAudit.Proofs.Json.Grammar
import UpgradeAudit.Proofs.Text.Blanks

namespace UpgradeAudit.Json

/-- An integer is short when it lies between the powers of ten with as many zeros as it may have
digits. -/
theorem isShort_iff {n : Int} : isShort n = true ↔ n.natAbs < 10 ^ digitLimit := by
  rw [isShort, decide_eq_true_eq, Nat.length_toDigits_le_iff (by decide) (by decide)]

/-- A power of ten has one digit more than it has zeros. -/
theorem isShort_pow {k : Nat} : isShort (10 ^ k) = true ↔ k < digitLimit := by
  have habs : (10 ^ k : Int).natAbs = 10 ^ k := Int.natAbs_pow 10 k
  rw [isShort_iff, habs, Nat.pow_lt_pow_iff_right (by decide)]

/-- The digits of a number that is not zero do not start with a zero. -/
theorem head?_toDigits {n : Nat} (hn : n ≠ 0) : (Nat.toDigits 10 n).head? ≠ some '0' := by
  induction n using Nat.strongRecOn with
  | ind n ih =>
    by_cases hsmall : n < 10
    · rw [Nat.toDigits_of_lt_base hsmall]
      simpa using hn
    · rw [Nat.toDigits_of_base_le (by decide) (by omega)]
      have hrest := ih (n / 10) (by omega) (by omega)
      obtain ⟨d, ds, hds⟩ :=
        List.exists_cons_of_ne_nil (Nat.toDigits_ne_nil (b := 10) (n := n / 10))
      rw [hds] at hrest ⊢
      exact hrest

theorem isDigit_of_mem_toDigits {n : Nat} {d : Char} (h : d ∈ Nat.toDigits 10 n) :
    d.isDigit = true :=
  Nat.isDigit_of_mem_toDigits (by decide) (by decide) h

theorem digitsValue_toDigits (n : Nat) : digitsValue (Nat.toDigits 10 n) = n := by
  have hfold : Nat.ofDigitChars 10 (Nat.toDigits 10 n) 0 = digitsValue (Nat.toDigits 10 n) :=
    Nat.ofDigitChars_eq_foldl
  rw [← hfold, Nat.ofDigitChars_ten_toDigits]

/-! ## 2. Written integers -/

/-- The digits of a number stand for it. -/
theorem wholeDigits_toDigits (n : Nat) : WholeDigits (Nat.toDigits 10 n) where
  ne_nil := Nat.toDigits_ne_nil
  isDigit _ hd := isDigit_of_mem_toDigits hd
  lead hlead := by
    by_cases hn : n = 0
    · rw [hn, Nat.toDigits_zero]
    · exact absurd hlead (head?_toDigits hn)

/-- **A short integer is written as a number.** -/
theorem numberText_writeInt {n : Int} (h : isShort n = true) :
    NumberText (.int n) (writeInt n) := by
  have hlength : (Nat.toDigits 10 n.natAbs).length ≤ digitLimit := of_decide_eq_true h
  have htext := NumberText.int (decide (n < 0)) (wholeDigits_toDigits n.natAbs) hlength
  rw [digitsValue_toDigits] at htext
  by_cases hneg : n < 0
  · have hvalue : -(n.natAbs : Int) = n := by omega
    rw [decide_eq_true hneg, if_pos rfl, hvalue] at htext
    rw [writeInt, if_pos hneg]
    exact htext
  · have hvalue : (n.natAbs : Int) = n := by omega
    rw [decide_eq_false hneg, if_neg (by decide), hvalue] at htext
    rw [writeInt, if_neg hneg]
    exact htext

/-! ## 3. Integers inside strings -/

/-- A decimal integer: a sign or none, and digits, no more than may be read. -/
inductive DecimalText : Int → List Char → Prop
  | mk {sign : List Char × Bool} {ds : List Char} (hsign : sign ∈ signs) (hds : Digits ds)
      (hshort : ds.length ≤ digitLimit) :
      DecimalText (if sign.2 then -(digitsValue ds : Int) else digitsValue ds) (sign.1 ++ ds)

/-- Digits after a zero are left without the zeros at their front. -/
theorem afterZeros?_digits {ds : List Char} (hds : ∀ d ∈ ds, d.isDigit = true) :
    ∃ left, afterZeros? '0' ds = some left ∧ WholeDigits left ∧
      digitsValue left = digitsValue ds ∧ left.length ≤ ds.length + 1 := by
  induction ds with
  | nil => exact ⟨['0'], rfl, ⟨⟨by simp, by simp⟩, fun _ => rfl⟩, rfl, by simp⟩
  | cons d ds ih =>
    obtain ⟨hd, hrest⟩ := List.forall_mem_cons.1 hds
    by_cases hzero : d = '0'
    · subst hzero
      obtain ⟨left, hleft, hdigits, hvalue, hlength⟩ := ih hrest
      exact ⟨left, hleft, hdigits, hvalue, Nat.le_succ_of_le hlength⟩
    · have hunderscore : d ≠ '_' := ne_of_isDigit hd (by decide)
      have hpoint : d ≠ '.' := ne_of_isDigit hd (by decide)
      refine ⟨d :: ds, ?_, ⟨⟨by simp, hds⟩, fun hlead => ?_⟩, rfl, by simp⟩
      · simp [afterZeros?, hzero, hunderscore, hpoint, hd]
      · exact absurd (Option.some.inj hlead) hzero

theorem withoutZeros?_digits {ds : List Char} (h : Digits ds) :
    ∃ left, withoutZeros? ds = some left ∧ WholeDigits left ∧
      digitsValue left = digitsValue ds ∧ left.length ≤ ds.length := by
  obtain ⟨d, more, rfl, hd⟩ := h.exists_cons
  by_cases hzero : d = '0'
  · subst hzero
    obtain ⟨left, hleft, hdigits, hvalue, hlength⟩ :=
      afterZeros?_digits fun c hc => h.isDigit c (List.mem_cons_of_mem _ hc)
    exact ⟨left, hleft, hdigits, hvalue, hlength⟩
  · refine ⟨d :: more, ?_, ⟨h, fun hlead => absurd (Option.some.inj hlead) hzero⟩, rfl, le_refl _⟩
    simp [withoutZeros?, hzero, hd]

/-- Digits have neither a fraction nor groups. -/
theorem ungroup_withoutFraction {ds : List Char} (h : Digits ds) :
    ungroup (withoutFraction ds) = ds := by
  have hpoint : ds.dropWhile (· ≠ '.') = [] := by
    refine List.dropWhile_eq_nil_iff.2 fun d hd => ?_
    simpa using ne_of_isDigit (h.isDigit d hd) (show '.'.isDigit = false by decide)
  have hunderscore : '_' ∉ ds := fun hmem => absurd (h.isDigit _ hmem) (by decide)
  have hfraction : withoutFraction ds = ds := by
    rw [withoutFraction, hpoint]
  rw [hfraction, ungroup, List.splitOn_eq_singleton hunderscore]
  simp [h.ne_nil]

theorem surroundsInteger_of_isDigit {d : Char} (h : d.isDigit = true) :
    surroundsInteger d = false := by
  simp [surroundsInteger, Text.isBlank_of_isDigit h]

theorem signed?_decimal {sign : List Char × Bool} (hsign : sign ∈ signs) {ds : List Char}
    (h : Digits ds) : signed? (sign.1 ++ ds) = some (minus sign.2, ds) := by
  obtain ⟨d, more, rfl, hd⟩ := h.exists_cons
  have hplus : d ≠ '+' := ne_of_isDigit hd (by decide)
  have hminus : d ≠ '-' := ne_of_isDigit hd (by decide)
  simp only [signs, List.mem_cons, List.not_mem_nil, or_false] at hsign
  rcases hsign with rfl | rfl | rfl
  · simp [signed?, hplus, hminus, minus]
  · simp [signed?, startsWithSign, hplus, hminus, minus]
  · simp [signed?, startsWithSign, hplus, hminus, minus]

/-- Nothing surrounds a decimal integer. -/
theorem dropWhile_decimal {sign : List Char × Bool} (hsign : sign ∈ signs) {ds : List Char}
    (h : Digits ds) : (((sign.1 ++ ds).dropWhile surroundsInteger).reverse.dropWhile
      surroundsInteger).reverse = sign.1 ++ ds := by
  have hkeep {c : Char} {cs : List Char} (hc : surroundsInteger c = false) :
      (c :: cs).dropWhile surroundsInteger = c :: cs :=
    List.dropWhile_cons_of_neg (by simp [hc])
  have hstart : (sign.1 ++ ds).dropWhile surroundsInteger = sign.1 ++ ds := by
    simp only [signs, List.mem_cons, List.not_mem_nil, or_false] at hsign
    obtain ⟨d, more, rfl, hd⟩ := h.exists_cons
    rcases hsign with rfl | rfl | rfl
    · exact hkeep (surroundsInteger_of_isDigit hd)
    · exact hkeep (by decide)
    · exact hkeep (by decide)
  -- the last character is a digit, with or without a sign
  obtain ⟨e, before, hreverse⟩ := List.exists_cons_of_ne_nil (List.reverse_ne_nil_iff.2 h.ne_nil)
  have he : e ∈ ds := List.mem_reverse.1 (hreverse ▸ List.mem_cons_self)
  rw [hstart, List.reverse_append, hreverse, List.cons_append,
    hkeep (surroundsInteger_of_isDigit (h.isDigit e he)), ← List.cons_append, ← hreverse,
    ← List.reverse_append, List.reverse_reverse]

/-- **A decimal integer inside a string is read as the integer.** -/
theorem integerOfText?_of_decimal {n : Int} {s : String} (h : DecimalText n s.toList) :
    integerOfText? s = some n := by
  generalize hs : s.toList = cs at h
  cases h with
  | @mk sign ds hsign hds hshort =>
    obtain ⟨left, hleft, hdigits, hvalue, hlength⟩ := withoutZeros?_digits hds
    have hnumber := (NumberText.int sign.2 hdigits (le_trans hlength hshort)).number ends_nil
    rw [List.append_nil, hvalue] at hnumber
    simp only [integerOfText?, hs, dropWhile_decimal hsign hds, signed?_decimal hsign hds, hleft,
      ungroup_withoutFraction hdigits.toDigits, hnumber, Option.bind_eq_bind, Option.bind_some]

end UpgradeAudit.Json
