/-
# Searching and ordering text

The first occurrence of one text in another, the removal of a prefix, the order of texts by
code point, and the end of a text.

Main statements: the two sides of the first occurrence, with the text searched for between
them, are the whole (`eq_of_splitFirst?`); strings are ordered as their code points are
(`order_ofPoints`).
-/
import UpgradeAudit.Text.Points

namespace UpgradeAudit.Text

/-! ## 1. Searching -/

/-- What stands before and after the first occurrence of `needle`. -/
def splitFirst? [BEq α] (needle : List α) : List α → Option (List α × List α)
  | [] => if needle.isEmpty then some ([], []) else none
  | c :: rest =>
    match needle.isPrefixOf? (c :: rest) with
    | some after => some ([], after)
    | none => (splitFirst? needle rest).map fun p => (c :: p.1, p.2)

/-- The last `n` items. -/
def last (n : Nat) (s : List α) : List α := s.drop (s.length - n)

/-- The pieces of a text between the occurrences of one character. -/
def pieces (c : Char) (s : String) : List String := (s.toList.splitOn c).map String.ofList

theorem isPrefixOf?_cons_cons [BEq α] (c d : α) (s t : List α) :
    (c :: s).isPrefixOf? (d :: t) = if c == d then s.isPrefixOf? t else none := rfl

/-- What a text starts with, and what stands after it. -/
theorem isPrefixOf?_append [BEq α] [LawfulBEq α] (s t : List α) :
    s.isPrefixOf? (s ++ t) = some t := by
  induction s with
  | nil => rfl
  | cons c s ih => simp [isPrefixOf?_cons_cons, ih]

theorem eq_append_of_isPrefixOf? [BEq α] [LawfulBEq α] {s t r : List α}
    (h : s.isPrefixOf? t = some r) :
    t = s ++ r := by
  induction s generalizing t with
  | nil => exact Option.some.inj h
  | cons c s ih =>
    cases t with
    | nil => exact nomatch (h : (none : Option (List α)) = some r)
    | cons d t =>
      have h : (if c == d then s.isPrefixOf? t else none) = some r := h
      split at h
      · rename_i hcd
        rw [eq_of_beq hcd, ih h, List.cons_append]
      · simp at h

/-- What stands before and after the first occurrence makes up the whole with it. -/
theorem eq_of_splitFirst? [BEq α] [LawfulBEq α] {needle s a b : List α}
    (h : splitFirst? needle s = some (a, b)) : s = a ++ needle ++ b := by
  induction s generalizing a with
  | nil =>
    cases needle with
    | nil => simp [splitFirst?] at h; simp [h]
    | cons c n => simp [splitFirst?] at h
  | cons c s ih =>
    rw [splitFirst?] at h
    split at h
    · rename_i after hp
      simp only [Option.some.injEq, Prod.mk.injEq] at h
      rw [← h.1, ← h.2]
      exact eq_append_of_isPrefixOf? hp
    · obtain ⟨p, hp, hab⟩ := Option.map_eq_some_iff.1 h
      simp only [Prod.mk.injEq] at hab
      rw [← hab.1, List.cons_append, List.cons_append, ← ih (a := p.1) (by rw [hp, ← hab.2])]

/-! ## 2. Order -/

/-- The order of texts by code point, a proper prefix first. -/
def order (a b : String) : Ordering := List.compareLex compare a.toList b.toList

theorem compare_char (c d : Char) : compare c d = compare c.toNat d.toNat := by
  have hlt : c < d ↔ c.toNat < d.toNat := by
    rw [Char.lt_def, UInt32.lt_iff_toNat_lt]; rfl
  have heq : c = d ↔ c.toNat = d.toNat := Char.toNat_inj.symm
  simp only [compare, compareOfLessAndEq, hlt, heq]

theorem compare_congr {a b c d : Nat} (hlt : a < b ↔ c < d) (heq : a = b ↔ c = d) :
    compare a b = compare c d := by
  simp only [compare, compareOfLessAndEq, hlt, heq]

/-- Spellings compare as the code points they spell; what follows them counts only when these
are the same. -/
theorem compare_spell_append {a b : Nat} (ha : a < 0x110000) (hb : b < 0x110000)
    (x y : List Char) :
    List.compareLex compare (spell a ++ x) (spell b ++ y)
      = (compare a b).then (List.compareLex compare x y) := by
  have first {c d : Char} {x y : List Char} (h : compare c d = compare a b) (hne : a ≠ b) :
      List.compareLex compare (c :: x) (d :: y) = compare a b := by
    rw [List.compareLex_cons_cons, h]
    cases hab : compare a b with
    | eq => exact absurd (Nat.compare_eq_eq.1 hab) hne
    | _ => rfl
  have only (z : Ordering) (hne : a ≠ b) : (compare a b).then z = compare a b := by
    cases hab : compare a b with
    | eq => exact absurd (Nat.compare_eq_eq.1 hab) hne
    | _ => rfl
  unfold spell
  split <;> split <;> rename_i h h'
  · have hd : compare (Char.ofNat (privatePoint + (a - markPoint)))
        (Char.ofNat (privatePoint + (b - markPoint))) = compare a b := by
      rw [compare_char, toNat_private h, toNat_private h']
      exact compare_congr (by omega) (by omega)
    simp [List.compareLex_cons_cons, hd]
  · have hd : compare mark (Char.ofNat b) = compare a b := by
      rw [compare_char, toNat_mark, (ofNat_ne_mark hb h').1]
      exact compare_congr (by omega) (by omega)
    rw [only _ (by omega)]
    exact first hd (by omega)
  · have hd : compare (Char.ofNat a) mark = compare a b := by
      rw [compare_char, toNat_mark, (ofNat_ne_mark ha h).1]
      exact compare_congr (by omega) (by omega)
    rw [only _ (by omega)]
    exact first hd (by omega)
  · simp [List.compareLex_cons_cons, compare_char, (ofNat_ne_mark ha h).1,
      (ofNat_ne_mark hb h').1]

/-- Texts made of code points are ordered as these are. -/
theorem order_ofPoints {as bs : List Nat} (ha : ∀ n ∈ as, n < 0x110000)
    (hb : ∀ n ∈ bs, n < 0x110000) :
    order (ofPoints as) (ofPoints bs) = List.compareLex compare as bs := by
  have nonempty (n : Nat) : ∃ c r, spell n = c :: r := by
    unfold spell
    split <;> exact ⟨_, _, rfl⟩
  simp only [order, ofPoints, String.toList_ofList]
  induction as generalizing bs with
  | nil =>
    cases bs with
    | nil => rfl
    | cons b bs =>
      obtain ⟨c, r, h⟩ := nonempty b
      rw [List.flatMap_cons, h]
      rfl
  | cons a as ih =>
    cases bs with
    | nil =>
      obtain ⟨c, r, h⟩ := nonempty a
      rw [List.flatMap_cons, h]
      rfl
    | cons b bs =>
      rw [List.flatMap_cons, List.flatMap_cons,
        compare_spell_append (ha a (by simp)) (hb b (by simp)),
        ih (fun n hn => ha n (by simp [hn])) fun n hn => hb n (by simp [hn])]
      simp [List.compareLex_cons_cons]

end UpgradeAudit.Text
