/-
# Code points

A text is a sequence of code points.  A surrogate without its partner is a code point, but no
character, and analyzer output can hold one.  A string spells such a code point by two
characters: a mark, and a private character that says which code point is meant.

The mark is the last character before the surrogates and is spelled in the same way.  So the
spelling can be read back (`points_ofPoints`), goes piece by piece (`ofPoints_append`), and
strings compare as the texts do.  No spelling holds an ASCII character or
a blank that the text does not hold, so a string may be stripped, and cut at ASCII characters,
as it stands; whatever counts or searches works on `points`.
-/

namespace UpgradeAudit.Text

/-! ## 1. Surrogates -/

/-- Whether a code point is the first half of a pair. -/
def isHighSurrogate (n : Nat) : Bool := 0xd800 ≤ n && n ≤ 0xdbff

/-- Whether a code point is the second half of a pair. -/
def isLowSurrogate (n : Nat) : Bool := 0xdc00 ≤ n && n ≤ 0xdfff

/-- Whether a code point is a surrogate. -/
def isSurrogate (n : Nat) : Bool := 0xd800 ≤ n && n ≤ 0xdfff

/-- The code point of a pair of surrogates. -/
def joinSurrogates (high low : Nat) : Nat := 0x10000 + (high - 0xd800) * 0x400 + (low - 0xdc00)

/-! ## 2. Spelling -/

/-- The code point of the mark. -/
def markPoint : Nat := 0xd7ff

/-- The character that opens a spelling of two characters. -/
def mark : Char := Char.ofNat markPoint

/-- The code point of the private character that stands for the mark itself; those after it
stand for the surrogates. -/
def privatePoint : Nat := 0xf0000

/-- How many code points are spelled by two characters: the mark and the surrogates. -/
def markedCount : Nat := 0x801

/-- The characters that spell a code point. -/
def spell (n : Nat) : List Char :=
  if markPoint ≤ n ∧ n < markPoint + markedCount then
    [mark, Char.ofNat (privatePoint + (n - markPoint))]
  else [Char.ofNat n]

/-- The code point that the mark spells with the character after it. -/
def marked? (c d : Char) : Option Nat :=
  if c = mark ∧ privatePoint ≤ d.toNat ∧ d.toNat < privatePoint + markedCount then
    some (markPoint + (d.toNat - privatePoint))
  else none

/-- The code points that characters spell. -/
def readPoints : List Char → List Nat
  | [] => []
  | [c] => [c.toNat]
  | c :: d :: rest =>
    match marked? c d with
    | some n => n :: readPoints rest
    | none => c.toNat :: readPoints (d :: rest)

/-- The text of code points. -/
def ofPoints (points : List Nat) : String := String.ofList (points.flatMap spell)

/-- The code points of a text. -/
def points (s : String) : List Nat := readPoints s.toList

/-- The text of characters as they come from outside. -/
def ofChars (cs : List Char) : String := ofPoints (cs.map Char.toNat)

/-! ## 3. Laws -/

/-- A number that is a code point and no surrogate is the number of a character. -/
theorem toNat_ofNat {n : Nat} (h : n < 0x110000) (hs : n < 0xd800 ∨ 0xdfff < n) :
    (Char.ofNat n).toNat = n := by
  have hv : n.isValidChar := by unfold Nat.isValidChar; omega
  rw [Char.ofNat, dif_pos hv]
  rfl

theorem toNat_mark : mark.toNat = markPoint :=
  toNat_ofNat (by simp [markPoint]) (by simp [markPoint])

theorem toNat_private {n : Nat} (h : markPoint ≤ n ∧ n < markPoint + markedCount) :
    (Char.ofNat (privatePoint + (n - markPoint))).toNat = privatePoint + (n - markPoint) := by
  simp only [markPoint, markedCount, privatePoint] at h ⊢
  exact toNat_ofNat (by omega) (by omega)

/-- The private character of a code point tells it. -/
theorem marked?_ofNat {n : Nat} (h : markPoint ≤ n ∧ n < markPoint + markedCount) :
    marked? mark (Char.ofNat (privatePoint + (n - markPoint))) = some n := by
  rw [marked?, toNat_private h, if_pos ⟨rfl, by omega, by omega⟩]
  exact congrArg some (by omega)

/-- A code point that is spelled by one character does not look like the mark. -/
theorem ofNat_ne_mark {n : Nat} (h : n < 0x110000)
    (hm : ¬ (markPoint ≤ n ∧ n < markPoint + markedCount)) :
    (Char.ofNat n).toNat = n ∧ Char.ofNat n ≠ mark := by
  have hc : (Char.ofNat n).toNat = n := by
    simp only [markPoint, markedCount] at hm
    exact toNat_ofNat h (by omega)
  refine ⟨hc, fun he => ?_⟩
  have hn : n = markPoint := by rw [← hc, he, toNat_mark]
  exact hm (by rw [hn]; simp [markedCount])

/-- A spelling at the front is read as the code point it spells. -/
theorem readPoints_spell_append {n : Nat} (h : n < 0x110000) (rest : List Char) :
    readPoints (spell n ++ rest) = n :: readPoints rest := by
  unfold spell
  split
  · rename_i hm
    simp only [List.cons_append, List.nil_append, readPoints, marked?_ofNat hm]
  · rename_i hm
    obtain ⟨hc, hne⟩ := ofNat_ne_mark h hm
    cases rest with
    | nil => simp [readPoints, hc]
    | cons d rest => simp [readPoints, marked?, hne, hc]

/-- The text of two sequences of code points is their texts one after the other. -/
theorem ofPoints_append (a b : List Nat) : ofPoints (a ++ b) = ofPoints a ++ ofPoints b := by
  simp [ofPoints, String.ofList_append]

/-- The code points of a text that was made of code points. -/
theorem points_ofPoints {ps : List Nat} (h : ∀ n ∈ ps, n < 0x110000) :
    points (ofPoints ps) = ps := by
  simp only [points, ofPoints, String.toList_ofList]
  induction ps with
  | nil => rfl
  | cons n ps ih =>
    rw [List.flatMap_cons, readPoints_spell_append (h n (by simp)),
      ih fun m hm => h m (List.mem_cons_of_mem n hm)]

end UpgradeAudit.Text
