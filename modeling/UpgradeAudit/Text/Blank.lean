/-
# Blank characters

The blank characters of Unicode text and the removal of blanks at the ends of a text.

Everything works on lists of characters; `strip` is the form for strings.  A text without
blank ends is left alone (`trim_eq_self`).
-/

namespace UpgradeAudit.Text

/-! ## 1. The class -/

/-- Code point ranges of the blank characters, both ends included. -/
def blankRanges : List (Nat × Nat) :=
  [(0x09, 0x0d), (0x1c, 0x20), (0x85, 0x85), (0xa0, 0xa0), (0x1680, 0x1680), (0x2000, 0x200a),
   (0x2028, 0x2029), (0x202f, 0x202f), (0x205f, 0x205f), (0x3000, 0x3000)]

/-- Whether a code point lies in one of the ranges. -/
def inRanges (ranges : List (Nat × Nat)) (n : Nat) : Bool :=
  ranges.any fun r => r.1 ≤ n && n ≤ r.2

/-- Whether a character is blank. -/
def isBlank (c : Char) : Bool := inRanges blankRanges c.toNat

/-! ## 2. Removing blanks at the ends -/

/-- Drops the blanks at the front. -/
def trimStart (s : List Char) : List Char := s.dropWhile isBlank

/-- Drops the blanks at the end. -/
def trimEnd (s : List Char) : List Char := (s.reverse.dropWhile isBlank).reverse

/-- Drops the blanks at both ends. -/
def trim (s : List Char) : List Char := trimEnd (trimStart s)

/-- Drops the blanks at both ends of a string. -/
def strip (s : String) : String := String.ofList (trim s.toList)

/-- A text that does not start with a blank keeps its start. -/
theorem trimStart_of_head {c : Char} {r : List Char} (h : isBlank c = false) :
    trimStart (c :: r) = c :: r := by
  simp [trimStart, h]

/-- A text that neither starts nor ends with a blank is left alone. -/
theorem trim_eq_self {s : List Char} (h : ∀ c ∈ s.head?, isBlank c = false)
    (h' : ∀ c ∈ s.getLast?, isBlank c = false) : trim s = s := by
  have hs : trimStart s = s := by
    cases s with
    | nil => rfl
    | cons c r => exact trimStart_of_head (h c rfl)
  rw [trim, hs, trimEnd]
  rcases List.eq_nil_or_concat s with rfl | ⟨r, c, rfl⟩
  · rfl
  · have hc : isBlank c = false := h' c (by simp)
    simp [hc]

end UpgradeAudit.Text
