/-
# Texts and their code points

A string is the text of its code points when every mark in it spells something (`Spelled`); text
from outside is of this form, and so is every text made of code points.  Two texts are the same
when their code points are.

A text is `Whole` when none of its surrogates is the first half of a pair with the second half
right after it, and `WellFormed` when it has no surrogates at all.
-/
import Mathlib.Data.List.Chain
import UpgradeAudit.Text.Points

namespace UpgradeAudit.Text

/-! ## 1. Code points of a string -/

/-- A character is read by its own number when the one after it is no private character. -/
theorem readPoints_cons_of_marked? {c d : Char} (h : marked? c d = none) (rest : List Char) :
    readPoints (c :: d :: rest) = c.toNat :: readPoints (d :: rest) := by
  rw [readPoints, h]

/-- What follows a character that is not private does not change how the text before is read. -/
theorem readPoints_append {c : Char} (hc : c.toNat < privatePoint) (a b : List Char) :
    readPoints (a ++ c :: b) = readPoints a ++ readPoints (c :: b) := by
  have hnone (d : Char) : marked? d c = none := by
    simp [marked?, Nat.not_le.2 hc]
  fun_induction readPoints a with
  | case1 => rfl
  | case2 d => rw [List.singleton_append, readPoints_cons_of_marked? (hnone d)]; rfl
  | case3 d e rest n h ih =>
    rw [List.cons_append, List.cons_append, readPoints, h]
    dsimp only
    rw [ih, List.cons_append]
  | case4 d e rest h ih =>
    rw [List.cons_append, List.cons_append, readPoints_cons_of_marked? h, ← List.cons_append, ih,
      List.cons_append]

/-- A code point of a string is the number of one of its characters, or marked. -/
theorem mem_readPoints {n : Nat} {cs : List Char} (h : n ∈ readPoints cs) :
    (∃ c ∈ cs, c.toNat = n) ∨ (markPoint ≤ n ∧ n < markPoint + markedCount) := by
  fun_induction readPoints cs with
  | case1 => simp at h
  | case2 c => exact Or.inl ⟨c, by simp, (List.mem_singleton.1 h).symm⟩
  | case3 c d rest m hm ih =>
    rcases List.mem_cons.1 h with rfl | h
    · rw [marked?] at hm
      split at hm
      · rename_i hmarked
        have : markPoint + (d.toNat - privatePoint) = n := Option.some.inj hm
        omega
      · simp at hm
    · rcases ih h with ⟨e, he, rfl⟩ | h
      · exact Or.inl ⟨e, by simp [he], rfl⟩
      · exact Or.inr h
  | case4 c d rest hm ih =>
    rcases List.mem_cons.1 h with rfl | h
    · exact Or.inl ⟨c, by simp, rfl⟩
    · rcases ih h with ⟨e, he, rfl⟩ | h
      · exact Or.inl ⟨e, List.mem_cons_of_mem _ he, rfl⟩
      · exact Or.inr h

theorem toNat_lt (c : Char) : c.toNat < 0x110000 := by
  have := c.valid
  unfold UInt32.isValidChar Nat.isValidChar at this
  show c.val.toNat < 0x110000
  omega

theorem lt_of_mem_readPoints {n : Nat} {cs : List Char} (h : n ∈ readPoints cs) : n < 0x110000 := by
  rcases mem_readPoints h with ⟨c, -, rfl⟩ | h
  · exact toNat_lt c
  · simp only [markPoint, markedCount] at h
    omega

theorem lt_of_mem_points {n : Nat} {s : String} (h : n ∈ points s) : n < 0x110000 :=
  lt_of_mem_readPoints h

theorem spell_plain {n : Nat} (h : n < 0x80) : spell n = [Char.ofNat n] := by
  rw [spell, if_neg fun hmarked => by simp only [markPoint] at hmarked; omega]

theorem spell_ne_nil (n : Nat) : spell n ≠ [] := by
  rw [spell]
  split <;> simp

/-- A character below 0x80 is spelled only for the code point that it is. -/
theorem eq_toNat_of_mem_spell {c : Char} {n : Nat} (hpos : 0 < c.toNat) (hplain : c.toNat < 0x80)
    (h : c ∈ spell n) : n = c.toNat := by
  rw [spell] at h
  split at h
  · rename_i hmarked
    rcases List.mem_cons.1 h with hmark | h
    · have hlarge : c.toNat = 0xd7ff := by rw [hmark]; exact toNat_mark
      omega
    · rw [List.mem_singleton.1 h, toNat_private hmarked] at hplain
      simp only [privatePoint] at hplain
      omega
  · obtain rfl := List.mem_singleton.1 h
    by_cases hvalid : n.isValidChar
    · rw [Char.ofNat, dif_pos hvalid]
      rfl
    · rw [Char.ofNat, dif_neg hvalid] at hpos
      exact absurd hpos (by decide)

/-! ## 2. Spelled texts -/

/-- A string that is the text of its code points. -/
def Spelled (s : String) : Prop := ofPoints (points s) = s

/-- Code points of which none is the first half of a pair whose second half follows. -/
def Unpaired (ps : List Nat) : Prop :=
  ps.IsChain fun a b => ¬ (isHighSurrogate a = true ∧ isLowSurrogate b = true)

/-- A text without two surrogates that would make a pair. -/
structure Whole (s : String) : Prop where
  spelled : Spelled s
  unpaired : Unpaired (points s)

/-- A text without surrogates. -/
structure WellFormed (s : String) : Prop where
  spelled : Spelled s
  scalar : ∀ n ∈ points s, isSurrogate n = false

/-- Whether every mark is followed by a private character that says what it stands for. -/
def Marked : List Char → Prop
  | [] => True
  | c :: rest =>
    (c = mark → ∃ d, rest.head? = some d ∧ (marked? mark d).isSome = true) ∧ Marked rest

theorem Marked.suffix {a b : List Char} (h : Marked (a ++ b)) : Marked b := by
  induction a with
  | nil => exact h
  | cons c a ih => exact ih h.2

theorem marked_spell_append (n : Nat) {cs : List Char} (h : Marked cs) :
    Marked (spell n ++ cs) := by
  unfold spell
  split
  · rename_i hn
    refine ⟨fun _ => ⟨_, rfl, by rw [marked?_ofNat hn]; rfl⟩, fun he => ?_, h⟩
    have := congrArg Char.toNat he
    rw [toNat_private hn, toNat_mark] at this
    simp only [privatePoint, markPoint] at this
    omega
  · rename_i hn
    refine ⟨fun he => ?_, h⟩
    have hmark : (Char.ofNat n).toNat = markPoint := by rw [he, toNat_mark]
    by_cases hvalid : n.isValidChar
    · have hnat : (Char.ofNat n).toNat = n := by
        rw [Char.ofNat, dif_pos hvalid]
        rfl
      simp only [markedCount] at hn
      omega
    · rw [Char.ofNat, dif_neg hvalid] at hmark
      exact absurd hmark (by decide)

theorem marked_spell (ps : List Nat) : Marked (ps.flatMap spell) := by
  induction ps with
  | nil => trivial
  | cons n ps ih => exact marked_spell_append n ih

/-- A character that is no mark is the spelling of its number. -/
theorem spell_toNat {c : Char} (h : c ≠ mark) : spell c.toNat = [c] := by
  rw [spell, if_neg, Char.ofNat_toNat]
  rintro ⟨hle, hlt⟩
  have hne : c.toNat ≠ markPoint := fun he => h (by
    rw [← Char.ofNat_toNat c, he]
    rfl)
  have := c.valid
  unfold UInt32.isValidChar Nat.isValidChar at this
  change c.val.toNat < 0xd800 ∨ _ at this
  change markPoint ≤ c.val.toNat at hle
  change c.val.toNat ≠ markPoint at hne
  change c.val.toNat < _ at hlt
  simp only [markPoint, markedCount] at *
  omega

/-- Characters are what their code points spell when every mark spells something. -/
theorem flatMap_spell_readPoints {cs : List Char} (h : Marked cs) :
    (readPoints cs).flatMap spell = cs := by
  fun_induction readPoints cs with
  | case1 => rfl
  | case2 c =>
    have hc : c ≠ mark := fun he => by simpa using h.1 he
    simp [spell_toNat hc]
  | case3 c d rest n hn ih =>
    rw [List.flatMap_cons, ih h.2.2]
    rw [marked?] at hn
    split at hn
    · rename_i hmarked
      obtain ⟨rfl, hle, hlt⟩ := hmarked
      obtain rfl := Option.some.inj hn
      rw [spell, if_pos (by omega), Nat.add_sub_cancel_left, Nat.add_sub_cancel' hle,
        Char.ofNat_toNat]
      rfl
    · cases hn
  | case4 c d rest hn ih =>
    have hc : c ≠ mark := by
      rintro rfl
      obtain ⟨e, he, hsome⟩ := h.1 rfl
      obtain rfl : d = e := by simpa using he
      rw [hn] at hsome
      cases hsome
    rw [List.flatMap_cons, spell_toNat hc, ih h.2, List.singleton_append]

theorem spelled_iff {s : String} : Spelled s ↔ Marked s.toList := by
  constructor
  · intro h
    rw [← h, ofPoints, String.toList_ofList]
    exact marked_spell _
  · intro h
    rw [Spelled, ofPoints, points, flatMap_spell_readPoints h, String.ofList_toList]

/-- A text that was made of code points is spelled. -/
theorem spelled_ofPoints (ps : List Nat) : Spelled (ofPoints ps) := by
  rw [spelled_iff, ofPoints, String.toList_ofList]
  exact marked_spell ps

/-- Spelled texts with the same code points are the same. -/
theorem Spelled.eq {s t : String} (hs : Spelled s) (ht : Spelled t) (h : points s = points t) :
    s = t := by
  rw [← hs, ← ht, h]

theorem unpaired_cons {n : Nat} {ps : List Nat}
    (h : ∀ m, ps.head? = some m → ¬ (isHighSurrogate n = true ∧ isLowSurrogate m = true))
    (hps : Unpaired ps) : Unpaired (n :: ps) := by
  cases ps with
  | nil => exact .singleton n
  | cons m ps => exact .cons_cons (h m rfl) hps

theorem isHighSurrogate_of_scalar {n : Nat} (h : isSurrogate n = false) :
    isHighSurrogate n = false := by
  simp only [isSurrogate, isHighSurrogate, Bool.and_eq_false_iff, decide_eq_false_iff_not] at h ⊢
  omega

theorem unpaired_of_scalar {ps : List Nat} (h : ∀ n ∈ ps, isSurrogate n = false) :
    Unpaired ps := by
  induction ps with
  | nil => exact .nil
  | cons n ps ih =>
    have hn := isHighSurrogate_of_scalar (h n List.mem_cons_self)
    exact unpaired_cons (by simp [hn]) (ih fun m hm => h m (List.mem_cons_of_mem _ hm))

theorem WellFormed.whole {s : String} (h : WellFormed s) : Whole s :=
  ⟨h.spelled, unpaired_of_scalar h.scalar⟩

/-- No character is a surrogate. -/
theorem isSurrogate_toNat (c : Char) : isSurrogate c.toNat = false := by
  have := c.valid
  unfold UInt32.isValidChar Nat.isValidChar at this
  simp only [isSurrogate, Bool.and_eq_false_iff, decide_eq_false_iff_not]
  show ¬ 0xd800 ≤ c.val.toNat ∨ ¬ c.val.toNat ≤ 0xdfff
  omega

/-- Text from outside is well-formed. -/
theorem wellFormed_ofChars (cs : List Char) : WellFormed (ofChars cs) := by
  refine ⟨spelled_ofPoints _, fun n hn => ?_⟩
  have hlt : ∀ m ∈ cs.map Char.toNat, m < 0x110000 := by
    intro m hm
    obtain ⟨c, -, rfl⟩ := List.mem_map.1 hm
    exact toNat_lt c
  rw [ofChars, points_ofPoints hlt] at hn
  obtain ⟨c, -, rfl⟩ := List.mem_map.1 hn
  exact isSurrogate_toNat c

instance (s : String) : Decidable (Spelled s) := inferInstanceAs (Decidable (_ = _))

instance (s : String) : Decidable (WellFormed s) :=
  decidable_of_iff (Spelled s ∧ ∀ n ∈ points s, isSurrogate n = false)
    ⟨fun h => ⟨h.1, h.2⟩, fun h => ⟨h.spelled, h.scalar⟩⟩

end UpgradeAudit.Text
