/-
# Strings of JSON, written and read

Every code point of a text is written as one or two pieces of a string (`pieceOf`), and the pieces
spell it again when no two surrogates in a row make a pair by themselves (`joinPieces_pieces`).  So
**a whole text is written as a string that stands for it** (`stringText_writeText`).
-/
import UpgradeAudit.Json.Writer
import UpgradeAudit.Proofs.Json.Grammar
import UpgradeAudit.Proofs.Text.Spelling

namespace UpgradeAudit

namespace Text.Hex

theorem value?_digit {n : Nat} (h : n < 16) : value? (digit n) = some n := by
  have hall : ∀ m ∈ List.range 16, value? (digit m) = some m := by decide
  exact hall n (List.mem_range.2 h)

theorem fixed_four (n : Nat) : fixed 4 n
    = [digit (n / 16 / 16 / 16 % 16), digit (n / 16 / 16 % 16), digit (n / 16 % 16),
      digit (n % 16)] := by
  simp [fixed]

end Text.Hex

namespace Json

/-! ## 1. How a code point is written -/

/-- The code points that are written as an escape of one letter, with the letter. -/
def letters : List (Nat × Char) :=
  [(0x22, '"'), (0x5c, '\\'), (0x0a, 'n'), (0x0d, 'r'), (0x09, 't'), (0x08, 'b'), (0x0c, 'f')]

/-- A code point that is written as one character, escaped or as it is. -/
def Single (n : Nat) : Prop :=
  n < 0x7f ∧ (0x20 ≤ n ∨ n = 0x0a ∨ n = 0x0d ∨ n = 0x09 ∨ n = 0x08 ∨ n = 0x0c)

instance (n : Nat) : Decidable (Single n) := inferInstanceAs (Decidable (_ ∧ _))

/-- The ways in which a code point is written. -/
inductive Written (n : Nat) : List Char → Prop where
  | letter {e : Char} (hletter : (n, e) ∈ letters) : Written n ['\\', e]
  | plain (hplain : 0x20 ≤ n ∧ n < 0x7f) (hquote : n ≠ 0x22) (hslash : n ≠ 0x5c) :
      Written n [Char.ofNat n]
  | unit (hsmall : n < 0x10000) (hsingle : ¬ Single n) : Written n (escapeUnit n)
  | pair (hlarge : 0x10000 ≤ n) : Written n (escapeUnit (0xd800 + (n - 0x10000) / 0x400)
      ++ escapeUnit (0xdc00 + (n - 0x10000) % 0x400))

theorem written_writePoint (n : Nat) : Written n (writePoint n) := by
  by_cases hletter : n ∈ letters.map Prod.fst
  · obtain ⟨l, hl, rfl⟩ := List.mem_map.1 hletter
    have hall : ∀ l ∈ letters, writePoint l.1 = ['\\', l.2] := by decide
    rw [hall l hl]
    exact .letter hl
  · have hnot : n ≠ 0x22 ∧ n ≠ 0x5c ∧ n ≠ 0x0a ∧ n ≠ 0x0d ∧ n ≠ 0x09 ∧ n ≠ 0x08 ∧ n ≠ 0x0c := by
      simpa [letters] using hletter
    obtain ⟨hquote, hslash, hline, hreturn, htab, hback, hfeed⟩ := hnot
    rw [writePoint, if_neg hquote, if_neg hslash, if_neg hline, if_neg hreturn, if_neg htab,
      if_neg hback, if_neg hfeed]
    by_cases hplain : 0x20 ≤ n ∧ n < 0x7f
    · rw [if_pos (by simpa using ⟨hplain.1, Nat.le_of_lt_succ hplain.2⟩)]
      exact .plain hplain hquote hslash
    · rw [if_neg (by simp; omega)]
      by_cases hsmall : n < 0x10000
      · rw [if_pos hsmall]
        refine .unit hsmall fun hsingle => ?_
        unfold Single at hsingle
        omega
      · rw [if_neg hsmall]
        exact .pair (Nat.not_lt.1 hsmall)

/-! ## 2. One code point -/

/-- A number below `0x10000` is read from its escape. -/
theorem unit?_fixed {n : Nat} (h : n < 0x10000) {a b c d : Char}
    (hfixed : Text.Hex.fixed 4 n = [a, b, c, d]) : unit? a b c d = some n := by
  have digits := Text.Hex.fixed_four n
  rw [hfixed] at digits
  simp only [List.cons.injEq, and_true] at digits
  obtain ⟨rfl, rfl, rfl, rfl⟩ := digits
  have value (m : Nat) : Text.Hex.value? (Text.Hex.digit (m % 16)) = some (m % 16) :=
    Text.Hex.value?_digit (Nat.mod_lt _ (by omega))
  simp only [unit?, value, Option.bind_eq_bind, Option.bind_some, Option.pure_def,
    Option.some.injEq]
  omega

/-- The pieces that a code point is written as. -/
def pieceOf (n : Nat) : List Piece :=
  if Single n then [.char (Char.ofNat n)]
  else if n < 0x10000 then [.unit n]
  else [.unit (0xd800 + (n - 0x10000) / 0x400), .unit (0xdc00 + (n - 0x10000) % 0x400)]

theorem Inside.append {ps qs : List Piece} {s t : List Char} (h : Inside ps s) (ht : Inside qs t) :
    Inside (ps ++ qs) (s ++ t) := by
  induction h with
  | nil => exact ht
  | cons hp _ ih =>
    rw [List.append_assoc]
    exact .cons hp ih

theorem PieceText.inside {p : Piece} {cs : List Char} (h : PieceText p cs) : Inside [p] cs := by
  simpa using Inside.cons h .nil

theorem inside_escapeUnit {n : Nat} (h : n < 0x10000) : Inside [.unit n] (escapeUnit n) := by
  have hfixed := Text.Hex.fixed_four n
  rw [escapeUnit, hfixed]
  exact (PieceText.unit (unit?_fixed h hfixed)).inside

/-- A written code point is the text of its pieces. -/
theorem Written.inside {n : Nat} {cs : List Char} (hcs : Written n cs) (h : n < 0x110000) :
    Inside (pieceOf n) cs := by
  cases hcs with
  | letter hletter =>
    have hall : ∀ l ∈ letters, escape? l.2 = some (Char.ofNat l.1) ∧ Single l.1 := by decide
    obtain ⟨hescape, hsingle⟩ := hall _ hletter
    rw [pieceOf, if_pos hsingle]
    exact (PieceText.letter hescape).inside
  | plain hplain hquote hslash =>
    have hnat : (Char.ofNat n).toNat = n := Text.toNat_ofNat (by omega) (by omega)
    rw [pieceOf, if_pos ⟨hplain.2, Or.inl hplain.1⟩]
    refine (PieceText.char ?_ ?_ (by omega)).inside
    · intro he
      exact hquote (by rw [← hnat, he]; rfl)
    · intro he
      exact hslash (by rw [← hnat, he]; rfl)
  | unit hsmall hsingle =>
    rw [pieceOf, if_neg hsingle, if_pos hsmall]
    exact inside_escapeUnit hsmall
  | pair hlarge =>
    have hsingle : ¬ Single n := fun hsingle => absurd hsingle.1 (by omega)
    rw [pieceOf, if_neg hsingle, if_neg (Nat.not_lt.2 hlarge)]
    exact (inside_escapeUnit (by omega)).append (inside_escapeUnit (by omega))

/-- Written code points are the text of their pieces. -/
theorem inside_flatMap {ps : List Nat} (h : ∀ n ∈ ps, n < 0x110000) :
    Inside (ps.flatMap pieceOf) (ps.flatMap writePoint) := by
  induction ps with
  | nil => exact .nil
  | cons n ps ih =>
    exact ((written_writePoint n).inside (h n List.mem_cons_self)).append
      (ih fun m hm => h m (List.mem_cons_of_mem _ hm))

/-! ## 3. Joining the pieces -/

/-- An escape that makes no pair with the piece after it stands for itself. -/
theorem joinPieces_unit {n : Nat} {rest : List Piece}
    (h : ∀ m, rest.head? = some (.unit m) →
      ¬ (Text.isHighSurrogate n = true ∧ Text.isLowSurrogate m = true)) :
    joinPieces (.unit n :: rest) = Text.spell n ++ joinPieces rest := by
  cases rest with
  | nil => simp [joinPieces]
  | cons p rest =>
    cases p with
    | char c => rw [joinPieces, joinPieces]
    | unit m =>
      have hm := h m rfl
      rw [joinPieces, if_neg (by simpa using hm)]

theorem joinPieces_pair {high low : Nat} (h : Text.isHighSurrogate high = true)
    (h' : Text.isLowSurrogate low = true) (rest : List Piece) :
    joinPieces (.unit high :: .unit low :: rest)
      = Text.spell (Text.joinSurrogates high low) ++ joinPieces rest := by
  rw [joinPieces, h, h']
  rfl

/-- A code point beyond the first `0x10000` is spelled by the pair that it is written as. -/
theorem joinPieces_halves {n : Nat} (hlarge : 0x10000 ≤ n) (h : n < 0x110000) (rest : List Piece) :
    joinPieces (.unit (0xd800 + (n - 0x10000) / 0x400) :: .unit (0xdc00 + (n - 0x10000) % 0x400)
      :: rest) = Text.spell n ++ joinPieces rest := by
  have hhigh : Text.isHighSurrogate (0xd800 + (n - 0x10000) / 0x400) = true := by
    simp only [Text.isHighSurrogate, Bool.and_eq_true, decide_eq_true_eq]
    omega
  have hlow : Text.isLowSurrogate (0xdc00 + (n - 0x10000) % 0x400) = true := by
    simp only [Text.isLowSurrogate, Bool.and_eq_true, decide_eq_true_eq]
    omega
  have hjoined : Text.joinSurrogates (0xd800 + (n - 0x10000) / 0x400)
      (0xdc00 + (n - 0x10000) % 0x400) = n := by
    unfold Text.joinSurrogates
    omega
  rw [joinPieces_pair hhigh hlow, hjoined]

theorem pieceOf_ne_nil (n : Nat) : pieceOf n ≠ [] := by
  unfold pieceOf
  split
  · simp
  · split <;> simp

/-- What the pieces of a code point start with: a character, the code point itself, or the first
half of a pair. -/
theorem head?_pieceOf {n m : Nat} (h : (pieceOf n).head? = some (.unit m)) :
    m = n ∨ Text.isLowSurrogate m = false ∨ 0x110000 ≤ n := by
  unfold pieceOf at h
  split at h
  · simp at h
  split at h
  · exact Or.inl (by simpa using h.symm)
  · have hm : 0xd800 + (n - 0x10000) / 0x400 = m := by simpa using h
    by_cases hn : n < 0x110000
    · refine Or.inr (Or.inl ?_)
      simp only [Text.isLowSurrogate, Bool.and_eq_false_iff, decide_eq_false_iff_not]
      omega
    · exact Or.inr (Or.inr (by omega))

/-- **The pieces of a text without pairs of its own spell it again.** -/
theorem joinPieces_pieces {ps : List Nat} (h : ∀ n ∈ ps, n < 0x110000) (hps : Text.Unpaired ps) :
    joinPieces (ps.flatMap pieceOf) = ps.flatMap Text.spell := by
  induction ps with
  | nil => rfl
  | cons n ps ih =>
    have hn : n < 0x110000 := h n List.mem_cons_self
    have ihps := ih (fun m hm => h m (List.mem_cons_of_mem _ hm)) hps.of_cons
    rw [List.flatMap_cons, List.flatMap_cons, ← ihps]
    -- the first piece of the next code point, which an escape might make a pair with
    have hnext (m : Nat) (hm : (ps.flatMap pieceOf).head? = some (.unit m)) :
        ¬ (Text.isHighSurrogate n = true ∧ Text.isLowSurrogate m = true) := by
      cases ps with
      | nil => simp at hm
      | cons k ps =>
        have hfirst : (pieceOf k).head? = some (.unit m) := by
          obtain ⟨p, more, hp⟩ := List.exists_cons_of_ne_nil (pieceOf_ne_nil k)
          rw [List.flatMap_cons, hp] at hm
          simpa [hp] using hm
        rcases head?_pieceOf hfirst with rfl | hlow | hlarge
        · exact hps.rel
        · simp [hlow]
        · exact absurd (h k (by simp)) (Nat.not_lt.2 hlarge)
    unfold pieceOf
    split
    · rename_i hsingle
      have hbelow : n < 0x7f := hsingle.1
      rw [List.singleton_append, joinPieces, Text.spell, if_neg, List.singleton_append]
      simp only [Text.markPoint]
      omega
    split
    · exact joinPieces_unit hnext
    · rename_i hlarge
      exact joinPieces_halves (Nat.not_lt.1 hlarge) hn _

/-- **A whole text is written as a string that stands for it.** -/
theorem stringText_writeText {s : String} (hs : Text.Whole s) : StringText s (writeText s) := by
  have hpoints : ∀ n ∈ Text.points s, n < 0x110000 := fun n hn => Text.lt_of_mem_points hn
  have hspelled : String.ofList ((Text.points s).flatMap Text.spell) = s := hs.spelled
  have hstring := StringText.mk (inside_flatMap hpoints)
  rw [joinPieces_pieces hpoints hs.unpaired, hspelled] at hstring
  exact hstring

end Json
end UpgradeAudit
