/-
# The components of a path in its text

A path that was read from a text has clean components (`Path.Clean`): none is empty and none
holds a slash.  Written out, such a path shows its components again, and nothing else but its
leading slashes (`pieces_text`).
-/
import UpgradeAudit.Path

namespace UpgradeAudit

/-! ## 1. Pieces -/

theorem not_mem_of_mem_splitOn {c : Char} {s piece : List Char} (h : piece ∈ s.splitOn c) :
    c ∉ piece := by
  induction s generalizing piece with
  | nil =>
    obtain rfl : piece = [] := by simpa using h
    exact List.not_mem_nil
  | cons d s ih =>
    rw [List.splitOn_cons_eq_if_modifyHead] at h
    split at h
    · rcases List.mem_cons.1 h with rfl | h
      · exact List.not_mem_nil
      · exact ih h
    · rename_i hd
      obtain ⟨first, rest, hs⟩ := List.exists_cons_of_ne_nil (List.splitOn_ne_nil c s)
      rw [hs, List.modifyHead_cons] at h
      rcases List.mem_cons.1 h with rfl | h
      · have hfirst : c ∉ first := ih (by rw [hs]; exact List.mem_cons_self)
        intro hc
        rcases List.mem_cons.1 hc with rfl | hc
        · exact hd (beq_self_eq_true _)
        · exact hfirst hc
      · exact ih (by rw [hs]; exact List.mem_cons_of_mem _ h)

/-- Leading separators give empty pieces. -/
theorem splitOn_replicate_append (c : Char) (n : Nat) (s : List Char) :
    (List.replicate n c ++ s).splitOn c = List.replicate n [] ++ s.splitOn c := by
  induction n with
  | zero => rfl
  | succ n ih =>
    rw [List.replicate_succ, List.cons_append, List.splitOn_cons_eq_if_modifyHead,
      if_pos (beq_self_eq_true c), ih, List.replicate_succ, List.cons_append]

namespace Path

/-! ## 2. Clean components -/

/-- No component is empty or holds a slash. -/
def Clean (p : Path) : Prop := ∀ part ∈ p.parts, part ≠ "" ∧ '/' ∉ part.toList

theorem clean_ofText (s : String) : (ofText s).Clean := by
  intro part hpart
  obtain ⟨hpiece, hkept⟩ := List.mem_filter.1 hpart
  obtain ⟨piece, hmem, rfl⟩ := List.mem_map.1 hpiece
  refine ⟨?_, ?_⟩
  · rintro he
    simp [he] at hkept
  · rw [String.toList_ofList]
    exact not_mem_of_mem_splitOn hmem

/-- Dots are not kept as components. -/
theorem ne_dot_of_mem_ofText {s part : String} (h : part ∈ (ofText s).parts) : part ≠ "." := by
  obtain ⟨-, hkept⟩ := List.mem_filter.1 h
  rintro rfl
  simp at hkept

theorem Clean.withName {p : Path} {name : String} (hp : p.Clean) (hname : name ≠ "")
    (hslash : '/' ∉ name.toList) : (p.withName name).Clean := by
  intro part hpart
  rcases List.mem_append.1 hpart with h | h
  · exact hp part (List.dropLast_subset _ h)
  · obtain rfl := List.mem_singleton.1 h
    exact ⟨hname, hslash⟩

/-! ## 3. Written out -/

theorem toList_text {p : Path} (h : p.parts ≠ []) :
    p.text.toList
      = List.replicate p.slashes '/' ++ ['/'].intercalate (p.parts.map String.toList) := by
  have hparts : p.parts.isEmpty = false := by simpa [List.isEmpty_eq_false_iff] using h
  simp [text, hparts, String.toList_append, String.toList_intercalate]

/-- **A path written out shows its components, and an empty piece for each leading slash.** -/
theorem pieces_text {p : Path} (hp : p.Clean) (h : p.parts ≠ []) :
    Text.pieces '/' p.text = List.replicate p.slashes "" ++ p.parts := by
  have hslash : ∀ l ∈ p.parts.map String.toList, '/' ∉ l := by
    intro l hl
    obtain ⟨part, hpart, rfl⟩ := List.mem_map.1 hl
    exact (hp part hpart).2
  have hne : p.parts.map String.toList ≠ [] := by simpa using h
  rw [Text.pieces, toList_text h, splitOn_replicate_append, List.splitOn_intercalate '/' hslash hne]
  simp

/-- Without leading slashes a path does not start with one. -/
theorem head?_text {p : Path} (hp : p.Clean) (h : p.parts ≠ []) :
    p.text.toList.head? = some '/' ↔ p.slashes ≠ 0 := by
  rw [toList_text h]
  cases hs : p.slashes with
  | succ n => simp [List.replicate_succ]
  | zero =>
    obtain ⟨part, parts, hparts⟩ := List.exists_cons_of_ne_nil h
    obtain ⟨hpart, hslash⟩ := hp part (by simp [hparts])
    cases hc : part.toList with
    | nil => exact absurd (String.toList_eq_nil_iff.1 hc) hpart
    | cons c cs =>
      have hcne : c ≠ '/' := fun he => hslash (by simp [hc, he])
      cases parts with
      | nil => simpa [hparts, hc] using hcne
      | cons q parts => simpa [hparts, hc, List.intercalate_cons_cons] using hcne

/-- What is written last is the last component. -/
theorem exists_text_eq_append {p : Path} {init : List String} {part : String}
    (h : p.parts = init ++ [part]) : ∃ front, p.text.toList = front ++ part.toList := by
  have ends : ∀ l : List String, ∃ front,
      ['/'].intercalate ((l ++ [part]).map String.toList) = front ++ part.toList := by
    intro l
    induction l with
    | nil => exact ⟨[], by simp⟩
    | cons q l ih =>
      obtain ⟨front, hfront⟩ := ih
      refine ⟨q.toList ++ ['/'] ++ front, ?_⟩
      rw [List.cons_append, List.map_cons, List.intercalate_cons_of_ne_nil (by simp), hfront]
      simp
  obtain ⟨front, hfront⟩ := ends init
  refine ⟨List.replicate p.slashes '/' ++ front, ?_⟩
  rw [toList_text (by simp [h]), h, hfront, List.append_assoc]

/-- A path with components does not end in a slash. -/
theorem getLast?_text {p : Path} (hp : p.Clean) (h : p.parts ≠ []) :
    p.text.toList.getLast? ≠ some '/' := by
  obtain ⟨front, hfront⟩ := exists_text_eq_append (List.dropLast_concat_getLast h).symm
  obtain ⟨hpart, hslash⟩ := hp _ (List.getLast_mem h)
  have hne : (p.parts.getLast h).toList ≠ [] := fun he => hpart (String.toList_eq_nil_iff.1 he)
  have hsome := List.getLast?_eq_some_getLast hne
  rw [hfront, List.getLast?_append, hsome]
  intro hlast
  exact hslash (List.mem_of_getLast? (hsome.trans hlast))

/-- No path is written as nothing. -/
theorem text_ne_empty {p : Path} (hp : p.Clean) : p.text ≠ "" := by
  intro hempty
  by_cases h : p.parts = []
  · unfold text at hempty
    cases hs : p.slashes with
    | zero => simp [h, hs] at hempty
    | succ n => simp [h, hs, List.replicate_succ] at hempty
  · obtain ⟨front, hfront⟩ := exists_text_eq_append (List.dropLast_concat_getLast h).symm
    rw [hempty] at hfront
    have hnil : (p.parts.getLast h).toList = [] := by
      have := (List.append_eq_nil_iff.1 hfront.symm).2
      exact this
    exact (hp _ (List.getLast_mem h)).1 (String.toList_eq_nil_iff.1 hnil)

theorem Clean.parent {p : Path} (hp : p.Clean) : p.parent.Clean :=
  fun part hpart => hp part (List.dropLast_subset _ hpart)

end Path
end UpgradeAudit
