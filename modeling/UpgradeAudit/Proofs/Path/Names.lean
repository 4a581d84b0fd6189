/-
# What file names are made of

A property of texts goes by components (`Componentwise`) when a text has it as soon as the parts
between its slashes have it, and as ASCII has it anyway.  Such a property is kept when a file name
is made relative (`Componentwise.relativeToRoot`), because the new name is made of components of
the old one, of slashes and of dots.

Being spelled is such a property (`componentwise_marked`), and so is being without pairs of
surrogates (`componentwise_unpaired`).
-/
import UpgradeAudit.Proofs.Path.Below
import UpgradeAudit.Proofs.Text.Spelling

namespace UpgradeAudit

/-- A property that a text has when the parts between its slashes have it. -/
structure Componentwise (P : List Char → Prop) : Prop where
  slash (a b : List Char) : P (a ++ '/' :: b) ↔ P a ∧ P b
  ascii (cs : List Char) (h : ∀ c ∈ cs, c.toNat < 0x80) : P cs

namespace Componentwise

variable {P : List Char → Prop} (hP : Componentwise P)

include hP

/-- ASCII is told by looking at its characters. -/
theorem of_all {cs : List Char} (h : cs.all (fun c => c.toNat < 0x80) = true) : P cs :=
  hP.ascii cs fun c hc => of_decide_eq_true (List.all_eq_true.1 h c hc)

theorem nil : P [] := hP.ascii [] (by simp)

theorem empty : P "".toList := hP.nil

theorem intercalate (parts : List (List Char)) :
    P (['/'].intercalate parts) ↔ ∀ part ∈ parts, P part := by
  induction parts with
  | nil => simpa using hP.nil
  | cons part parts ih =>
    cases parts with
    | nil => simp
    | cons part' parts =>
      rw [List.intercalate_cons_cons, List.append_assoc, List.singleton_append, hP.slash, ih]
      exact List.forall_mem_cons.symm

theorem slashes (n : Nat) {cs : List Char} (h : P cs) : P (List.replicate n '/' ++ cs) := by
  induction n with
  | zero => exact h
  | succ n ih => exact (hP.slash [] _).2 ⟨hP.nil, ih⟩

theorem text {p : Path} (h : ∀ part ∈ p.parts, P part.toList) : P p.text.toList := by
  by_cases hparts : p.parts = []
  · by_cases hslashes : p.slashes = 0
    · have hdot : p.text = "." := by simp [Path.text, hparts, hslashes]
      rw [hdot]
      exact hP.of_all (by decide)
    · have hroot : p.text.toList = List.replicate p.slashes '/' ++ [] := by
        simp [Path.text, hparts, hslashes]
      rw [hroot]
      exact hP.slashes _ hP.nil
  · rw [Path.toList_text hparts]
    refine hP.slashes _ ((hP.intercalate _).2 fun cs hcs => ?_)
    obtain ⟨part, hpart, rfl⟩ := List.mem_map.1 hcs
    exact h part hpart

theorem ofText {s : String} (h : P s.toList) : ∀ part ∈ (Path.ofText s).parts, P part.toList := by
  intro part hpart
  obtain ⟨hpart, -⟩ := List.mem_filter.1 hpart
  obtain ⟨cs, hcs, rfl⟩ := List.mem_map.1 hpart
  have hs : ['/'].intercalate (s.toList.splitOn '/') = s.toList := List.intercalate_splitOn '/'
  rw [← hs, hP.intercalate] at h
  rw [String.toList_ofList]
  exact h cs hcs

theorem normalise {p : Path} (h : ∀ part ∈ p.parts, P part.toList) :
    ∀ part ∈ p.normalise.parts, P part.toList := by
  intro part hpart
  rcases Path.mem_resolve hpart with hseen | hpart | ⟨-, rfl⟩
  · exact absurd hseen List.not_mem_nil
  · exact h part hpart
  · exact hP.of_all (by decide)

/-- **A file name that is made relative keeps what goes by components.** -/
theorem relativeToRoot {path : String} (h : P path.toList) (root : String) :
    P (Path.relativeToRoot path root none).toList := by
  cases habs : Path.isAbsolute path with
  | false =>
    by_cases hne : path = ""
    · rw [hne]
      exact hP.nil
    · rw [Path.relativeToRoot_of_relative hne habs]
      exact hP.text (hP.ofText h)
  | true =>
    have hparts := hP.normalise (hP.ofText h)
    rw [Path.relativeToRoot_of_isAbsolute habs]
    split
    · exact hP.text hparts
    · split
      · rename_i parts hbelow
        exact hP.text fun part hpart => hparts part (Path.below?_sub hbelow hpart)
      · exact hP.text hparts

end Componentwise

namespace Text

theorem marked_of_ascii {cs : List Char} (h : ∀ c ∈ cs, c.toNat < 0x80) : Marked cs := by
  induction cs with
  | nil => trivial
  | cons c cs ih =>
    refine ⟨?_, ih fun d hd => h d (List.mem_cons_of_mem _ hd)⟩
    rintro rfl
    exact absurd (h mark List.mem_cons_self) (by decide)

/-- Being spelled goes by components. -/
theorem componentwise_marked : Componentwise Marked where
  slash a b := by
    induction a with
    | nil =>
      constructor
      · exact fun h => ⟨trivial, h.2⟩
      · exact fun h => ⟨fun he => absurd he (by decide), h.2⟩
    | cons c a ih =>
      have hhead : (∃ d, (a ++ '/' :: b).head? = some d ∧ (marked? mark d).isSome = true) ↔
          ∃ d, a.head? = some d ∧ (marked? mark d).isSome = true := by
        cases a with
        | nil =>
          have hslash : (marked? mark '/').isSome = false := by decide
          simp [hslash]
        | cons d a => simp
      rw [List.cons_append, Marked, Marked, hhead, ih, and_assoc]
  ascii _ := marked_of_ascii

theorem marked?_of_ne {c : Char} (h : c ≠ mark) (d : Char) : marked? c d = none := by
  simp [marked?, h]

theorem readPoints_cons {c : Char} (h : c ≠ mark) (cs : List Char) :
    readPoints (c :: cs) = c.toNat :: readPoints cs := by
  cases cs with
  | nil => rfl
  | cons d cs => exact readPoints_cons_of_marked? (marked?_of_ne h d) cs

theorem readPoints_of_ascii {cs : List Char} (h : ∀ c ∈ cs, c.toNat < 0x80) :
    readPoints cs = cs.map Char.toNat := by
  induction cs with
  | nil => rfl
  | cons c cs ih =>
    have hc : c ≠ mark := by
      rintro rfl
      exact absurd (h mark List.mem_cons_self) (by decide)
    rw [readPoints_cons hc, ih fun d hd => h d (List.mem_cons_of_mem _ hd), List.map_cons]

theorem readPoints_slash (a b : List Char) :
    readPoints (a ++ '/' :: b) = readPoints a ++ 0x2f :: readPoints b := by
  rw [readPoints_append (by decide), readPoints_cons (by decide)]
  rfl

/-- Being without pairs of surrogates goes by components. -/
theorem componentwise_unpaired : Componentwise fun cs => Unpaired (readPoints cs) where
  slash a b := by
    have hhigh : isHighSurrogate 0x2f = false := by decide
    have hlow : isLowSurrogate 0x2f = false := by decide
    rw [readPoints_slash, Unpaired, List.isChain_append, List.isChain_cons]
    simp [hhigh, hlow, Unpaired]
  ascii cs h := by
    rw [readPoints_of_ascii h]
    refine unpaired_of_scalar fun n hn => ?_
    obtain ⟨c, hc, rfl⟩ := List.mem_map.1 hn
    have := h c hc
    simp only [isSurrogate, Bool.and_eq_false_iff, decide_eq_false_iff_not]
    omega

end Text
end UpgradeAudit
