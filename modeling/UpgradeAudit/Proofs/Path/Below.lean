/-
# Files below a root

A file has one name below a root wherever the root lies (`relativeToRoot_below`), a file outside
keeps a name that does not know the root (`relativeToRoot_of_outside`), and a name that was made
relative once is not changed by doing it again (`relativeToRoot_relativeToRoot`).

The proofs go by components.  A text and the path it names are two forms of one thing
(`ofText_text`), and `..` is the only component that resolving can change (`resolve_eq`).
-/
import UpgradeAudit.Proofs.Path.Components

namespace UpgradeAudit

/-- The pieces before a separator, and those after it. -/
theorem pieces_append_slash (a b : String) :
    Text.pieces '/' (a ++ "/" ++ b) = Text.pieces '/' a ++ Text.pieces '/' b := by
  have hlist : (a ++ "/" ++ b).toList = a.toList ++ '/' :: b.toList := by
    simp [String.toList_append]
  rw [Text.pieces, Text.pieces, Text.pieces, hlist, List.splitOn_append_cons_self, List.map_append]

namespace Path

/-! ## 1. Texts and components -/

theorem leadingSlashes_append {s : List Char} (t : List Char) (h : ∃ c ∈ s, c ≠ '/') :
    leadingSlashes (s ++ t) = leadingSlashes s := by
  obtain ⟨c, hc, hne⟩ := h
  match s, hc with
  | [d], hc =>
    obtain rfl : c = d := by simpa using hc
    simp [leadingSlashes, hne]
  | [d, e], hc =>
    by_cases hd : d = '/'
    · have he : e ≠ '/' := by
        rintro rfl
        simp [hd, hne] at hc
      simp [leadingSlashes, hd, he]
    · simp [leadingSlashes, hd]
  | d :: e :: f :: rest, _ =>
    by_cases hd : d = '/' <;> by_cases he : e = '/' <;> by_cases hf : f = '/' <;>
      simp [leadingSlashes, hd, he, hf]

theorem isAbsolute_iff {s : String} : isAbsolute s = true ↔ (ofText s).slashes ≠ 0 := by
  simp [isAbsolute, ofText]

theorem not_isAbsolute_iff {s : String} : isAbsolute s = false ↔ (ofText s).slashes = 0 := by
  simp [isAbsolute, ofText]

/-- An absolute path is one that begins with a slash. -/
theorem isAbsolute_iff_head? {s : String} : isAbsolute s = true ↔ s.toList.head? = some '/' := by
  cases hlist : s.toList with
  | nil => simp [isAbsolute, hlist, leadingSlashes]
  | cons c rest =>
    by_cases hc : c = '/'
    · subst hc
      have hslashes : leadingSlashes ('/' :: rest) ≠ 0 := by
        unfold leadingSlashes
        split <;> simp_all
      simp [isAbsolute, hlist, hslashes]
    · simp [isAbsolute, hlist, leadingSlashes, hc]

theorem leadingSlashes_le (s : List Char) : leadingSlashes s ≤ 2 := by
  unfold leadingSlashes
  split <;> omega

/-- Slashes before a character that is none count as they are, up to two of them. -/
theorem leadingSlashes_replicate_append {n : Nat} (hn : n ≤ 2) {c : Char} (hc : c ≠ '/')
    (t : List Char) : leadingSlashes (List.replicate n '/' ++ c :: t) = n := by
  match n, hn with
  | 0, _ => simp [leadingSlashes, hc]
  | 1, _ => simp [leadingSlashes, List.replicate, hc]
  | 2, _ => simp [leadingSlashes, List.replicate, hc]

/-- What a written path starts with after its slashes. -/
theorem exists_toList_text {p : Path} (hp : p.Clean) (h : p.parts ≠ []) :
    ∃ c rest, c ≠ '/' ∧ p.text.toList = List.replicate p.slashes '/' ++ c :: rest := by
  obtain ⟨part, parts, hparts⟩ := List.exists_cons_of_ne_nil h
  obtain ⟨hpart, hslash⟩ := hp part (by simp [hparts])
  obtain ⟨c, cs, hcs⟩ :=
    List.exists_cons_of_ne_nil fun he => hpart (String.toList_eq_nil_iff.1 he)
  have hc : c ≠ '/' := fun he => hslash (by simp [hcs, he])
  rw [toList_text h, hparts, List.map_cons, hcs]
  cases parts with
  | nil => exact ⟨c, cs, hc, by simp⟩
  | cons q parts => exact ⟨c, _, hc, by simp [List.intercalate_cons_cons]; rfl⟩

/-- Components as a reading gives them: clean, and no single dot among them. -/
def Read (p : Path) : Prop := p.Clean ∧ (∀ part ∈ p.parts, part ≠ ".") ∧ p.slashes ≤ 2

theorem read_ofText (s : String) : (ofText s).Read :=
  ⟨clean_ofText s, fun _ h => ne_dot_of_mem_ofText h, leadingSlashes_le s.toList⟩

/-- Components of a path are a relative path. -/
theorem Read.relative {p : Path} (hp : p.Read) {parts : List String} (h : parts ⊆ p.parts) :
    (Path.mk 0 parts).Read :=
  ⟨fun part hpart => hp.1 part (h hpart), fun part hpart => hp.2.1 part (h hpart), Nat.zero_le _⟩

/-- **A path that is written out is read back.** -/
theorem ofText_text {p : Path} (hp : p.Read) : ofText p.text = p := by
  obtain ⟨hclean, hdot, hslashes⟩ := hp
  by_cases h : p.parts = []
  · obtain ⟨n, parts⟩ := p
    obtain rfl : parts = [] := h
    match n, hslashes with
    | 0, _ => rfl
    | 1, _ => rfl
    | 2, _ => rfl
  · obtain ⟨c, rest, hc, htext⟩ := exists_toList_text hclean h
    have hparts : (Text.pieces '/' p.text).filter (fun q => q ≠ "" && q ≠ ".") = p.parts := by
      rw [pieces_text hclean h, List.filter_append, List.filter_eq_nil_iff.2, List.nil_append,
        List.filter_eq_self]
      · intro q hq
        simp [(hclean q hq).1, hdot q hq]
      · intro q hq
        simp [List.eq_of_mem_replicate hq]
    rw [ofText, htext, leadingSlashes_replicate_append hslashes hc, hparts]

/-- The components of two paths with a slash between them. -/
theorem parts_append_slash (a b : String) :
    (ofText (a ++ "/" ++ b)).parts = (ofText a).parts ++ (ofText b).parts := by
  simp only [ofText, pieces_append_slash, List.filter_append]

/-! ## 2. Resolving -/

/-- Without `..` nothing is resolved. -/
theorem resolve_eq (absolute : Bool) (seen : List String) {parts : List String}
    (h : ∀ part ∈ parts, part ≠ "..") : resolve absolute seen parts = seen.reverse ++ parts := by
  induction parts generalizing seen with
  | nil => simp [resolve]
  | cons part parts ih =>
    have hpart : part ≠ ".." := h part List.mem_cons_self
    rw [resolve, ih (part :: seen) fun q hq => h q (List.mem_cons_of_mem _ hq)]
    · simp
    · intro he
      exact hpart he

/-- What resolving leaves was there before, or is a `..` that a relative path keeps. -/
theorem mem_resolve {absolute : Bool} {seen parts : List String} {part : String}
    (h : part ∈ resolve absolute seen parts) :
    part ∈ seen ∨ part ∈ parts ∨ (absolute = false ∧ part = "..") := by
  fun_induction resolve absolute seen parts with
  | case1 => exact Or.inl (List.mem_reverse.1 h)
  | case2 rest habsolute ih => grind
  | case3 rest habsolute ih => grind
  | case4 => grind
  | case5 => grind
  | case6 => grind

/-- In an absolute path every `..` is resolved. -/
theorem ne_dotdot_of_mem_resolve {seen parts : List String} (hseen : ∀ part ∈ seen, part ≠ "..") :
    ∀ part ∈ resolve true seen parts, part ≠ ".." := by
  generalize habs : true = absolute
  fun_induction resolve absolute seen parts with
  | case1 => grind
  | case2 => grind
  | case3 => grind
  | case4 => grind
  | case5 => grind
  | case6 => grind

@[simp]
theorem slashes_normalise (p : Path) : p.normalise.slashes = p.slashes := rfl

theorem Read.normalise {p : Path} (hp : p.Read) : p.normalise.Read := by
  obtain ⟨hclean, hdot, hslashes⟩ := hp
  refine ⟨?_, ?_, hslashes⟩
  · intro part hpart
    rcases mem_resolve hpart with h | h | ⟨-, rfl⟩
    · exact absurd h List.not_mem_nil
    · exact hclean part h
    · exact ⟨by decide, by decide⟩
  · intro part hpart
    rcases mem_resolve hpart with h | h | ⟨-, rfl⟩
    · exact absurd h List.not_mem_nil
    · exact hdot part h
    · decide

/-- An absolute path in its normal form has no `..`. -/
theorem ne_dotdot_of_mem_normalise {p : Path} (hp : p.slashes ≠ 0) :
    ∀ part ∈ p.normalise.parts, part ≠ ".." := by
  have habs : decide (p.slashes ≠ 0) = true := decide_eq_true hp
  rw [Path.normalise, habs]
  exact ne_dotdot_of_mem_resolve (by simp)

theorem normalise_eq_self {p : Path} (h : ∀ part ∈ p.parts, part ≠ "..") : p.normalise = p := by
  rw [Path.normalise, resolve_eq _ _ h]
  rfl

/-- An absolute path that is written in its normal form is read in it. -/
theorem normalise_ofText_text {s : String} (h : isAbsolute s = true) :
    (ofText (ofText s).normalise.text).normalise = (ofText s).normalise := by
  rw [ofText_text (read_ofText s).normalise]
  exact normalise_eq_self (ne_dotdot_of_mem_normalise (isAbsolute_iff.1 h))

/-! ## 3. Clean relative paths and normal roots -/

/-- A relative path as it is written best: no component is empty, a dot or two dots. -/
def Tidy (s : String) : Prop := ∀ part ∈ Text.pieces '/' s, part ≠ "" ∧ part ≠ "." ∧ part ≠ ".."

/-- An absolute path in its normal form. -/
structure Settled (s : String) : Prop where
  absolute : isAbsolute s = true
  normal : (ofText s).normalise.text = s

instance (s : String) : Decidable (Tidy s) :=
  inferInstanceAs (Decidable (∀ part ∈ Text.pieces '/' s, part ≠ "" ∧ part ≠ "." ∧ part ≠ ".."))

instance (s : String) : Decidable (Settled s) :=
  decidable_of_iff (isAbsolute s = true ∧ (ofText s).normalise.text = s)
    ⟨fun h => ⟨h.1, h.2⟩, fun h => ⟨h.absolute, h.normal⟩⟩

theorem Tidy.not_isAbsolute {s : String} (hs : Tidy s) : isAbsolute s = false := by
  rw [Bool.eq_false_iff]
  intro h
  obtain ⟨rest, hrest⟩ := List.head?_eq_some_iff.1 (isAbsolute_iff_head?.1 h)
  refine absurd rfl (hs "" ?_).1
  rw [Text.pieces, hrest, List.splitOn_cons_eq_if_modifyHead, if_pos (beq_self_eq_true _)]
  simp

theorem Tidy.ne_empty {s : String} (hs : Tidy s) : s ≠ "" := by
  rintro rfl
  exact absurd rfl (hs "" (by decide)).1

/-- A clean relative path is its pieces. -/
theorem Tidy.ofText {s : String} (hs : Tidy s) : Path.ofText s = ⟨0, Text.pieces '/' s⟩ := by
  have hslashes : leadingSlashes s.toList = 0 := not_isAbsolute_iff.1 hs.not_isAbsolute
  rw [Path.ofText, hslashes, List.filter_eq_self.2]
  intro part hpart
  simp [(hs part hpart).1, (hs part hpart).2.1]

/-- The pieces of a text, written out again. -/
theorem text_pieces (s : String) : (Path.mk 0 (Text.pieces '/' s)).text = s := by
  have hne : Text.pieces '/' s ≠ [] := by
    simp [Text.pieces, List.splitOn_ne_nil]
  have hlist : ((Text.pieces '/' s).map String.toList) = s.toList.splitOn '/' := by
    simp [Text.pieces]
  refine String.toList_inj.1 ?_
  rw [toList_text hne, hlist, List.intercalate_splitOn]
  rfl

/-- A path below another one. -/
theorem Tidy.append {a b : String} (ha : Tidy a) (hb : Tidy b) : Tidy (a ++ "/" ++ b) := by
  intro part hpart
  rw [pieces_append_slash] at hpart
  rcases List.mem_append.1 hpart with h | h
  · exact ha part h
  · exact hb part h

namespace Settled

variable {root : String} (h : Settled root)

include h

theorem slashes_ne_zero : (ofText root).slashes ≠ 0 := isAbsolute_iff.1 h.absolute

theorem ne_empty : root ≠ "" := by
  rintro rfl
  exact absurd h.absolute (by decide)

/-- Reading a root in its normal form leaves nothing to resolve. -/
theorem normalise_ofText : (ofText root).normalise = ofText root := by
  have := ofText_text (read_ofText root).normalise
  rw [h.normal] at this
  exact this.symm

theorem ne_dotdot : ∀ part ∈ (ofText root).parts, part ≠ ".." := by
  have := ne_dotdot_of_mem_normalise h.slashes_ne_zero
  rwa [h.normalise_ofText] at this

theorem text_ofText : (ofText root).text = root := by
  have := h.normal
  rwa [h.normalise_ofText] at this

/-- The slashes of a path below a root are those of the root, unless the root is nothing else. -/
theorem slashes_append (s : String) :
    (ofText (root ++ "/" ++ s)).slashes ≠ 0 ∧
      ((ofText root).parts ≠ [] → (ofText (root ++ "/" ++ s)).slashes = (ofText root).slashes) := by
  have hlist : (root ++ "/" ++ s).toList = root.toList ++ '/' :: s.toList := by
    simp [String.toList_append]
  constructor
  · have hroot := h.absolute
    simp only [isAbsolute, ne_eq, decide_eq_true_eq] at hroot
    show leadingSlashes (root ++ "/" ++ s).toList ≠ 0
    rw [hlist]
    intro hzero
    match hr : root.toList with
    | [] => simp [hr, leadingSlashes] at hroot
    | c :: rest =>
      by_cases hc : c = '/'
      · subst hc
        rw [hr] at hzero
        unfold leadingSlashes at hzero
        split at hzero <;> simp_all
      · simp [hr, leadingSlashes, hc] at hroot
  · intro hparts
    obtain ⟨c, rest, hc, htext⟩ := exists_toList_text (clean_ofText root) hparts
    rw [h.text_ofText] at htext
    show leadingSlashes (root ++ "/" ++ s).toList = leadingSlashes root.toList
    rw [hlist, leadingSlashes_append]
    exact ⟨c, by simp [htext], hc⟩

/-- The components below a root stand after those of the root. -/
theorem parts_append {s : String} (hs : Tidy s) :
    (ofText (root ++ "/" ++ s)).normalise.parts = (ofText root).parts ++ Text.pieces '/' s := by
  have hparts : (ofText (root ++ "/" ++ s)).parts
      = (ofText root).parts ++ Text.pieces '/' s := by
    rw [parts_append_slash, hs.ofText]
  rw [normalise_eq_self, hparts]
  intro part hpart
  rw [hparts] at hpart
  rcases List.mem_append.1 hpart with hroot | hrest
  · exact h.ne_dotdot part hroot
  · exact (hs part hrest).2.2

end Settled

/-! ## 4. Names below a root -/

/-- The name of an absolute file. -/
theorem relativeToRoot_of_isAbsolute {path : String} (h : isAbsolute path = true) (root : String)
    (base : Option String) :
    relativeToRoot path root base
      = if root = "" then (ofText path).normalise.text
        else match below? (ofText root).normalise (ofText path).normalise with
          | some parts => (Path.mk 0 parts).text
          | none => (ofText path).normalise.text := by
  have hne : path ≠ "" := by
    rintro rfl
    exact absurd h (by decide)
  rw [relativeToRoot, if_neg hne]
  exact if_pos h

/-- The name of an absolute file goes by its normal form. -/
theorem relativeToRoot_normalise {path : String} (h : isAbsolute path = true) (root : String) :
    relativeToRoot (ofText path).normalise.text root none = relativeToRoot path root none := by
  have hstill : isAbsolute (ofText path).normalise.text = true := by
    rw [isAbsolute_iff, ofText_text (read_ofText path).normalise, slashes_normalise]
    exact isAbsolute_iff.1 h
  rw [relativeToRoot_of_isAbsolute hstill, relativeToRoot_of_isAbsolute h, normalise_ofText_text h]

/-- The name of a relative file, without a base. -/
theorem relativeToRoot_of_relative {path : String} (hne : path ≠ "") (h : isAbsolute path = false)
    (root : String) : relativeToRoot path root none = (ofText path).text := by
  simp only [relativeToRoot, if_neg hne, h, Bool.false_eq_true, if_false]

/-- Whether an absolute path is a root or lies below it. -/
def Holds (root p : Path) : Prop :=
  (p.slashes = root.slashes ∨ root.parts = []) ∧ root.parts <+: p.parts

/-- What is below a root comes after it, where both have the same slashes or the root has
nothing else. -/
theorem below?_eq_some_iff {root p : Path} (hroot : root.slashes ≠ 0) (hp : p.slashes ≠ 0)
    {rest : List String} :
    below? root p = some rest ↔
      (p.slashes = root.slashes ∨ root.parts = []) ∧ root.parts ++ rest = p.parts := by
  by_cases hparts : root.parts = []
  · have hall : below? root p = some p.parts := by simp [below?, hparts, hroot, hp]
    rw [hall, hparts, Option.some_inj, eq_comm]
    simp
  · have hempty : ¬ root.parts.isEmpty = true := by simpa using hparts
    rw [below?, if_neg hempty]
    by_cases hslashes : p.slashes = root.slashes
    · rw [if_pos hslashes]
      constructor
      · exact fun h => ⟨Or.inl hslashes, (Text.eq_append_of_isPrefixOf? h).symm⟩
      · rintro ⟨-, happend⟩
        rw [← happend, Text.isPrefixOf?_append]
    · simp [hslashes, hparts]

theorem below?_eq_none {root p : Path} (hroot : root.slashes ≠ 0) (hp : p.slashes ≠ 0)
    (h : ¬ root.Holds p) : below? root p = none := by
  cases hbelow : below? root p with
  | none => rfl
  | some rest =>
    obtain ⟨hslashes, happend⟩ := (below?_eq_some_iff hroot hp).1 hbelow
    exact absurd ⟨hslashes, ⟨rest, happend⟩⟩ h

/-- **A file below a root has the name that it has there**, wherever the root lies. -/
theorem relativeToRoot_below {root s : String} (hroot : Settled root) (hs : Tidy s)
    (base : Option String) : relativeToRoot (root ++ "/" ++ s) root base = s := by
  obtain ⟨hslashes, hsame⟩ := hroot.slashes_append s
  have habs : isAbsolute (root ++ "/" ++ s) = true := isAbsolute_iff.2 hslashes
  have hbelow : below? (ofText root).normalise (ofText (root ++ "/" ++ s)).normalise
      = some (Text.pieces '/' s) := by
    have hfile : (ofText (root ++ "/" ++ s)).normalise.slashes ≠ 0 := hslashes
    rw [hroot.normalise_ofText, below?_eq_some_iff hroot.slashes_ne_zero hfile]
    refine ⟨?_, (hroot.parts_append hs).symm⟩
    by_cases hparts : (ofText root).parts = []
    · exact Or.inr hparts
    · exact Or.inl (hsame hparts)
  rw [relativeToRoot_of_isAbsolute habs, if_neg hroot.ne_empty, hbelow]
  exact text_pieces s

theorem below?_sub {root p : Path} {parts : List String} (h : below? root p = some parts) :
    parts ⊆ p.parts := by
  unfold below? at h
  split at h
  · split at h
    · split at h <;> simp_all
    · split at h <;> simp_all
  · split at h
    · rw [Text.eq_append_of_isPrefixOf? h]
      exact List.subset_append_right _ _
    · simp at h

/-- A file that is outside a root: written relatively, or absolute and not below it. -/
def Outside (root file : String) : Prop :=
  isAbsolute file = true → ¬ (ofText root).normalise.Holds (ofText file).normalise

/-- **The name of a file outside does not know the root.** -/
theorem relativeToRoot_of_outside {root root' file : String} (hroot : Settled root)
    (hroot' : Settled root') (h : Outside root file) (h' : Outside root' file) :
    relativeToRoot file root none = relativeToRoot file root' none := by
  cases habs : isAbsolute file with
  | false =>
    by_cases hne : file = ""
    · rw [hne]
      rfl
    · rw [relativeToRoot_of_relative hne habs, relativeToRoot_of_relative hne habs]
  | true =>
    have hslashes : (ofText file).slashes ≠ 0 := isAbsolute_iff.1 habs
    have hnone : below? (ofText root).normalise (ofText file).normalise = none :=
      below?_eq_none hroot.slashes_ne_zero hslashes (h habs)
    have hnone' : below? (ofText root').normalise (ofText file).normalise = none :=
      below?_eq_none hroot'.slashes_ne_zero hslashes (h' habs)
    rw [relativeToRoot_of_isAbsolute habs, relativeToRoot_of_isAbsolute habs,
      if_neg hroot.ne_empty, if_neg hroot'.ne_empty, hnone, hnone']

/-! ## 5. Names that were made relative -/

/-- A written path without slashes before it is a relative one. -/
theorem relativeToRoot_text {p : Path} (hp : p.Read) (h : p.slashes = 0) (root : String) :
    relativeToRoot p.text root none = p.text := by
  have hrel : isAbsolute p.text = false := by rw [not_isAbsolute_iff, ofText_text hp, h]
  rw [relativeToRoot_of_relative (text_ne_empty hp.1) hrel, ofText_text hp]

/-- **Making a name relative twice is making it relative once.** -/
theorem relativeToRoot_relativeToRoot (path root : String) :
    relativeToRoot (relativeToRoot path root none) root none = relativeToRoot path root none := by
  cases habs : isAbsolute path with
  | false =>
    by_cases hne : path = ""
    · rw [hne]
      rfl
    · rw [relativeToRoot_of_relative hne habs]
      exact relativeToRoot_text (read_ofText path) (not_isAbsolute_iff.1 habs) root
  | true =>
    have hread : (ofText path).normalise.Read := (read_ofText path).normalise
    have hname := relativeToRoot_of_isAbsolute habs root none
    split at hname
    · rw [hname, relativeToRoot_normalise habs, hname]
    · split at hname
      · rename_i parts hbelow
        rw [hname]
        exact relativeToRoot_text (hread.relative (below?_sub hbelow)) rfl root
      · rw [hname, relativeToRoot_normalise habs, hname]

/-- A file that has a name keeps one. -/
theorem relativeToRoot_ne_empty {path : String} (hne : path ≠ "") (root : String) :
    relativeToRoot path root none ≠ "" := by
  cases habs : isAbsolute path with
  | false =>
    rw [relativeToRoot_of_relative hne habs]
    exact text_ne_empty (clean_ofText path)
  | true =>
    have hread : (ofText path).normalise.Read := (read_ofText path).normalise
    rw [relativeToRoot_of_isAbsolute habs]
    split
    · exact text_ne_empty hread.1
    · split
      · rename_i parts hbelow
        exact text_ne_empty fun part h => hread.1 part (below?_sub hbelow h)
      · exact text_ne_empty hread.1

end Path
end UpgradeAudit
