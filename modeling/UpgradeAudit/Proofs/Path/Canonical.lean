/-
# One name for each file

A file name that is made relative to a root is a canonical form of the file that it names.  Below
the root it is the way from the root to the file, without `..`; elsewhere it is the normal form of
the file itself.  In both cases it leads back to the file from the root (`Names`).  So **two names
come to the same one exactly when they name the same file** (`relativeToRoot_canonical`).

The way back is by components.  Joining puts the components of a relative name after those of the
directory (`ofText_join`), resolving goes through them in this order (`resolve_append`), and a name
below the root has nothing left to resolve.

Two slashes at the front are another tree than one, except below a root that is nothing but slashes.
So the names and the directories must not begin with exactly two of them (`Plain`).
-/
import UpgradeAudit.Proofs.Path.Below

namespace UpgradeAudit.Path

/-! ## 1. Joining -/

theorem join_of_isAbsolute {path : String} (h : isAbsolute path = true) (directory : String) :
    join directory path = path := if_pos h

/-- A relative name stands after the directory, and after a slash that may be the directory's. -/
theorem join_of_relative {path : String} (h : isAbsolute path = false) (directory : String) :
    join directory path
      = if directory = "" ∨ directory.toList.getLast? = some '/' then directory ++ path
        else directory ++ "/" ++ path := by
  simp [join, h]

/-- A text that begins without a slash adds none to those before it. -/
theorem leadingSlashes_append_of_relative {t : List Char} (ht : leadingSlashes t = 0)
    (s : List Char) : leadingSlashes (s ++ t) = leadingSlashes s := by
  have hhead : t.head? ≠ some '/' := by
    intro h
    obtain ⟨rest, rfl⟩ := List.head?_eq_some_iff.1 h
    unfold leadingSlashes at ht
    split at ht <;> simp_all
  by_cases hslash : ∃ c ∈ s, c ≠ '/'
  · exact leadingSlashes_append t hslash
  · have hall : ∀ c ∈ s, c = '/' := by simpa using hslash
    rw [List.eq_replicate_iff.2 ⟨rfl, hall⟩]
    cases t with
    | nil => rw [List.append_nil]
    | cons c t =>
      have hc : c ≠ '/' := fun he => hhead (by simp [he])
      match s.length with
      | 0 => exact ht
      | 1 => simp [leadingSlashes, hc]
      | 2 => simp [leadingSlashes, List.replicate, hc]
      | n + 3 => simp [leadingSlashes, List.replicate_succ]

/-- **A relative name goes on where the directory ends.** -/
theorem ofText_join {path : String} (h : isAbsolute path = false) (directory : String) :
    ofText (join directory path)
      = ⟨(ofText directory).slashes, (ofText directory).parts ++ (ofText path).parts⟩ := by
  have hpath : leadingSlashes path.toList = 0 := not_isAbsolute_iff.1 h
  rw [join_of_relative h]
  split
  · rename_i hends
    have hslashes : (ofText (directory ++ path)).slashes = (ofText directory).slashes := by
      simp only [ofText, String.toList_append]
      exact leadingSlashes_append_of_relative hpath _
    have hparts : (ofText (directory ++ path)).parts
        = (ofText directory).parts ++ (ofText path).parts := by
      rcases hends with rfl | hlast
      · rw [String.empty_append]
        rfl
      · obtain ⟨front, hfront⟩ := List.getLast?_eq_some_iff.1 hlast
        have hdirectory : directory = String.ofList front ++ "/" ++ "" := by
          rw [← String.toList_inj]
          simpa using hfront
        have hnone : (ofText "").parts = [] := rfl
        rw [hdirectory, parts_append_slash, hnone, List.append_nil, String.append_empty,
          parts_append_slash]
    rw [← hslashes, ← hparts]
  · rename_i hopen
    obtain ⟨hne, hlast⟩ := not_or.1 hopen
    have hchars : directory.toList ≠ [] := fun he => hne (String.toList_eq_nil_iff.1 he)
    have hslash : ∃ c ∈ directory.toList, c ≠ '/' := by
      refine ⟨_, List.getLast_mem hchars, fun he => hlast ?_⟩
      rw [List.getLast?_eq_some_getLast hchars, he]
    have hslashes : (ofText (directory ++ "/" ++ path)).slashes = (ofText directory).slashes := by
      simp only [ofText, String.toList_append, List.append_assoc]
      exact leadingSlashes_append _ hslash
    rw [← hslashes, ← parts_append_slash]

/-- A text that does not begin with exactly two slashes. -/
def Plain (s : String) : Prop := leadingSlashes s.toList ≠ 2

instance (s : String) : Decidable (Plain s) := inferInstanceAs (Decidable (_ ≠ _))

theorem plain_iff {s : String} : Plain s ↔ (ofText s).slashes ≠ 2 := Iff.rfl

theorem slashes_of_plain {s : String} (habs : isAbsolute s = true) (hplain : Plain s) :
    (ofText s).slashes = 1 := by
  have hne : (ofText s).slashes ≠ 0 := isAbsolute_iff.1 habs
  have hne' : (ofText s).slashes ≠ 2 := plain_iff.1 hplain
  have hle : (ofText s).slashes ≤ 2 := leadingSlashes_le s.toList
  omega

/-! ## 2. Locating -/

/-- Resolving goes through the components in their order. -/
theorem resolve_append (absolute : Bool) (seen parts rest : List String) :
    resolve absolute seen (parts ++ rest)
      = resolve absolute (resolve absolute seen parts).reverse rest := by
  fun_induction resolve absolute seen parts with
  | case1 seen => rw [List.nil_append, List.reverse_reverse]
  | case2 parts habsolute ih => simpa [resolve, habsolute] using ih
  | case3 parts habsolute ih => simpa [resolve, habsolute] using ih
  | case4 parts before ih => simpa [resolve] using ih
  | case5 parts part before hpart ih => simpa [resolve, hpart] using ih
  | case6 seen part parts hpart ih => simpa [resolve, hpart] using ih

/-- The file that a name leads to from a directory, in its normal form. -/
def located (directory path : String) : String := (ofText (join directory path)).normalise.text

theorem located_of_isAbsolute {path : String} (h : isAbsolute path = true) (directory : String) :
    located directory path = (ofText path).normalise.text := by
  rw [located, join_of_isAbsolute h]

/-- A name without `..` leads to a file below the directory. -/
theorem located_of_relative {path : String} (h : isAbsolute path = false)
    (hlevel : ∀ part ∈ (ofText path).parts, part ≠ "..") (directory : String) :
    located directory path
      = (Path.mk (ofText directory).slashes
          ((ofText directory).normalise.parts ++ (ofText path).parts)).text := by
  rw [located, ofText_join h, Path.normalise, resolve_append, resolve_eq _ _ hlevel,
    List.reverse_reverse]
  rfl

theorem plain_located {directory path : String} (hdir : Plain directory) (hpath : Plain path) :
    Plain (located directory path) := by
  have hread : (ofText (join directory path)).normalise.Read := (read_ofText _).normalise
  rw [plain_iff, located, ofText_text hread, slashes_normalise]
  cases habs : isAbsolute path with
  | true =>
    rw [join_of_isAbsolute habs]
    exact plain_iff.1 hpath
  | false =>
    rw [ofText_join habs]
    exact plain_iff.1 hdir

section

variable {directory path : String} (hdir : isAbsolute directory = true)

include hdir

theorem isAbsolute_join : isAbsolute (join directory path) = true := by
  cases habs : isAbsolute path with
  | true => rwa [join_of_isAbsolute habs]
  | false =>
    rw [isAbsolute_iff, ofText_join habs]
    exact isAbsolute_iff.1 hdir

/-- From an absolute directory, names lead to absolute files in their normal form. -/
theorem settled_located : Settled (located directory path) := by
  have hread : (ofText (join directory path)).normalise.Read := (read_ofText _).normalise
  constructor
  · rw [located, isAbsolute_iff, ofText_text hread, slashes_normalise]
    exact isAbsolute_iff.1 (isAbsolute_join hdir)
  · rw [located, normalise_ofText_text (isAbsolute_join hdir)]

/-- The name of a file is that of the file which it leads to from the base. -/
theorem relativeToRoot_located (hpath : path ≠ "") (root : String) :
    relativeToRoot path root (some directory)
      = relativeToRoot (located directory path) root none := by
  have hjoin : isAbsolute (join directory path) = true := isAbsolute_join hdir
  have hbase : relativeToRoot path root (some directory)
      = relativeToRoot (join directory path) root none := by
    rw [relativeToRoot_of_isAbsolute hjoin]
    cases habs : isAbsolute path with
    | true => rw [join_of_isAbsolute habs, relativeToRoot_of_isAbsolute habs]
    | false =>
      rw [relativeToRoot, if_neg hpath, habs]
      rfl
  rw [hbase, located, relativeToRoot_normalise hjoin]

end

/-! ## 3. Names that lead back -/

/-- Whether a file is a root or lies below it, by components. -/
def Within (root file : String) : Prop := (ofText root).normalise.Holds (ofText file).normalise

/-- A name that stands for a file: the way down to it from a root that it lies below, and otherwise
the file itself. -/
structure Names (root file name : String) : Prop where
  relative (h : Within root file) : isAbsolute name = false
  descends (h : Within root file) : ".." ∉ Text.pieces '/' name
  leads : located root name = file
  outside (h : ¬ Within root file) : name = file

/-- A name stands for one file. -/
theorem Names.unique {root file file' name : String} (h : Names root file name)
    (h' : Names root file' name) : file = file' := h.leads.symm.trans h'.leads

namespace Settled

variable {root file : String} (hfile : Settled file)

include hfile

/-- A file that is nowhere below the root stands for itself. -/
theorem names_self (hout : ¬ Within root file) : Names root file file := by
  refine ⟨fun h => absurd h hout, fun h => absurd h hout, ?_, fun _ => rfl⟩
  rw [located_of_isAbsolute hfile.absolute, hfile.normal]

/-- The components after those of the root are the way down from it. -/
theorem names_rest {rest : List String} (hslashes : (ofText file).slashes = (ofText root).slashes)
    (happend : (ofText root).normalise.parts ++ rest = (ofText file).parts) :
    Names root file (Path.mk 0 rest).text := by
  have hsub : rest ⊆ (ofText file).parts := happend ▸ List.subset_append_right _ _
  have hparts : ofText (Path.mk 0 rest).text = ⟨0, rest⟩ :=
    ofText_text ((read_ofText file).relative hsub)
  have hlevel : ∀ part ∈ (ofText (Path.mk 0 rest).text).parts, part ≠ ".." := by
    rw [hparts]
    exact fun part hpart => hfile.ne_dotdot part (hsub hpart)
  have hrelative : isAbsolute (Path.mk 0 rest).text = false := by
    rw [not_isAbsolute_iff, hparts]
  have hin : Within root file := by
    constructor
    · exact Or.inl hslashes
    · rw [hfile.normalise_ofText]
      exact ⟨rest, happend⟩
  refine ⟨fun _ => hrelative, fun _ hup => ?_, ?_, fun h => absurd hin h⟩
  · exact hlevel ".." (List.mem_filter.2 ⟨hup, by decide⟩) rfl
  · rw [located_of_relative hrelative hlevel, hparts, happend, ← hslashes]
    exact hfile.text_ofText

/-- **A file in its normal form is named by what making it relative gives.** -/
theorem names (hroot : isAbsolute root = true) (hrootplain : Plain root) (hplain : Plain file) :
    Names root file (relativeToRoot file root none) := by
  have hne : root ≠ "" := by
    rintro rfl
    exact absurd hroot (by decide)
  have hone : (ofText root).slashes = 1 := slashes_of_plain hroot hrootplain
  have hone' : (ofText file).slashes = 1 := slashes_of_plain hfile.absolute hplain
  have hslashes : (ofText file).slashes = (ofText root).slashes := hone'.trans hone.symm
  have hbelow : ∀ rest, below? (ofText root).normalise (ofText file) = some rest ↔
      (ofText root).normalise.parts ++ rest = (ofText file).parts := by
    intro rest
    rw [below?_eq_some_iff (by simp [hone]) (by simp [hone']), slashes_normalise]
    exact and_iff_right (Or.inl hslashes)
  rw [relativeToRoot_of_isAbsolute hfile.absolute, if_neg hne, hfile.normalise_ofText,
    hfile.text_ofText]
  cases hrest : below? (ofText root).normalise (ofText file) with
  | some rest => exact hfile.names_rest hslashes ((hbelow rest).1 hrest)
  | none =>
    refine hfile.names_self ?_
    rintro ⟨-, rest, happend⟩
    rw [hfile.normalise_ofText, ← hbelow, hrest] at happend
    exact Option.some_ne_none rest happend.symm

end Settled

-- A directory whose name only begins with the root's is outside.
example : relativeToRoot "/cache-old/y.go" "/cache" (some "/") = "/cache-old/y.go" := by decide

/-- **Two names come to the same one exactly when they lead to the same file**, and the name that
they come to stands for it.  A name that was made relative once is not changed by doing it again. -/
theorem relativeToRoot_canonical {root base p q : String} (hroot : isAbsolute root = true)
    (hbase : isAbsolute base = true) (hp : p ≠ "") (hq : q ≠ "")
    (hplain : ∀ s ∈ [root, base, p, q], Plain s) :
    Names root (located base p) (relativeToRoot p root (some base)) ∧
      (relativeToRoot p root (some base) = relativeToRoot q root (some base) ↔
        located base p = located base q) ∧
      ∀ path root : String,
        relativeToRoot (relativeToRoot path root none) root none
          = relativeToRoot path root none := by
  have names : ∀ path ∈ [p, q], path ≠ "" →
      Names root (located base path) (relativeToRoot path root (some base)) := by
    intro path hpath hne
    have hmem : path ∈ [root, base, p, q] := by
      simp only [List.mem_cons] at hpath ⊢
      exact Or.inr (Or.inr hpath)
    have hbaseplain : Plain base := hplain base (by simp)
    rw [relativeToRoot_located hbase hne]
    exact (settled_located hbase).names hroot (hplain root (by simp))
      (plain_located hbaseplain (hplain path hmem))
  have hpnames := names p (by simp) hp
  refine ⟨hpnames, ⟨fun h => ?_, fun h => ?_⟩, relativeToRoot_relativeToRoot⟩
  · rw [h] at hpnames
    exact hpnames.unique (names q (by simp) hq)
  · rw [relativeToRoot_located hbase hp, relativeToRoot_located hbase hq, h]

/-- Two ways to one file in a cache, written from a directory beside it. -/
theorem relativeToRoot_canonical_detour :
    Names "/cache/" "/cache/a@v1/y.go"
        (relativeToRoot "./x/../y.go" "/cache/" (some "/cache/a@v1/sub/..")) ∧
      relativeToRoot "./x/../y.go" "/cache/" (some "/cache/a@v1/sub/..")
        = relativeToRoot "/cache/a@v1//y.go" "/cache/" (some "/cache/a@v1/sub/..") := by
  obtain ⟨hnames, heq, -⟩ :=
    @relativeToRoot_canonical "/cache/" "/cache/a@v1/sub/.." "./x/../y.go" "/cache/a@v1//y.go"
      (by decide) (by decide) (by decide) (by decide) (by decide)
  exact ⟨hnames, heq.2 (by decide)⟩

end UpgradeAudit.Path
