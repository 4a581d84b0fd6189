/-
# Files of a version of a module

The files of a version of a module lie in a directory of the module cache that is named by the
escaped path of the module and by the version.  As escaping leaves the slashes of a path alone
(`pieces_escape`), that directory is a clean path when the path of the module is one
(`tidy_directory`).

A file is named by what follows the path of the module in its file name, where that path stands
first (`Followed`).  In a file of a version the path stands at the front, so **such a file has a
name that does not know the version** (`relativeFile_directory`).
-/
import Mathlib.Data.List.TakeWhile
import UpgradeAudit.ModulePath
import UpgradeAudit.Proofs.Path.Names
import UpgradeAudit.Proofs.Text.Occurrences

namespace UpgradeAudit

/-! ## 1. Pieces and slashes -/

/-- What has no separator in it becomes a part of the piece before it. -/
theorem splitOn_append_of_not_mem {c : Char} {t : List Char} (h : c ∉ t) (s : List Char) :
    ∃ init piece, s.splitOn c = init ++ [piece] ∧ (s ++ t).splitOn c = init ++ [piece ++ t] := by
  induction s with
  | nil => exact ⟨[], [], rfl, List.splitOn_eq_singleton h⟩
  | cons d s ih =>
    obtain ⟨init, piece, hs, hst⟩ := ih
    rw [List.cons_append, List.splitOn_cons_eq_if_modifyHead, List.splitOn_cons_eq_if_modifyHead,
      hs, hst]
    split
    · exact ⟨[] :: init, piece, rfl, rfl⟩
    · cases init with
      | nil => exact ⟨[], d :: piece, rfl, rfl⟩
      | cons first init => exact ⟨(d :: first) :: init, piece, rfl, rfl⟩

/-- What has no separator in it becomes a part of the piece after it. -/
theorem splitOn_append_eq_modifyHead {c : Char} {t : List Char} (h : c ∉ t) (s : List Char) :
    (t ++ s).splitOn c = (s.splitOn c).modifyHead (t ++ ·) := by
  induction t with
  | nil =>
    obtain ⟨first, rest, hs⟩ := List.exists_cons_of_ne_nil (List.splitOn_ne_nil c s)
    simp [hs]
  | cons d t ih =>
    have hd : (d == c) = false := beq_eq_false_iff_ne.2 (by rintro rfl; simp at h)
    rw [List.cons_append, List.splitOn_cons_eq_if_modifyHead, hd,
      ih fun hc => h (List.mem_cons_of_mem _ hc), List.modifyHead_modifyHead]
    rfl

namespace Text

/-- A text without slashes has none among its code points. -/
theorem slash_not_mem_readPoints {cs : List Char} (h : '/' ∉ cs) : 0x2f ∉ readPoints cs := by
  intro hmem
  rcases mem_readPoints hmem with ⟨c, hc, hslash⟩ | hmarked
  · obtain rfl : c = '/' := Char.toNat_inj.1 hslash
    exact h hc
  · simp only [markPoint] at hmarked
    omega

theorem points_slash (s : String) : points ("/" ++ s) = 0x2f :: points s := by
  rw [points, String.toList_append]
  exact readPoints_cons (by decide) s.toList

theorem toList_ofPoints_slash (ps : List Nat) :
    (ofPoints (0x2f :: ps)).toList = '/' :: ps.flatMap spell := by
  have hslash : spell 0x2f = ['/'] := by decide
  rw [ofPoints, String.toList_ofList, List.flatMap_cons, hslash, List.singleton_append]

/-- A text is cut at its first slash as its code points are. -/
theorem dropWhile_ofPoints (ps : List Nat) :
    String.ofList ((ofPoints ps).toList.dropWhile (· ≠ '/'))
      = ofPoints (ps.dropWhile (· ≠ 0x2f)) := by
  induction ps with
  | nil => rfl
  | cons n ps ih =>
    by_cases hn : n = 0x2f
    · subst hn
      rw [toList_ofPoints_slash, List.dropWhile_cons_of_neg (by simp),
        List.dropWhile_cons_of_neg (by simp), ← toList_ofPoints_slash, String.ofList_toList]
    · have hspell : ∀ c ∈ spell n, decide (c ≠ '/') = true := by
        intro c hc
        refine decide_eq_true ?_
        rintro rfl
        exact hn (eq_toNat_of_mem_spell (by decide) (by decide) hc)
      rw [ofPoints, String.toList_ofList] at ih
      rw [ofPoints, String.toList_ofList, List.flatMap_cons, List.dropWhile_append_of_pos hspell,
        ih, List.dropWhile_cons_of_pos (by simp [hn])]

end Text

namespace ModulePath

/-! ## 2. Escaped paths -/

theorem toLower_ne_slash {c : Char} (h : ('A' ≤ c && c ≤ 'Z') = true) : c.toLower ≠ '/' := by
  simp only [Bool.and_eq_true, decide_eq_true_eq] at h
  have hlow : 65 ≤ c.val.toNat := h.1
  have hhigh : c.val.toNat ≤ 90 := h.2
  intro he
  have hval : c.toLower.val.toNat = 47 := congrArg Char.toNat he
  unfold Char.toLower at hval
  split at hval
  · have hshift : ('a'.val - 'A'.val).toNat = 32 := by decide
    have hadd : (c.val + ('a'.val - 'A'.val)).toNat = c.val.toNat + 32 := by
      rw [UInt32.toNat_add, hshift]
      exact Nat.mod_eq_of_lt (by omega)
    rw [hadd] at hval
    omega
  · omega

theorem slash_not_mem_escapeChar {c : Char} (h : c ≠ '/') : '/' ∉ escapeChar c := by
  unfold escapeChar
  split
  · rename_i hupper
    simpa using (toLower_ne_slash hupper).symm
  · simpa using h.symm

/-- **Escaping leaves the slashes of a path alone.** -/
theorem pieces_escape (path : String) :
    Text.pieces '/' (escape path) = (Text.pieces '/' path).map escape := by
  have hsplit (cs : List Char) : (cs.flatMap escapeChar).splitOn '/'
      = (cs.splitOn '/').map (List.flatMap escapeChar) := by
    induction cs with
    | nil => rfl
    | cons c cs ih =>
      obtain ⟨first, rest, hs⟩ := List.exists_cons_of_ne_nil (List.splitOn_ne_nil '/' cs)
      rw [List.flatMap_cons, List.splitOn_cons_eq_if_modifyHead]
      by_cases hc : c = '/'
      · have hslash : escapeChar '/' = ['/'] := by decide
        rw [hc, hslash, List.singleton_append, List.splitOn_cons_eq_if_modifyHead, ih]
        rfl
      · rw [splitOn_append_eq_modifyHead (slash_not_mem_escapeChar hc), ih, hs,
          if_neg (by simpa using hc)]
        rfl
  simp [Text.pieces, escape, hsplit]

/-- A text without the mark for upper-case letters escapes nothing but itself. -/
theorem eq_of_escape_eq {part text : String} (h : escape part = text) (htext : '!' ∉ text.toList) :
    part = text := by
  have hlist : part.toList.flatMap escapeChar = text.toList := by
    rw [← h, escape, String.toList_ofList]
  have hplain : ∀ c ∈ part.toList, escapeChar c = [c] := by
    intro c hc
    unfold escapeChar
    split
    · rename_i hupper
      refine absurd ?_ htext
      rw [← hlist]
      exact List.mem_flatMap.2 ⟨c, hc, by simp [escapeChar, hupper]⟩
    · rfl
  rw [List.flatMap_congr hplain, List.flatMap_singleton'] at hlist
  exact String.toList_inj.1 hlist

/-- An escaped path is as clean as the path. -/
theorem tidy_escape {dep : String} (h : Path.Tidy dep) : Path.Tidy (escape dep) := by
  intro escaped hescaped
  rw [pieces_escape] at hescaped
  obtain ⟨part, hpart, rfl⟩ := List.mem_map.1 hescaped
  obtain ⟨hempty, hdot, hdots⟩ := h part hpart
  exact ⟨fun he => hempty (eq_of_escape_eq he (by decide)),
    fun he => hdot (eq_of_escape_eq he (by decide)),
    fun he => hdots (eq_of_escape_eq he (by decide))⟩

/-! ## 3. What follows a module path -/

/-- The path of a module stands in a file name, escaped or as it is. -/
def Named (dep file : String) : Prop :=
  Text.points (escape dep) <:+: Text.points file ∨ Text.points dep <:+: Text.points file

instance (dep file : String) : Decidable (Named dep file) :=
  inferInstanceAs (Decidable (_ ∨ _))

/-- What follows the path of a module in a file name where it stands first.  The path as it is
counts only when the escaped one stands nowhere. -/
inductive Followed (dep file : String) (rest : List Nat) : Prop where
  | escaped {before : List Nat}
      (h : Text.FirstPlace (Text.points (escape dep)) (Text.points file) before rest)
  | plain {before : List Nat} (hescaped : ¬ Text.points (escape dep) <:+: Text.points file)
      (h : Text.FirstPlace (Text.points dep) (Text.points file) before rest)

section followed

variable {dep file : String}

theorem Followed.unique {rest rest' : List Nat} (h : Followed dep file rest)
    (h' : Followed dep file rest') : rest = rest' := by
  cases h with
  | escaped h =>
    cases h' with
    | escaped h' => exact (h.unique h').2
    | plain hescaped _ => exact absurd h.infix hescaped
  | plain hescaped h =>
    cases h' with
    | escaped h' => exact absurd h'.infix hescaped
    | plain _ h' => exact (h.unique h').2

theorem Followed.lt {rest : List Nat} (h : Followed dep file rest) {n : Nat} (hn : n ∈ rest) :
    n < 0x110000 := by
  cases h with
  | escaped h => exact Text.lt_of_mem_points (h.mem hn)
  | plain _ h => exact Text.lt_of_mem_points (h.mem hn)

theorem exists_followed (h : Named dep file) : ∃ rest, Followed dep file rest := by
  by_cases hescaped : Text.points (escape dep) <:+: Text.points file
  · obtain ⟨before, rest, hplace⟩ := Text.exists_firstPlace hescaped
    exact ⟨rest, .escaped hplace⟩
  · obtain ⟨before, rest, hplace⟩ := Text.exists_firstPlace (h.resolve_left hescaped)
    exact ⟨rest, .plain hescaped hplace⟩

theorem after?_eq_none {root : String} (h : ¬ Text.points root <:+: Text.points file) :
    after? root file = none := by
  rw [after?, Text.splitFirst?_eq_none_iff.2 h]
  rfl

theorem after?_of_firstPlace {root : String} {before rest : List Nat}
    (h : Text.FirstPlace (Text.points root) (Text.points file) before rest) :
    after? root file = some (Text.ofPoints (rest.dropWhile (· ≠ 0x2f))) := by
  rw [after?, Text.splitFirst?_eq_some_iff.2 h, Option.map_some, Text.dropWhile_ofPoints]

/-- A file name is cut at the first slash that follows the path. -/
theorem cut_of_followed {rest : List Nat} (h : Followed dep file rest) :
    (after? (escape dep) file).or (after? dep file)
      = some (Text.ofPoints (rest.dropWhile (· ≠ 0x2f))) := by
  cases h with
  | escaped h => rw [after?_of_firstPlace h, Option.some_or]
  | plain hescaped h => rw [after?_eq_none hescaped, Option.none_or, after?_of_firstPlace h]

/-- **What follows the path from the next slash on is the name of the file.** -/
theorem relativeFile_of_followed {name below : List Nat} (hname : 0x2f ∉ name)
    (h : Followed dep file (name ++ 0x2f :: below)) :
    relativeFile dep file = Text.ofPoints (0x2f :: below) := by
  have hcut : (name ++ 0x2f :: below).dropWhile (· ≠ 0x2f) = 0x2f :: below := by
    rw [List.dropWhile_append_of_pos, List.dropWhile_cons_of_neg (by simp)]
    intro n hn
    refine decide_eq_true ?_
    rintro rfl
    exact hname hn
  have hne : Text.ofPoints (0x2f :: below) ≠ "" := by
    intro he
    have hlist := Text.toList_ofPoints_slash below
    rw [he] at hlist
    cases hlist
  rw [relativeFile, cut_of_followed h, hcut]
  split
  · rename_i hnone
    cases hnone
  · rename_i hempty
    exact absurd (Option.some.inj hempty) hne
  · rename_i found _ hfound
    exact (Option.some.inj hfound).symm

/-- Without a slash after the path a file keeps its name. -/
theorem relativeFile_of_not_mem {rest : List Nat} (hslash : 0x2f ∉ rest)
    (h : Followed dep file rest) : relativeFile dep file = file := by
  have hcut : rest.dropWhile (· ≠ 0x2f) = [] := by
    refine List.dropWhile_eq_nil_iff.2 fun n hn => decide_eq_true ?_
    rintro rfl
    exact hslash hn
  rw [relativeFile, cut_of_followed h, hcut]
  rfl

/-- A file name in which the path does not stand is kept. -/
theorem relativeFile_of_not_named (h : ¬ Named dep file) : relativeFile dep file = file := by
  obtain ⟨hescaped, hplain⟩ := not_or.1 h
  rw [relativeFile, after?_eq_none hescaped, after?_eq_none hplain]
  rfl

end followed

/-! ## 4. Directories of versions -/

/-- The directory of the cache that holds the files of a version of a module. -/
def directory (dep version : String) : String := versioned (escape dep) version

theorem toList_versioned (dep version : String) :
    (versioned dep version).toList = dep.toList ++ '@' :: version.toList := by
  simp [versioned, String.toList_append]

/-- The directory of a version is a clean path. -/
theorem tidy_directory {dep version : String} (hdep : Path.Tidy dep)
    (hversion : '/' ∉ version.toList) : Path.Tidy (directory dep version) := by
  have hend : '/' ∉ '@' :: version.toList := by simpa using hversion
  obtain ⟨init, piece, hescape, hdirectory⟩ :=
    splitOn_append_of_not_mem hend (escape dep).toList
  have hclean := tidy_escape hdep
  rw [Path.Tidy, Text.pieces, hescape] at hclean
  rw [Path.Tidy, Text.pieces, directory, toList_versioned, hdirectory]
  intro part hpart
  rw [List.map_append, List.mem_append] at hpart
  rcases hpart with hinit | hlast
  · exact hclean part (by simp only [List.map_append, List.mem_append]; exact Or.inl hinit)
  · -- the last component holds the sign before the version, so it is none of the three
    have hat : '@' ∈ part.toList := by
      obtain rfl : part = String.ofList (piece ++ '@' :: version.toList) := by simpa using hlast
      simp
    refine ⟨?_, ?_, ?_⟩ <;> · rintro rfl; exact absurd hat (by decide)

/-- In a file of a version the path of the module stands at the front, and its name follows. -/
theorem followed_directory (dep version file : String) :
    Followed dep (directory dep version ++ "/" ++ file)
      (Text.readPoints ('@' :: version.toList) ++ 0x2f :: Text.points file) := by
  have hlist : (directory dep version ++ "/" ++ file).toList
      = (escape dep).toList ++ '@' :: (version.toList ++ '/' :: file.toList) := by
    simp [directory, toList_versioned, String.toList_append]
  have hname : Text.points (directory dep version ++ "/" ++ file)
      = [] ++ Text.points (escape dep)
        ++ (Text.readPoints ('@' :: version.toList) ++ 0x2f :: Text.points file) := by
    rw [List.nil_append, Text.points, hlist, Text.readPoints_append (by decide),
      ← List.cons_append, Text.readPoints_slash]
    rfl
  exact .escaped ⟨hname, fun _ _ _ => Nat.zero_le _⟩

/-- **A file of a version has a name below the directory that does not know the version.** -/
theorem relativeFile_directory {dep version : String} (hversion : '/' ∉ version.toList)
    (file : String) : relativeFile dep (directory dep version ++ "/" ++ file)
      = Text.ofPoints (Text.points ("/" ++ file)) := by
  have hname : 0x2f ∉ Text.readPoints ('@' :: version.toList) :=
    Text.slash_not_mem_readPoints (by simpa using hversion)
  rw [relativeFile_of_followed hname (followed_directory dep version file), Text.points_slash]

end ModulePath
end UpgradeAudit
