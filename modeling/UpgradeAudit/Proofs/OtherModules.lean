/-
# Files of other modules

Issues of a dependency are compared by the names of their files below its directory.  The file of
another module has a name of its own as long as the path of the dependency stands nowhere in it
(`relativeFile_of_not_named`), and then its issues are never the same as issues of the dependency.

But the path may stand in the file name of another module: the path of that module may begin with
it, as `example.com/lib-extra` begins with `example.com/lib`, or hold it, or a directory below may.
What follows it from the next slash on is then taken for the name of a file of the dependency
(`Taken`).  So **issues of two modules are the same exactly when they agree in all else and the one
file is taken for the other** (`same_across_modules`).
-/
import UpgradeAudit.Proofs.Agreement
import UpgradeAudit.Proofs.ModulePaths

namespace UpgradeAudit

namespace ModulePath

/-! ## 1. Files that are taken for others -/

/-- A file name that is taken for the file `below` of a module: the path of the module stands in
it, and from the next slash on it goes on like that file. -/
def Taken (dep file below : String) : Prop :=
  ∃ name, 0x2f ∉ name ∧ Followed dep file (name ++ Text.points ("/" ++ below))

theorem Taken.named {dep file below : String} (h : Taken dep file below) : Named dep file := by
  obtain ⟨name, -, hfollowed⟩ := h
  cases hfollowed with
  | escaped hplace => exact Or.inl hplace.infix
  | plain _ hplace => exact Or.inr hplace.infix

theorem relativeFile_of_taken {dep file below : String} (h : Taken dep file below) :
    relativeFile dep file = Text.ofPoints (Text.points ("/" ++ below)) := by
  obtain ⟨name, hname, hfollowed⟩ := h
  rw [Text.points_slash] at hfollowed ⊢
  exact relativeFile_of_followed hname hfollowed

/-- Texts that are made of the same text are made of the same code points. -/
theorem points_eq_of_ofPoints_eq {ps : List Nat} {s : String} (hps : ∀ n ∈ ps, n < 0x110000)
    (h : Text.ofPoints ps = Text.ofPoints (Text.points s)) : ps = Text.points s := by
  have hs : ∀ n ∈ Text.points s, n < 0x110000 := fun n hn => Text.lt_of_mem_points hn
  rw [← Text.points_ofPoints hps, h, Text.points_ofPoints hs]

/-- **A relative file name is the name of a file of the module when it is taken for that file**,
and only then. -/
theorem relativeFile_eq_iff {dep file below : String} (hfile : Path.isAbsolute file = false) :
    relativeFile dep file = Text.ofPoints (Text.points ("/" ++ below)) ↔ Taken dep file below := by
  constructor
  · intro h
    -- a relative name does not begin with a slash, so it was not kept
    have hchanged : relativeFile dep file ≠ file := by
      intro hkept
      have habsolute : Path.isAbsolute file = true := by
        rw [Path.isAbsolute_iff_head?, ← hkept, h, Text.points_slash, Text.toList_ofPoints_slash]
        rfl
      rw [hfile] at habsolute
      cases habsolute
    by_cases hnamed : Named dep file
    · obtain ⟨rest, hfollowed⟩ := exists_followed hnamed
      by_cases hslash : 0x2f ∈ rest
      · obtain ⟨name, after, rfl, hname⟩ := List.eq_append_cons_of_mem hslash
        rw [relativeFile_of_followed hname hfollowed] at h
        have hlt : ∀ n ∈ 0x2f :: after, n < 0x110000 := by
          intro n hn
          exact hfollowed.lt (List.mem_append_right _ hn)
        exact ⟨name, hname, points_eq_of_ofPoints_eq hlt h ▸ hfollowed⟩
      · exact absurd (relativeFile_of_not_mem hslash hfollowed) hchanged
    · exact absurd (relativeFile_of_not_named hnamed) hchanged
  · exact relativeFile_of_taken

/-- The files of a module have relative names when the path of the module is one. -/
theorem not_isAbsolute_directory {m : String} (hm : Path.Tidy m) (version file : String) :
    Path.isAbsolute (directory m version ++ "/" ++ file) = false := by
  have hescape := (tidy_escape hm).not_isAbsolute
  rw [Bool.eq_false_iff, ne_eq, Path.isAbsolute_iff_head?] at hescape ⊢
  rw [directory, String.toList_append, String.toList_append, toList_versioned]
  cases hlist : (escape m).toList with
  | nil => simp
  | cons c rest =>
    rw [hlist] at hescape
    simpa using hescape

end ModulePath

/-! ## 2. Issues of other modules -/

namespace Issue

open ModulePath

/-- **An issue of a dependency and an issue of another module are the same exactly when they agree
in all else and the file of the other module is taken for the file of the dependency.**  A file in
which the path of the dependency does not stand keeps its name, and its issues are never the
same. -/
theorem same_across_modules {dep m version : String} (hm : Path.Tidy m)
    (hversion : '/' ∉ version.toList) (version' file file' : String) {a b : Issue}
    (ha : a.position.filename = directory dep version ++ "/" ++ file)
    (hb : b.position.filename = directory m version' ++ "/" ++ file') (matchColumn : Bool) :
    relativeFile dep a.position.filename = Text.ofPoints (Text.points ("/" ++ file)) ∧
      (same dep matchColumn a b = true ↔
        a.AgreeButFile matchColumn b ∧ Taken dep b.position.filename file) ∧
      (¬ Named dep b.position.filename →
        relativeFile dep b.position.filename = b.position.filename ∧
          same dep matchColumn a b = false) := by
  have hown : relativeFile dep a.position.filename = Text.ofPoints (Text.points ("/" ++ file)) := by
    rw [ha, relativeFile_directory hversion]
  have hother : relativeFile dep b.position.filename = Text.ofPoints (Text.points ("/" ++ file))
      ↔ Taken dep b.position.filename file := by
    refine relativeFile_eq_iff ?_
    rw [hb]
    exact not_isAbsolute_directory hm version' file'
  have hsame : same dep matchColumn a b = true ↔
      a.AgreeButFile matchColumn b ∧ Taken dep b.position.filename file := by
    rw [same_eq_true_iff, ← hother, ← hown]
    constructor
    · intro h
      exact ⟨h.toAgreeButFile, h.file.symm⟩
    · rintro ⟨hagree, hfile⟩
      exact ⟨hagree, hfile.symm⟩
  refine ⟨hown, hsame, fun hnamed => ⟨relativeFile_of_not_named hnamed, ?_⟩⟩
  rw [Bool.eq_false_iff]
  intro h
  exact hnamed (hsame.1 h).2.named

/-- An unchecked error in a file. -/
def uncheckedIn (file : String) : Issue :=
  ⟨"errcheck", "unchecked error", ⟨file, 3, 2, 0⟩, ["f()"]⟩

theorem agreeButFile_uncheckedIn (matchColumn : Bool) (file file' : String) :
    (uncheckedIn file).AgreeButFile matchColumn (uncheckedIn file') where
  linter := rfl
  text := rfl
  line := rfl
  column _ := rfl
  sourceLines := List.forall₂_same.2 fun _ _ => rfl

/-- Two modules of one owner. -/
theorem same_across_modules_toml :
    let a := uncheckedIn "github.com/!burnt!sushi/toml@v1.3.2/decode.go"
    let b := uncheckedIn "github.com/!burnt!sushi/locker@v0.1.0/decode.go"
    Path.Tidy "github.com/BurntSushi/locker" ∧ '/' ∉ "v1.3.2".toList ∧
      a.position.filename = directory "github.com/BurntSushi/toml" "v1.3.2" ++ "/" ++ "decode.go" ∧
      b.position.filename
        = directory "github.com/BurntSushi/locker" "v0.1.0" ++ "/" ++ "decode.go" ∧
      ¬ Named "github.com/BurntSushi/toml" b.position.filename ∧
      same "github.com/BurntSushi/toml" false a b = false := by
  intro a b
  have hm : Path.Tidy "github.com/BurntSushi/locker" := by decide +kernel
  have hversion : '/' ∉ "v1.3.2".toList := by decide
  have ha : a.position.filename
      = directory "github.com/BurntSushi/toml" "v1.3.2" ++ "/" ++ "decode.go" := by decide +kernel
  have hb : b.position.filename
      = directory "github.com/BurntSushi/locker" "v0.1.0" ++ "/" ++ "decode.go" := by decide +kernel
  have hnamed : ¬ Named "github.com/BurntSushi/toml" b.position.filename := by decide +kernel
  have hapart := same_across_modules hm hversion "v0.1.0" "decode.go" "decode.go" ha hb false
  exact ⟨hm, hversion, ha, hb, hnamed, (hapart.2.2 hnamed).2⟩

/-- A module whose path begins with the path of the dependency: its file is taken for one of the
dependency, and issues of two modules are the same. -/
theorem same_of_longer_path :
    let a := uncheckedIn (directory "example.com/lib" "v1.0.0" ++ "/" ++ "x.go")
    let b := uncheckedIn (directory "example.com/lib-extra" "v1.0.0" ++ "/" ++ "x.go")
    "example.com/lib" ≠ "example.com/lib-extra" ∧ Path.Tidy "example.com/lib" ∧
      Path.Tidy "example.com/lib-extra" ∧ '!' ∉ "example.com/lib".toList ∧
      '@' ∉ "example.com/lib".toList ∧ '!' ∉ "example.com/lib-extra".toList ∧
      '@' ∉ "example.com/lib-extra".toList ∧ '/' ∉ "v1.0.0".toList ∧
      ∀ matchColumn, same "example.com/lib" matchColumn a b = true := by
  intro a b
  refine ⟨by decide, by decide +kernel, by decide +kernel, by decide, by decide, by decide,
    by decide, by decide, ?_⟩
  intro matchColumn
  have hfile : relativeFile "example.com/lib" a.position.filename
      = relativeFile "example.com/lib" b.position.filename := by decide +kernel
  exact same_eq_true_iff.2 ⟨agreeButFile_uncheckedIn matchColumn _ _, hfile⟩

end Issue
end UpgradeAudit
