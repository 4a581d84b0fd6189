/-
# Findings that agree

Whether two findings are the same is told field by field.  Capabilities are the same when they
agree in every field, hop by hop along their call paths (`Capability.Agree`).  Issues are the same
when they agree in what is compared of them, line by line in their source (`Issue.Agree`): of a
source line the blanks at its ends do not count, and of a position the offset does not, nor the
column unless it is asked for.

So neither comparison is thrown off by sequences of different lengths, both are equivalences, and
source lines may be indented in any way: **the answer is the same for issues that were reformatted**
(`same_iff_agree`).
-/
import UpgradeAudit.Proofs.Matching
import UpgradeAudit.Proofs.Text.Blanks

namespace UpgradeAudit

/-! ## 1. Capabilities -/

/-- Capabilities that agree in each field, and in each hop of their call paths. -/
structure Capability.Agree (a b : Capability) : Prop where
  packageName : a.packageName = b.packageName
  packageDir : a.packageDir = b.packageDir
  kind : a.kind = b.kind
  type : a.type = b.type
  path : List.Forall₂ (fun h h' => h.name = h'.name ∧ h.site = h'.site) a.path b.path

theorem Capability.agree_iff_eq {a b : Capability} : a.Agree b ↔ a = b := by
  have hhops : (fun h h' : Hop => h.name = h'.name ∧ h.site = h'.site) = Eq := by
    funext h h'
    exact propext Hop.ext_iff.symm
  constructor
  · rintro ⟨hname, hdir, hkind, htype, hpath⟩
    rw [hhops, List.forall₂_eq_eq_eq] at hpath
    exact Capability.ext hname hdir hkind htype hpath
  · rintro rfl
    refine ⟨rfl, rfl, rfl, rfl, ?_⟩
    rw [hhops, List.forall₂_eq_eq_eq]

/-! ## 2. Source lines -/

namespace Issue

/-- Lines are stripped to the same ones when they are as many, and stripped to the same line by
line. -/
theorem map_strip_eq_iff {lines lines' : List String} :
    lines.map Text.strip = lines'.map Text.strip
      ↔ List.Forall₂ (fun l l' => Text.strip l = Text.strip l') lines lines' := by
  rw [← List.forall₂_eq_eq_eq, List.forall₂_map_left_iff, List.forall₂_map_right_iff]

theorem map_strip_of_sameInside {lines lines' : List String}
    (h : List.Forall₂ Text.SameInside lines lines') :
    lines.map Text.strip = lines'.map Text.strip :=
  map_strip_eq_iff.2 (h.imp fun _ _ => Text.strip_eq_iff.2)

theorem map_strip_normaliseLines (lines : List String) :
    (normaliseLines lines).map Text.strip = lines.map Text.strip := by
  rw [normaliseLines, List.map_map]
  exact List.map_congr_left fun line _ => Text.strip_append_strip (List.all_eq_true.1 rfl) line

/-- An issue and the same issue with other blanks at the ends of its source lines: some were put
around the lines, or all lines were given the same indentation. -/
inductive Reformatted : Issue → Issue → Prop where
  | padded (issue : Issue) {lines : List String}
      (h : List.Forall₂ (fun l l' => Text.Padded l.toList l'.toList) issue.sourceLines lines) :
      Reformatted issue { issue with sourceLines := lines }
  | normalised (issue : Issue) :
      Reformatted issue { issue with sourceLines := normaliseLines issue.sourceLines }

/-- Reformatting changes nothing that is compared. -/
theorem Reformatted.content_eq {issue issue' : Issue} (h : Reformatted issue issue')
    (dep : String) (matchColumn : Bool) :
    issue'.content dep matchColumn = issue.content dep matchColumn := by
  cases h with
  | @padded lines hpadded =>
    have hinside : List.Forall₂ Text.SameInside issue.sourceLines lines := by
      refine hpadded.imp fun l l' hl => ?_
      exact ⟨l.toList, ⟨[], [], by simp, by simp, by simp⟩, hl⟩
    have hlines := map_strip_of_sameInside hinside
    simp only [content, hlines]
  | normalised =>
    have hlines := map_strip_normaliseLines issue.sourceLines
    simp only [content, hlines]

/-! ## 3. Issues -/

/-- Issues that agree in what is compared of them apart from the file. -/
structure AgreeButFile (matchColumn : Bool) (a b : Issue) : Prop where
  linter : a.linter = b.linter
  text : a.text = b.text
  line : a.position.line = b.position.line
  column : matchColumn = true → a.position.column = b.position.column
  sourceLines :
    List.Forall₂ (fun l l' => Text.strip l = Text.strip l') a.sourceLines b.sourceLines

/-- Issues of a dependency that agree in what is compared of them. -/
structure Agree (dep : String) (matchColumn : Bool) (a b : Issue) : Prop
    extends AgreeButFile matchColumn a b where
  file : ModulePath.relativeFile dep a.position.filename
    = ModulePath.relativeFile dep b.position.filename

theorem agree_iff_content {dep : String} {matchColumn : Bool} {a b : Issue} :
    a.Agree dep matchColumn b ↔ a.content dep matchColumn = b.content dep matchColumn := by
  have hcolumn : (a.content dep matchColumn).column = (b.content dep matchColumn).column
      ↔ (matchColumn = true → a.position.column = b.position.column) := by
    cases matchColumn <;> simp [content]
  constructor
  · intro h
    exact Content.ext h.linter h.text h.line (hcolumn.2 h.column)
      (map_strip_eq_iff.2 h.sourceLines) h.file
  · intro h
    obtain ⟨hlinter, htext, hline, hcol, hlines, hfile⟩ := Content.ext_iff.1 h
    exact ⟨⟨hlinter, htext, hline, hcolumn.1 hcol, map_strip_eq_iff.1 hlines⟩, hfile⟩

/-- Issues are the same when they agree. -/
theorem same_eq_true_iff {dep : String} {matchColumn : Bool} {a b : Issue} :
    same dep matchColumn a b = true ↔ a.Agree dep matchColumn b := by
  rw [same_iff, agree_iff_content]

end Issue

/-- **Findings are the same when they agree in what is compared of them, which makes both
comparisons equivalences, and reformatting source lines does not change the answer.** -/
theorem same_iff_agree :
    (∀ a b : Capability, Capability.same a b = true ↔ a.Agree b) ∧
      (Equivalence fun a b => Capability.same a b = true) ∧
      ∀ (dep : String) (matchColumn : Bool),
        (∀ a b : Issue, Issue.same dep matchColumn a b = true ↔ a.Agree dep matchColumn b) ∧
          (Equivalence fun a b => Issue.same dep matchColumn a b = true) ∧
          ∀ a b : Issue, (∀ a', a.Reformatted a' →
              Issue.same dep matchColumn a' b = Issue.same dep matchColumn a b) ∧
            ∀ b', b.Reformatted b' →
              Issue.same dep matchColumn a b' = Issue.same dep matchColumn a b := by
  refine ⟨fun a b => ?_, Capability.same_equivalence, fun dep matchColumn => ⟨fun a b => ?_,
    Issue.same_equivalence dep matchColumn, fun a b => ⟨fun a' ha => ?_, fun b' hb => ?_⟩⟩⟩
  · rw [Capability.same_iff, Capability.agree_iff_eq]
  · exact Issue.same_eq_true_iff
  · rw [Bool.eq_iff_iff, Issue.same_iff, Issue.same_iff, ha.content_eq]
  · rw [Bool.eq_iff_iff, Issue.same_iff, Issue.same_iff, hb.content_eq]

end UpgradeAudit
