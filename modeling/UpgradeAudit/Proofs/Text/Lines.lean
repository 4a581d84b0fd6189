/-
# Texts written line by line

A text that is put together from lines, each with a line feed or with a carriage return and a
line feed after it, is cut into these lines again (`Written.lines`), when no line holds a line
end of its own.  Which of the two ends a line has, and whether the last line has one, does not
show.  In any text a line feed parts the lines before it from those after it
(`linesFrom_append_lineFeed`).
-/
import UpgradeAudit.Text.Blank
import UpgradeAudit.Text.Lines

namespace UpgradeAudit.Text

/-- What ends a line is blank. -/
theorem isBlank_of_endsLine {c : Char} (h : endsLine c = true) : isBlank c = true := by
  simp only [endsLine, Bool.or_eq_true, Bool.and_eq_true, decide_eq_true_eq] at h
  simp only [isBlank, inRanges, blankRanges, List.any_cons, List.any_nil, Bool.or_eq_true,
    Bool.and_eq_true, decide_eq_true_eq]
  omega

/-- A text that holds no line end. -/
def Unbroken (s : List Char) : Prop := ∀ c ∈ s, endsLine c = false

-- The search is through the text: all characters can be searched too, but are too many.
instance (s : List Char) : Decidable (Unbroken s) := List.decidableBAll _ s

/-- A text that holds no blank. -/
def Solid (s : List Char) : Prop := ∀ c ∈ s, isBlank c = false

instance (s : List Char) : Decidable (Solid s) := List.decidableBAll _ s

theorem Unbroken.append {s t : List Char} (hs : Unbroken s) (ht : Unbroken t) :
    Unbroken (s ++ t) := fun c hc => (List.mem_append.1 hc).elim (hs c) (ht c)

/-- A text that holds no blank holds no line end. -/
theorem Solid.unbroken {s : List Char} (h : Solid s) : Unbroken s := by
  intro c hc
  cases hend : endsLine c with
  | false => rfl
  | true => exact absurd (isBlank_of_endsLine hend) (by simp [h c hc])

/-- The ends that a line may have. -/
def lineEnds : List (List Char) := [['\n'], ['\r', '\n']]

/-- The texts that hold the given lines: each line has one of the line ends after it, which the
last line may go without unless it is empty. -/
inductive Written : List (List Char) → List Char → Prop where
  | nil : Written [] []
  | last {line : List Char} (h : line ≠ []) : Written [line] line
  | cons {line eol text : List Char} {lines : List (List Char)} (h : eol ∈ lineEnds)
      (rest : Written lines text) : Written (line :: lines) (line ++ eol ++ text)

/-- Lines may have any of the line ends. -/
theorem written_flatMap {ls : List (List Char × List Char)} (h : ∀ l ∈ ls, l.2 ∈ lineEnds) :
    Written (ls.map Prod.fst) (ls.flatMap fun l => l.1 ++ l.2) := by
  induction ls with
  | nil => exact .nil
  | cons l ls ih => exact .cons (h l (by simp)) (ih fun l hl => h l (List.mem_cons_of_mem _ hl))

/-- Characters that end lines, the line feed and the carriage return among them. -/
structure HasLineEnds (ends : Char → Bool) : Prop where
  feed : ends '\n' = true
  ret : ends '\r' = true

theorem hasLineEnds_endsLine : HasLineEnds endsLine := ⟨by decide, by decide⟩

theorem hasLineEnds_endsSourceLine : HasLineEnds endsSourceLine := ⟨by decide, by decide⟩

section ends

variable {ends : Char → Bool} (hends : HasLineEnds ends)

include hends

theorem linesFrom_cons_of_unbroken {c : Char} (h : ends c = false) (current s : List Char) :
    linesFrom ends current (c :: s) = linesFrom ends (c :: current) s := by
  have hcr : c ≠ '\r' := by rintro rfl; exact absurd hends.ret (by simp [h])
  rw [linesFrom]
  · rw [if_neg (by simp [h])]
  · rintro _ rfl
    exact absurd rfl hcr

/-- The start of a line that holds no line end belongs to the first line. -/
theorem linesFrom_append {line : List Char} (h : ∀ c ∈ line, ends c = false)
    (current s : List Char) :
    linesFrom ends current (line ++ s) = linesFrom ends (line.reverse ++ current) s := by
  induction line generalizing current with
  | nil => rfl
  | cons c line ih =>
    rw [List.cons_append, linesFrom_cons_of_unbroken hends (h c (by simp)),
      ih fun d hd => h d (List.mem_cons_of_mem _ hd)]
    simp

theorem linesFrom_lineFeed (current s : List Char) :
    linesFrom ends current ('\n' :: s) = current.reverse :: linesFrom ends [] s := by
  rw [linesFrom]
  · rw [if_pos hends.feed]
  · simp

end ends

theorem linesFrom_returnFeed (ends : Char → Bool) (current s : List Char) :
    linesFrom ends current ('\r' :: '\n' :: s) = current.reverse :: linesFrom ends [] s := by
  rw [linesFrom]

/-- A line end that is not the first half of a longer one cuts off the line before it. -/
theorem linesFrom_cons_of_ends {ends : Char → Bool} {c : Char} (h : ends c = true) {s : List Char}
    (hcr : ¬ (c = '\r' ∧ s.head? = some '\n')) (current : List Char) :
    linesFrom ends current (c :: s) = current.reverse :: linesFrom ends [] s := by
  rw [linesFrom]
  · rw [if_pos h]
  · rintro s' rfl rfl
    exact hcr ⟨rfl, rfl⟩

/-- A line end cuts off the line before it. -/
theorem linesFrom_lineEnd {eol : List Char} (h : eol ∈ lineEnds) (current s : List Char) :
    linesFrom endsLine current (eol ++ s) = current.reverse :: linesFrom endsLine [] s := by
  simp only [lineEnds, List.mem_cons, List.not_mem_nil, or_false] at h
  obtain rfl | rfl := h
  · exact linesFrom_lineFeed hasLineEnds_endsLine current s
  · exact linesFrom_returnFeed endsLine current s

/-- What follows a line end does not depend on the line that it ends. -/
theorem exists_linesFrom_of_endsLine {c : Char} (h : endsLine c = true) (s : List Char) :
    ∃ rest, ∀ current, linesFrom endsLine current (c :: s) = current.reverse :: rest := by
  by_cases hcr : c = '\r' ∧ s.head? = some '\n'
  · obtain ⟨rfl, hs⟩ := hcr
    obtain ⟨s, rfl⟩ := List.head?_eq_some_iff.1 hs
    exact ⟨linesFrom endsLine [] s, fun current => linesFrom_returnFeed endsLine current s⟩
  · exact ⟨linesFrom endsLine [] s, linesFrom_cons_of_ends h hcr⟩

/-- Whatever line a line end cuts off, the lines after it are the same. -/
theorem exists_lines_append {c : Char} (h : endsLine c = true) (s : List Char) :
    ∃ rest, ∀ line, Unbroken line → linesFrom endsLine [] (line ++ c :: s) = line :: rest := by
  obtain ⟨rest, hrest⟩ := exists_linesFrom_of_endsLine h s
  refine ⟨rest, fun line hline => ?_⟩
  rw [linesFrom_append hasLineEnds_endsLine hline, List.append_nil, hrest, List.reverse_reverse]

/-- A line feed cuts a text in two, each of which has its own lines. -/
theorem linesFrom_append_lineFeed (current s t : List Char) :
    linesFrom endsLine current (s ++ '\n' :: t)
      = linesFrom endsLine current (s ++ ['\n']) ++ linesFrom endsLine [] t := by
  have hfeed (current t : List Char) :
      linesFrom endsLine current ('\n' :: t) = current.reverse :: linesFrom endsLine [] t :=
    linesFrom_lineFeed hasLineEnds_endsLine current t
  have hreturn (current t : List Char) : linesFrom endsLine current ('\r' :: '\n' :: t)
      = current.reverse :: linesFrom endsLine [] t :=
    linesFrom_returnFeed endsLine current t
  fun_induction linesFrom endsLine current s with
  | case1 | case2 =>
    rw [List.nil_append, List.nil_append, hfeed, hfeed]
    rfl
  | case3 current rest ih =>
    simp only [List.cons_append]
    rw [hreturn, hreturn, ih, List.cons_append]
  | case4 current c rest hcr h ih =>
    by_cases hlast : c = '\r' ∧ rest = []
    · -- The line feed is the second half of a line end.
      obtain ⟨rfl, rfl⟩ := hlast
      simp only [List.cons_append, List.nil_append]
      rw [hreturn, hreturn]
      rfl
    · have hwhole (u : List Char) : ¬ (c = '\r' ∧ (rest ++ '\n' :: u).head? = some '\n') := by
        rintro ⟨rfl, hhead⟩
        cases rest with
        | nil => exact hlast ⟨rfl, rfl⟩
        | cons d rest =>
          obtain rfl : d = '\n' := Option.some.inj hhead
          exact hcr rest rfl rfl
      rw [List.cons_append, List.cons_append, linesFrom_cons_of_ends h (hwhole t),
        linesFrom_cons_of_ends h (hwhole []), ih, List.cons_append]
  | case5 current c rest hcr h ih =>
    have hc : endsLine c = false := by simpa using h
    rw [List.cons_append, List.cons_append, linesFrom_cons_of_unbroken hasLineEnds_endsLine hc,
      linesFrom_cons_of_unbroken hasLineEnds_endsLine hc, ih]

/-- **A text that is written line by line holds these lines.** -/
theorem Written.lines {ls : List (List Char)} {text : List Char} (h : Written ls text)
    (hls : ∀ line ∈ ls, Unbroken line) : Text.lines endsLine text = ls := by
  induction h with
  | nil => rfl
  | @last line hne =>
    have hline := linesFrom_append hasLineEnds_endsLine (hls line (by simp)) [] []
    rw [List.append_nil, List.append_nil] at hline
    rw [Text.lines, hline, linesFrom, if_neg (by simpa using hne), List.reverse_reverse]
  | @cons line eol text ls hend rest ih =>
    rw [Text.lines, List.append_assoc,
      linesFrom_append hasLineEnds_endsLine (hls line (by simp)), List.append_nil,
      linesFrom_lineEnd hend, List.reverse_reverse, ← Text.lines,
      ih fun l hl => hls l (List.mem_cons_of_mem _ hl)]

end UpgradeAudit.Text
