/-
# Comment lines

A comment line can be put where a line starts, or taken out, without a change in what the manifest
declares, when the comment holds no line end (`declared_comment`).

A line feed is not the only line end: lines are cut at every character of a wider class
(`Text.endsLine`), also inside a comment.  What stands in a comment after such a character is read
as lines of the manifest, and the theorem says that nothing else of the comment is.  A form feed is
enough to declare a module and to require a dependency (`declared_formFeed`).

Both halves follow from one fact about lines: a line with nothing in it can be put anywhere
(`declaredBy_idle`).  The comment up to its first line end is such a line, and so is what is left
in its place when that part is taken away (`exists_lines_comment`).
-/
import UpgradeAudit.Proofs.Manifest.Layouts

namespace UpgradeAudit.Manifest

open Text (endsLine Unbroken)

/-! ## 1. Lines with nothing in them -/

/-- What lines declare: requirements, and the path of a module. -/
def declaredBy (lines : List (List Char)) : Requirements × Option String :=
  (requirementsFrom false [] lines, lines.findSome? modulePathOfLine?)

/-- What a manifest declares. -/
def declared (content : String) : Requirements × Option String :=
  (requirements content, modulePath? content)

theorem declared_eq (content : String) :
    declared content = declaredBy (manifestLines content) := rfl

/-- A line with nothing in it requires nothing, inside a block or outside, wherever it stands. -/
theorem requirementsFrom_idle {line : List Char} (h : Idle line) (before after : List (List Char))
    (inBlock : Bool) (known : Requirements) :
    requirementsFrom inBlock known (before ++ line :: after)
      = requirementsFrom inBlock known (before ++ after) := by
  induction before generalizing inBlock known with
  | nil => rw [List.nil_append, List.nil_append, requirementsFrom, ofText_idle h]
  | cons raw before ih =>
    rw [List.cons_append, List.cons_append, requirementsFrom, requirementsFrom]
    cases Line.ofText inBlock raw with
    | opens => exact ih true known
    | closes => exact ih false known
    | requires path version => exact ih inBlock (known.set path version)
    | other => exact ih inBlock known

/-- No word leads a line with nothing in it. -/
theorem Idle.leads {line : List Char} (h : Idle line) : leads "module" line = false := by
  cases h with
  | blanks hpad =>
    have hnothing : Text.trimStart line = [] := List.dropWhile_eq_nil_iff.2 hpad.blank
    rw [Manifest.leads, hnothing]
    rfl
  | @comment lead text hlead htext =>
    rw [Manifest.leads, List.append_assoc, Text.trimStart_append hlead.blank]
    rfl

/-- **A line with nothing in it can be put anywhere.** -/
theorem declaredBy_idle {line : List Char} (h : Idle line) (before after : List (List Char)) :
    declaredBy (before ++ line :: after) = declaredBy (before ++ after) := by
  have hmodule : modulePathOfLine? line = none := modulePathOfLine?_of_leads h.leads
  rw [declaredBy, declaredBy, requirementsFrom_idle h, List.findSome?_append, List.findSome?_cons,
    hmodule, List.findSome?_append]

/-! ## 2. Comments -/

/-- A text after which a line starts: it is empty, or it ends with a line feed. -/
def StartsLine (before : String) : Prop := before = "" ∨ ∃ front, before = front ++ "\n"

/-- A line that is a comment. -/
def commentLine (text : String) : String := "//" ++ text ++ "\n"

/-- A line that holds what stands in a text from its first line end on. -/
def lineFromEnd (text : String) : String :=
  String.ofList (text.toList.dropWhile fun c => ! endsLine c) ++ "\n"

/-- Where a line starts, the lines of what follows come after those before. -/
theorem StartsLine.lines {before : String} (h : StartsLine before) (s : String) :
    manifestLines (before ++ s) = manifestLines before ++ manifestLines s := by
  rcases h with rfl | ⟨front, rfl⟩
  · rw [String.empty_append]
    rfl
  · have hcut := Text.linesFrom_append_lineFeed [] front.toList s.toList
    simpa [manifestLines, Text.lines, String.toList_append] using hcut

/-- The first part of a text holds no line end, and what follows it before a line feed starts with
one: that of the text, or the line feed. -/
theorem exists_firstEnd (s t : List Char) :
    ∃ first c rest, Unbroken first ∧ endsLine c = true ∧
      s ++ '\n' :: t = first ++ c :: rest ∧
      (s.dropWhile fun d => ! endsLine d) ++ '\n' :: t = c :: rest := by
  let first := s.takeWhile fun d => ! endsLine d
  have hfirst : Unbroken first := fun d hd => by simpa using List.mem_takeWhile_imp hd
  have hsplit : first ++ s.dropWhile (fun d => ! endsLine d) = s := List.takeWhile_append_dropWhile
  cases hdrop : s.dropWhile fun d => ! endsLine d with
  | nil =>
    rw [hdrop, List.append_nil] at hsplit
    exact ⟨first, '\n', t, hfirst, by decide, by rw [hsplit], rfl⟩
  | cons c rest =>
    have hend := List.head?_dropWhile_not (fun d => ! endsLine d) s
    rw [hdrop] at hend hsplit
    refine ⟨first, c, rest ++ '\n' :: t, hfirst, by simpa using hend, ?_, rfl⟩
    rw [← hsplit, List.append_assoc, List.cons_append]

/-- **A comment is a line with nothing in it up to its first line end.** -/
theorem exists_lines_comment (text after : String) :
    ∃ line rest, Idle line ∧ manifestLines (commentLine text ++ after) = line :: rest ∧
      manifestLines (lineFromEnd text ++ after) = [] :: rest := by
  obtain ⟨first, c, s, hfirst, hend, hwhole, hbroken⟩ := exists_firstEnd text.toList after.toList
  obtain ⟨rest, hrest⟩ := Text.exists_lines_append hend s
  refine ⟨commentMark ++ first, rest, @Idle.comment [] first (by decide) hfirst, ?_, ?_⟩
  · have hcomment : (commentLine text ++ after).toList = commentMark ++ first ++ c :: s := by
      rw [List.append_assoc, ← hwhole]
      simp [commentLine, commentMark, String.toList_append]
    have hmark : Unbroken (commentMark ++ first) := Unbroken.append (by decide) hfirst
    rw [manifestLines, Text.lines, hcomment, hrest _ hmark]
  · have hempty : (lineFromEnd text ++ after).toList = [] ++ c :: s := by
      rw [List.nil_append, ← hbroken]
      simp [lineFromEnd, String.toList_append]
    have hnothing : Unbroken [] := by decide
    rw [manifestLines, Text.lines, hempty, hrest _ hnothing]

/-- **A comment line declares nothing but what stands in it after a line end**, wherever it is put,
and nothing at all when it holds no line end. -/
theorem declared_comment {before : String} (h : StartsLine before) (text after : String) :
    declared (before ++ commentLine text ++ after)
        = declared (before ++ lineFromEnd text ++ after) ∧
      (Unbroken text.toList →
        declared (before ++ commentLine text ++ after) = declared (before ++ after)) := by
  obtain ⟨line, rest, hidle, hcomment, hbroken⟩ := exists_lines_comment text after
  have hempty : Idle [] := .blanks (by decide)
  have hread : declared (before ++ commentLine text ++ after)
      = declaredBy (manifestLines before ++ rest) := by
    rw [declared_eq, String.append_assoc, h.lines, hcomment, declaredBy_idle hidle]
  constructor
  · rw [hread, declared_eq, String.append_assoc, h.lines, hbroken, declaredBy_idle hempty]
  · intro hunbroken
    have hline : lineFromEnd text = "\n" := by
      have hnothing : text.toList.dropWhile (fun c => ! endsLine c) = [] :=
        List.dropWhile_eq_nil_iff.2 fun c hc => by simp [hunbroken c hc]
      rw [lineFromEnd, hnothing]
      rfl
    have hafter : rest = manifestLines after := by
      have hfeed : manifestLines ("\n" ++ after) = [] :: manifestLines after := by
        have hstart : StartsLine "\n" := Or.inr ⟨"", rfl⟩
        rw [hstart.lines]
        rfl
      rw [hline, hfeed] at hbroken
      exact (List.cons.inj hbroken).2.symm
    rw [hread, hafter, declared_eq, h.lines]

/-- A directive in a comment inside a block is no directive. -/
theorem declared_comment_inBlock :
    let before := "module example.com/app\nrequire (\n"
    let text := " example.com/b v0.1.0 ) // was: require example.com/b v0.2.0"
    let after := "\texample.com/a v1.0.0\n)\n"
    StartsLine before ∧ Unbroken text.toList ∧
      declared (before ++ commentLine text ++ after) = declared (before ++ after) := by
  intro before text after
  have hstart : StartsLine before := Or.inr ⟨"module example.com/app\nrequire (", rfl⟩
  have htext : Unbroken text.toList := by decide
  exact ⟨hstart, htext, (declared_comment hstart text after).2 htext⟩

/-- **A comment with a form feed in it declares a module and requires a dependency**, although it
holds no line feed. -/
theorem declared_formFeed :
    let before := "go 1.21\n"
    let text := " once:\x0cmodule example.com/old\x0crequire example.com/a v1.0.0"
    let after := "module example.com/app\n"
    '\n' ∉ text.toList ∧
      declared (before ++ after) = ([], some "example.com/app") ∧
      declared (before ++ commentLine text ++ after)
        = ([("example.com/a", "v1.0.0")], some "example.com/old") := by
  decide +kernel

end UpgradeAudit.Manifest
