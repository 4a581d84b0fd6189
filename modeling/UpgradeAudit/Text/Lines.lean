/-
# Lines

A text cut at its line ends.  A carriage return followed by a line feed is one line end, a
line end at the end of the text starts no further line, and which other characters end a
line is a parameter: manifests use the wide class of `endsLine`, source files only the line
feed and the carriage return.

Main statement: no line holds a line end (`not_mem_of_mem_lines`).
-/

namespace UpgradeAudit.Text

/-- The characters that end a line of a manifest. -/
def endsLine (c : Char) : Bool :=
  let n := c.toNat
  (0x0a ≤ n && n ≤ 0x0d) || (0x1c ≤ n && n ≤ 0x1e) || n = 0x85 || n = 0x2028 || n = 0x2029

/-- The characters that end a line of a source file. -/
def endsSourceLine (c : Char) : Bool := c = '\n' || c = '\r'

/-- The lines of a text, when the characters in `current` (last first) stand before it on its
first line. -/
def linesFrom (ends : Char → Bool) (current : List Char) : List Char → List (List Char)
  | [] => if current.isEmpty then [] else [current.reverse]
  | '\r' :: '\n' :: rest => current.reverse :: linesFrom ends [] rest
  | c :: rest =>
    if ends c then current.reverse :: linesFrom ends [] rest
    else linesFrom ends (c :: current) rest

/-- The lines of a text. -/
def lines (ends : Char → Bool) (s : List Char) : List (List Char) := linesFrom ends [] s

theorem not_mem_of_mem_linesFrom (ends : Char → Bool) (s current : List Char)
    (hcur : ∀ c ∈ current, ends c = false) :
    ∀ l ∈ linesFrom ends current s, ∀ c ∈ l, ends c = false := by
  fun_induction linesFrom ends current s with
  | case1 current h => simp
  | case2 current h => intro l hl; simp at hl; subst hl; simpa using hcur
  | case3 current rest ih =>
    intro l hl
    rcases List.mem_cons.1 hl with rfl | hl
    · simpa using hcur
    · exact ih (by simp) l hl
  | case4 current c rest hcr h ih =>
    intro l hl
    rcases List.mem_cons.1 hl with rfl | hl
    · simpa using hcur
    · exact ih (by simp) l hl
  | case5 current c rest hcr h ih =>
    refine ih ?_
    intro d hd
    rcases List.mem_cons.1 hd with rfl | hd
    · simpa using h
    · exact hcur d hd

/-- No line of a text holds a line end. -/
theorem not_mem_of_mem_lines (ends : Char → Bool) (s : List Char) :
    ∀ l ∈ lines ends s, ∀ c ∈ l, ends c = false :=
  not_mem_of_mem_linesFrom ends s [] (by simp)

end UpgradeAudit.Text
