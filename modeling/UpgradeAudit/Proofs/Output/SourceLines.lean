/-
# Ranges of source lines

A source file holds lines, each with a line feed, a carriage return or both after it (`Holds`).
Every content holds some lines (`exists_holds`), and whichever line ends it has, the lines that are
read are these, decoded one by one (`fileLines_of_holds`): the two bytes that end lines are never
part of a longer character, so it comes to the same whether a file is decoded first or cut first.

What is read is a slice of these lines, so adjoining ranges make up one range and nothing depends
on the line ends (`readLines_slices`).
-/
import UpgradeAudit.Output.CheckStream
import UpgradeAudit.Proofs.Host.Actions
import UpgradeAudit.Proofs.Manifest.Restoring
import UpgradeAudit.Proofs.Text.Decoding
import UpgradeAudit.Proofs.Text.Lines

namespace UpgradeAudit.Output.CheckStream

variable {content eol line rest : Bytes} {ls : List Bytes}

/-! ## 1. Contents -/

/-- A byte that ends lines. -/
def EndsLine (b : UInt8) : Prop := b = 0x0a ∨ b = 0x0d

instance (b : UInt8) : Decidable (EndsLine b) := inferInstanceAs (Decidable (_ ∨ _))

/-- Bytes among which no line ends. -/
def Plain (line : Bytes) : Prop := ∀ b ∈ line, ¬ EndsLine b

/-- What may end a line, the given bytes being after it.  A carriage return with a line feed after
it is no line end of its own. -/
inductive LineEnd : Bytes → Bytes → Prop where
  | feed {rest : Bytes} : LineEnd [0x0a] rest
  | returnFeed {rest : Bytes} : LineEnd [0x0d, 0x0a] rest
  | ret {rest : Bytes} (h : rest.head? ≠ some 0x0a) : LineEnd [0x0d] rest

/-- The contents that hold the given lines: each line has a line end after it, which the last line
may go without unless it is empty. -/
inductive Holds : List Bytes → Bytes → Prop where
  | nil : Holds [] []
  | last {line : Bytes} (hne : line ≠ []) (hplain : Plain line) : Holds [line] line
  | cons {line eol rest : Bytes} {ls : List Bytes} (hplain : Plain line) (heol : LineEnd eol rest)
      (hrest : Holds ls rest) : Holds (line :: ls) (line ++ (eol ++ rest))

/-- The styles of line ends. -/
def styles : List Bytes := [[0x0a], [0x0d, 0x0a], [0x0d]]

/-- A content with all its line ends in one style. -/
def restyle (eol : Bytes) : Bytes → Bytes
  | [] => []
  | 0x0d :: 0x0a :: rest => eol ++ restyle eol rest
  | b :: rest => if EndsLine b then eol ++ restyle eol rest else b :: restyle eol rest

theorem Plain.tail {b : UInt8} (h : Plain (b :: line)) : Plain line :=
  fun c hc => h c (List.mem_cons_of_mem b hc)

theorem Holds.push {b : UInt8} (hb : ¬ EndsLine b) (h : Holds ls content) :
    ∃ ls', Holds ls' (b :: content) := by
  have push {line : Bytes} (hplain : Plain line) : Plain (b :: line) :=
    List.forall_mem_cons.2 ⟨hb, hplain⟩
  cases h with
  | nil => exact ⟨_, .last (List.cons_ne_nil b []) (push (List.forall_mem_nil _))⟩
  | last hne hplain => exact ⟨_, .last (List.cons_ne_nil b _) (push hplain)⟩
  | cons hplain heol hrest => exact ⟨_, .cons (push hplain) heol hrest⟩

/-- **Every content holds some lines.** -/
theorem exists_holds (content : Bytes) : ∃ ls, Holds ls content := by
  fun_induction restyle [0x0a] content with
  | case1 => exact ⟨[], .nil⟩
  | case2 rest ih =>
    obtain ⟨ls, h⟩ := ih
    exact ⟨[] :: ls, .cons (List.forall_mem_nil _) .returnFeed h⟩
  | case3 b rest hcr hb ih =>
    obtain ⟨ls, h⟩ := ih
    have heol : LineEnd [b] rest := by
      obtain rfl | rfl := hb
      · exact .feed
      · refine .ret fun hhead => ?_
        obtain ⟨rest, rfl⟩ := List.head?_eq_some_iff.1 hhead
        exact hcr rest rfl rfl
    exact ⟨[] :: ls, .cons (List.forall_mem_nil _) heol h⟩
  | case4 b rest hcr hb ih =>
    obtain ⟨ls, h⟩ := ih
    exact h.push hb

theorem restyle_cons {b : UInt8} (hb : ¬ EndsLine b) (rest : Bytes) :
    restyle eol (b :: rest) = b :: restyle eol rest := by
  have hcr : b ≠ 0x0d := fun h => hb (Or.inr h)
  rw [restyle]
  · rw [if_neg hb]
  · rintro _ rfl
    exact absurd rfl hcr

theorem restyle_append (h : Plain line) (rest : Bytes) :
    restyle eol (line ++ rest) = line ++ restyle eol rest := by
  induction line with
  | nil => rfl
  | cons b line ih =>
    rw [List.cons_append, restyle_cons (h b List.mem_cons_self), ih h.tail, List.cons_append]

theorem restyle_lineEnd {old : Bytes} (h : LineEnd old rest) :
    restyle eol (old ++ rest) = eol ++ restyle eol rest := by
  cases h with
  | feed => rfl
  | returnFeed => rfl
  | ret hhead =>
    rw [List.singleton_append, restyle]
    · rw [if_pos (by decide)]
    · rintro rest' - rfl
      exact hhead rfl

theorem feed_not_mem_restyle (content : Bytes) : 0x0a ∉ restyle [0x0d] content := by
  fun_induction restyle [0x0d] content with
  | case1 => simp
  | case2 rest ih => simpa using ih
  | case3 b rest hcr hb ih => simpa using ih
  | case4 b rest hcr hb ih =>
    rintro (_ | ⟨_, hmem⟩)
    · exact hb (Or.inl rfl)
    · exact ih hmem

theorem lineEnd_restyle (h : eol ∈ styles) (rest : Bytes) : LineEnd eol (restyle eol rest) := by
  simp only [styles, List.mem_cons, List.not_mem_nil, or_false] at h
  obtain rfl | rfl | rfl := h
  · exact .feed
  · exact .returnFeed
  · exact .ret fun hhead => feed_not_mem_restyle rest (List.mem_of_mem_head? hhead)

/-- **Line ends of another style leave the lines as they are.** -/
theorem Holds.restyle (heol : eol ∈ styles) (h : Holds ls content) :
    Holds ls (restyle eol content) := by
  induction h with
  | nil => exact .nil
  | @last line hne hplain =>
    rw [← List.append_nil line, restyle_append hplain, CheckStream.restyle, List.append_nil]
    exact .last hne hplain
  | cons hplain hold _ ih =>
    rw [restyle_append hplain, restyle_lineEnd hold]
    exact .cons hplain (lineEnd_restyle heol _) ih

/-! ## 2. Lines of a content -/

theorem endsSourceLine_of_plain (h : Plain line) :
    ∀ c ∈ (Text.Utf8.decodeLossy line).toList, Text.endsSourceLine c = false := by
  intro c hc
  rw [Bool.eq_false_iff]
  intro hends
  simp only [Text.endsSourceLine, Bool.or_eq_true, decide_eq_true_eq] at hends
  obtain rfl | rfl := hends
  · obtain ⟨b, hb, hbyte⟩ := Text.Utf8.exists_of_mem_decodeLossy (by decide) (by decide) hc
    exact h b hb (Or.inl (UInt8.toNat_inj.1 hbyte))
  · obtain ⟨b, hb, hbyte⟩ := Text.Utf8.exists_of_mem_decodeLossy (by decide) (by decide) hc
    exact h b hb (Or.inr (UInt8.toNat_inj.1 hbyte))

/-- **A line end cuts off the line before it once both are decoded.** -/
theorem lines_decoded (hplain : Plain line) (heol : LineEnd eol rest) :
    Text.lines Text.endsSourceLine (Text.Utf8.decodeLossy (line ++ (eol ++ rest))).toList
      = (Text.Utf8.decodeLossy line).toList
        :: Text.lines Text.endsSourceLine (Text.Utf8.decodeLossy rest).toList := by
  have hends := Text.hasLineEnds_endsSourceLine
  have hline := endsSourceLine_of_plain hplain
  simp only [Text.lines]
  cases heol with
  | feed =>
    have hfeed : (0x0a : UInt8).toNat < 0x80 := by decide
    rw [List.singleton_append, Text.Utf8.toList_decodeLossy_append hfeed,
      Text.linesFrom_append hends hline]
    exact (Text.linesFrom_lineFeed hends _ _).trans (by simp)
  | returnFeed =>
    have hfeed : (0x0a : UInt8).toNat < 0x80 := by decide
    have hret : (0x0d : UInt8).toNat < 0x80 := by decide
    have hpair := Text.Utf8.toList_decodeLossy_append hfeed [] rest
    rw [List.cons_append, List.singleton_append, Text.Utf8.toList_decodeLossy_append hret,
      Text.linesFrom_append hends hline]
    rw [List.nil_append] at hpair
    rw [hpair]
    exact (Text.linesFrom_returnFeed _ _ _).trans (by simp)
  | ret hhead =>
    have hret : (0x0d : UInt8).toNat < 0x80 := by decide
    rw [List.singleton_append, Text.Utf8.toList_decodeLossy_append hret,
      Text.linesFrom_append hends hline]
    refine (Text.linesFrom_cons_of_ends (by decide) ?_ _).trans (by simp)
    rintro ⟨-, hfirst⟩
    obtain ⟨b, rest', rfl, hb⟩ :=
      Text.Utf8.exists_of_head?_decodeLossy (by decide) (by decide) hfirst
    exact hhead (congrArg some (UInt8.toNat_inj.1 hb))

/-- **The lines that are read are the lines that the content holds.** -/
theorem fileLines_of_holds (h : Holds ls content) :
    fileLines content = ls.map Text.Utf8.decodeLossy := by
  unfold fileLines
  induction h with
  | nil => rfl
  | @last line hne hplain =>
    have hline := Text.linesFrom_append Text.hasLineEnds_endsSourceLine
      (endsSourceLine_of_plain hplain) [] []
    have hnonempty := Text.Utf8.toList_decodeLossy_ne_nil hne
    rw [List.append_nil, List.append_nil] at hline
    rw [Text.lines, hline, Text.linesFrom, if_neg (by simpa using hnonempty)]
    simp
  | cons hplain heol _ ih =>
    rw [lines_decoded hplain heol, List.map_cons, String.ofList_toList, ih, List.map_cons]

/-- No line that is read holds a line end. -/
theorem not_mem_of_mem_fileLines {l : String} (h : l ∈ fileLines content) :
    '\r' ∉ l.toList ∧ '\n' ∉ l.toList := by
  obtain ⟨cs, hcs, rfl⟩ := List.mem_map.1 h
  have hends := Text.not_mem_of_mem_lines _ _ cs hcs
  rw [String.toList_ofList]
  exact ⟨fun hmem => absurd (hends _ hmem) (by decide),
    fun hmem => absurd (hends _ hmem) (by decide)⟩

/-! ## 3. Ranges -/

section ranges

variable {α : Type} (lines : List α) {start stop last : Int}

/-- A range is a slice, its first line counted from one and its last line included. -/
theorem range_eq_extract (h : 1 ≤ start) :
    range lines start stop = lines.extract (start - 1).toNat (max start stop).toNat := by
  rw [range, if_neg (by omega), List.extract_eq_take_drop]
  congr 1
  omega

/-- **A range goes on where the one before it stops.** -/
theorem range_append (h : 1 ≤ start) (hstop : start ≤ stop) (hlast : stop < last) :
    range lines start stop ++ range lines (stop + 1) last = range lines start last := by
  have hfirst : (max start stop - (start - 1)).toNat = (stop - start + 1).toNat := by omega
  have hdrop : (stop + 1 - 1).toNat = (start - 1).toNat + (stop - start + 1).toNat := by omega
  have hwhole : (max start last - (start - 1)).toNat
      = (stop - start + 1).toNat + (max (stop + 1) last - (stop + 1 - 1)).toNat := by omega
  rw [range, range, range, if_neg (by omega), if_neg (by omega), if_neg (by omega), hwhole,
    List.take_add, List.drop_drop, hfirst, hdrop]

/-- A range of one line. -/
theorem range_self (h : 1 ≤ start) :
    range lines start start = lines[(start - 1).toNat]?.toList := by
  have hone : (max start start - (start - 1)).toNat = 1 := by omega
  rw [range, if_neg (by omega), hone, List.take_one, List.head?_drop]

theorem mem_of_mem_range {a : α} (h : a ∈ range lines start stop) : a ∈ lines := by
  rw [range] at h
  split at h
  · exact absurd h List.not_mem_nil
  · exact List.mem_of_mem_drop (List.mem_of_mem_take h)

end ranges

/-! ## 4. Reading -/

variable {path : String} {host : Host} {w : World}

/-- What is read of a file does not depend on anything but its lines. -/
theorem readLines_run (h : (Action.readFile path host w).1 = .ok content) (start stop : Int) :
    (readLines path start stop host w).1 =
      if start < 1 then .ok []
      else if max start stop > lineLimit then
        .error (.ofCause (.lineOutOfRange (max start stop)))
      else .ok (range (fileLines content) start stop) := by
  have hread : Action.readFile path host w = (.ok content, (Action.readFile path host w).2) :=
    Prod.ext h rfl
  unfold readLines
  split
  · rfl
  · rw [Action.bind_of_ok hread]
    dsimp only
    split <;> rfl

theorem issueOf_congr {host' : Host} {w' : World} {workDir : Option String} {p : Problem}
    (moduleCache : String) (hpath : sourcePath workDir p.location.file = path)
    (h : ∀ start stop, (readLines path start stop host' w').1
      = (readLines path start stop host w).1) :
    (issueOf moduleCache workDir p host' w').1 = (issueOf moduleCache workDir p host w).1 := by
  unfold issueOf
  rw [hpath]
  dsimp only
  split
  · rfl
  · have hmap (x : Action (List String)) (host : Host) (w : World) :
        ((x >>= fun lines => pure (p.issue moduleCache workDir lines)) host w).1
          = (x host w).1.map (p.issue moduleCache workDir) := by
      rcases hx : x host w with ⟨e | lines, v⟩
      · rw [Action.bind_of_error hx]
        rfl
      · rw [Action.bind_of_ok hx]
        rfl
    rw [hmap, hmap, Action.onFileError, Action.mapFailure_run, Action.mapFailure_run, h]

/-- What reading ranges of a file with the given lines gives. -/
structure Slices (lines : List String) (read : Int → Int → Except Failure (List String)) :
    Prop where
  /-- A range is a slice: its first line is counted from one, its last line is included. -/
  slice : ∀ start stop, 1 ≤ start → start ≤ stop → stop ≤ lineLimit →
    read start stop = .ok (lines.extract (start - 1).toNat stop.toNat)
  /-- Adjoining ranges make up one range. -/
  adjoin : ∀ start stop last, 1 ≤ start → start ≤ stop → stop < last → last ≤ lineLimit →
    ∃ front back, read start stop = .ok front ∧ read (stop + 1) last = .ok back ∧
      read start last = .ok (front ++ back)
  /-- An end before the start means the line at the start alone. -/
  single : ∀ start stop, 1 ≤ start → stop < start → read start stop = read start start
  /-- The range of one line is this line, where the file has one. -/
  alone : ∀ start, 1 ≤ start → start ≤ lineLimit →
    read start start = .ok lines[(start - 1).toNat]?.toList
  /-- No line that is read holds a line end. -/
  clean : ∀ start stop found, read start stop = .ok found →
    ∀ line ∈ found, '\r' ∉ line.toList ∧ '\n' ∉ line.toList

/-- **Ranges of lines are slices of the lines that the file holds.** -/
theorem slices_readLines (h : (Action.readFile path host w).1 = .ok content) :
    Slices (fileLines content) fun start stop => (readLines path start stop host w).1 := by
  have hrun := readLines_run h
  have hok {start stop : Int} (hstart : 1 ≤ start) (hlimit : max start stop ≤ lineLimit) :
      (readLines path start stop host w).1 = .ok (range (fileLines content) start stop) := by
    rw [hrun, if_neg (by omega), if_neg (by omega)]
  constructor
  case slice =>
    intro start stop hstart hstop hlimit
    have hmax : max start stop = stop := by omega
    rw [hok hstart (by omega), range_eq_extract _ hstart, hmax]
  case adjoin =>
    intro start stop last hstart hstop hlast hlimit
    refine ⟨_, _, hok hstart (by omega), hok (by omega) (by omega), ?_⟩
    rw [range_append _ hstart hstop hlast]
    exact hok hstart (by omega)
  case single =>
    intro start stop _ hstop
    have hmax : max start stop = max start start := by omega
    rw [hrun, hrun, range, range, hmax]
  case alone =>
    intro start hstart hlimit
    rw [hok hstart (by omega), range_self _ hstart]
  case clean =>
    intro start stop found hfound line hline
    rw [hrun] at hfound
    split at hfound
    · obtain rfl := Except.ok.inj hfound
      exact absurd hline List.not_mem_nil
    split at hfound
    · cases hfound
    · obtain rfl := Except.ok.inj hfound
      exact not_mem_of_mem_fileLines (mem_of_mem_range _ hline)

/-- **Source lines are slices, whichever line ends the file has.**  A file holds lines, also once
its line ends are of another style.  The ranges that are read are slices of these lines, decoded
one by one; and reading another content that holds the same lines, or making an issue with it,
ends in the same way. -/
theorem readLines_slices (h : (Action.readFile path host w).1 = .ok content) :
    (∃ ls, Holds ls content) ∧ ∀ ls, Holds ls content →
      (∀ eol ∈ styles, Holds ls (restyle eol content)) ∧
      Slices (ls.map Text.Utf8.decodeLossy)
        (fun start stop => (readLines path start stop host w).1) ∧
      ∀ (host' : Host) (w' : World) (content' : Bytes),
        (Action.readFile path host' w').1 = .ok content' → Holds ls content' →
          (∀ start stop, (readLines path start stop host' w').1
            = (readLines path start stop host w).1) ∧
          ∀ (moduleCache : String) (workDir : Option String) (p : Problem),
            sourcePath workDir p.location.file = path →
              (issueOf moduleCache workDir p host' w').1
                = (issueOf moduleCache workDir p host w).1 := by
  refine ⟨exists_holds content, fun ls hls => ⟨fun eol heol => hls.restyle heol, ?_, ?_⟩⟩
  · have hslices := slices_readLines h
    rwa [fileLines_of_holds hls] at hslices
  · intro host' w' content' h' hls'
    have hsame (start stop : Int) : (readLines path start stop host' w').1
        = (readLines path start stop host w).1 := by
      rw [readLines_run h, readLines_run h', fileLines_of_holds hls, fileLines_of_holds hls']
    exact ⟨hsame, fun moduleCache workDir p hpath => issueOf_congr moduleCache hpath hsame⟩

/-- A world with one source file. -/
def oneSource (content : Bytes) : World := .ofFiles ⟨[(["f.go"], .file content)], none⟩

theorem readFile_oneSource (content : Bytes) :
    (Action.readFile "f.go" (.quiet fun _ _ => .interrupted) (oneSource content)).1
      = .ok content := by
  rfl

/-- Four lines whose ends are of two styles. -/
def mixedSource : Bytes := [0x61, 0x0d, 0x0a, 0x0d, 0x0a, 0x62, 0x0d, 0x63]

theorem holds_mixedSource : Holds [[0x61], [], [0x62], [0x63]] mixedSource := by
  have hletter (b : UInt8) (hb : ¬ EndsLine b) : Plain [b] := List.forall_mem_singleton.2 hb
  have hlast : Holds [[0x63]] [0x63] := .last (List.cons_ne_nil _ _) (hletter _ (by decide))
  have hret : Holds [[0x62], [0x63]] [0x62, 0x0d, 0x63] :=
    .cons (hletter _ (by decide)) (.ret (by decide)) hlast
  have hempty : Holds [[], [0x62], [0x63]] [0x0d, 0x0a, 0x62, 0x0d, 0x63] :=
    .cons (List.forall_mem_nil _) .returnFeed hret
  exact .cons (hletter _ (by decide)) .returnFeed hempty

theorem readLines_slices_mixed :
    Slices ["a", "", "b", "c"] (fun start stop =>
        (readLines "f.go" start stop (.quiet fun _ _ => .interrupted) (oneSource mixedSource)).1) ∧
      ∀ eol ∈ styles, ∀ start stop,
        (readLines "f.go" start stop (.quiet fun _ _ => .interrupted)
            (oneSource (restyle eol mixedSource))).1
          = (readLines "f.go" start stop (.quiet fun _ _ => .interrupted)
            (oneSource mixedSource)).1 := by
  obtain ⟨-, hall⟩ := readLines_slices (readFile_oneSource mixedSource)
  obtain ⟨hstyles, hslices, hsame⟩ := hall _ holds_mixedSource
  refine ⟨?_, fun eol heol => ?_⟩
  · have hdecoded : ([[0x61], [], [0x62], [0x63]] : List Bytes).map Text.Utf8.decodeLossy
        = ["a", "", "b", "c"] := by decide
    rwa [hdecoded] at hslices
  · exact (hsame _ _ _ (readFile_oneSource _) (hstyles eol heol)).1

end UpgradeAudit.Output.CheckStream
