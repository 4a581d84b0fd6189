/-
# Layouts of a manifest

A manifest may be laid out in many ways: a requirement stands in a directive of its own or in
one of many blocks, a path is bare or quoted, blanks and comments stand almost anywhere, and
directives of other kinds, with blocks of their own, stand between the requirements.  `Lists`
has one constructor for each line that a layout may have next, and says which requirements are
listed, in order.

None of it shows in what is read (`read_as_listed`): the requirements are those listed, the last
one for each path, and the path of the module is the one declared.

Two things decide.  The comment and the blanks around a line go first, so that all layouts of a
line come to one body (`Holds.trim_dropComment`).  And a body means the same wherever it stands
but for the block that is open, and only bodies of the layout open or close one (`Lists.read`):
a line of another directive is passed over whatever brackets it holds (`ofText_foreign`).
-/
import Mathlib.Data.List.Chain
import UpgradeAudit.Manifest.Directives
import UpgradeAudit.Proofs.Tables
import UpgradeAudit.Proofs.Text.Blanks
import UpgradeAudit.Proofs.Text.Lines
import UpgradeAudit.Proofs.Text.Occurrences

namespace UpgradeAudit.Manifest

open Text (isBlank endsLine Unbroken Solid)

/-! ## 1. Layouts -/

/-- Blanks inside a line. -/
def Pad (s : List Char) : Prop := ∀ c ∈ s, isBlank c = true ∧ endsLine c = false

instance (s : List Char) : Decidable (Pad s) := List.decidableBAll _ s

/-- The blanks between two words. -/
def Gap (s : List Char) : Prop := s ≠ [] ∧ Pad s

instance (s : List Char) : Decidable (Gap s) := inferInstanceAs (Decidable (s ≠ [] ∧ Pad s))

/-- What starts a comment. -/
def commentMark : List Char := ['/', '/']

/-- The quotes that a path may stand in. -/
def quotes : List Char := ['"', '\x60']

/-- A word: it holds no blank, and no comment starts in it. -/
structure Word (s : List Char) : Prop where
  nonempty : s ≠ []
  solid : Solid s
  unmarked : ¬ commentMark <:+: s

/-- A path that a manifest can list. -/
structure PathWord (path : String) : Prop extends Word path.toList where
  unquoted : ∀ q ∈ quotes, q ∉ path.toList

/-- A version that a manifest can list. -/
structure VersionWord (version : String) : Prop extends Word version.toList where
  named : ∃ c rest, version.toList = 'v' :: c :: rest

/-- The ways to write a path. -/
inductive Spelled (path : String) : List Char → Prop where
  | bare : Spelled path path.toList
  | quoted {q : Char} (h : q ∈ quotes) : Spelled path (q :: (path.toList ++ [q]))

/-- A path and its version as they are written. -/
inductive Pin (path version : String) : List Char → Prop where
  | mk {token gap : List Char} (hpath : PathWord path) (hversion : VersionWord version)
      (htoken : Spelled path token) (hgap : Gap gap) :
      Pin path version (token ++ gap ++ version.toList)

/-- A line with nothing in it but blanks, or a comment, or both. -/
inductive Idle : List Char → Prop where
  | blanks {s : List Char} (h : Pad s) : Idle s
  | comment {lead text : List Char} (hlead : Pad lead) (htext : Unbroken text) :
      Idle (lead ++ commentMark ++ text)

/-- What may follow the last word of a line: blanks, and a comment that a blank precedes. -/
def Tail (s : List Char) : Prop := Idle s ∧ s.head? ≠ some '/'

/-- A line that is a body with an indentation before it and a tail after it. -/
def Holds (body raw : List Char) : Prop :=
  ∃ lead tail, Pad lead ∧ Tail tail ∧ raw = lead ++ body ++ tail

/-- Whether a line starts with a word: the indentation, then the word, which ends with the line,
before a blank or before a bracket. -/
def leads (keyword : String) (raw : List Char) : Bool :=
  match keyword.toList.isPrefixOf? (Text.trimStart raw) with
  | some rest => rest.head?.all fun c => isBlank c || c = '('
  | none => false

/-- A line of another directive. -/
def Foreign (raw : List Char) : Prop := Unbroken raw ∧ leads "require" raw = false

instance (raw : List Char) : Decidable (Foreign raw) :=
  inferInstanceAs (Decidable (Unbroken raw ∧ leads "require" raw = false))

/-- A line that declares the path of the module. -/
def Declares (path : String) (raw : List Char) : Prop :=
  PathWord path ∧ ∃ gap token, Gap gap ∧ Spelled path token ∧
    Holds ("module".toList ++ gap ++ token) raw

/-- The layouts of the lines of a manifest, from inside a block or from outside on, and the paths
and versions that they list in order. -/
inductive Lists : Bool → List (List Char) → List (String × String) → Prop where
  | done : Lists false [] []
  | idle {inBlock : Bool} {raw : List Char} {lines : List (List Char)}
      {listed : List (String × String)} (h : Idle raw) (rest : Lists inBlock lines listed) :
      Lists inBlock (raw :: lines) listed
  | foreign {raw : List Char} {lines : List (List Char)} {listed : List (String × String)}
      (h : Foreign raw) (rest : Lists false lines listed) : Lists false (raw :: lines) listed
  | single {path version : String} {gap pin raw : List Char} {lines : List (List Char)}
      {listed : List (String × String)} (hpin : Pin path version pin) (hgap : Gap gap)
      (h : Holds ("require".toList ++ gap ++ pin) raw) (rest : Lists false lines listed) :
      Lists false (raw :: lines) ((path, version) :: listed)
  | opens {pad raw : List Char} {lines : List (List Char)} {listed : List (String × String)}
      (hpad : Pad pad) (h : Holds ("require".toList ++ pad ++ ['(']) raw)
      (rest : Lists true lines listed) : Lists false (raw :: lines) listed
  | entry {path version : String} {pin raw : List Char} {lines : List (List Char)}
      {listed : List (String × String)} (hpin : Pin path version pin) (h : Holds pin raw)
      (rest : Lists true lines listed) : Lists true (raw :: lines) ((path, version) :: listed)
  | closes {raw : List Char} {lines : List (List Char)} {listed : List (String × String)}
      (h : Holds [')'] raw) (rest : Lists false lines listed) : Lists true (raw :: lines) listed

/-! ## 2. Bodies -/

theorem Pad.blank {s : List Char} (h : Pad s) : ∀ c ∈ s, isBlank c = true := fun c hc => (h c hc).1

theorem Pad.unbroken {s : List Char} (h : Pad s) : Unbroken s := fun c hc => (h c hc).2

theorem Word.unbroken {s : List Char} (h : Word s) : Unbroken s := h.solid.unbroken

/-- No comment starts in a text when no two slashes are neighbours in it. -/
theorem unmarked_iff_isChain {s : List Char} :
    ¬ commentMark <:+: s ↔ s.IsChain fun a b => ¬ (a = '/' ∧ b = '/') := by
  rw [List.isChain_iff_forall_rel_of_append_cons_cons]
  constructor
  · rintro h a b before after rfl ⟨rfl, rfl⟩
    exact h ⟨before, after, by simp [commentMark]⟩
  · rintro h ⟨before, after, rfl⟩
    have hsplit : before ++ commentMark ++ after = before ++ '/' :: '/' :: after := by
      simp [commentMark]
    exact h hsplit ⟨rfl, rfl⟩

/-- No comment starts in a text that holds no slash. -/
theorem unmarked_of_not_mem {s : List Char} (h : '/' ∉ s) : ¬ commentMark <:+: s :=
  fun hin => h (hin.subset (by simp [commentMark]))

theorem slash_not_mem_of_pad {s : List Char} (h : Pad s) : '/' ∉ s :=
  fun hs => absurd (h.blank _ hs) (by decide)

/-- No comment starts in a text with another before it, unless it starts where they meet. -/
theorem unmarked_append {s t : List Char} (hs : ¬ commentMark <:+: s) (ht : ¬ commentMark <:+: t)
    (h : s.getLast? ≠ some '/' ∨ t.head? ≠ some '/') : ¬ commentMark <:+: s ++ t := by
  rw [unmarked_iff_isChain] at *
  refine List.isChain_append.2 ⟨hs, ht, ?_⟩
  rintro a ha b hb ⟨rfl, rfl⟩
  exact h.elim (fun h => h ha) fun h => h hb

/-- What a line holds between the blanks around it: text that neither starts nor ends with a
blank, and in which no comment starts. -/
structure Body (s : List Char) : Prop where
  head : ∀ c ∈ s.head?, isBlank c = false
  last : ∀ c ∈ s.getLast?, isBlank c = false
  unmarked : ¬ commentMark <:+: s

theorem Word.body {s : List Char} (h : Word s) : Body s where
  head c hc := h.solid c (List.mem_of_mem_head? hc)
  last c hc := h.solid c (List.mem_of_getLast? hc)
  unmarked := h.unmarked

theorem Gap.unmarked {s : List Char} (h : Gap s) : ¬ commentMark <:+: s :=
  unmarked_of_not_mem (slash_not_mem_of_pad h.2)

/-- Two bodies with blanks between them are a body. -/
theorem Body.join {s gap t : List Char} (hs : Body s) (hgap : Gap gap) (ht : Body t)
    (hne : s ≠ []) (hne' : t ≠ []) : Body (s ++ gap ++ t) where
  head c hc := hs.head c (by rwa [List.append_assoc, List.head?_append_of_ne_nil _ hne] at hc)
  last c hc := ht.last c (by rwa [List.getLast?_append_of_ne_nil _ hne'] at hc)
  unmarked := by
    have hslash : '/' ∉ gap := slash_not_mem_of_pad hgap.2
    refine unmarked_append (unmarked_append hs.unmarked hgap.unmarked (Or.inr fun h => ?_))
      ht.unmarked (Or.inl fun h => ?_)
    · exact hslash (List.mem_of_mem_head? h)
    · rw [List.getLast?_append_of_ne_nil _ hgap.1] at h
      exact hslash (List.mem_of_getLast? h)

/-- The comment of a line goes, and what is left after the body is blank. -/
theorem dropComment_append {s rest : List Char} (hs : ¬ commentMark <:+: s) (hrest : Idle rest)
    (h : s.getLast? ≠ some '/' ∨ rest.head? ≠ some '/') :
    ∃ pad, Pad pad ∧ dropComment (s ++ rest) = s ++ pad := by
  cases hrest with
  | blanks hpad =>
    have hnone := Text.splitFirst?_eq_none_iff.2
      (unmarked_append hs (unmarked_of_not_mem (slash_not_mem_of_pad hpad)) h)
    exact ⟨rest, hpad, by rw [dropComment, ← commentMark, hnone]⟩
  | @comment lead text hlead htext =>
    refine ⟨lead, hlead, ?_⟩
    have hmark : ¬ commentMark <:+: s ++ lead ++ commentMark.dropLast := by
      have hlead' := unmarked_of_not_mem (slash_not_mem_of_pad hlead)
      have hone : ¬ commentMark <:+: commentMark.dropLast := by decide
      rcases List.eq_nil_or_concat lead with rfl | ⟨init, c, rfl⟩
      · rw [List.append_nil]
        exact unmarked_append hs hone (h.imp_right fun hne => absurd rfl hne)
      · refine unmarked_append (unmarked_append hs hlead' (Or.inr fun hc => ?_)) hone
          (Or.inl fun hc => ?_)
        · exact slash_not_mem_of_pad hlead (List.mem_of_mem_head? hc)
        · have hc : c = '/' := by simpa using hc
          exact slash_not_mem_of_pad hlead (by simp [hc])
    have hsplit := Text.splitFirst?_of_not_infix hmark text
    rw [dropComment, ← commentMark, ← List.append_assoc, ← List.append_assoc, hsplit]

theorem Body.trimStart {s lead : List Char} (h : Body s) (hlead : Pad lead) (hne : s ≠ [])
    (tail : List Char) : Text.trimStart (lead ++ s ++ tail) = s ++ tail := by
  obtain ⟨c, r, rfl⟩ := List.exists_cons_of_ne_nil hne
  rw [List.append_assoc, Text.trimStart_append hlead.blank, List.cons_append]
  exact Text.trimStart_of_head (h.head c rfl)

theorem Body.trim {s : List Char} (h : Body s) : Text.trim s = s := Text.trim_eq_self h.head h.last

/-- **All layouts of a line come to its body.** -/
theorem Holds.trim_dropComment {body raw : List Char} (h : Holds body raw) (hbody : Body body) :
    Text.trim (dropComment raw) = body := by
  obtain ⟨lead, tail, hlead, ⟨hidle, hhead⟩, rfl⟩ := h
  have hmark : ¬ commentMark <:+: lead ++ body :=
    unmarked_append (unmarked_of_not_mem (slash_not_mem_of_pad hlead)) hbody.unmarked
      (Or.inl fun hc => slash_not_mem_of_pad hlead (List.mem_of_getLast? hc))
  obtain ⟨pad, hpad, hdrop⟩ := dropComment_append hmark hidle (Or.inr hhead)
  rw [hdrop, Text.trim_of_padded ⟨lead, pad, hlead.blank, hpad.blank, rfl⟩, hbody.trim]

/-- Nothing is left of a line with nothing in it. -/
theorem Idle.trim_dropComment {raw : List Char} (h : Idle raw) :
    Text.trim (dropComment raw) = [] := by
  obtain ⟨pad, hpad, hdrop⟩ := dropComment_append (s := []) (by decide) h (Or.inl (by simp))
  have hpadded : Text.Padded [] pad := ⟨pad, [], hpad.blank, by simp, by simp⟩
  rw [List.nil_append, List.nil_append] at hdrop
  rw [hdrop, Text.trim_of_padded hpadded]
  rfl

/-! ## 3. Words -/

/-- A word goes as far as the blanks after it. -/
theorem word_append {s : List Char} (hs : Solid s) {rest : List Char}
    (hrest : ∀ c ∈ rest.head?, isBlank c = true) : word (s ++ rest) = (s, rest) := by
  have htake : rest.takeWhile (fun c => ! isBlank c) = [] ∧
      rest.dropWhile (fun c => ! isBlank c) = rest := by
    cases rest with
    | nil => exact ⟨rfl, rfl⟩
    | cons c rest => simp [hrest c rfl]
  have hpos : ∀ c ∈ s, (! isBlank c) = true := fun c hc => by simp [hs c hc]
  rw [word, List.takeWhile_append_of_pos hpos, List.dropWhile_append_of_pos hpos, htake.1, htake.2,
    List.append_nil]

/-- A text without blanks is one word. -/
theorem word_of_solid {s : List Char} (hs : Solid s) : word s = (s, []) := by
  have hnil : ∀ c ∈ ([] : List Char).head?, isBlank c = true := by simp
  simpa using word_append hs hnil

theorem Gap.head {gap : List Char} (h : Gap gap) (s : List Char) :
    ∀ c ∈ (gap ++ s).head?, isBlank c = true := by
  intro c hc
  rw [List.head?_append_of_ne_nil _ h.1] at hc
  exact h.2.blank c (List.mem_of_mem_head? hc)

theorem trimStart_gap {gap s : List Char} (hgap : Gap gap) (hs : ∀ c ∈ s.head?, isBlank c = false) :
    Text.trimStart (gap ++ s) = s := by
  rw [Text.trimStart_append hgap.2.blank]
  cases s with
  | nil => rfl
  | cons c s => exact Text.trimStart_of_head (hs c rfl)

/-- The word that follows a keyword. -/
theorem wordAfter?_append {gap token rest : List Char} (hgap : Gap gap) (htoken : Word token)
    (hrest : ∀ c ∈ rest.head?, isBlank c = true) (keyword : String) :
    wordAfter? keyword (keyword.toList ++ gap ++ (token ++ rest)) = some (token, rest) := by
  obtain ⟨hne, hpad⟩ := hgap
  obtain ⟨b, gap, rfl⟩ := List.exists_cons_of_ne_nil hne
  have hhead : ∀ c ∈ (token ++ rest).head?, isBlank c = false := by
    rw [List.head?_append_of_ne_nil _ htoken.nonempty]
    exact htoken.body.head
  have htrim : Text.trimStart (gap ++ (token ++ rest)) = token ++ rest := by
    rw [Text.trimStart_append fun c hc => hpad.blank c (List.mem_cons_of_mem _ hc)]
    obtain ⟨c, s, hcons⟩ := List.exists_cons_of_ne_nil htoken.nonempty
    rw [hcons, List.cons_append] at hhead ⊢
    exact Text.trimStart_of_head (hhead c rfl)
  rw [wordAfter?, List.append_assoc, Text.isPrefixOf?_append, List.cons_append]
  dsimp only
  rw [if_pos (hpad.blank b (by simp)), htrim, word_append htoken.solid hrest]
  split
  · rename_i hnil
    exact absurd (Prod.mk.inj hnil).1 htoken.nonempty
  · rfl

theorem Spelled.word {path : String} {token : List Char} (h : Spelled path token)
    (hpath : PathWord path) : Word token := by
  cases h with
  | bare => exact hpath.toWord
  | @quoted q hq =>
    have hplain : isBlank q = false ∧ q ≠ '/' := by
      simp only [quotes, List.mem_cons, List.not_mem_nil, or_false] at hq
      obtain rfl | rfl := hq <;> decide
    have hone : ¬ commentMark <:+: [q] := unmarked_of_not_mem (by simpa using hplain.2.symm)
    refine ⟨by simp, ?_, ?_⟩
    · intro c hc
      simp only [List.mem_cons, List.mem_append, List.not_mem_nil, or_false] at hc
      obtain rfl | hc | rfl := hc
      exacts [hplain.1, hpath.solid c hc, hplain.1]
    · exact unmarked_append (s := [q]) hone (unmarked_append hpath.unmarked hone
        (Or.inr (by simpa using hplain.2))) (Or.inl (by simpa using hplain.2))

/-- The quotes of a path go. -/
theorem Spelled.unquote {path : String} {token : List Char} (h : Spelled path token)
    (hpath : PathWord path) : unquote token = path := by
  cases h with
  | bare =>
    obtain ⟨c, s, hcons⟩ := List.exists_cons_of_ne_nil hpath.nonempty
    have hc : ¬ (c = '"' ∨ c = '\x60') := by
      intro hc
      refine hpath.unquoted c (by simpa [quotes] using hc) (by simp [hcons])
    rw [hcons, Manifest.unquote, if_neg (by simp [hc]), ← hcons, String.ofList_toList]
  | @quoted q hq =>
    have hq' : q = '"' ∨ q = '\x60' := by simpa [quotes] using hq
    rw [Manifest.unquote, if_pos (by simp [hq'])]
    simp

/-! ## 4. Lines of another directive -/

/-- A word at the front of a line, after nothing but blanks, leads it. -/
theorem leads_append {keyword : String} (hkeyword : Word keyword.toList) {before rest : List Char}
    (hbefore : ∀ c ∈ before, isBlank c = true)
    (hrest : ∀ c ∈ rest.head?, isBlank c = true ∨ c = '(') :
    leads keyword (before ++ (keyword.toList ++ rest)) = true := by
  have htrim : Text.trimStart (before ++ (keyword.toList ++ rest)) = keyword.toList ++ rest := by
    rw [Text.trimStart_append hbefore]
    obtain ⟨c, s, hcons⟩ := List.exists_cons_of_ne_nil hkeyword.nonempty
    rw [hcons, List.cons_append]
    exact Text.trimStart_of_head (hkeyword.solid c (by simp [hcons]))
  rw [leads, htrim, Text.isPrefixOf?_append]
  cases rest with
  | nil => rfl
  | cons c rest => simpa using hrest c rfl

/-- What is left of a line stands in it after nothing but blanks. -/
theorem exists_append_trim (line : List Char) :
    ∃ before after, (∀ c ∈ before, isBlank c = true) ∧
      line = before ++ (Text.trim line ++ after) := by
  obtain ⟨before, after, hbefore, _, heq⟩ := Text.padded_trim line
  exact ⟨before, after, hbefore, by rw [← List.append_assoc, ← heq]⟩

theorem exists_append_dropComment (raw : List Char) : ∃ rest, raw = dropComment raw ++ rest := by
  rw [dropComment]
  split
  · rename_i before after hsplit
    exact ⟨['/', '/'] ++ after, by rw [← List.append_assoc, ← Text.eq_of_splitFirst? hsplit]⟩
  · exact ⟨[], (List.append_nil raw).symm⟩

/-- A keyword that a word follows is at the front of the line, and a blank follows it. -/
theorem exists_of_wordAfter? {keyword : String} {line : List Char} {found : List Char × List Char}
    (h : wordAfter? keyword line = some found) :
    ∃ c rest, line = keyword.toList ++ c :: rest ∧ isBlank c = true := by
  rw [wordAfter?] at h
  split at h
  · rename_i c rest hprefix
    split at h
    · rename_i hblank
      exact ⟨c, rest, Text.eq_append_of_isPrefixOf? hprefix, hblank⟩
    · cases h
  · cases h

/-- A line that opens a block has a bracket after the keyword. -/
theorem exists_of_opensBlock {line : List Char} (h : opensBlock line = true) :
    ∃ rest, line = "require".toList ++ rest ∧ Text.trimStart rest = ['('] := by
  rw [opensBlock] at h
  split at h
  · rename_i rest hprefix
    exact ⟨rest, Text.eq_append_of_isPrefixOf? hprefix, of_decide_eq_true h⟩
  · cases h

theorem word_require : Word "require".toList := ⟨by decide, by decide, by decide⟩

theorem word_module : Word "module".toList := ⟨by decide, by decide, by decide⟩

/-- **A line of another directive means nothing outside a block**, whatever it holds. -/
theorem ofText_foreign {raw : List Char} (h : leads "require" raw = false) :
    Line.ofText false raw = .other := by
  obtain ⟨rest, hraw⟩ := exists_append_dropComment raw
  obtain ⟨before, after, hbefore, hline⟩ := exists_append_trim (dropComment raw)
  -- whatever stands after the keyword, the line as it was leads with the keyword as well
  have hleads {follows : List Char}
      (hkeyword : Text.trim (dropComment raw) = "require".toList ++ follows)
      (hne : follows ≠ []) (hhead : ∀ c ∈ follows.head?, isBlank c = true ∨ c = '(') : False := by
    have hwhole : raw = before ++ ("require".toList ++ (follows ++ after ++ rest)) := by
      rw [hraw, hline, hkeyword]
      simp only [List.append_assoc]
    rw [hwhole, leads_append word_require hbefore] at h
    · cases h
    · rwa [List.append_assoc, List.head?_append_of_ne_nil _ hne]
  have hopens : opensBlock (Text.trim (dropComment raw)) = false := by
    cases ho : opensBlock (Text.trim (dropComment raw)) with
    | false => rfl
    | true =>
      obtain ⟨follows, hkeyword, htrim⟩ := exists_of_opensBlock ho
      cases follows with
      | nil => cases htrim
      | cons c follows =>
        refine (hleads hkeyword (by simp) fun d hd => ?_).elim
        obtain rfl : c = d := Option.some.inj hd
        cases hc : isBlank c with
        | true => exact Or.inl rfl
        | false =>
          rw [Text.trimStart_of_head hc] at htrim
          exact Or.inr (List.cons.inj htrim).1
  have hsingle : single? (Text.trim (dropComment raw)) = none := by
    cases hw : wordAfter? "require" (Text.trim (dropComment raw)) with
    | none => rw [single?, hw]; rfl
    | some found =>
      obtain ⟨c, follows, hkeyword, hblank⟩ := exists_of_wordAfter? hw
      exact (hleads hkeyword (by simp) (by simpa using Or.inl hblank)).elim
  simp only [Line.ofText, hopens, hsingle, Bool.false_and, Bool.false_eq_true, if_false]

/-- A line that another word leads does not declare the module. -/
theorem modulePathOfLine?_of_leads {raw : List Char} (h : leads "module" raw = false) :
    modulePathOfLine? raw = none := by
  rw [modulePathOfLine?, Option.map_eq_none_iff]
  cases hw : wordAfter? "module" (Text.trim raw) with
  | none => rfl
  | some found =>
    obtain ⟨c, follows, hkeyword, hblank⟩ := exists_of_wordAfter? hw
    obtain ⟨before, after, hbefore, hline⟩ := exists_append_trim raw
    rw [hline, hkeyword, List.append_assoc, leads_append word_module hbefore] at h
    · cases h
    · simpa using Or.inl hblank

/-! ## 5. Lines of the layout -/

theorem Pin.body {path version : String} {pin : List Char} (h : Pin path version pin) :
    Body pin ∧ pin ≠ [] := by
  obtain ⟨hpath, hversion, htoken, hgap⟩ := h
  have hword := htoken.word hpath
  exact ⟨hword.body.join hgap hversion.body hword.nonempty hversion.nonempty,
    by simp [hword.nonempty]⟩

theorem Pin.ne_singleton {path version : String} {pin : List Char} (h : Pin path version pin)
    (c : Char) : pin ≠ [c] := by
  obtain ⟨hpath, hversion, htoken, hgap⟩ := h
  intro heq
  have hlength := congrArg List.length heq
  have := List.length_pos_iff.2 (htoken.word hpath).nonempty
  have := List.length_pos_iff.2 hversion.nonempty
  simp only [List.length_append, List.length_singleton] at hlength
  omega

/-- An entry does not open a block, whatever its path is. -/
theorem Pin.opensBlock {path version : String} {pin : List Char} (h : Pin path version pin) :
    opensBlock pin = false := by
  obtain @⟨token, gap, hpath, ⟨hversion, hnamed⟩, htoken, hgap⟩ := h
  rw [Bool.eq_false_iff]
  intro ho
  obtain ⟨rest, hpin, htrim⟩ := exists_of_opensBlock ho
  have hword := word_append (htoken.word hpath).solid (hgap.head version.toList)
  rw [← List.append_assoc, hpin] at hword
  cases rest with
  | nil => cases htrim
  | cons c rest =>
    cases hc : isBlank c with
    | true =>
      -- the path would be the keyword, and the version a bracket
      rw [word_append word_require.solid (by simpa using hc)] at hword
      have hrest : c :: rest = gap ++ version.toList := (Prod.mk.inj hword).2
      rw [hrest, trimStart_gap hgap hversion.body.head] at htrim
      obtain ⟨d, s, hversion⟩ := hnamed
      exact absurd (htrim.symm.trans hversion) (by simp)
    | false =>
      -- the keyword and the bracket would be one word, without the blank that an entry has
      rw [Text.trimStart_of_head hc] at htrim
      obtain ⟨b, s, hcons⟩ := List.exists_cons_of_ne_nil hgap.1
      have hb : b ∈ "require".toList ++ ['('] := by
        rw [← htrim, ← hpin, hcons]
        simp
      have hsolid : Solid ("require".toList ++ ['(']) := by decide
      exact absurd (hgap.2.blank b (by simp [hcons])) (by simp [hsolid b hb])

theorem Pin.read {path version : String} {pin : List Char} (h : Pin path version pin) :
    entry? pin = some (path, version) := by
  obtain @⟨token, gap, hpath, ⟨hversion, c, s, hnamed⟩, htoken, hgap⟩ := h
  have hword := htoken.word hpath
  unfold Manifest.entry?
  rw [List.append_assoc, word_append hword.solid (hgap.head _)]
  dsimp only
  rw [trimStart_gap hgap hversion.body.head, word_of_solid hversion.solid, hnamed]
  show (if token.isEmpty then none
    else some (Manifest.unquote token, String.ofList ('v' :: c :: s))) = some (path, version)
  rw [if_neg (by simpa using hword.nonempty), htoken.unquote hpath, ← hnamed, String.ofList_toList]

theorem Pin.single? {path version : String} {pin gap : List Char} (h : Pin path version pin)
    (hgap : Gap gap) : single? ("require".toList ++ gap ++ pin) = some (path, version) := by
  obtain @⟨token, gap', hpath, ⟨hversion, _⟩, htoken, hgap'⟩ := h
  have hword := htoken.word hpath
  rw [Manifest.single?, List.append_assoc token,
    wordAfter?_append hgap hword (hgap'.head _) "require"]
  simp only [Option.bind_eq_bind, Option.bind_some]
  rw [trimStart_gap hgap' hversion.body.head, word_of_solid hversion.solid]
  split
  · rename_i hnil
    exact absurd (Prod.mk.inj hnil).1 hversion.nonempty
  · rename_i hfound
    rw [htoken.unquote hpath, ← (Prod.mk.inj hfound).1, String.ofList_toList]

theorem ofText_idle {raw : List Char} (h : Idle raw) (inBlock : Bool) :
    Line.ofText inBlock raw = .other := by
  rw [Line.ofText, h.trim_dropComment]
  cases inBlock <;> rfl

theorem ofText_single {path version : String} {gap pin raw : List Char}
    (hpin : Pin path version pin) (hgap : Gap gap)
    (h : Holds ("require".toList ++ gap ++ pin) raw) :
    Line.ofText false raw = .requires path version := by
  have hbody := word_require.body.join hgap hpin.body.1 word_require.nonempty hpin.body.2
  have hopens : opensBlock ("require".toList ++ gap ++ pin) = false := by
    rw [opensBlock, List.append_assoc, Text.isPrefixOf?_append]
    dsimp only
    rw [trimStart_gap hgap hpin.body.1.head]
    exact decide_eq_false (hpin.ne_singleton '(')
  simp only [Line.ofText, h.trim_dropComment hbody, hopens, hpin.single? hgap, Bool.false_and,
    Bool.false_eq_true, if_false]

theorem ofText_entry {path version : String} {pin raw : List Char} (hpin : Pin path version pin)
    (h : Holds pin raw) : Line.ofText true raw = .requires path version := by
  simp [Line.ofText, h.trim_dropComment hpin.body.1, hpin.opensBlock, hpin.read,
    hpin.ne_singleton]

theorem body_opens {pad : List Char} (h : Pad pad) : Body ("require".toList ++ pad ++ ['(']) where
  head := by
    rw [List.append_assoc, List.head?_append_of_ne_nil _ word_require.nonempty]
    exact word_require.body.head
  last := by
    rw [List.getLast?_append_of_ne_nil _ (by simp)]
    simpa using (by decide : isBlank '(' = false)
  unmarked := unmarked_of_not_mem fun hs => by
    simp only [List.mem_append] at hs
    rcases hs with (hs | hs) | hs
    · exact absurd hs (by decide)
    · exact slash_not_mem_of_pad h hs
    · exact absurd hs (by decide)

theorem ofText_opens {pad raw : List Char} (hpad : Pad pad)
    (h : Holds ("require".toList ++ pad ++ ['(']) raw) (inBlock : Bool) :
    Line.ofText inBlock raw = .opens := by
  have hopens : opensBlock ("require".toList ++ pad ++ ['(']) = true := by
    rw [opensBlock, List.append_assoc, Text.isPrefixOf?_append]
    dsimp only
    rw [Text.trimStart_append hpad.blank]
    decide
  rw [Line.ofText, h.trim_dropComment (body_opens hpad), hopens]
  rfl

theorem word_closes : Word [')'] := ⟨by decide, by decide, by decide⟩

theorem ofText_closes {raw : List Char} (h : Holds [')'] raw) : Line.ofText true raw = .closes := by
  rw [Line.ofText, h.trim_dropComment word_closes.body]
  rfl

/-! ## 6. Manifests -/

/-- **What is read is what is listed**, from any line of a layout on. -/
theorem Lists.read {inBlock : Bool} {lines : List (List Char)} {listed : List (String × String)}
    (h : Lists inBlock lines listed) (known : Requirements) :
    requirementsFrom inBlock known lines = Table.setAll known listed := by
  induction h generalizing known with
  | done => rfl
  | idle hidle rest ih => rw [requirementsFrom, ofText_idle hidle]; exact ih known
  | foreign hforeign rest ih => rw [requirementsFrom, ofText_foreign hforeign.2]; exact ih known
  | single hpin hgap hline rest ih =>
    rw [requirementsFrom, ofText_single hpin hgap hline]
    exact ih _
  | opens hpad hline rest ih => rw [requirementsFrom, ofText_opens hpad hline]; exact ih known
  | entry hpin hline rest ih =>
    rw [requirementsFrom, ofText_entry hpin hline]
    exact ih _
  | closes hline rest ih => rw [requirementsFrom, ofText_closes hline]; exact ih known

theorem Idle.unbroken {raw : List Char} (h : Idle raw) : Unbroken raw := by
  cases h with
  | blanks hpad => exact hpad.unbroken
  | comment hlead htext =>
    exact (hlead.unbroken.append (show Unbroken commentMark by decide)).append htext

theorem Holds.unbroken {body raw : List Char} (h : Holds body raw) (hbody : Unbroken body) :
    Unbroken raw := by
  obtain ⟨lead, tail, hlead, htail, rfl⟩ := h
  exact (hlead.unbroken.append hbody).append htail.1.unbroken

theorem Pin.unbroken {path version : String} {pin : List Char} (h : Pin path version pin) :
    Unbroken pin := by
  obtain ⟨hpath, hversion, htoken, hgap⟩ := h
  exact ((htoken.word hpath).unbroken.append hgap.2.unbroken).append hversion.unbroken

/-- The lines of a layout are lines. -/
theorem Lists.unbroken {inBlock : Bool} {lines : List (List Char)}
    {listed : List (String × String)} (h : Lists inBlock lines listed) :
    ∀ line ∈ lines, Unbroken line := by
  induction h with
  | done => simp
  | idle hidle rest ih => exact List.forall_mem_cons.2 ⟨hidle.unbroken, ih⟩
  | foreign hforeign rest ih => exact List.forall_mem_cons.2 ⟨hforeign.1, ih⟩
  | single hpin hgap hline rest ih =>
    exact List.forall_mem_cons.2 ⟨hline.unbroken
      ((word_require.unbroken.append hgap.2.unbroken).append hpin.unbroken), ih⟩
  | opens hpad hline rest ih =>
    exact List.forall_mem_cons.2 ⟨hline.unbroken
      ((word_require.unbroken.append hpad.unbroken).append (by decide)), ih⟩
  | entry hpin hline rest ih => exact List.forall_mem_cons.2 ⟨hline.unbroken hpin.unbroken, ih⟩
  | closes hline rest ih =>
    exact List.forall_mem_cons.2 ⟨hline.unbroken word_closes.unbroken, ih⟩

/-! ### The path of the module -/

theorem Tail.head {tail : List Char} (h : Tail tail) : ∀ c ∈ tail.head?, isBlank c = true := by
  obtain ⟨hidle, hslash⟩ := h
  cases hidle with
  | blanks hpad => exact fun c hc => hpad.blank c (List.mem_of_mem_head? hc)
  | @comment lead text hlead htext =>
    cases lead with
    | nil => exact absurd rfl hslash
    | cons b lead =>
      intro c hc
      obtain rfl : b = c := Option.some.inj hc
      exact hlead.blank b (by simp)

/-- Only the blanks after a body go from the end of a line. -/
theorem trimEnd_append {s : List Char} (h : ∀ c ∈ s.getLast?, isBlank c = false) (t : List Char) :
    Text.trimEnd (s ++ t) = s ++ Text.trimEnd t := by
  have hs : s.reverse.dropWhile isBlank = s.reverse := by
    rcases List.eq_nil_or_concat s with rfl | ⟨init, c, rfl⟩
    · rfl
    · simp [h c (by simp)]
  rw [Text.trimEnd, Text.trimEnd, List.reverse_append, List.dropWhile_append]
  split
  · rename_i hempty
    rw [List.isEmpty_iff.1 hempty, hs, List.reverse_reverse, List.reverse_nil, List.append_nil]
  · rw [List.reverse_append, List.reverse_reverse]

theorem trimEnd_prefix (s : List Char) : Text.trimEnd s <+: s := by
  have h := List.reverse_prefix.2 (List.dropWhile_suffix (l := s.reverse) isBlank)
  rwa [List.reverse_reverse] at h

/-- A declaration is read for the path that it declares. -/
theorem Declares.read {path : String} {raw : List Char} (h : Declares path raw) :
    modulePathOfLine? raw = some path := by
  obtain ⟨hpath, gap, token, hgap, htoken, lead, tail, hlead, htail, rfl⟩ := h
  have hword := htoken.word hpath
  have hbody := word_module.body.join hgap hword.body word_module.nonempty hword.nonempty
  have htrim : Text.trim (lead ++ ("module".toList ++ gap ++ token) ++ tail)
      = "module".toList ++ gap ++ (token ++ Text.trimEnd tail) := by
    rw [Text.trim, hbody.trimStart hlead (by simp), trimEnd_append hbody.last,
      List.append_assoc _ token]
  have hend : ∀ c ∈ (Text.trimEnd tail).head?, isBlank c = true := by
    obtain ⟨rest, hrest⟩ := trimEnd_prefix tail
    intro c hc
    refine htail.head c ?_
    rw [← hrest, List.head?_append, hc]
    rfl
  rw [modulePathOfLine?, htrim, wordAfter?_append hgap hword hend, Option.map_some,
    htoken.unquote hpath]

/-- A declaration of the module is a line of another directive. -/
theorem Declares.foreign {path : String} {raw : List Char} (h : Declares path raw) :
    Foreign raw := by
  obtain ⟨hpath, gap, token, hgap, htoken, hline⟩ := h
  have hword := htoken.word hpath
  have hbody := word_module.body.join hgap hword.body word_module.nonempty hword.nonempty
  refine ⟨hline.unbroken
    ((word_module.unbroken.append hgap.2.unbroken).append hword.unbroken), ?_⟩
  obtain ⟨lead, tail, hlead, htail, rfl⟩ := hline
  rw [leads, hbody.trimStart hlead (by simp)]
  rfl

/-- Layouts of the same list are read alike. -/
theorem requirements_of_lists {lines : List (List Char)} {listed : List (String × String)}
    {content : String} (hlines : Lists false lines listed)
    (hcontent : Text.Written lines content.toList) :
    requirements content = Table.ofEntries listed := by
  rw [requirements, manifestLines, hcontent.lines hlines.unbroken, hlines.read]
  rfl

/-- **A manifest is read as what it lists, however it is laid out**: the requirements are the
paths that are listed, each once, with the version that is listed last for it, and the path of
the module is the one declared, unless the word for it leads an earlier line. -/
theorem read_as_listed {lines : List (List Char)} {listed : List (String × String)}
    {content : String} (hlines : Lists false lines listed)
    (hcontent : Text.Written lines content.toList) :
    (Table.keys (requirements content)).Nodup ∧
    (∀ path version, (path, version) ∈ requirements content ↔ Table.Last listed path version) ∧
    ∀ earlier raw later path, lines = earlier ++ raw :: later → Declares path raw →
      (∀ line ∈ earlier, leads "module" line = false) → modulePath? content = some path := by
  have hreqs := requirements_of_lists hlines hcontent
  refine ⟨hreqs ▸ Table.nodup_keys_ofEntries listed, fun path version => ?_, ?_⟩
  · rw [hreqs]
    exact Table.mem_ofEntries
  · rintro earlier raw later path rfl hdeclares hearlier
    have hread := hcontent.lines hlines.unbroken
    have hnone : ∀ line ∈ earlier, modulePathOfLine? line = none :=
      fun line hline => modulePathOfLine?_of_leads (hearlier line hline)
    rw [modulePath?, manifestLines, hread, List.findSome?_append,
      List.findSome?_eq_none_iff.2 hnone, Option.none_or, List.findSome?_cons, hdeclares.read]

/-- The lines of a manifest that pins one of two modules twice, with their ends. -/
def pinnedTwice : List (List Char × List Char) :=
  [("module \"example.com/app\" // the program".toList, ['\n']), ([], ['\r', '\n']),
   ("replace (".toList, ['\n']), ("\texample.com/a => ../a".toList, ['\n']), (")".toList, ['\n']),
   ("require example.com/a v1.0.0".toList, ['\r', '\n']), ("require(".toList, ['\n']),
   ("\t\x60example.com/b\x60\tv0.2.0 // indirect".toList, ['\n']),
   ("  // pinned again".toList, ['\r', '\n']), ("\texample.com/a v1.1.0".toList, ['\n']),
   (") ".toList, ['\n'])]

theorem read_as_listed_pinnedTwice :
    let content := String.ofList (pinnedTwice.flatMap fun l => l.1 ++ l.2)
    (Table.keys (requirements content)).Nodup ∧
      ("example.com/a", "v1.1.0") ∈ requirements content ∧
      modulePath? content = some "example.com/app" := by
  have hpath {path : String} (h : path ∈ ["example.com/app", "example.com/a", "example.com/b"]) :
      PathWord path := by
    simp only [List.mem_cons, List.not_mem_nil, or_false] at h
    obtain rfl | rfl | rfl := h <;>
      exact ⟨⟨by decide, by decide, by decide⟩, List.forall_mem_cons.2 ⟨by decide, by simp⟩⟩
  have hversion {version : String} (h : version ∈ ["v1.0.0", "v0.2.0", "v1.1.0"]) :
      VersionWord version := by
    simp only [List.mem_cons, List.not_mem_nil, or_false] at h
    obtain rfl | rfl | rfl := h <;> exact ⟨⟨by decide, by decide, by decide⟩, _, _, rfl⟩
  have hspace : Gap [' '] := by decide
  have htab : Gap ['\t'] := by decide
  have hnothing : Tail [] := ⟨.blanks (by decide), by decide⟩
  have hindirect : Tail " // indirect".toList :=
    ⟨@Idle.comment [' '] " indirect".toList (by decide) (by decide), by decide⟩
  have hprogram : Tail " // the program".toList :=
    ⟨@Idle.comment [' '] " the program".toList (by decide) (by decide), by decide⟩
  have hagain : Idle "  // pinned again".toList :=
    @Idle.comment [' ', ' '] " pinned again".toList (by decide) (by decide)
  have hdeclares : Declares "example.com/app" "module \"example.com/app\" // the program".toList :=
    ⟨hpath (by decide), [' '], _, hspace, .quoted (q := '"') (by decide),
      [], _, by decide, hprogram, rfl⟩
  have hlines : Lists false (pinnedTwice.map Prod.fst) [("example.com/a", "v1.0.0"),
      ("example.com/b", "v0.2.0"), ("example.com/a", "v1.1.0")] := by
    refine .foreign hdeclares.foreign <| .idle (.blanks (by decide)) <|
      .foreign (by decide) <| .foreign (by decide) <| .foreign (by decide) ?_
    refine .single (.mk (hpath (by decide)) (hversion (by decide)) .bare hspace) hspace
      ⟨[], [], by decide, hnothing, rfl⟩ ?_
    refine @Lists.opens [] _ _ _ (by decide) ⟨[], [], by decide, hnothing, rfl⟩ ?_
    refine .entry (.mk (hpath (by decide)) (hversion (by decide))
      (.quoted (q := '\x60') (by decide)) htab) ⟨['\t'], _, by decide, hindirect, rfl⟩ ?_
    refine .idle hagain <| .entry (.mk (hpath (by decide)) (hversion (by decide)) .bare hspace)
      ⟨['\t'], [], by decide, hnothing, rfl⟩ ?_
    exact .closes ⟨[], [' '], by decide, ⟨.blanks (by decide), by decide⟩, rfl⟩ .done
  intro content
  have hcontent : Text.Written (pinnedTwice.map Prod.fst) content.toList := by
    rw [String.toList_ofList]
    exact Text.written_flatMap (by decide)
  obtain ⟨hkeys, hentries, hmodule⟩ := read_as_listed hlines hcontent
  have hlast : Table.Last [("example.com/a", "v1.0.0"), ("example.com/b", "v0.2.0"),
      ("example.com/a", "v1.1.0")] "example.com/a" "v1.1.0" :=
    ⟨[("example.com/a", "v1.0.0"), ("example.com/b", "v0.2.0")], [], rfl, by simp⟩
  exact ⟨hkeys, (hentries _ _).2 hlast, hmodule [] _ _ _ rfl hdeclares (by simp)⟩

end UpgradeAudit.Manifest
