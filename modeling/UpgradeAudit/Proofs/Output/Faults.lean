/-
# What a document is blamed for

Output that cannot be decoded is laid to the analyzer that wrote it, but not all of it is: bytes
that are no text in the encoding they seem to have, integers of too many digits and collections
nested too deep are met with causes of their own, which name no analyzer (`Document.Unread`).
For a document that is read whole this is the line between the two, both ways
(`Document.decode_error`, `Document.decode_of_unread`).

The stream of staticcheck is read with faults replaced, so its bytes are always text.  There
the source files are read too, and a record may name one that no file can be called, or a
line beyond all that can be asked for (`CheckStream.Unread`).
-/
import UpgradeAudit.Output.CallPaths
import UpgradeAudit.Output.CheckStream
import UpgradeAudit.Output.LintReport
import UpgradeAudit.Proofs.Manifest.Restoring

namespace UpgradeAudit

variable {α β : Type} {host : Host} {w w' : World}

/-- A cause that names an analyzer. -/
abbrev Cause.IsLaidTo (c : Cause) (tool : Tool) : Prop := ∃ m, c = .analyzer tool.name m

/-- A list of checks fails with the failure of one of them. -/
theorem exists_error_of_mapM {ε : Type} {f : α → Except ε β} {e : ε} :
    ∀ {as : List α}, as.mapM f = .error e → ∃ a ∈ as, f a = .error e
  | [], h => by cases h
  | a :: as, h => by
    rw [List.mapM_cons] at h
    cases ha : f a with
    | error e' =>
      rw [ha] at h
      obtain rfl : e' = e := Except.error.inj h
      exact ⟨a, List.mem_cons_self, ha⟩
    | ok b =>
      rw [ha] at h
      cases hrest : as.mapM f with
      | ok bs =>
        rw [hrest] at h
        cases h
      | error e' =>
        rw [hrest] at h
        obtain rfl : e' = e := Except.error.inj h
        obtain ⟨a', hmem, ha'⟩ := exists_error_of_mapM hrest
        exact ⟨a', List.mem_cons_of_mem a hmem, ha'⟩

/-- What an action with a cause of its own for file errors fails with: that cause, or what the
action fails with itself. -/
theorem Action.onFileError_error {x : Action α} {cause : FileError → Cause} {f : Failure}
    (h : (x.onFileError cause host w).1 = .error f) :
    ∃ g, (x host w).1 = .error g ∧
      ((∃ e notes, g = .single (.file e) notes ∧ f = .ofCause (cause e)) ∨
        (∀ e notes, g ≠ .single (.file e) notes) ∧ f = g) := by
  unfold onFileError at h
  rw [mapFailure_run] at h
  cases hx : (x host w).1 with
  | ok a =>
    rw [hx] at h
    cases h
  | error g =>
    rw [hx] at h
    have h := Except.error.inj h
    dsimp only at h
    refine ⟨g, rfl, ?_⟩
    split at h
    · exact Or.inl ⟨_, _, rfl, h.symm⟩
    · rename_i hne
      exact Or.inr ⟨fun e notes he => hne e notes he, h.symm⟩

namespace Output

variable {tool : Tool} {d : Document} {record : Json.Reader α} {c : Cause} {room : Nat}
  {moduleCache : String} {workDir : Option String}

/-! ## 1. Documents -/

/-- Whether a fault is laid to the analyzer. -/
def isLaid : Json.Fault → Bool
  | .malformed | .unexpected => true
  | .longInteger _ | .tooDeep _ => false

theorem decodingCause_of_isLaid {fault : Json.Fault} (h : isLaid fault = true) (tool : Tool) :
    (decodingCause tool fault).IsLaidTo tool := by
  cases fault with
  | malformed => exact ⟨_, rfl⟩
  | unexpected => exact ⟨_, rfl⟩
  | longInteger digits => cases h
  | tooDeep collection => cases h

/-- The causes for which a whole document is not decoded and that name no analyzer, where there is
so much room. -/
inductive Document.Unread (tool : Tool) (room : Nat) (d : Document) : Cause → Prop
  /-- The bytes are no text. -/
  | noText {c : Cause} (h : d.jsonText = .error c) : d.Unread tool room c
  /-- Reading the text takes more than a reader can do. -/
  | beyond {s : String} {fault : Json.Fault} (text : d.jsonText = .ok s)
      (read : Json.read s room = .error fault) (h : isLaid fault = false) :
      d.Unread tool room (decodingCause tool fault)

/-- A document that cannot be decoded is laid to its analyzer, or was not read. -/
theorem Document.decode_error (h : d.decode tool record room = .error c) :
    c.IsLaidTo tool ∨ d.Unread tool room c := by
  unfold Document.decode at h
  cases ht : d.jsonText with
  | error e =>
    rw [ht] at h
    obtain rfl : e = c := Except.error.inj h
    exact Or.inr (.noText ht)
  | ok s =>
    simp only [ht, bind, Except.bind] at h
    cases hr : Json.read s room with
    | error fault =>
      simp only [hr] at h
      obtain rfl := Except.error.inj h
      cases hl : isLaid fault with
      | true => exact Or.inl (decodingCause_of_isLaid hl tool)
      | false => exact Or.inr (.beyond ht hr hl)
    | ok v =>
      simp only [hr] at h
      cases hv : record v with
      | some a => simp [hv] at h
      | none =>
        simp only [hv] at h
        obtain rfl := Except.error.inj h
        exact Or.inl (decodingCause_of_isLaid rfl tool)

/-- **A document that was not read is not decoded**, whatever is asked of it. -/
theorem Document.decode_of_unread (h : d.Unread tool room c) :
    d.decode tool record room = .error c := by
  unfold Document.decode
  cases h with
  | noText ht =>
    rw [ht]
    rfl
  | beyond ht hr hl =>
    simp only [ht, hr, bind, Except.bind]

/-! ## 2. Capabilities -/

theorem CallPaths.capability_error {e : CallPaths.Entry}
    (h : e.capability moduleCache = .error c) : c.IsLaidTo .capslock := by
  unfold CallPaths.Entry.capability at h
  dsimp only at h
  split at h
  · exact ⟨_, (Except.error.inj h).symm⟩
  · cases h

theorem CallPaths.decode_error (h : CallPaths.decode d moduleCache room = .error c) :
    c.IsLaidTo .capslock ∨ d.Unread .capslock room c := by
  unfold CallPaths.decode at h
  cases hd : d.decode .capslock CallPaths.reportOfJson room with
  | error e =>
    rw [hd] at h
    obtain rfl : e = c := Except.error.inj h
    exact Document.decode_error hd
  | ok found =>
    obtain ⟨entries, modules⟩ := found
    simp only [hd, bind, Except.bind] at h
    cases hm : entries.mapM (CallPaths.Entry.capability moduleCache) with
    | ok capabilities => simp [hm, pure, Except.pure] at h
    | error e =>
      simp only [hm] at h
      obtain rfl := Except.error.inj h
      obtain ⟨entry, -, he⟩ := exists_error_of_mapM hm
      exact Or.inl (CallPaths.capability_error he)

theorem CallPaths.decode_of_unread (h : d.Unread .capslock room c) :
    CallPaths.decode d moduleCache room = .error c := by
  unfold CallPaths.decode
  rw [Document.decode_of_unread h]
  rfl

/-! ## 3. Issues of golangci-lint -/

theorem LintReport.decode_error (h : LintReport.decode d moduleCache workDir room = .error c) :
    c.IsLaidTo .golangciLint ∨ d.Unread .golangciLint room c := by
  unfold LintReport.decode at h
  cases hd : d.decode .golangciLint LintReport.reportOfJson room with
  | error e =>
    rw [hd] at h
    obtain rfl : e = c := Except.error.inj h
    exact Document.decode_error hd
  | ok issues =>
    rw [hd] at h
    cases h

theorem LintReport.decode_of_unread (h : d.Unread .golangciLint room c) :
    LintReport.decode d moduleCache workDir room = .error c := by
  unfold LintReport.decode
  rw [Document.decode_of_unread h]
  rfl

/-! ## 4. Issues of staticcheck -/

namespace CheckStream

/-- The causes for which a stream of problems is not decoded and that name no analyzer, where
there is so much room. -/
inductive Unread (room : Nat) (d : Document) (workDir : Option String) : Cause → Prop
  /-- Reading a record takes more than a reader can do. -/
  | beyond {fault : Json.Fault}
      (read : (Json.stream d.lossyText room).decode problemOfJson = .error fault)
      (h : isLaid fault = false) : Unread room d workDir (decodingCause .staticcheck fault)
  /-- A problem is found in a source file that no file can be called. -/
  | unnamed {found : List Problem} {p : Problem} {c : Cause} (read : problems d room = .ok found)
      (mem : p ∈ found) (h : Cause.ofFileName? (sourcePath workDir p.location.file) = some c) :
      Unread room d workDir c
  /-- A problem is found beyond every line that can be asked for. -/
  | outOfRange {found : List Problem} {p : Problem} {line : Int}
      (read : problems d room = .ok found) (mem : p ∈ found)
      (h : line = max p.location.line ((p.stop.map Place.line).getD 0))
      (beyond : lineLimit < line) : Unread room d workDir (.lineOutOfRange line)

theorem problems_error (h : problems d room = .error c) :
    c.IsLaidTo .staticcheck ∨ Unread room d workDir c := by
  unfold problems at h
  split at h
  · cases h
  · rename_i fault hread
    obtain rfl := Except.error.inj h
    cases hl : isLaid fault with
    | true => exact Or.inl (decodingCause_of_isLaid hl .staticcheck)
    | false => exact Or.inr (.beyond hread hl)

/-- Source lines are not read because their file has no name, because of the file, or because
there are no such lines. -/
theorem readLines_error {path : String} {start stop : Int} {f : Failure}
    (h : (readLines path start stop host w).1 = .error f) :
    (∃ c, Cause.ofFileName? path = some c ∧ f = .ofCause c) ∨ (∃ e, f = .ofCause (.file e)) ∨
      lineLimit < max start stop ∧ f = .ofCause (.lineOutOfRange (max start stop)) := by
  unfold readLines at h
  split at h
  · cases h
  · rcases Action.bind_error h with hread | ⟨content, v, -, h⟩
    · cases hname : Cause.ofFileName? path with
      | none => exact Or.inr (Or.inl (Action.readFile_error hname hread))
      | some c =>
        have refused : (Action.readFile path host w).1 = .error (.ofCause c) := by
          unfold Action.readFile Action.checkName
          rw [hname]
          rfl
        exact Or.inl ⟨c, rfl, Except.error.inj (hread.symm.trans refused)⟩
    · dsimp only at h
      split at h
      · rename_i hline
        exact Or.inr (Or.inr ⟨hline, (Except.error.inj h).symm⟩)
      · cases h

theorem issueOf_error {found : List Problem} {p : Problem} {f : Failure}
    (hread : problems d room = .ok found) (hp : p ∈ found)
    (h : (issueOf moduleCache workDir p host w).1 = .error f) :
    ∃ c, f = .ofCause c ∧ (c.IsLaidTo .staticcheck ∨ Unread room d workDir c) := by
  unfold issueOf at h
  dsimp only at h
  split at h
  · cases h
  rcases Action.bind_error h with hlines | ⟨lines, v, -, h⟩
  · obtain ⟨g, hg, ⟨error, notes, rfl, rfl⟩ | ⟨hne, rfl⟩⟩ := Action.onFileError_error hlines
    · exact ⟨_, rfl, Or.inl ⟨_, rfl⟩⟩
    rcases readLines_error hg with ⟨c, hname, rfl⟩ | ⟨error, rfl⟩ | ⟨hline, rfl⟩
    · exact ⟨c, rfl, Or.inr (.unnamed hread hp hname)⟩
    · exact absurd rfl (hne error [])
    · exact ⟨_, rfl, Or.inr (.outOfRange hread hp rfl hline)⟩
  · cases h

theorem issuesOf_error {found : List Problem} {f : Failure} (hread : problems d room = .ok found) :
    ∀ {ps : List Problem} {w : World}, (∀ p ∈ ps, p ∈ found) →
      (issuesOf moduleCache workDir ps host w).1 = .error f →
      ∃ c, f = .ofCause c ∧ (c.IsLaidTo .staticcheck ∨ Unread room d workDir c)
  | [], _, _, h => by cases h
  | p :: ps, w, hsub, h => by
    rw [issuesOf] at h
    rcases Action.bind_error h with hissue | ⟨issue, v, -, h⟩
    · exact issueOf_error hread (hsub p List.mem_cons_self) hissue
    · rcases Action.bind_error h with hrest | ⟨issues, v', -, h⟩
      · exact issuesOf_error hread (fun q hq => hsub q (List.mem_cons_of_mem p hq)) hrest
      · cases h

/-- **A stream that cannot be decoded is laid to staticcheck**, or was not read, or names source
lines that cannot be asked for. -/
theorem decode_error {f : Failure} (h : (decode d moduleCache workDir host w).1 = .error f) :
    ∃ c, f = .ofCause c ∧
      (c.IsLaidTo .staticcheck ∨ Unread (host.nesting w.clock) d workDir c) := by
  unfold decode at h
  rw [Action.bind_of_ok (Action.room_run host w)] at h
  cases hread : problems d (host.nesting w.clock) with
  | error c =>
    rw [hread] at h
    exact ⟨c, (Except.error.inj h).symm, problems_error hread⟩
  | ok found =>
    rw [hread, Action.bind_of_ok (x := Action.ofCauses (.ok found)) rfl] at h
    exact issuesOf_error hread (fun p hp => hp) h

end CheckStream
end Output
end UpgradeAudit
