/-
# Streams of values

A stream is read in rounds, each of which drops blanks and reads a value, and so takes a character
at least (`Rounds`).  The rounds of a text are its stream (`rounds_stream`): every text has them,
and no text has others.

**Streams compose** (`Rounds.append`).  Where a blank stands between two texts, no value of the
first reads on into the second (`value_append`), so the rounds of the first are followed by those of
the second.  For printed values this says that they are read back one after the other, each exactly
when it would be by itself (`Joined.stream_iff`): when it is no deeper than there is room for, has
no integer with more digits than may be read, and has no string in which two surrogates make a
pair.
-/
import UpgradeAudit.Json.Stream
import UpgradeAudit.Proofs.Json.Reading
import UpgradeAudit.Proofs.Text.Blanks

namespace UpgradeAudit.Json

/-! ## 1. Rounds -/

/-- The rounds in which a stream is read: the values, and the fault that ends it before the end of
the text. -/
inductive Rounds (room : Nat) : List Char → List Json → Option Fault → Prop
  | done {s : List Char} (h : Text.trimStart s = []) : Rounds room s [] none
  | stop {s : List Char} {fault : Fault} (hne : Text.trimStart s ≠ [])
      (h : value room (Text.trimStart s) = .error fault) : Rounds room s [] (some fault)
  | next {s rest : List Char} {v : Json} {vs : List Json} {fault : Option Fault}
      (h : value room (Text.trimStart s) = .ok (v, rest)) (hshorter : rest.length < s.length)
      (hrest : Rounds room rest vs fault) : Rounds room s (v :: vs) fault

variable {room : Nat}

theorem length_trimStart_le (s : List Char) : (Text.trimStart s).length ≤ s.length :=
  (List.dropWhile_suffix _).length_le

/-- No value stands at the end of a text. -/
theorem ne_nil_of_value {s rest : List Char} {v : Json} (h : value room s = .ok (v, rest)) :
    s ≠ [] := by
  rintro rfl
  exact absurd (length_of_value h) (Nat.not_lt_zero _)

/-- Every text is read in rounds. -/
theorem exists_rounds (room : Nat) (s : List Char) : ∃ vs fault, Rounds room s vs fault := by
  induction hn : s.length using Nat.strongRecOn generalizing s with
  | ind n ih =>
    by_cases hnil : Text.trimStart s = []
    · exact ⟨[], none, .done hnil⟩
    cases hvalue : value room (Text.trimStart s) with
    | error fault => exact ⟨[], some fault, .stop hnil hvalue⟩
    | ok found =>
      have hshorter := Nat.lt_of_lt_of_le (length_of_value hvalue) (length_trimStart_le s)
      obtain ⟨vs, fault, hrest⟩ := ih found.2.length (hn ▸ hshorter) found.2 rfl
      exact ⟨found.1 :: vs, fault, .next hvalue hshorter hrest⟩

/-- The rounds of a text are what its stream is read in, given fuel for each of its characters. -/
theorem Rounds.streamFrom {s : List Char} {vs : List Json} {fault : Option Fault}
    (h : Rounds room s vs fault) {fuel : Nat} (hfuel : s.length ≤ fuel) (seen : List Json) :
    streamFrom room fuel seen s = ⟨seen.reverse ++ vs, fault⟩ := by
  induction h generalizing fuel seen with
  | done hnil => cases fuel <;> simp [Json.streamFrom, hnil]
  | @stop s fault hne hvalue =>
    have hpos := List.length_pos_iff.2 hne
    have hle := length_trimStart_le s
    obtain ⟨fuel, rfl⟩ : ∃ n, fuel = n + 1 := Nat.exists_eq_add_one.2 (by omega)
    rw [Json.streamFrom]
    split
    · exact absurd ‹_› hne
    · simp [hvalue]
  | @next s rest v vs fault hvalue hshorter _ ih =>
    obtain ⟨fuel, rfl⟩ : ∃ n, fuel = n + 1 := Nat.exists_eq_add_one.2 (by omega)
    rw [Json.streamFrom]
    split
    · exact absurd ‹_› (ne_nil_of_value hvalue)
    · simp [hvalue, ih (show rest.length ≤ fuel by omega)]

theorem Rounds.stream {s : String} {vs : List Json} {fault : Option Fault}
    (h : Rounds room s.toList vs fault) : stream s room = ⟨vs, fault⟩ :=
  h.streamFrom (Nat.le_of_eq String.length_toList) []

/-- **The rounds of a text are its stream.** -/
theorem rounds_stream (room : Nat) (s : String) :
    Rounds room s.toList (stream s room).values (stream s room).fault := by
  obtain ⟨vs, fault, h⟩ := exists_rounds room s.toList
  rw [h.stream]
  exact h

/-! ## 2. Composition -/

/-- No number goes on with a blank. -/
theorem apart_of_isBlank {c : Char} (h : Text.isBlank c = true) (rest : List Char) :
    Apart (c :: rest) := by
  have hne {d : Char} (hd : Text.isBlank d = false) : c ≠ d := by
    rintro rfl
    rw [h] at hd
    cases hd
  have hdigit : c.isDigit = false :=
    Bool.eq_false_iff.2 fun hdigit => hne (Text.isBlank_of_isDigit hdigit) rfl
  refine ⟨.cons ⟨hdigit, hne (by decide), hne (by decide), hne (by decide)⟩ rest, fun d hd => ?_⟩
  obtain rfl : c = d := by simpa using hd
  exact ⟨hne (by decide), hne (by decide)⟩

/-- Blanks before a text change nothing. -/
theorem Rounds.blanks {gap s : List Char} (hgap : ∀ c ∈ gap, Text.isBlank c = true) {vs : List Json}
    {fault : Option Fault} (h : Rounds room s vs fault) : Rounds room (gap ++ s) vs fault := by
  have htrim := Text.trimStart_append hgap s
  cases h with
  | done hnil => exact .done (by rw [htrim, hnil])
  | stop hne hvalue => exact .stop (by rwa [htrim]) (by rwa [htrim])
  | next hvalue hshorter hrest =>
    exact .next (by rwa [htrim]) (by rw [List.length_append]; omega) hrest

/-- **Where a blank stands between two texts, the rounds of the second follow those of the
first.** -/
theorem Rounds.append {a b : List Char} {vs ws : List Json} {fault : Option Fault}
    (ha : Rounds room a vs none) (hb : Rounds room b ws fault) {gap : List Char} (hne : gap ≠ [])
    (hgap : ∀ c ∈ gap, Text.isBlank c = true) : Rounds room (a ++ (gap ++ b)) (vs ++ ws) fault := by
  generalize hnone : (none : Option Fault) = ended at ha
  induction ha with
  | stop => cases hnone
  | done hnil =>
    have hblank := List.dropWhile_eq_nil_iff.1 hnil
    exact (hb.blanks hgap).blanks hblank
  | @next a rest v vs _ hvalue hshorter _ ih =>
    obtain ⟨c, gap, rfl⟩ := List.exists_cons_of_ne_nil hne
    have hapart := apart_of_isBlank (hgap c List.mem_cons_self) (gap ++ b)
    have htrim : Text.trimStart (a ++ (c :: gap ++ b)) = Text.trimStart a ++ (c :: gap ++ b) := by
      have hstart : ¬ (a.dropWhile Text.isBlank).isEmpty = true := fun hnil =>
        ne_nil_of_value hvalue (List.isEmpty_iff.1 hnil)
      rw [Text.trimStart, List.dropWhile_append, if_neg hstart]
      rfl
    -- the value stops at the gap, so the rounds after it are those of the induction
    have hmore := value_append hapart hvalue
    rw [← List.cons_append, ← htrim] at hmore
    refine .next hmore ?_ (ih hnone)
    simp only [List.length_append]
    omega

/-! ## 3. Printed values -/

/-- Printed values with blanks between them, at least one between two. -/
inductive Joined (layout : Layout) : List Json → List Char → Prop
  | nil : Joined layout [] []
  | single (v : Json) : Joined layout [v] (write layout 0 v)
  | cons (v : Json) {w : Json} {vs : List Json} {gap s : List Char} (hne : gap ≠ [])
      (hgap : ∀ c ∈ gap, Text.isBlank c = true) (h : Joined layout (w :: vs) s) :
      Joined layout (v :: w :: vs) (write layout 0 v ++ (gap ++ s))

/-- A value without numbers of floating point, and with no name twice in an object. -/
structure Floatless (v : Json) : Prop where
  shaped : ∃ room, Shaped room v
  spelled : ∀ t, .text t ∈ v.leaves → Text.Spelled t

/-- A value that is read back when it is printed, in so much room. -/
structure Lasting (room : Nat) (v : Json) : Prop where
  shaped : Shaped room v
  short : v.isWritable = true
  unpaired : ∀ t, .text t ∈ v.leaves → Text.Unpaired (Text.points t)

/-- A value starts with no blank, and not with one of those either that may stand between values. -/
theorem Spells.exists_cons {v : Json} {s : List Char} (h : Spells room v s) :
    ∃ c rest, s = c :: rest ∧ Text.isBlank c = false := by
  cases h with
  | word hw =>
    simp only [words, List.mem_cons, List.not_mem_nil, or_false] at hw
    rcases hw with rfl | rfl | rfl | rfl | rfl | rfl <;> exact ⟨_, _, rfl, by decide⟩
  | number hnumber =>
    obtain ⟨d, rest, hd, rfl | rfl⟩ := hnumber.exists_cons
    · exact ⟨d, rest, rfl, Text.isBlank_of_isDigit hd⟩
    · exact ⟨'-', d :: rest, rfl, by decide⟩
  | text hstring =>
    obtain ⟨inside, rfl, -⟩ := hstring.exists_inside
    exact ⟨_, _, rfl, by decide⟩
  | _ => exact ⟨_, _, rfl, by decide⟩

/-- The text of one value is a stream of it. -/
theorem Spells.rounds {v : Json} {s : List Char} (h : Spells room v s) :
    Rounds room s [v] none := by
  have hvalue := h.value ends_nil.stops
  obtain ⟨c, rest, rfl, hc⟩ := h.exists_cons
  rw [List.append_nil, ← Text.trimStart_of_head hc] at hvalue
  exact .next hvalue (by simp) (.done rfl)

/-- Every value of a stream has one of its texts there. -/
theorem Rounds.spells {s : List Char} {vs : List Json} {fault : Option Fault}
    (h : Rounds room s vs fault) : ∀ v ∈ vs, ∃ text, text <:+: s ∧ Spells room v text := by
  induction h with
  | done => simp
  | stop => simp
  | @next s rest v vs fault hvalue _ _ ih =>
    obtain ⟨text, htrim, htext, -⟩ := value_iff.1 hvalue
    have hsuffix : text ++ rest <:+ s := htrim ▸ List.dropWhile_suffix _
    refine List.forall_mem_cons.2
      ⟨⟨text, (List.prefix_append _ _).isInfix.trans hsuffix.isInfix, htext⟩, fun w hw => ?_⟩
    obtain ⟨text', hpart, htext'⟩ := ih w hw
    exact ⟨text', hpart.trans ((List.suffix_append _ _).trans hsuffix).isInfix, htext'⟩

/-- What was read fits into the room that it was read with. -/
theorem Spells.shaped {room' : Nat} {v : Json} {s : List Char} (h : Spells room v s)
    (hshape : Shaped room' v) : Shaped room v := by
  induction h generalizing room' with
  | word hw =>
    simp only [words, List.mem_cons, List.not_mem_nil, or_false] at hw
    rcases hw with rfl | rfl | rfl | rfl | rfl | rfl
    · exact .null
    · exact .bool true
    · exact .bool false
    all_goals cases hshape
  | number hnumber =>
    cases hnumber with
    | int => exact .int _
    | float => cases hshape
  | text => exact .text _
  | emptyArray => exact .array (by simp)
  | emptyObject => exact .object .nil (by simp)
  | @array room items _ _ _ ih =>
    cases hshape with
    | array hitems =>
      refine .array fun v hv => ?_
      obtain ⟨i, hi, rfl⟩ := List.mem_map.1 hv
      exact ih i hi (hitems _ hv)
  | @object room fields _ _ _ _ ih =>
    cases hshape with
    | object names hfields =>
      refine .object names fun e he => ?_
      obtain ⟨f, hf, heq⟩ := List.mem_map.1 (Table.mem_ofEntries.1 he).mem
      have hshaped := hfields e he
      rw [show e.2 = f.item.value from (Prod.mk.inj heq).2.symm] at hshaped ⊢
      exact ih f hf hshaped

section joined

variable {layout : Layout} (hlayout : layout.Lawful)

include hlayout

theorem mark_not_mem_write {v : Json} (h : Floatless v) : Text.mark ∉ write layout 0 v := by
  obtain ⟨room, hshape⟩ := h.shaped
  exact fun hmark => ne_mark_of_lt (ascii_write hlayout hshape 0 _ hmark) rfl

/-- No mark stands in printed values. -/
theorem Joined.mark_not_mem {vs : List Json} {s : List Char} (h : Joined layout vs s)
    (hvs : ∀ v ∈ vs, Floatless v) : Text.mark ∉ s := by
  induction h with
  | nil => simp
  | single v => exact mark_not_mem_write hlayout (hvs v List.mem_cons_self)
  | cons v hne hgap _ ih =>
    obtain ⟨hv, hvs⟩ := List.forall_mem_cons.1 hvs
    simp only [List.mem_append, not_or]
    exact ⟨mark_not_mem_write hlayout hv, fun hmark => absurd (hgap _ hmark) (by decide), ih hvs⟩

/-- A value that lasts is printed as a text of it. -/
theorem Lasting.rounds {v : Json} (h : Lasting room v) (hv : Floatless v) :
    Rounds room (write layout 0 v) [v] none :=
  (spells_write hlayout h.shaped (fun t ht => ⟨hv.spelled t ht, h.unpaired t ht⟩)
    (isWritable_iff.1 h.short) 0).rounds

/-- **Printed values are the stream that they are read as when each of them lasts**, and only
then. -/
theorem Joined.rounds_iff {vs : List Json} {s : List Char} (h : Joined layout vs s)
    (hvs : ∀ v ∈ vs, Floatless v) : Rounds room s vs none ↔ ∀ v ∈ vs, Lasting room v := by
  constructor
  · intro hrounds v hv
    obtain ⟨text, hpart, htext⟩ := hrounds.spells v hv
    obtain ⟨room, hshape⟩ := (hvs v hv).shaped
    have hfound := htext.found
    refine ⟨htext.shaped hshape, isWritable_iff.2 fun n hn => hfound _ hn, fun t ht => ?_⟩
    obtain ⟨u, hu, hstring⟩ := hfound _ ht
    -- printed text is without marks, so a string of it has surrogates only in escapes
    exact hstring.unpaired fun hmark =>
      h.mark_not_mem hlayout hvs (hpart.subset (hu.subset hmark))
  · intro hlasting
    induction h with
    | nil => exact .done rfl
    | single v => exact (hlasting v List.mem_cons_self).rounds hlayout (hvs v List.mem_cons_self)
    | cons v hne hgap _ ih =>
      obtain ⟨hv, hvs⟩ := List.forall_mem_cons.1 hvs
      obtain ⟨hlasts, hlasting⟩ := List.forall_mem_cons.1 hlasting
      exact (hlasts.rounds hlayout hv).append (ih hvs hlasting) hne hgap

theorem Joined.stream_iff {vs : List Json} {s : List Char} (h : Joined layout vs s)
    (hvs : ∀ v ∈ vs, Floatless v) :
    stream (String.ofList s) room = ⟨vs, none⟩ ↔ ∀ v ∈ vs, Lasting room v := by
  rw [← h.rounds_iff hlayout hvs]
  constructor
  · intro hstream
    have hrounds := rounds_stream room (String.ofList s)
    rwa [hstream, String.toList_ofList] at hrounds
  · intro hrounds
    exact Rounds.stream (by rwa [String.toList_ofList])

end joined

/-- A printed value is the stream of it exactly when it lasts. -/
theorem stream_compact_iff {v : Json} (h : Floatless v) :
    stream v.compact room = ⟨[v], none⟩ ↔ Lasting room v := by
  have hjoined : Joined .oneLine [v] (write .oneLine 0 v) := .single v
  have hiff : stream v.compact room = ⟨[v], none⟩ ↔ ∀ w ∈ [v], Lasting room w :=
    hjoined.stream_iff Layout.lawful_oneLine (List.forall_mem_singleton.2 h)
  rwa [List.forall_mem_singleton] at hiff

/-- **Streams compose.**  A text that is a stream without a fault, blanks, and another text are the
stream of the first text followed by that of the second, with the fault of the second.  Printed
values with blanks between them are the stream of these values exactly when each of them lasts.
Every text is read in rounds that take a character at least.  All of this holds however much room
there is for collections inside one another. -/
theorem streams_compose (room : Nat) :
    (∀ a gap b : String, (stream a room).fault = none → gap ≠ "" →
        (∀ c ∈ gap.toList, Text.isBlank c = true) →
        stream (a ++ gap ++ b) room
          = ⟨(stream a room).values ++ (stream b room).values, (stream b room).fault⟩) ∧
      (∀ layout : Layout, layout.Lawful → ∀ (vs : List Json) (s : List Char), Joined layout vs s →
        (∀ v ∈ vs, Floatless v) →
        (stream (String.ofList s) room = ⟨vs, none⟩ ↔ ∀ v ∈ vs, Lasting room v)) ∧
      ∀ s : String, Rounds room s.toList (stream s room).values (stream s room).fault := by
  refine ⟨fun a gap b hfault hne hgap => ?_,
    fun layout hlayout vs s hs hvs => hs.stream_iff hlayout hvs, rounds_stream room⟩
  have ha := rounds_stream room a
  rw [hfault] at ha
  have hab := ha.append (rounds_stream room b) (fun hnil => hne (String.toList_inj.1 hnil)) hgap
  refine Rounds.stream ?_
  rwa [String.toList_append, String.toList_append, List.append_assoc]

/-- A stream that breaks off in its second half, and printed values with a no-break space between
them. -/
theorem streams_compose_pair :
    stream ("1 [2]" ++ "\n" ++ "\"a\"3[") = ⟨[.int 1, .array [.int 2], .text "a", .int 3],
        some .malformed⟩ ∧
      stream (String.ofList ("[\"a\", 7]".toList ++ (['\u00a0'] ++ "null".toList)))
        = ⟨[.array [.text "a", .int 7], .null], none⟩ := by
  refine ⟨?_, ?_⟩
  · have hgap : ∀ c ∈ "\n".toList, Text.isBlank c = true := List.forall_mem_singleton.2 rfl
    have hfault : (stream "1 [2]").fault = none := by decide +kernel
    rw [(streams_compose usualRoom).1 "1 [2]" "\n" "\"a\"3[" hfault (by decide) hgap]
    rfl
  · have hprinted : write .oneLine 0 (.array [.text "a", .int 7]) = "[\"a\", 7]".toList := by
      decide +kernel
    have hgap : ∀ c ∈ ['\u00a0'], Text.isBlank c = true := List.forall_mem_singleton.2 rfl
    have hnull : Joined .oneLine [.null] "null".toList := .single .null
    have hjoined := Joined.cons (.array [.text "a", .int 7]) (by simp) hgap hnull
    rw [hprinted] at hjoined
    refine ((streams_compose usualRoom).2.1 .oneLine Layout.lawful_oneLine _ _ hjoined ?_).2 ?_
    · have hspelled : Text.Spelled "a" := by decide
      simp only [List.forall_mem_cons]
      exact ⟨⟨⟨1, by simp⟩, by simpa using hspelled⟩, ⟨⟨0, by simp⟩, by simp⟩, by simp⟩
    · have hunpaired : Text.Unpaired (Text.points "a") := .singleton _
      simp only [List.forall_mem_cons]
      exact ⟨⟨.array (by simp), by decide, by simpa using hunpaired⟩, ⟨.null, by decide, by simp⟩,
        by simp⟩

/-- Arrays inside one another, so many inside the outermost. -/
def nested : Nat → Json
  | 0 => .array []
  | n + 1 => .array [nested n]

theorem shaped_nested {n : Nat} : Shaped room (nested n) ↔ n < room := by
  induction n generalizing room with
  | zero =>
    cases room with
    | zero => exact ⟨fun h => (by cases h), fun h => absurd h (Nat.lt_irrefl _)⟩
    | succ room => simp [nested]
  | succ n ih =>
    cases room with
    | zero => exact ⟨fun h => (by cases h), fun h => absurd h (Nat.not_lt_zero _)⟩
    | succ room => simp [nested, ih]

theorem text_not_mem_nested (n : Nat) (t : String) : .text t ∉ (nested n).leaves := by
  induction n with
  | zero => simp [nested]
  | succ n ih => simpa [nested] using ih

/-- **Not every value is read back**: no integer with a digit too many, no array too deep for the
room there is, and no string in which two surrogates make a pair. -/
theorem stream_of_printed_differs :
    (Floatless (.int (10 ^ digitLimit)) ∧
        stream (compact (.int (10 ^ digitLimit))) ≠ ⟨[.int (10 ^ digitLimit)], none⟩) ∧
      (∀ room, Floatless (nested room) ∧
        stream (nested room).compact room ≠ ⟨[nested room], none⟩) ∧
      (Floatless (.text (Text.ofPoints [0xd83d, 0xde00])) ∧
        stream (compact (.text (Text.ofPoints [0xd83d, 0xde00])))
          ≠ ⟨[.text (Text.ofPoints [0xd83d, 0xde00])], none⟩) := by
  have hlong : Floatless (.int (10 ^ digitLimit)) := ⟨⟨0, .int _⟩, by simp⟩
  have hdeep (room : Nat) : Floatless (nested room) :=
    ⟨⟨room + 1, shaped_nested.2 (Nat.lt_succ_self _)⟩,
      fun t ht => absurd ht (text_not_mem_nested _ t)⟩
  have hpair : Floatless (.text (Text.ofPoints [0xd83d, 0xde00])) :=
    ⟨⟨0, .text _⟩, by simpa using Text.spelled_ofPoints _⟩
  refine ⟨⟨hlong, fun h => ?_⟩, fun room => ⟨hdeep room, fun h => ?_⟩, ⟨hpair, fun h => ?_⟩⟩
  · have hshort := isWritable_iff.1 ((stream_compact_iff hlong).1 h).short _ List.mem_cons_self
    exact absurd (isShort_pow.1 hshort) (Nat.lt_irrefl _)
  · exact absurd (shaped_nested.1 ((stream_compact_iff (hdeep room)).1 h).shaped) (Nat.lt_irrefl _)
  · have hunpaired := ((stream_compact_iff hpair).1 h).unpaired _ List.mem_cons_self
    rw [Text.points_ofPoints (by decide)] at hunpaired
    exact hunpaired.rel ⟨rfl, rfl⟩

end UpgradeAudit.Json
