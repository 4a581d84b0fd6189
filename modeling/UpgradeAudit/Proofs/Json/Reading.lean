/-
# What stands in a text that was read

Whatever stands inside a value that was read stood in the text (`found_of_read`): its texts were
strings there, and its integers were numbers short enough to be read.  So what is true of every
string in a text is true of the texts of its value.  They are spelled when the text is
(`spelled_of_read`), and they have no pairs of surrogates when the text has no surrogate but in
escapes (`unpaired_of_read`), for two escapes that make a pair are read as one code point.
-/
import UpgradeAudit.Proofs.Json.Ascii
import UpgradeAudit.Proofs.Json.Parsing

namespace UpgradeAudit.Json

/-! ## 1. Spelled strings -/

theorem toNat_escape? {e c : Char} (h : escape? e = some c) : c.toNat < 0x80 := by
  unfold escape? at h
  split at h <;> cases h <;> decide

theorem ne_mark_of_lt {c : Char} (h : c.toNat < 0x80) : c ≠ Text.mark := by
  rintro rfl
  rw [Text.toNat_mark] at h
  exact absurd h (by decide)

/-- Pieces among which every mark is followed by the private character that it goes with. -/
def MarkedPieces : List Piece → Prop
  | [] => True
  | p :: rest =>
    (p = .char Text.mark →
      ∃ d, rest.head? = some (.char d) ∧ (Text.marked? Text.mark d).isSome = true)
        ∧ MarkedPieces rest

theorem Inside.head? {ps : List Piece} {s : List Char} (h : Inside ps s) {rest : List Char}
    {d : Char} (hd : (s ++ '"' :: rest).head? = some d) (hquote : d ≠ '"') (hslash : d ≠ '\\') :
    ps.head? = some (.char d) := by
  cases h with
  | nil => exact absurd (Option.some.inj hd).symm hquote
  | cons hp =>
    cases hp with
    | char => exact congrArg (fun c => some (Piece.char c)) (Option.some.inj hd)
    | letter => exact absurd (Option.some.inj hd).symm hslash
    | unit => exact absurd (Option.some.inj hd).symm hslash

theorem Inside.marked {ps : List Piece} {s : List Char} (h : Inside ps s) {rest : List Char}
    (hs : Text.Marked (s ++ '"' :: rest)) : MarkedPieces ps := by
  induction h with
  | nil => trivial
  | cons hp hinside ih =>
    rw [List.append_assoc] at hs
    refine ⟨?_, ih hs.suffix⟩
    cases hp with
    | char =>
      intro hc
      obtain ⟨d, hd, hsome⟩ := hs.1 (Piece.char.inj hc)
      refine ⟨d, hinside.head? hd ?_ ?_, hsome⟩
      · rintro rfl
        exact absurd hsome (by decide)
      · rintro rfl
        exact absurd hsome (by decide)
    | letter he => exact fun hc => absurd (Piece.char.inj hc) (ne_mark_of_lt (toNat_escape? he))
    | unit => exact fun hc => by cases hc

/-- A mark that is followed by its private character among the pieces is so among the characters. -/
theorem marked_joinPieces_char {c : Char} {ps : List Piece} (h : MarkedPieces (.char c :: ps))
    (hps : Text.Marked (joinPieces ps)) : Text.Marked (c :: joinPieces ps) := by
  refine ⟨?_, hps⟩
  rintro rfl
  obtain ⟨d, hd, hsome⟩ := h.1 rfl
  obtain ⟨more, rfl⟩ : ∃ more, ps = .char d :: more := by
    cases ps with
    | nil => cases hd
    | cons p ps => exact ⟨ps, by rw [Option.some.inj hd]⟩
  exact ⟨d, by rw [joinPieces]; rfl, hsome⟩

theorem marked_joinPieces {ps : List Piece} (h : MarkedPieces ps) :
    Text.Marked (joinPieces ps) := by
  fun_induction joinPieces ps with
  | case1 => trivial
  | case2 c rest ih => exact marked_joinPieces_char h (ih h.2)
  | case3 n => simpa using Text.marked_spell_append n (show Text.Marked [] from trivial)
  | case4 n m rest _ ih =>
    -- which code point the pair makes does not matter
    generalize Text.joinSurrogates n m = k
    exact Text.marked_spell_append k (ih h.2.2)
  | case5 n m rest _ ih => exact Text.marked_spell_append n (ih h.2)
  | case6 n c rest ih =>
    exact Text.marked_spell_append n (marked_joinPieces_char h.2 (ih h.2.2))

/-- A string in a spelled text is spelled. -/
theorem StringText.spelled {t : String} {s rest : List Char} (h : StringText t s)
    (hs : Text.Marked (s ++ rest)) : Text.Spelled t := by
  cases h with
  | mk hinside =>
    rw [List.cons_append, List.append_assoc] at hs
    rw [Text.spelled_iff, String.toList_ofList]
    exact marked_joinPieces (hinside.marked hs.2)

/-! ## 2. Strings without pairs of their own -/

/-- The code points of a string. -/
def joinPoints : List Piece → List Nat
  | [] => []
  | .char c :: rest => c.toNat :: joinPoints rest
  | [.unit n] => [n]
  | .unit n :: .unit m :: rest =>
    if Text.isHighSurrogate n && Text.isLowSurrogate m then
      Text.joinSurrogates n m :: joinPoints rest
    else n :: joinPoints (.unit m :: rest)
  | .unit n :: .char c :: rest => n :: c.toNat :: joinPoints rest

/-- Pieces that are no marks, and no more than an escape can name. -/
def Plain : Piece → Prop
  | .char c => c ≠ Text.mark
  | .unit n => n < 0x10000

theorem joinPieces_eq {ps : List Piece} (h : ∀ p ∈ ps, Plain p) :
    joinPieces ps = (joinPoints ps).flatMap Text.spell := by
  fun_induction joinPoints ps with
  | case1 => rfl
  | case2 c rest ih =>
    have hc : c ≠ Text.mark := h (.char c) (by simp)
    rw [joinPieces, List.flatMap_cons, Text.spell_toNat hc, ih fun p hp => h p (by simp [hp])]
    rfl
  | case3 n => simp [joinPieces]
  | case4 n m rest hpair ih =>
    rw [joinPieces, if_pos hpair, List.flatMap_cons, ih fun p hp => h p (by simp [hp])]
  | case5 n m rest hpair ih =>
    rw [joinPieces, if_neg hpair, List.flatMap_cons, ih fun p hp => h p (List.mem_cons_of_mem _ hp)]
  | case6 n c rest ih =>
    have hc : c ≠ Text.mark := h (.char c) (by simp)
    rw [joinPieces, List.flatMap_cons, List.flatMap_cons, Text.spell_toNat hc,
      ih fun p hp => h p (by simp [hp])]
    rfl

theorem isHighSurrogate_toNat (c : Char) : Text.isHighSurrogate c.toNat = false :=
  Text.isHighSurrogate_of_scalar (Text.isSurrogate_toNat c)

theorem isLowSurrogate_toNat (c : Char) : Text.isLowSurrogate c.toNat = false := by
  have h := Text.isSurrogate_toNat c
  simp only [Text.isSurrogate, Text.isLowSurrogate, Bool.and_eq_false_iff,
    decide_eq_false_iff_not] at h ⊢
  omega

/-- A low surrogate comes first only when its escape does. -/
theorem head?_joinPoints {ps : List Piece} {m : Nat} (hm : (joinPoints ps).head? = some m)
    (hlow : Text.isLowSurrogate m = true) : ps.head? = some (.unit m) := by
  fun_cases joinPoints ps with
  | case1 => cases hm
  | case2 c rest =>
    obtain rfl : c.toNat = m := by simpa [joinPoints] using hm
    rw [isLowSurrogate_toNat] at hlow
    cases hlow
  | case3 n => simpa [joinPoints] using hm
  | case4 n k rest hpair =>
    have : Text.joinSurrogates n k = m := by simpa [joinPoints, hpair] using hm
    simp only [Text.isLowSurrogate, Bool.and_eq_true, decide_eq_true_eq] at hlow
    unfold Text.joinSurrogates at this
    omega
  | case5 n k rest hpair =>
    have : n = m := by
      rw [joinPoints, if_neg hpair] at hm
      simpa using hm
    rw [this]
    rfl
  | case6 n c rest =>
    have : n = m := by simpa [joinPoints] using hm
    rw [this]
    rfl

/-- Two escapes that make a pair are joined, so no pair is left. -/
theorem unpaired_joinPoints (ps : List Piece) : Text.Unpaired (joinPoints ps) := by
  fun_induction joinPoints ps with
  | case1 => exact .nil
  | case2 c rest ih => exact Text.unpaired_cons (by simp [isHighSurrogate_toNat]) ih
  | case3 n => exact .singleton n
  | case4 n k rest hpair ih =>
    have hlarge : 0x10000 ≤ Text.joinSurrogates n k := by
      unfold Text.joinSurrogates
      omega
    refine Text.unpaired_cons (fun m _ hsurrogates => ?_) ih
    simp only [Text.isHighSurrogate, Bool.and_eq_true, decide_eq_true_eq] at hsurrogates
    omega
  | case5 n k rest hpair ih =>
    refine Text.unpaired_cons (fun m hm hsurrogates => hpair ?_) ih
    have hk : k = m := by simpa using head?_joinPoints hm hsurrogates.2
    rw [hk, hsurrogates.1, hsurrogates.2]
    rfl
  | case6 n c rest ih =>
    refine Text.unpaired_cons (fun m hm => ?_)
      (Text.unpaired_cons (by simp [isHighSurrogate_toNat]) ih)
    obtain rfl : c.toNat = m := by simpa using hm
    simp [isLowSurrogate_toNat]

theorem unit?_lt {a b c d : Char} {n : Nat} (h : unit? a b c d = some n) : n < 0x10000 := by
  have hdigit {c : Char} {m : Nat} (hc : Text.Hex.value? c = some m) : m < 16 := by
    simp only [Text.Hex.value?, Bool.and_eq_true, decide_eq_true_eq] at hc
    split at hc
    · rw [← Option.some.inj hc]
      omega
    split at hc
    · rw [← Option.some.inj hc]
      omega
    split at hc
    · rw [← Option.some.inj hc]
      omega
    · cases hc
  simp only [unit?, Option.bind_eq_bind, Option.bind_eq_some_iff, Option.pure_def,
    Option.some.injEq] at h
  obtain ⟨i, hi, j, hj, k, hk, l, hl, rfl⟩ := h
  have := hdigit hi
  have := hdigit hj
  have := hdigit hk
  have := hdigit hl
  omega

theorem Inside.plain {ps : List Piece} {s : List Char} (h : Inside ps s) (hs : Text.mark ∉ s) :
    ∀ p ∈ ps, Plain p := by
  induction h with
  | nil => simp
  | cons hp _ ih =>
    rw [List.mem_append, not_or] at hs
    refine List.forall_mem_cons.2 ⟨?_, ih hs.2⟩
    cases hp with
    | char => exact fun hc => hs.1 (hc ▸ List.mem_cons_self)
    | letter he => exact ne_mark_of_lt (toNat_escape? he)
    | unit hn => exact unit?_lt hn

theorem lt_of_mem_joinPoints {ps : List Piece} (h : ∀ p ∈ ps, Plain p) :
    ∀ n ∈ joinPoints ps, n < 0x110000 := by
  have hunit {n : Nat} (hn : Plain (.unit n)) : n < 0x110000 := Nat.lt_trans hn (by omega)
  fun_induction joinPoints ps with
  | case1 => simp
  | case2 c rest ih =>
    simp only [List.forall_mem_cons] at h ⊢
    exact ⟨Text.toNat_lt c, ih h.2⟩
  | case3 n =>
    simp only [List.forall_mem_cons] at h ⊢
    exact ⟨hunit h.1, by simp⟩
  | case4 n m rest hpair ih =>
    simp only [List.forall_mem_cons] at h ⊢
    refine ⟨?_, ih h.2.2⟩
    simp only [Text.isHighSurrogate, Text.isLowSurrogate, Bool.and_eq_true,
      decide_eq_true_eq] at hpair
    unfold Text.joinSurrogates
    omega
  | case5 n m rest _ ih =>
    rw [List.forall_mem_cons] at h ⊢
    exact ⟨hunit h.1, ih h.2⟩
  | case6 n c rest ih =>
    simp only [List.forall_mem_cons] at h ⊢
    exact ⟨hunit h.1, Text.toNat_lt c, ih h.2.2⟩

/-- A string in a text without marks has no pairs of surrogates. -/
theorem StringText.unpaired {t : String} {s : List Char} (h : StringText t s)
    (hs : Text.mark ∉ s) : Text.Unpaired (Text.points t) := by
  cases h with
  | @mk ps s hinside =>
    have hplain := hinside.plain fun hmem => hs (by simp [hmem])
    have htext : String.ofList (joinPieces ps) = Text.ofPoints (joinPoints ps) := by
      rw [joinPieces_eq hplain, Text.ofPoints]
    rw [htext, Text.points_ofPoints (lt_of_mem_joinPoints hplain)]
    exact unpaired_joinPoints ps

/-! ## 3. Values -/

/-- A leaf that stands somewhere in a text: as a string of it, or as a number short enough. -/
def FoundIn (s : List Char) : Json → Prop
  | .text t => ∃ u, u <:+: s ∧ StringText t u
  | .int n => isShort n = true
  | _ => True

theorem FoundIn.mono {s s' : List Char} {a : Json} (h : FoundIn s a) (hs : s <:+: s') :
    FoundIn s' a := by
  cases a with
  | text t =>
    obtain ⟨u, hu, hstring⟩ := h
    exact ⟨u, hu.trans hs, hstring⟩
  | _ => exact h

theorem digitsValue_lt {ds : List Char} (h : ∀ d ∈ ds, d.isDigit = true) :
    digitsValue ds < 10 ^ ds.length := by
  induction ds using List.reverseRecOn with
  | nil => decide
  | append_singleton ds d ih =>
    have hds := ih fun c hc => h c (List.mem_append_left _ hc)
    have hd : d.toNat - 0x30 < 10 := by
      have := h d (by simp)
      simp only [Char.isDigit, Bool.and_eq_true, decide_eq_true_eq] at this
      have hle : d.toNat ≤ 0x39 := this.2
      omega
    have hvalue : digitsValue (ds ++ [d]) = 10 * digitsValue ds + (d.toNat - 0x30) := by
      simp [digitsValue]
    rw [hvalue, List.length_append, List.length_singleton, Nat.pow_succ]
    omega

theorem NumberText.found {v : Json} {s : List Char} (h : NumberText v s) :
    ∀ a ∈ v.leaves, FoundIn s a := by
  intro a ha
  cases h with
  | @int negative ds hds hshort =>
    obtain rfl := List.mem_singleton.1 ha
    have hlt : digitsValue ds < 10 ^ digitLimit :=
      Nat.lt_of_lt_of_le (digitsValue_lt hds.isDigit) (Nat.pow_le_pow_right (by decide) hshort)
    show isShort _ = true
    rw [isShort_iff]
    split <;> simpa using hlt
  | float =>
    obtain rfl := List.mem_singleton.1 ha
    trivial

/-- What stands between commas stands in the whole. -/
theorem infix_intercalate {part : List Char} {parts : List (List Char)} (h : part ∈ parts) :
    part <:+: [','].intercalate parts := by
  induction parts with
  | nil => simp at h
  | cons p parts ih =>
    cases parts with
    | nil => simpa using (List.mem_singleton.1 h).symm ▸ List.infix_rfl
    | cons q parts =>
      have hcons : [','].intercalate (p :: q :: parts)
          = p ++ ',' :: [','].intercalate (q :: parts) := by simp
      rw [hcons]
      rcases List.mem_cons.1 h with rfl | h
      · exact (List.prefix_append _ _).isInfix
      · exact (ih h).trans ((List.suffix_cons _ _).trans (List.suffix_append _ _)).isInfix

theorem Spaced.text_within (s : Spaced) : s.text <:+: s.chars :=
  ⟨s.before, s.after, by simp [Spaced.chars]⟩

theorem Field.texts_within (f : Field) :
    f.namePlace.text <:+: f.chars ∧ f.item.place.text <:+: f.chars :=
  ⟨f.namePlace.text_within.trans (List.prefix_append _ _).isInfix,
    f.item.place.text_within.trans ((List.suffix_cons _ _).trans (List.suffix_append _ _)).isInfix⟩

/-- What stands between brackets stands in the whole. -/
theorem infix_brackets (c d : Char) (s : List Char) : s <:+: c :: (s ++ [d]) :=
  ⟨[c], [d], by simp⟩

/-- **Every leaf of a value stands somewhere in each of its texts.** -/
theorem Spells.found {room : Nat} {v : Json} {s : List Char} (h : Spells room v s) :
    ∀ a ∈ v.leaves, FoundIn s a := by
  induction h with
  | @word room w hw =>
    have hwords : ∀ w ∈ words, ∀ a ∈ w.2.leaves, FoundIn w.1.toList a := by simp [words, FoundIn]
    exact hwords w hw
  | number h => exact h.found
  | @text room t s h =>
    intro a ha
    obtain rfl := List.mem_singleton.1 ha
    exact ⟨s, List.infix_rfl, h⟩
  | emptyArray => simp
  | emptyObject => simp
  | @array room items _ _ _ ih =>
    intro a ha
    simp only [leaves_array, List.mem_flatMap, List.mem_map] at ha
    obtain ⟨_, ⟨i, hi, rfl⟩, ha⟩ := ha
    have hin :=
      (infix_intercalate (List.mem_map_of_mem (f := fun i : Item => i.place.chars) hi)).trans
        (infix_brackets '[' ']' _)
    exact (ih i hi a ha).mono (i.place.text_within.trans hin)
  | @object room fields _ hnames _ _ ih =>
    intro a ha
    rw [leaves_object, List.mem_flatMap] at ha
    obtain ⟨⟨name, value⟩, he, ha⟩ := ha
    obtain ⟨f, hf, heq⟩ := List.mem_map.1 (Table.mem_ofEntries.1 he).mem
    obtain ⟨rfl, rfl⟩ := Prod.mk.inj heq
    have hin := (infix_intercalate (List.mem_map_of_mem (f := Field.chars) hf)).trans
      (infix_brackets '\x7b' '\x7d' _)
    rcases List.mem_cons.1 ha with rfl | ha
    · exact ⟨f.namePlace.text, f.texts_within.1.trans hin, (hnames f hf).2⟩
    · exact (ih f hf a ha).mono (f.texts_within.2.trans hin)

/-! ## 4. Documents -/

/-- **Every leaf of a value that was read stands somewhere in the text.** -/
theorem found_of_read {room : Nat} {s : String} {v : Json} (h : read s room = .ok v) :
    ∀ a ∈ v.leaves, FoundIn s.toList a := by
  obtain ⟨before, text, after, hs, -, -, htext⟩ := read_iff.1 h
  exact fun a ha => (htext.found a ha).mono ⟨before, after, by rw [hs]; simp⟩

theorem isShort_of_read {room : Nat} {s : String} {v : Json} (h : read s room = .ok v) {n : Int}
    (hn : .int n ∈ v.leaves) : isShort n = true :=
  found_of_read h _ hn

/-- The texts of a value are spelled when the document is. -/
theorem spelled_of_read {room : Nat} {s : String} {v : Json} (h : read s room = .ok v)
    (hs : Text.Spelled s) {t : String} (ht : .text t ∈ v.leaves) : Text.Spelled t := by
  obtain ⟨u, ⟨before, after, hu⟩, hstring⟩ := found_of_read h _ ht
  rw [Text.spelled_iff, ← hu, List.append_assoc] at hs
  exact hstring.spelled hs.suffix

/-- The texts of a value have no pairs of surrogates when the document is ASCII. -/
theorem unpaired_of_read {room : Nat} {s : String} {v : Json} (h : read s room = .ok v)
    (hs : Ascii s.toList) {t : String} (ht : .text t ∈ v.leaves) :
    Text.Unpaired (Text.points t) := by
  obtain ⟨u, hu, hstring⟩ := found_of_read h _ ht
  exact hstring.unpaired fun hmark => ne_mark_of_lt (hs _ (hu.subset hmark)) rfl

end UpgradeAudit.Json
