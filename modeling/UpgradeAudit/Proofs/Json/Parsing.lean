/-
# What is read is a text of a value

**Whatever is read as a value is a text of it** (`spells_of_valueFrom`), so a value is read where,
and only where, one of its texts stands and ends (`value_iff`).

What was read is not touched by what comes later: **a value is read the same when more follows**
(`value_append`), as long as the rest could not go on as a number (`Apart`).
-/
import UpgradeAudit.Proofs.Json.Grammar

namespace UpgradeAudit.Json

/-! ## 1. Strings -/

theorem inside_of_piecesFrom {seen : List Piece} {s : List Char} {found : List Piece × List Char}
    (h : piecesFrom seen s = .ok found) :
    ∃ ps inside,
      found.1 = seen.reverse ++ ps ∧ s = inside ++ '"' :: found.2 ∧ Inside ps inside := by
  fun_induction piecesFrom seen s with
  | case1 => cases h
  | case2 seen rest =>
    obtain rfl := Except.ok.inj h
    exact ⟨[], [], by simp, rfl, .nil⟩
  | case3 seen a b c d rest n hn ih =>
    obtain ⟨ps, inside, hps, hs, hinside⟩ := ih h
    exact ⟨.unit n :: ps, ['\\', 'u', a, b, c, d] ++ inside, by simpa using hps, by rw [hs]; rfl,
      .cons (.unit hn) hinside⟩
  | case4 => cases h
  | case5 seen e rest hu c hc ih =>
    obtain ⟨ps, inside, hps, hs, hinside⟩ := ih h
    exact ⟨.char c :: ps, ['\\', e] ++ inside, by simpa using hps, by rw [hs]; rfl,
      .cons (.letter hc) hinside⟩
  | case6 => cases h
  | case7 => cases h
  | case8 seen c rest hquote hu he hplain ih =>
    obtain ⟨ps, inside, hps, hs, hinside⟩ := ih h
    simp only [Bool.or_eq_true, decide_eq_true_eq, not_or, Nat.not_lt] at hplain
    refine ⟨.char c :: ps, [c] ++ inside, by simpa using hps, by rw [hs]; rfl,
      .cons (.char ?_ hplain.1 hplain.2) hinside⟩
    rintro rfl
    exact hquote rfl

theorem stringText_of_string {s rest : List Char} {t : String} (h : string s = .ok (t, rest)) :
    ∃ text, '"' :: s = text ++ rest ∧ StringText t text := by
  rw [string] at h
  cases hpieces : piecesFrom [] s with
  | error fault =>
    rw [hpieces] at h
    cases h
  | ok found =>
    rw [hpieces] at h
    obtain ⟨ps, inside, hps, hs, hinside⟩ := inside_of_piecesFrom hpieces
    obtain ⟨rfl, rfl⟩ := Prod.mk.inj (Except.ok.inj h)
    refine ⟨'"' :: (inside ++ ['"']), by rw [hs]; simp, ?_⟩
    rw [hps]
    exact .mk hinside

/-! ## 2. Numbers -/

theorem digits_eq (s : List Char) : (digits s).1 ++ (digits s).2 = s :=
  List.takeWhile_append_dropWhile

theorem digits_isDigit {s ds rest : List Char} (h : digits s = (ds, rest)) (hne : ds ≠ []) :
    s = ds ++ rest ∧ Digits ds := by
  have hs := digits_eq s
  rw [h] at hs
  refine ⟨hs.symm, hne, fun d hd => ?_⟩
  have hmem : d ∈ (digits s).1 := by rwa [h]
  exact List.mem_takeWhile_imp hmem

theorem wholeDigits_of_wholePart? {s whole rest : List Char}
    (h : wholePart? s = some (whole, rest)) : s = whole ++ rest ∧ WholeDigits whole := by
  by_cases hzero : s.head? = some '0'
  · obtain ⟨more, rfl⟩ : ∃ more, s = '0' :: more := List.head?_eq_some_iff.1 hzero
    obtain ⟨rfl, rfl⟩ := Prod.mk.inj (Option.some.inj h)
    exact ⟨rfl, ⟨by simp, by simp⟩, fun _ => rfl⟩
  · rw [wholePart?_of_ne hzero] at h
    split at h
    · cases h
    · rename_i hne
      have hdigits := Option.some.inj h
      rw [hdigits] at hne
      obtain ⟨rfl, hds⟩ := digits_isDigit hdigits fun hnil => hne (List.isEmpty_iff.2 hnil)
      refine ⟨rfl, hds, fun hlead => absurd ?_ hzero⟩
      obtain ⟨d, more, rfl, -⟩ := hds.exists_cons
      exact hlead

theorem fractionText_of_fraction (s : List Char) :
    ∃ ps, s = ps ++ (fraction s).2 ∧ FractionText (fraction s).1 ps := by
  unfold fraction
  split
  · rename_i rest
    split
    · exact ⟨[], rfl, .absent⟩
    · rename_i hne
      obtain ⟨hs, hdigits⟩ := digits_isDigit (s := rest) rfl fun hnil => hne _ (Prod.ext hnil rfl)
      exact ⟨_, congrArg ('.' :: ·) hs, .present hdigits⟩
  · exact ⟨[], rfl, .absent⟩

theorem exponentSign_mem (s : List Char) :
    ∃ sign ∈ signs, (exponentSign s).1 = sign.2 ∧ s = sign.1 ++ (exponentSign s).2 := by
  unfold exponentSign
  split
  · exact ⟨(['-'], true), by decide, rfl, rfl⟩
  · exact ⟨(['+'], false), by decide, rfl, rfl⟩
  · exact ⟨([], false), by decide, rfl, rfl⟩

theorem exponentText_of_exponent (s : List Char) :
    ∃ es, s = es ++ (exponent s).2 ∧ ExponentText (exponent s).1 es := by
  unfold exponent
  split
  · rename_i e rest
    split
    · rename_i he
      obtain ⟨sign, hsign, hnegative, hrest⟩ := exponentSign_mem rest
      dsimp only
      split
      · exact ⟨[], rfl, .absent⟩
      · rename_i ds more hne hdigits
        obtain ⟨hmore, hds⟩ := digits_isDigit hdigits fun hnil => hne hnil
        have htext := ExponentText.present (by simpa using he) hsign hds
        refine ⟨_, ?_, by rw [hnegative]; exact htext⟩
        rw [hmore] at hrest
        simpa using hrest
    · exact ⟨[], rfl, .absent⟩
  · exact ⟨[], rfl, .absent⟩

theorem numberText_of_unsigned {negative : Bool} {s rest : List Char} {v : Json}
    (h : unsigned negative s = .ok (v, rest)) :
    ∃ text, s = text ++ rest ∧ NumberText v (minus negative ++ text) := by
  rw [unsigned] at h
  cases hwhole : wholePart? s with
  | none =>
    rw [hwhole] at h
    cases h
  | some found =>
    obtain ⟨whole, after⟩ := found
    obtain ⟨hs, hdigits⟩ := wholeDigits_of_wholePart? hwhole
    obtain ⟨ps, hafter, hpart⟩ := fractionText_of_fraction after
    obtain ⟨es, hrest, hpower⟩ := exponentText_of_exponent (fraction after).2
    rw [hwhole] at h
    dsimp only at h
    split at h
    · rename_i hint
      simp only [Bool.and_eq_true, List.isEmpty_iff, Option.isNone_iff_eq_none] at hint
      split at h
      · cases h
      · rename_i hshort
        obtain ⟨rfl, rfl⟩ := Prod.mk.inj (Except.ok.inj h)
        rw [hint.1] at hpart
        rw [hint.2] at hpower
        cases hpart with
        | present hds => exact absurd rfl hds.ne_nil
        | absent =>
          cases hpower
          refine ⟨whole, ?_, .int negative hdigits (Nat.not_lt.1 hshort)⟩
          rw [List.nil_append] at hafter hrest
          rw [← hrest, ← hafter, hs]
    · rename_i hfloat
      obtain ⟨rfl, rfl⟩ := Prod.mk.inj (Except.ok.inj h)
      refine ⟨whole ++ (ps ++ es), ?_, .float negative hdigits hpart hpower ?_⟩
      · simp only [List.append_assoc, ← hrest, ← hafter, ← hs]
      · simpa [imp_iff_not_or] using hfloat

theorem numberText_of_number {s rest : List Char} {v : Json} (h : number s = .ok (v, rest)) :
    ∃ text, s = text ++ rest ∧ NumberText v text := by
  unfold number at h
  split at h
  · obtain ⟨text, hs, htext⟩ := numberText_of_unsigned h
    exact ⟨'-' :: text, congrArg ('-' :: ·) hs, htext⟩
  · exact numberText_of_unsigned h

theorem word_of_word? {s rest : List Char} {v : Json} (h : word? s = some (v, rest)) :
    ∃ w ∈ words, s = w.1.toList ++ rest ∧ v = w.2 := by
  obtain ⟨w, hw, hfound⟩ := List.exists_of_findSome?_eq_some h
  obtain ⟨more, hprefix, heq⟩ := Option.map_eq_some_iff.1 hfound
  obtain ⟨rfl, rfl⟩ := Prod.mk.inj heq
  exact ⟨w, hw, Text.eq_append_of_isPrefixOf? hprefix, rfl⟩

/-! ## 3. Values -/

theorem exists_blanks (s : List Char) : ∃ gap, Blanks gap ∧ s = gap ++ skipSpace s :=
  ⟨s.takeWhile isSpace, fun _ hc => List.mem_takeWhile_imp hc,
    List.takeWhile_append_dropWhile.symm⟩

/-- What stands before a token that is read after blanks. -/
theorem exists_blanks_of_skipSpace {s rest : List Char} (h : skipSpace s = rest) :
    ∃ gap, Blanks gap ∧ s = gap ++ rest := by
  obtain ⟨gap, hgap, hs⟩ := exists_blanks s
  exact ⟨gap, hgap, h ▸ hs⟩

/-- What is read as a value with so much fuel is a text of it. -/
def SoundValue (fuel : Nat) : Prop :=
  ∀ (room : Nat) (s rest : List Char) (v : Json), valueFrom fuel room s = .ok (v, rest) →
    ∃ text, s = text ++ rest ∧ Spells room v text

/-- What is read as the rest of an array is the text of items.  They are read from the first of them
on, so the blanks before it are given. -/
def SoundItems (fuel : Nat) : Prop :=
  ∀ (room : Nat) (seen : List Json) (s rest : List Char) (v : Json),
    itemsFrom fuel room seen s = .ok (v, rest) → ∀ gap, Blanks gap →
      ∃ items : List Item, items ≠ [] ∧ (∀ i ∈ items, i.place.Blank) ∧
        (∀ i ∈ items, Spells room i.value i.place.text) ∧
        v = .array (seen.reverse ++ items.map Item.value) ∧
        gap ++ s = itemsText items ++ ']' :: rest

/-- What is read as the rest of an object is the text of fields. -/
def SoundFields (fuel : Nat) : Prop :=
  ∀ (room : Nat) (seen : Fields) (s rest : List Char) (v : Json),
    fieldsFrom fuel room seen s = .ok (v, rest) → ∀ gap, Blanks gap →
      ∃ fields : List Field, fields ≠ [] ∧
        (∀ f ∈ fields, f.namePlace.Blank ∧ StringText f.name f.namePlace.text) ∧
        (∀ f ∈ fields, f.item.place.Blank) ∧
        (∀ f ∈ fields, Spells room f.item.value f.item.place.text) ∧
        v = .object (Table.setAll seen (fields.map Field.entry)) ∧
        gap ++ s = fieldsText fields ++ '\x7d' :: rest

/-- Each of the readers calls the others with less fuel, so what is said of them is proved at
once. -/
structure Sound (fuel : Nat) : Prop where
  value : SoundValue fuel
  items : SoundItems fuel
  fields : SoundFields fuel

namespace Sound

variable {fuel : Nat} (ih : Sound fuel)

include ih

theorem array_succ {room : Nat} {more rest : List Char} {v : Json}
    (h : valueFrom (fuel + 1) room ('[' :: more) = .ok (v, rest)) :
    ∃ text, '[' :: more = text ++ rest ∧ Spells room v text := by
  rw [valueFrom] at h
  split at h
  · cases h
  obtain ⟨room, rfl⟩ : ∃ n, room = n + 1 := Nat.exists_eq_add_one.2 (by omega)
  split at h
  · rename_i hclose
    obtain ⟨rfl, rfl⟩ := Prod.mk.inj (Except.ok.inj h)
    obtain ⟨gap, hgap, rfl⟩ := exists_blanks_of_skipSpace hclose
    exact ⟨_, by simp, .emptyArray hgap⟩
  · obtain ⟨gap, hgap, hmore⟩ := exists_blanks more
    obtain ⟨items, hne, hblank, hspells, rfl, hs⟩ := ih.items _ _ _ _ _ h gap hgap
    refine ⟨_, ?_, .array hne hblank hspells⟩
    rw [hmore, hs]
    simp

theorem object_succ {room : Nat} {more rest : List Char} {v : Json}
    (h : valueFrom (fuel + 1) room ('\x7b' :: more) = .ok (v, rest)) :
    ∃ text, '\x7b' :: more = text ++ rest ∧ Spells room v text := by
  rw [valueFrom] at h
  split at h
  · cases h
  obtain ⟨room, rfl⟩ : ∃ n, room = n + 1 := Nat.exists_eq_add_one.2 (by omega)
  split at h
  · rename_i hclose
    obtain ⟨rfl, rfl⟩ := Prod.mk.inj (Except.ok.inj h)
    obtain ⟨gap, hgap, rfl⟩ := exists_blanks_of_skipSpace hclose
    exact ⟨_, by simp, .emptyObject hgap⟩
  · obtain ⟨gap, hgap, hmore⟩ := exists_blanks more
    obtain ⟨fields, hne, hnames, hblank, hspells, rfl, hs⟩ := ih.fields _ _ _ _ _ h gap hgap
    refine ⟨_, ?_, .object hne hnames hblank hspells⟩
    rw [hmore, hs]
    simp

theorem value_succ : SoundValue (fuel + 1) := by
  intro room s rest v h
  have hvalue := h
  unfold valueFrom at hvalue
  split at hvalue
  · rename_i more
    cases hstring : string more with
    | error fault =>
      rw [hstring] at hvalue
      cases hvalue
    | ok found =>
      rw [hstring] at hvalue
      obtain ⟨rfl, rfl⟩ := Prod.mk.inj (Except.ok.inj hvalue)
      obtain ⟨text, hs, htext⟩ := stringText_of_string hstring
      exact ⟨text, hs, .text htext⟩
  · exact ih.array_succ h
  · exact ih.object_succ h
  · split at hvalue
    · rename_i hword
      obtain rfl := Except.ok.inj hvalue
      obtain ⟨w, hw, hs, rfl⟩ := word_of_word? hword
      exact ⟨_, hs, .word hw⟩
    · obtain ⟨text, hs, htext⟩ := numberText_of_number hvalue
      exact ⟨text, hs, .number htext⟩

theorem items_succ : SoundItems (fuel + 1) := by
  intro room seen s rest v h gap hgap
  rw [itemsFrom] at h
  split at h
  · cases h
  rename_i item after hitem
  obtain ⟨text, rfl, htext⟩ := ih.value _ _ _ _ hitem
  split at h
  · rename_i more hcomma
    obtain ⟨between, hbetween, rfl⟩ := exists_blanks_of_skipSpace hcomma
    obtain ⟨start, hstart, hmore⟩ := exists_blanks more
    obtain ⟨items, hne, hblank, hspells, rfl, hs⟩ := ih.items _ _ _ _ _ h start hstart
    obtain ⟨j, items, rfl⟩ := List.exists_cons_of_ne_nil hne
    refine ⟨⟨⟨gap, text, between⟩, item⟩ :: j :: items, by simp,
      List.forall_mem_cons.2 ⟨⟨hgap, hbetween⟩, hblank⟩, List.forall_mem_cons.2 ⟨htext, hspells⟩,
      by simp, ?_⟩
    rw [itemsText_cons, hmore, hs]
    simp [Spaced.chars]
  · rename_i more hclose
    obtain ⟨rfl, rfl⟩ := Prod.mk.inj (Except.ok.inj h)
    obtain ⟨between, hbetween, rfl⟩ := exists_blanks_of_skipSpace hclose
    refine ⟨[⟨⟨gap, text, between⟩, item⟩], by simp, by simpa using ⟨hgap, hbetween⟩,
      by simpa using htext, by simp, ?_⟩
    simp [itemsText, Spaced.chars]
  · cases h

theorem fields_succ : SoundFields (fuel + 1) := by
  intro room seen s rest v h gap hgap
  unfold fieldsFrom at h
  dsimp only at h
  split at h
  · rename_i more
    split at h
    · cases h
    rename_i name afterName hname
    obtain ⟨nameText, hnameText, hstring⟩ := stringText_of_string hname
    split at h
    · rename_i more' hcolon
      obtain ⟨afterGap, hafterGap, rfl⟩ := exists_blanks_of_skipSpace hcolon
      obtain ⟨before, hbefore, hmore'⟩ := exists_blanks more'
      split at h
      · cases h
      rename_i value after hvalue
      obtain ⟨text, hs', htext⟩ := ih.value _ _ _ _ hvalue
      rw [hs'] at hmore'
      split at h
      · rename_i more'' hcomma
        obtain ⟨between, hbetween, rfl⟩ := exists_blanks_of_skipSpace hcomma
        obtain ⟨start, hstart, hmore''⟩ := exists_blanks more''
        obtain ⟨fields, hne, hnames, hblank, hspells, rfl, hs⟩ := ih.fields _ _ _ _ _ h start hstart
        obtain ⟨j, fields, rfl⟩ := List.exists_cons_of_ne_nil hne
        refine ⟨⟨⟨gap, nameText, afterGap⟩, name, ⟨⟨before, text, between⟩, value⟩⟩ :: j :: fields,
          by simp, List.forall_mem_cons.2 ⟨⟨⟨hgap, hafterGap⟩, hstring⟩, hnames⟩,
          List.forall_mem_cons.2 ⟨⟨hbefore, hbetween⟩, hblank⟩,
          List.forall_mem_cons.2 ⟨htext, hspells⟩, rfl, ?_⟩
        rw [fieldsText_cons, hnameText, hmore', hmore'', hs]
        simp [Field.chars, Spaced.chars]
      · rename_i more'' hclose
        obtain ⟨rfl, rfl⟩ := Prod.mk.inj (Except.ok.inj h)
        obtain ⟨between, hbetween, rfl⟩ := exists_blanks_of_skipSpace hclose
        refine ⟨[⟨⟨gap, nameText, afterGap⟩, name, ⟨⟨before, text, between⟩, value⟩⟩], by simp,
          by simpa using ⟨⟨hgap, hafterGap⟩, hstring⟩, by simpa using ⟨hbefore, hbetween⟩,
          by simpa using htext, rfl, ?_⟩
        rw [hnameText, hmore']
        simp [fieldsText, Field.chars, Spaced.chars]
      · cases h
    · cases h
  · cases h

end Sound

theorem sound (fuel : Nat) : Sound fuel := by
  induction fuel with
  | zero =>
    refine ⟨?_, ?_, ?_⟩
    · intro room s rest v h
      cases h
    · intro room seen s rest v h
      cases h
    · intro room seen s rest v h
      cases h
  | succ fuel ih => exact ⟨ih.value_succ, ih.items_succ, ih.fields_succ⟩

variable {fuel room : Nat} {v : Json}

/-- **Whatever is read as a value is a text of it.** -/
theorem spells_of_valueFrom {s rest : List Char} (h : valueFrom fuel room s = .ok (v, rest)) :
    ∃ text, s = text ++ rest ∧ Spells room v text :=
  (sound fuel).value _ _ _ _ h

/-- A number that was read ended where its text does. -/
theorem stops_of_valueFrom {s rest : List Char}
    (h : valueFrom fuel room (s ++ rest) = .ok (v, rest)) :
    Stops v s rest := by
  intro htext
  cases fuel with
  | zero => cases h
  | succ fuel => rwa [valueFrom_number htext] at h

/-- **A value is read where one of its texts stands and ends.** -/
theorem value_iff {s rest : List Char} : value room s = .ok (v, rest) ↔
    ∃ text, s = text ++ rest ∧ Spells room v text ∧ Stops v text rest := by
  constructor
  · intro h
    obtain ⟨text, rfl, htext⟩ := spells_of_valueFrom h
    exact ⟨text, rfl, htext, stops_of_valueFrom h⟩
  · rintro ⟨text, rfl, htext, hstops⟩
    exact htext.value hstops

/-- A value takes at least one character. -/
theorem length_of_value {s rest : List Char} (h : value room s = .ok (v, rest)) :
    rest.length < s.length := by
  obtain ⟨text, rfl, htext, -⟩ := value_iff.1 h
  have hpos := htext.readsAs.begins.length_pos
  rw [List.length_append]
  omega

/-- **A document is read as a value when it is a text of the value with blanks around it**, and only
then. -/
theorem read_iff {s : String} : read s room = .ok v ↔
    ∃ before text after, s.toList = before ++ (text ++ after) ∧ Blanks before ∧ Blanks after ∧
      Spells room v text := by
  constructor
  · intro h
    unfold read at h
    split at h
    · cases h
    split at h
    · cases h
    rename_i found rest hvalue
    split at h
    · rename_i hend
      obtain rfl := Except.ok.inj h
      obtain ⟨before, hbefore, hs⟩ := exists_blanks s.toList
      obtain ⟨text, htext, hspells⟩ := spells_of_valueFrom hvalue
      rw [htext] at hs
      exact ⟨before, text, rest, hs, hbefore,
        List.dropWhile_eq_nil_iff.1 (List.isEmpty_iff.1 hend), hspells⟩
    · cases h
  · rintro ⟨before, text, after, hs, hbefore, hafter, htext⟩
    rw [← String.ofList_toList (s := s), hs]
    exact htext.read hbefore hafter

/-! ## 4. More text -/

/-- Whether no number goes on in a text. -/
structure Apart (t : List Char) : Prop where
  ends : Ends t
  sign : ∀ c ∈ t.head?, c ≠ '+' ∧ c ≠ '-'

section more

variable {t : List Char} (ht : Apart t)

include ht

theorem digits_apart (s : List Char) : digits (s ++ t) = ((digits s).1, (digits s).2 ++ t) := by
  induction s with
  | nil =>
    have hnone : digits ([] ++ t) = ([], t) := digits_append (by simp) fun c hc => (ht.ends c hc).1
    exact hnone
  | cons c s ih =>
    obtain ⟨hds, hrest⟩ := Prod.mk.inj ih
    by_cases hc : c.isDigit = true
    · simp only [digits, List.cons_append, List.takeWhile_cons_of_pos hc,
        List.dropWhile_cons_of_pos hc, hds, hrest]
    · simp only [digits, List.cons_append, List.takeWhile_cons_of_neg hc,
        List.dropWhile_cons_of_neg hc]

theorem wholePart?_apart (s : List Char) :
    wholePart? (s ++ t) = (wholePart? s).map fun found => (found.1, found.2 ++ t) := by
  by_cases hs : s.head? = some '0'
  · cases s with
    | nil => cases hs
    | cons c s =>
      obtain rfl : c = '0' := by simpa using hs
      rfl
  · have hst : (s ++ t).head? ≠ some '0' := by
      cases s with
      | nil =>
        intro hzero
        exact absurd (ht.ends '0' hzero).1 (by decide)
      | cons c s => exact hs
    rw [wholePart?_of_ne hs, wholePart?_of_ne hst, digits_apart ht]
    split <;> rfl

theorem fraction_apart (s : List Char) :
    fraction (s ++ t) = ((fraction s).1, (fraction s).2 ++ t) := by
  cases s with
  | nil => exact FractionText.absent.fraction fun c hc => ⟨(ht.ends c hc).1, (ht.ends c hc).2.1⟩
  | cons c s =>
    by_cases hc : c = '.'
    · subst hc
      rw [List.cons_append, fraction_point, fraction_point, digits_apart ht]
      split <;> rfl
    · have hpoint (u : List Char) : (c :: u).head? ≠ some '.' := by simpa using hc
      rw [List.cons_append, fraction_of_ne (hpoint _), fraction_of_ne (hpoint _)]
      rfl

theorem exponentSign_apart (s : List Char) :
    exponentSign (s ++ t) = ((exponentSign s).1, (exponentSign s).2 ++ t) := by
  cases s with
  | nil =>
    exact exponentSign_of_ne (fun hminus => (ht.sign _ hminus).2 rfl)
      fun hplus => (ht.sign _ hplus).1 rfl
  | cons c s =>
    by_cases hminus : c = '-'
    · subst hminus
      rfl
    by_cases hplus : c = '+'
    · subst hplus
      rfl
    have hsign (u : List Char) : exponentSign (c :: u) = (false, c :: u) :=
      exponentSign_of_ne (by simpa using hminus) (by simpa using hplus)
    rw [List.cons_append, hsign, hsign]
    rfl

theorem exponent_apart (s : List Char) :
    exponent (s ++ t) = ((exponent s).1, (exponent s).2 ++ t) := by
  cases s with
  | nil => exact ExponentText.absent.exponent ht.ends
  | cons e s =>
    by_cases he : e = 'e' ∨ e = 'E'
    · rw [List.cons_append, exponent_letter he, exponent_letter he, exponentSign_apart ht,
        digits_apart ht]
      split <;> rfl
    · rw [List.cons_append, exponent_of_ne he, exponent_of_ne he]
      rfl

theorem unsigned_apart (negative : Bool) (s : List Char) : unsigned negative (s ++ t)
    = (unsigned negative s).map fun found => (found.1, found.2 ++ t) := by
  rw [unsigned, unsigned, wholePart?_apart ht]
  cases wholePart? s with
  | none => rfl
  | some found =>
    simp only [Option.map_some, fraction_apart ht, exponent_apart ht]
    split
    · split <;> rfl
    · rfl

/-- A number is read the same when more follows. -/
theorem number_apart (s : List Char) :
    number (s ++ t) = (number s).map fun found => (found.1, found.2 ++ t) := by
  cases s with
  | nil =>
    rw [List.nil_append, number_of_ne fun hminus => (ht.sign _ hminus).2 rfl]
    exact unsigned_apart ht false []
  | cons c s =>
    by_cases hc : c = '-'
    · subst hc
      exact unsigned_apart ht true s
    · have hminus (u : List Char) : (c :: u).head? ≠ some '-' := by simpa using hc
      rw [List.cons_append, number_of_ne (hminus _), number_of_ne (hminus _)]
      exact unsigned_apart ht false (c :: s)

/-- **A value is read the same when more follows** that is no part of a number. -/
theorem value_append {room : Nat} {s rest : List Char} {v : Json}
    (h : value room s = .ok (v, rest)) : value room (s ++ t) = .ok (v, rest ++ t) := by
  obtain ⟨text, rfl, htext, hstops⟩ := value_iff.1 h
  refine value_iff.2 ⟨text, by simp, htext, fun hnumber => ?_⟩
  rw [← List.append_assoc, number_apart ht, hstops hnumber]
  rfl

end more

/-! ## 5. Integers that are too long -/

theorem number_longInteger {ds rest : List Char} (hds : WholeDigits ds)
    (hlong : digitLimit < ds.length) (hrest : Ends rest) :
    number (ds ++ rest) = .error (.longInteger ds.length) := by
  have hfraction := FractionText.absent.fraction fun c hc => ⟨(hrest c hc).1, (hrest c hc).2.1⟩
  have hexponent := ExponentText.absent.exponent hrest
  rw [List.nil_append] at hfraction hexponent
  rw [number_of_ne (hds.head?_ne (by decide) rest), unsigned,
    hds.wholePart? fun c hc => (hrest c hc).1]
  simp only [hfraction, hexponent]
  rw [if_pos (by rfl), if_pos hlong]

/-- A field is not read when its value is not. -/
theorem fieldsFrom_error {t : String} {name after : List Char} (hname : StringText t name)
    {fuel room : Nat} {fault : Fault} (h : valueFrom fuel room (skipSpace after) = .error fault)
    (seen : Fields) : fieldsFrom (fuel + 1) room seen (name ++ ':' :: after) = .error fault := by
  obtain ⟨inside, rfl, hread⟩ := hname.exists_inside
  simp only [List.cons_append, List.append_assoc, List.nil_append]
  rw [fieldsFrom, hread]
  dsimp only
  rw [(begins_cons (by decide) after).skipSpace]
  simp only [h]

/-- **No object is read whose first value is an integer with more digits than may be read.** -/
theorem value_longInteger {t : String} {name : List Char} (hname : StringText t name)
    {ds rest : List Char} (hds : WholeDigits ds) (hlong : digitLimit < ds.length)
    (hrest : Ends rest) {room : Nat} (hroom : room ≠ 0) :
    value room ('\x7b' :: (name ++ ':' :: (ds ++ rest))) = .error (.longInteger ds.length) := by
  have hnumber (fuel room : Nat) :
      valueFrom (fuel + 1) room (skipSpace (ds ++ rest)) = .error (.longInteger ds.length) := by
    rw [← number_longInteger hds hlong hrest]
    obtain ⟨d, more, rfl, hd⟩ := hds.exists_cons
    rw [List.cons_append, (begins_cons (isSpace_of_isDigit hd) _).skipSpace]
    exact valueFrom_digit hd fuel (more ++ rest)
  obtain ⟨fuel, hfuel⟩ : ∃ fuel,
      2 * ('\x7b' :: (name ++ ':' :: (ds ++ rest))).length + 1 = fuel + 1 + 1 + 1 :=
    ⟨2 * (name ++ ':' :: (ds ++ rest)).length, by rw [List.length_cons]; omega⟩
  have hfields := fieldsFrom_error hname (hnumber fuel (room - 1)) []
  obtain ⟨inside, rfl, -⟩ := hname.exists_inside
  rw [value, hfuel, valueFrom, if_neg hroom]
  rw [show skipSpace ('"' :: (inside ++ ['"']) ++ ':' :: (ds ++ rest)) = _ from
    (begins_cons (by decide) _).skipSpace]
  exact hfields

theorem wholeDigits_replicate (n : Nat) : WholeDigits (List.replicate (n + 1) '1') where
  ne_nil := by simp
  isDigit _ hd := List.eq_of_mem_replicate hd ▸ by decide
  lead hlead := by simp [List.replicate_succ] at hlead

/-- The least number of digits that is too many, under a key of one character. -/
theorem value_overlong {rest : List Char} (hrest : Ends rest) {room : Nat} (hroom : room ≠ 0) :
    value room ('\x7b' :: ("\"x\"".toList ++ ':' :: (List.replicate (digitLimit + 1) '1' ++ rest)))
      = .error (.longInteger (digitLimit + 1)) := by
  have hname : StringText "x" "\"x\"".toList :=
    .mk (.cons (.char (by decide) (by decide) (by decide)) .nil)
  have hlong : digitLimit < (List.replicate (digitLimit + 1) '1').length := by
    rw [List.length_replicate]
    exact Nat.lt_succ_self _
  rw [value_longInteger hname (wholeDigits_replicate digitLimit) hlong hrest hroom,
    List.length_replicate]

/-- A text that starts with an object is not read where the object is not. -/
theorem read_error {room : Nat} {cs : List Char} {fault : Fault}
    (h : value room ('\x7b' :: cs) = .error fault) :
    read (String.ofList ('\x7b' :: cs)) room = .error fault := by
  unfold read
  rw [String.toList_ofList]
  split
  · rename_i heq
    cases heq
  · rw [(begins_cons (by decide) cs).skipSpace, h]

end UpgradeAudit.Json
