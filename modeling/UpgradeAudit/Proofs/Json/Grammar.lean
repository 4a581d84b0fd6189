/-
# Texts of JSON values

Which texts stand for a value, said without a reader: a string is made of pieces between quotes, a
number of digits that a fraction and an exponent may follow, and a collection holds its parts
between brackets, with a comma between two of them and blanks around each (`Spells`).  A name that
stands twice in an object counts with its last value.

Two limits belong to the text: an integer has no more digits than may be read, and collections stand
inside one another no deeper than there is room for.

**A text of a value is read as the value** (`Spells.readsAs`), up to where it ends.  Only a number
could go on in what follows it (`Stops`), and it does not where another token or a blank begins
(`Ends`).
-/
import Mathlib.Data.List.TakeWhile
import UpgradeAudit.Json.Reader
import UpgradeAudit.Text.Search

namespace UpgradeAudit.Json

/-! ## 1. Strings -/

/-- How a piece of a string is written. -/
inductive PieceText : Piece → List Char → Prop
  | char {c : Char} (hquote : c ≠ '"') (hslash : c ≠ '\\') (hcontrol : 0x20 ≤ c.toNat) :
      PieceText (.char c) [c]
  | letter {e c : Char} (h : escape? e = some c) : PieceText (.char c) ['\\', e]
  | unit {a b c d : Char} {n : Nat} (h : unit? a b c d = some n) :
      PieceText (.unit n) ['\\', 'u', a, b, c, d]

/-- What stands between the quotes of a string. -/
inductive Inside : List Piece → List Char → Prop
  | nil : Inside [] []
  | cons {p : Piece} {ps : List Piece} {cs s : List Char} (h : PieceText p cs) (hs : Inside ps s) :
      Inside (p :: ps) (cs ++ s)

/-- A string with its quotes. -/
inductive StringText : String → List Char → Prop
  | mk {ps : List Piece} {s : List Char} (h : Inside ps s) :
      StringText (String.ofList (joinPieces ps)) ('"' :: (s ++ ['"']))

/-- A piece is read up to where its text ends. -/
theorem PieceText.piecesFrom {p : Piece} {cs : List Char} (h : PieceText p cs) (seen : List Piece)
    (rest : List Char) : piecesFrom seen (cs ++ rest) = Json.piecesFrom (p :: seen) rest := by
  cases h with
  | @char c hquote hslash hcontrol =>
    rw [List.singleton_append, piecesFrom.eq_def]
    split
    · rename_i heq
      simp at heq
    · rename_i heq
      exact absurd (List.cons.inj heq).1 hquote
    · rename_i heq
      exact absurd (List.cons.inj heq).1 hslash
    · rename_i heq
      exact absurd (List.cons.inj heq).1 hslash
    · rename_i heq
      obtain ⟨rfl, rfl⟩ := List.cons.inj heq
      rw [if_neg (by simp [hslash]; omega)]
  | @letter e c he =>
    show Json.piecesFrom seen ('\\' :: e :: rest) = _
    rw [piecesFrom.eq_def]
    split
    · rename_i heq
      simp at heq
    · rename_i heq
      simp at heq
    · rename_i heq
      -- the letter of a unit names no character
      rw [(List.cons.inj (List.cons.inj heq).2).1] at he
      cases he
    · rename_i heq
      obtain ⟨-, heq⟩ := List.cons.inj heq
      obtain ⟨rfl, rfl⟩ := List.cons.inj heq
      rw [he]
    · rename_i hnot heq
      obtain ⟨rfl, rfl⟩ := List.cons.inj heq
      exact absurd rfl (hnot _ _ rfl)
  | unit hn =>
    show Json.piecesFrom seen ('\\' :: 'u' :: _ :: _ :: _ :: _ :: rest) = _
    rw [Json.piecesFrom, hn]

theorem Inside.piecesFrom {ps : List Piece} {s : List Char} (h : Inside ps s) (seen : List Piece)
    (rest : List Char) :
    piecesFrom seen (s ++ '"' :: rest) = .ok (seen.reverse ++ ps, rest) := by
  induction h generalizing seen with
  | nil => simp [Json.piecesFrom]
  | cons hp _ ih => rw [List.append_assoc, hp.piecesFrom, ih]; simp

/-- A string is read up to its closing quote. -/
theorem Inside.string {ps : List Piece} {s : List Char} (h : Inside ps s) (rest : List Char) :
    string (s ++ '"' :: rest) = .ok (String.ofList (joinPieces ps), rest) := by
  rw [Json.string, h.piecesFrom]
  rfl

theorem StringText.exists_inside {t : String} {s : List Char} (h : StringText t s) :
    ∃ inside, s = '"' :: (inside ++ ['"']) ∧
      ∀ rest, string (inside ++ '"' :: rest) = .ok (t, rest) := by
  cases h with
  | mk hinside => exact ⟨_, rfl, hinside.string⟩

/-! ## 2. Numbers -/

/-- Digits, one at least. -/
structure Digits (ds : List Char) : Prop where
  ne_nil : ds ≠ []
  isDigit : ∀ d ∈ ds, d.isDigit = true

/-- Digits of which the first is no zero, or a zero alone. -/
structure WholeDigits (ds : List Char) : Prop extends Digits ds where
  lead : ds.head? = some '0' → ds = ['0']

/-- The digits of a fraction, with the point before them. -/
inductive FractionText : List Char → List Char → Prop
  | absent : FractionText [] []
  | present {ds : List Char} (h : Digits ds) : FractionText ds ('.' :: ds)

/-- The signs of an integer, with whether they make it negative. -/
def signs : List (List Char × Bool) := [([], false), (['+'], false), (['-'], true)]

/-- An exponent, with the letter before it. -/
inductive ExponentText : Option Int → List Char → Prop
  | absent : ExponentText none []
  | present {e : Char} {sign : List Char × Bool} {ds : List Char} (he : e = 'e' ∨ e = 'E')
      (hsign : sign ∈ signs) (h : Digits ds) :
      ExponentText (some (if sign.2 then -(digitsValue ds : Int) else digitsValue ds))
        (e :: (sign.1 ++ ds))

/-- The sign of a number. -/
def minus (negative : Bool) : List Char := if negative then ['-'] else []

/-- A number: an integer that is short enough, or one of floating point, which has a fraction or an
exponent. -/
inductive NumberText : Json → List Char → Prop
  | int (negative : Bool) {ds : List Char} (h : WholeDigits ds) (hshort : ds.length ≤ digitLimit) :
      NumberText (.int (if negative then -(digitsValue ds : Int) else digitsValue ds))
        (minus negative ++ ds)
  | float (negative : Bool) {whole part ps es : List Char} {power : Option Int}
      (h : WholeDigits whole) (hpart : FractionText part ps) (hpower : ExponentText power es)
      (hfloat : part ≠ [] ∨ power ≠ none) :
      NumberText (.float (.ofDecimal negative (digitsValue (whole ++ part))
          (power.getD 0 - part.length)))
        (minus negative ++ (whole ++ (ps ++ es)))

/-- Whether a number can end before a text. -/
def Ends (rest : List Char) : Prop :=
  ∀ c ∈ rest.head?, c.isDigit = false ∧ c ≠ '.' ∧ c ≠ 'e' ∧ c ≠ 'E'

theorem Ends.cons {c : Char} (h : c.isDigit = false ∧ c ≠ '.' ∧ c ≠ 'e' ∧ c ≠ 'E')
    (rest : List Char) : Ends (c :: rest) := by
  intro d hd
  obtain rfl : c = d := by simpa using hd
  exact h

theorem ends_nil : Ends [] := by
  intro c hc
  simp at hc

/-- Digits up to where they end. -/
theorem digits_append {ds rest : List Char} (hds : ∀ d ∈ ds, d.isDigit = true)
    (hrest : ∀ c ∈ rest.head?, c.isDigit = false) : digits (ds ++ rest) = (ds, rest) := by
  cases rest with
  | nil =>
    rw [digits, List.append_nil, List.takeWhile_eq_self_iff.2 hds, List.dropWhile_eq_nil_iff.2 hds]
  | cons c rest =>
    have hc : ¬ c.isDigit = true := by simp [hrest c rfl]
    rw [digits, List.takeWhile_append_of_pos hds, List.takeWhile_cons_of_neg hc,
      List.dropWhile_append_of_pos hds, List.dropWhile_cons_of_neg hc, List.append_nil]

/-! Where the reader of a number has a choice, one character decides. -/

theorem number_of_ne {s : List Char} (h : s.head? ≠ some '-') : number s = unsigned false s := by
  unfold number
  split
  · exact absurd rfl h
  · rfl

theorem wholePart?_of_ne {s : List Char} (h : s.head? ≠ some '0') :
    wholePart? s = if (digits s).1.isEmpty then none else some (digits s) := by
  unfold wholePart?
  split
  · exact absurd rfl h
  · rcases digits s with ⟨_ | ⟨d, ds⟩, rest⟩ <;> rfl

theorem fraction_point (s : List Char) : fraction ('.' :: s)
    = if (digits s).1.isEmpty then ([], '.' :: s) else digits s := by
  rw [fraction.eq_def]
  cases hfound : digits s with
  | mk ds rest => cases ds <;> simp [hfound]

theorem fraction_of_ne {s : List Char} (h : s.head? ≠ some '.') : fraction s = ([], s) := by
  unfold fraction
  split
  · exact absurd rfl h
  · rfl

theorem exponentSign_of_ne {s : List Char} (h : s.head? ≠ some '-') (h' : s.head? ≠ some '+') :
    exponentSign s = (false, s) := by
  unfold exponentSign
  split
  · exact absurd rfl h
  · exact absurd rfl h'
  · rfl

theorem exponent_letter {e : Char} (he : e = 'e' ∨ e = 'E') (s : List Char) : exponent (e :: s)
    = if (digits (exponentSign s).2).1.isEmpty then (none, e :: s)
      else (some (if (exponentSign s).1 then -(digitsValue (digits (exponentSign s).2).1 : Int)
        else digitsValue (digits (exponentSign s).2).1), (digits (exponentSign s).2).2) := by
  have hletter : (e = 'e' || e = 'E') = true := by simpa using he
  rw [exponent, if_pos hletter]
  dsimp only
  rcases digits (exponentSign s).2 with ⟨_ | ⟨d, ds⟩, rest⟩ <;> rfl

theorem exponent_of_ne {e : Char} (he : ¬ (e = 'e' ∨ e = 'E')) (s : List Char) :
    exponent (e :: s) = (none, e :: s) := by
  have hletter : ¬ (e = 'e' || e = 'E') = true := by simpa using he
  rw [exponent, if_neg hletter]

theorem Digits.exists_cons {ds : List Char} (h : Digits ds) :
    ∃ d rest, ds = d :: rest ∧ d.isDigit = true := by
  obtain ⟨d, rest, rfl⟩ := List.exists_cons_of_ne_nil h.ne_nil
  exact ⟨d, rest, rfl, h.isDigit d List.mem_cons_self⟩

/-- Digits do not start with a sign. -/
theorem Digits.head?_ne {ds : List Char} (h : Digits ds) {c : Char} (hc : c.isDigit = false)
    (rest : List Char) : (ds ++ rest).head? ≠ some c := by
  obtain ⟨d, more, rfl, hd⟩ := h.exists_cons
  intro heq
  obtain rfl : d = c := by simpa using heq
  rw [hd] at hc
  exact absurd hc (by decide)

theorem Digits.isEmpty {ds : List Char} (h : Digits ds) : ¬ ds.isEmpty = true :=
  fun hnil => h.ne_nil (List.isEmpty_iff.1 hnil)

theorem WholeDigits.wholePart? {ds rest : List Char} (h : WholeDigits ds)
    (hrest : ∀ c ∈ rest.head?, c.isDigit = false) : wholePart? (ds ++ rest) = some (ds, rest) := by
  by_cases hzero : ds.head? = some '0'
  · rw [h.lead hzero]
    rfl
  · have hne : (ds ++ rest).head? ≠ some '0' := by
      obtain ⟨d, more, rfl, -⟩ := h.exists_cons
      exact hzero
    rw [wholePart?_of_ne hne, digits_append h.isDigit hrest, if_neg h.isEmpty]

theorem FractionText.fraction {part ps rest : List Char} (h : FractionText part ps)
    (hrest : ∀ c ∈ rest.head?, c.isDigit = false ∧ c ≠ '.') :
    fraction (ps ++ rest) = (part, rest) := by
  cases h with
  | absent => exact fraction_of_ne fun hpoint => (hrest _ hpoint).2 rfl
  | present hds =>
    rw [List.cons_append, fraction_point, digits_append hds.isDigit fun c hc => (hrest c hc).1,
      if_neg hds.isEmpty]

theorem exponentSign_append {sign : List Char × Bool} (hsign : sign ∈ signs) {ds : List Char}
    (h : Digits ds) (rest : List Char) :
    exponentSign (sign.1 ++ (ds ++ rest)) = (sign.2, ds ++ rest) := by
  simp only [signs, List.mem_cons, List.not_mem_nil, or_false] at hsign
  rcases hsign with rfl | rfl | rfl
  · exact exponentSign_of_ne (h.head?_ne (by decide) rest) (h.head?_ne (by decide) rest)
  · rfl
  · rfl

theorem ExponentText.exponent {power : Option Int} {es rest : List Char} (h : ExponentText power es)
    (hrest : Ends rest) : exponent (es ++ rest) = (power, rest) := by
  cases h with
  | absent =>
    cases rest with
    | nil => rfl
    | cons e rest =>
      obtain ⟨-, -, he, hE⟩ := hrest e rfl
      exact exponent_of_ne (not_or.2 ⟨he, hE⟩) rest
  | present he hsign hds =>
    rw [List.cons_append, List.append_assoc, exponent_letter he, exponentSign_append hsign hds,
      digits_append hds.isDigit fun c hc => (hrest c hc).1, if_neg hds.isEmpty]

/-- What an exponent starts with is neither a digit nor a point. -/
theorem ExponentText.head {power : Option Int} {es rest : List Char} (h : ExponentText power es)
    (hrest : Ends rest) : ∀ c ∈ (es ++ rest).head?, c.isDigit = false ∧ c ≠ '.' := by
  cases h with
  | absent => exact fun c hc => ⟨(hrest c hc).1, (hrest c hc).2.1⟩
  | present he =>
    intro c hc
    obtain rfl : _ = c := by simpa using hc
    rcases he with rfl | rfl <;> decide

/-- A number is read where it ends. -/
theorem NumberText.number {v : Json} {s rest : List Char} (h : NumberText v s) (hrest : Ends rest) :
    number (s ++ rest) = .ok (v, rest) := by
  have hsigned (negative : Bool) {ds more : List Char} (hds : WholeDigits ds) :
      Json.number (minus negative ++ (ds ++ more)) = unsigned negative (ds ++ more) := by
    cases negative with
    | false => exact number_of_ne (hds.head?_ne (by decide) more)
    | true => rfl
  cases h with
  | int negative hds hshort =>
    rw [List.append_assoc, hsigned negative hds, unsigned,
      hds.wholePart? fun c hc => (hrest c hc).1]
    have hfraction := FractionText.absent.fraction fun c hc => ⟨(hrest c hc).1, (hrest c hc).2.1⟩
    have hexponent := ExponentText.absent.exponent hrest
    rw [List.nil_append] at hfraction hexponent
    simp only [hfraction, hexponent]
    rw [if_pos (by rfl), if_neg (by omega)]
  | @float negative whole part ps es power hds hpart hpower hfloat =>
    have hes := hpower.head hrest
    have hps : ∀ c ∈ (ps ++ (es ++ rest)).head?, c.isDigit = false := by
      cases hpart with
      | absent => exact fun c hc => (hes c hc).1
      | present =>
        intro c hc
        obtain rfl : '.' = c := by simpa using hc
        decide
    have hnot : ¬ (part.isEmpty && power.isNone) = true := by
      simpa [imp_iff_not_or] using hfloat
    simp only [List.append_assoc]
    rw [hsigned negative hds, unsigned, hds.wholePart? hps]
    simp only [hpart.fraction hes, hpower.exponent hrest]
    rw [if_neg hnot]

/-- A number starts with a digit, or with a minus sign and a digit. -/
theorem NumberText.exists_cons {v : Json} {s : List Char} (h : NumberText v s) :
    ∃ d rest, d.isDigit = true ∧ (s = d :: rest ∨ s = '-' :: d :: rest) := by
  have hminus (negative : Bool) {ds : List Char} (hds : WholeDigits ds) (more : List Char) :
      ∃ d rest, d.isDigit = true ∧ (minus negative ++ (ds ++ more) = d :: rest
        ∨ minus negative ++ (ds ++ more) = '-' :: d :: rest) := by
    obtain ⟨d, tail, rfl, hd⟩ := hds.exists_cons
    cases negative with
    | false => exact ⟨d, tail ++ more, hd, Or.inl rfl⟩
    | true => exact ⟨d, tail ++ more, hd, Or.inr rfl⟩
  cases h with
  | int negative hds _ => simpa using hminus negative hds []
  | float negative hds _ _ _ => exact hminus negative hds _

/-! ## 3. Blanks -/

/-- Blanks between tokens. -/
def Blanks (s : List Char) : Prop := ∀ c ∈ s, isSpace c = true

theorem blanks_nil : Blanks [] := by simp [Blanks]

/-- Whether a text starts with something else than a blank. -/
def Begins (s : List Char) : Prop := ∃ c rest, s = c :: rest ∧ isSpace c = false

theorem skipSpace_append {blanks : List Char} (hblanks : Blanks blanks) (s : List Char) :
    skipSpace (blanks ++ s) = skipSpace s :=
  List.dropWhile_append_of_pos hblanks

theorem begins_cons {c : Char} (h : isSpace c = false) (s : List Char) : Begins (c :: s) :=
  ⟨c, s, rfl, h⟩

/-- Blanks are skipped up to the first character that is none. -/
theorem skipSpace_append_cons {blanks : List Char} (hblanks : Blanks blanks) {c : Char}
    (hc : isSpace c = false) (s : List Char) : skipSpace (blanks ++ c :: s) = c :: s := by
  rw [skipSpace_append hblanks]
  exact List.dropWhile_cons_of_neg (by simp [hc])

namespace Begins

variable {s : List Char} (h : Begins s)

include h

theorem append (t : List Char) : Begins (s ++ t) := by
  obtain ⟨c, rest, rfl, hc⟩ := h
  exact ⟨c, rest ++ t, rfl, hc⟩

theorem skipSpace : skipSpace s = s := by
  obtain ⟨c, rest, rfl, hc⟩ := h
  exact List.dropWhile_cons_of_neg (by simp [hc])

theorem length_pos : 0 < s.length := by
  obtain ⟨c, rest, rfl, -⟩ := h
  simp

end Begins

/-- No number goes on with a blank. -/
theorem ends_of_isSpace {c : Char} (h : isSpace c = true) (rest : List Char) :
    Ends (c :: rest) := by
  simp only [isSpace, Bool.or_eq_true, decide_eq_true_eq] at h
  rcases h with ((rfl | rfl) | rfl) | rfl <;> exact .cons (by decide) rest

theorem ends_append {blanks s : List Char} (hblanks : Blanks blanks) (hs : Ends s) :
    Ends (blanks ++ s) := by
  cases blanks with
  | nil => exact hs
  | cons c blanks => exact ends_of_isSpace (hblanks c List.mem_cons_self) _

/-- The blanks, the end of an array and a byte order mark. -/
def strangers : List Char := [' ', '\t', '\n', '\r', ']', '\ufeff']

theorem valueFrom_stranger {c : Char} (h : c ∈ strangers) (fuel room : Nat) (rest : List Char) :
    valueFrom fuel room (c :: rest) = .error .malformed := by
  cases fuel with
  | zero => rfl
  | succ fuel =>
    simp only [strangers, List.mem_cons, List.not_mem_nil, or_false] at h
    rcases h with rfl | rfl | rfl | rfl | rfl | rfl <;> rfl

/-- Every value starts with a character that belongs to it. -/
theorem valueFrom_ok {fuel room : Nat} {s : List Char} {found : Json × List Char}
    (h : valueFrom fuel room s = .ok found) : ∃ c rest, s = c :: rest ∧ c ∉ strangers := by
  cases s with
  | nil =>
    have hnil : valueFrom fuel room [] = .error .malformed := by
      cases fuel <;> rfl
    rw [hnil] at h
    cases h
  | cons c rest =>
    refine ⟨c, rest, rfl, fun hc => ?_⟩
    rw [valueFrom_stranger hc] at h
    cases h

theorem begins_of_valueFrom {fuel room : Nat} {s : List Char} {found : Json × List Char}
    (h : valueFrom fuel room s = .ok found) : Begins s := by
  obtain ⟨c, rest, rfl, hc⟩ := valueFrom_ok h
  refine begins_cons (Bool.eq_false_iff.2 fun hspace => hc ?_) rest
  simp only [isSpace, Bool.or_eq_true, decide_eq_true_eq] at hspace
  rcases hspace with ((rfl | rfl) | rfl) | rfl <;> decide

/-! ## 4. Values -/

/-- A token or a value with the blanks around it. -/
structure Spaced where
  before : List Char
  text : List Char
  after : List Char

namespace Spaced

/-- All of it. -/
def chars (s : Spaced) : List Char := s.before ++ (s.text ++ s.after)

/-- Nothing but blanks stands around it. -/
structure Blank (s : Spaced) : Prop where
  before : Blanks s.before
  after : Blanks s.after

end Spaced

/-- An item of an array: a value in its text. -/
structure Item where
  place : Spaced
  value : Json

/-- A field of an object: a name and a value in their texts. -/
structure Field where
  namePlace : Spaced
  name : String
  item : Item

/-- Items with commas between them. -/
def itemsText (items : List Item) : List Char :=
  [','].intercalate (items.map fun i => i.place.chars)

/-- A field with its colon. -/
def Field.chars (f : Field) : List Char := f.namePlace.chars ++ ':' :: f.item.place.chars

/-- Fields with commas between them. -/
def fieldsText (fields : List Field) : List Char := [','].intercalate (fields.map Field.chars)

/-- The name and the value of a field. -/
def Field.entry (f : Field) : String × Json := (f.name, f.item.value)

/-- The texts of a value whose collections fit into so much room. -/
inductive Spells : (room : Nat) → Json → List Char → Prop
  | word {room : Nat} {w : String × Json} (h : w ∈ words) : Spells room w.2 w.1.toList
  | number {room : Nat} {v : Json} {s : List Char} (h : NumberText v s) : Spells room v s
  | text {room : Nat} {t : String} {s : List Char} (h : StringText t s) : Spells room (.text t) s
  | emptyArray {room : Nat} {gap : List Char} (h : Blanks gap) :
      Spells (room + 1) (.array []) ('[' :: (gap ++ [']']))
  | array {room : Nat} {items : List Item} (hne : items ≠ []) (hblank : ∀ i ∈ items, i.place.Blank)
      (h : ∀ i ∈ items, Spells room i.value i.place.text) :
      Spells (room + 1) (.array (items.map Item.value)) ('[' :: (itemsText items ++ [']']))
  | emptyObject {room : Nat} {gap : List Char} (h : Blanks gap) :
      Spells (room + 1) (.object []) ('\x7b' :: (gap ++ ['\x7d']))
  | object {room : Nat} {fields : List Field} (hne : fields ≠ [])
      (hnames : ∀ f ∈ fields, f.namePlace.Blank ∧ StringText f.name f.namePlace.text)
      (hblank : ∀ f ∈ fields, f.item.place.Blank)
      (h : ∀ f ∈ fields, Spells room f.item.value f.item.place.text) :
      Spells (room + 1) (.object (Table.ofEntries (fields.map Field.entry)))
        ('\x7b' :: (fieldsText fields ++ ['\x7d']))

/-! ## 5. Reading -/

/-- Whether a value ends where its text does: a number could go on. -/
def Stops (v : Json) (s rest : List Char) : Prop :=
  NumberText v s → number (s ++ rest) = .ok (v, rest)

/-- A text that is read as a value, given so much room. -/
def ReadsAs (room : Nat) (v : Json) (s : List Char) : Prop :=
  ∀ fuel rest, 2 * s.length ≤ fuel + 1 → Stops v s rest →
    valueFrom fuel room (s ++ rest) = .ok (v, rest)

variable {room : Nat}

theorem Ends.stops {v : Json} {s rest : List Char} (h : Ends rest) : Stops v s rest :=
  fun hnumber => hnumber.number h

theorem ReadsAs.begins {v : Json} {s : List Char} (h : ReadsAs room v s) : Begins s := by
  have hread := h (2 * s.length) [] (by omega) ends_nil.stops
  rw [List.append_nil] at hread
  exact begins_of_valueFrom hread

/-- A text that is not empty always leaves fuel for its first character. -/
theorem ReadsAs.of_succ {v : Json} {s : List Char} (hs : s ≠ [])
    (h : ∀ fuel rest, 2 * s.length ≤ fuel + 2 → Stops v s rest →
      valueFrom (fuel + 1) room (s ++ rest) = .ok (v, rest)) : ReadsAs room v s := by
  intro fuel rest hfuel hstops
  have hpos := List.length_pos_iff.2 hs
  obtain ⟨fuel, rfl⟩ : ∃ n, fuel = n + 1 := Nat.exists_eq_add_one.2 (by omega)
  exact h fuel rest hfuel hstops

/-- A value with blanks around it is read up to the token after it. -/
theorem ReadsAs.chars {v : Json} {p : Spaced} (h : ReadsAs room v p.text) (hblank : p.Blank)
    {fuel : Nat} (hfuel : 2 * p.text.length ≤ fuel + 1) {t : List Char} (ht : Ends t) :
    valueFrom fuel room (skipSpace (p.chars ++ t)) = .ok (v, p.after ++ t) := by
  rw [Spaced.chars, List.append_assoc, List.append_assoc, skipSpace_append hblank.before,
    (h.begins.append _).skipSpace]
  exact h fuel _ hfuel (ends_append hblank.after ht).stops

/-- An item is read up to the token after it: the comma before another item, or the end of the
array. -/
theorem itemsFrom_item {i : Item} (hblank : i.place.Blank) (h : ReadsAs room i.value i.place.text)
    {c : Char} (hc : c = ',' ∨ c = ']') {fuel : Nat} (hfuel : 2 * i.place.text.length ≤ fuel + 1)
    (seen : List Json) (more : List Char) :
    itemsFrom (fuel + 1) room seen (skipSpace (i.place.chars ++ c :: more))
      = if c = ',' then itemsFrom fuel room (i.value :: seen) (skipSpace more)
        else .ok (.array (i.value :: seen).reverse, more) := by
  have hends : Ends (c :: more) := by
    rcases hc with rfl | rfl <;> exact .cons (by decide) more
  have hskip : skipSpace (i.place.after ++ c :: more) = c :: more := by
    rcases hc with rfl | rfl <;> exact skipSpace_append_cons hblank.after (by decide) more
  rw [itemsFrom, h.chars hblank hfuel hends]
  dsimp only
  rw [hskip]
  rcases hc with rfl | rfl <;> rfl

theorem itemsText_cons (i j : Item) (items : List Item) :
    itemsText (i :: j :: items) = i.place.chars ++ ',' :: itemsText (j :: items) := by
  simp [itemsText]

theorem length_chars (s : Spaced) :
    s.chars.length = s.before.length + s.text.length + s.after.length := by
  simp [Spaced.chars, Nat.add_assoc]

/-- Items are read one after the other, from the blanks before the first of them on. -/
theorem itemsFrom_itemsText {items : List Item} (hne : items ≠ [])
    (hblank : ∀ i ∈ items, i.place.Blank) (h : ∀ i ∈ items, ReadsAs room i.value i.place.text)
    {fuel : Nat} (hfuel : 2 * (itemsText items).length ≤ fuel) (seen : List Json)
    (rest : List Char) :
    itemsFrom fuel room seen (skipSpace (itemsText items ++ ']' :: rest))
      = .ok (.array (seen.reverse ++ items.map Item.value), rest) := by
  induction items generalizing fuel seen with
  | nil => exact absurd rfl hne
  | cons i items ih =>
    have hi := h i List.mem_cons_self
    have hplace := hblank i List.mem_cons_self
    have hpos := hi.begins.length_pos
    have hchars := length_chars i.place
    cases items with
    | nil =>
      have htext : itemsText [i] = i.place.chars := List.intercalate_singleton
      rw [htext] at hfuel ⊢
      obtain ⟨fuel, rfl⟩ : ∃ n, fuel = n + 1 := Nat.exists_eq_add_one.2 (by omega)
      rw [itemsFrom_item hplace hi (Or.inr rfl) (by omega), if_neg (by decide)]
      simp
    | cons j items =>
      rw [itemsText_cons] at hfuel ⊢
      rw [List.length_append, List.length_cons] at hfuel
      obtain ⟨fuel, rfl⟩ : ∃ n, fuel = n + 1 := Nat.exists_eq_add_one.2 (by omega)
      rw [List.append_assoc, List.cons_append, itemsFrom_item hplace hi (Or.inl rfl) (by omega),
        if_pos rfl, ih (by simp) (fun k hk => hblank k (List.mem_cons_of_mem _ hk))
          (fun k hk => h k (List.mem_cons_of_mem _ hk)) (by omega)]
      simp

/-- A field is read up to the token after it: the comma before another field, or the end of the
object. -/
theorem fieldsFrom_field {f : Field} (hname : f.namePlace.Blank)
    (hstring : StringText f.name f.namePlace.text) (hblank : f.item.place.Blank)
    (h : ReadsAs room f.item.value f.item.place.text) {c : Char} (hc : c = ',' ∨ c = '\x7d')
    {fuel : Nat} (hfuel : 2 * f.item.place.text.length ≤ fuel + 1) (seen : Fields)
    (more : List Char) :
    fieldsFrom (fuel + 1) room seen (skipSpace (f.chars ++ c :: more))
      = if c = ',' then fieldsFrom fuel room (Table.set f.name f.item.value seen) (skipSpace more)
        else .ok (.object (Table.set f.name f.item.value seen), more) := by
  have hends : Ends (c :: more) := by
    rcases hc with rfl | rfl <;> exact .cons (by decide) more
  have hskip : skipSpace (f.item.place.after ++ c :: more) = c :: more := by
    rcases hc with rfl | rfl <;> exact skipSpace_append_cons hblank.after (by decide) more
  have hvalue := h.chars hblank hfuel hends
  obtain ⟨inside, hinside, hread⟩ := hstring.exists_inside
  rw [Field.chars, Spaced.chars, hinside]
  simp only [List.append_assoc, List.cons_append, List.nil_append]
  rw [skipSpace_append_cons hname.before (by decide), fieldsFrom, hread]
  dsimp only
  rw [skipSpace_append_cons hname.after (by decide)]
  simp only [hvalue, hskip]
  rcases hc with rfl | rfl <;> rfl

theorem fieldsText_cons (f g : Field) (fields : List Field) :
    fieldsText (f :: g :: fields) = f.chars ++ ',' :: fieldsText (g :: fields) := by
  simp [fieldsText]

/-- Fields are read one after the other, from the blanks before the first of them on. -/
theorem fieldsFrom_fieldsText {fields : List Field} (hne : fields ≠ [])
    (hnames : ∀ f ∈ fields, f.namePlace.Blank ∧ StringText f.name f.namePlace.text)
    (hblank : ∀ f ∈ fields, f.item.place.Blank)
    (h : ∀ f ∈ fields, ReadsAs room f.item.value f.item.place.text) {fuel : Nat}
    (hfuel : 2 * (fieldsText fields).length ≤ fuel) (seen : Fields) (rest : List Char) :
    fieldsFrom fuel room seen (skipSpace (fieldsText fields ++ '\x7d' :: rest))
      = .ok (.object (Table.setAll seen (fields.map Field.entry)), rest) := by
  induction fields generalizing fuel seen with
  | nil => exact absurd rfl hne
  | cons f fields ih =>
    have hf := h f List.mem_cons_self
    obtain ⟨hname, hstring⟩ := hnames f List.mem_cons_self
    have hplace := hblank f List.mem_cons_self
    have hchars : f.chars.length = f.namePlace.chars.length + 1 + f.item.place.chars.length := by
      rw [Field.chars, List.length_append, List.length_cons]
      omega
    have hitem := length_chars f.item.place
    cases fields with
    | nil =>
      have htext : fieldsText [f] = f.chars := List.intercalate_singleton
      rw [htext] at hfuel ⊢
      obtain ⟨fuel, rfl⟩ : ∃ n, fuel = n + 1 := Nat.exists_eq_add_one.2 (by omega)
      rw [fieldsFrom_field hname hstring hplace hf (Or.inr rfl) (by omega), if_neg (by decide)]
      rfl
    | cons g fields =>
      rw [fieldsText_cons] at hfuel ⊢
      rw [List.length_append, List.length_cons] at hfuel
      obtain ⟨fuel, rfl⟩ : ∃ n, fuel = n + 1 := Nat.exists_eq_add_one.2 (by omega)
      rw [List.append_assoc, List.cons_append,
        fieldsFrom_field hname hstring hplace hf (Or.inl rfl) (by omega), if_pos rfl,
        ih (by simp) (fun k hk => hnames k (List.mem_cons_of_mem _ hk))
          (fun k hk => hblank k (List.mem_cons_of_mem _ hk))
          (fun k hk => h k (List.mem_cons_of_mem _ hk)) (by omega)]
      rfl

/-- The end of an array is no item. -/
theorem itemsFrom_ok {fuel : Nat} {seen : List Json} {s : List Char} {found : Json × List Char}
    (h : itemsFrom fuel room seen s = .ok found) (rest : List Char) : s ≠ ']' :: rest := by
  cases fuel with
  | zero => cases h
  | succ fuel =>
    rw [itemsFrom] at h
    cases hv : valueFrom fuel room s with
    | error fault => simp [hv] at h
    | ok found =>
      rintro rfl
      rw [valueFrom_stranger (by decide)] at hv
      cases hv

/-- The end of an object is no field. -/
theorem fieldsFrom_ok {fuel : Nat} {seen : Fields} {s : List Char} {found : Json × List Char}
    (h : fieldsFrom fuel room seen s = .ok found) (rest : List Char) : s ≠ '\x7d' :: rest := by
  rintro rfl
  cases fuel <;> simp [fieldsFrom] at h

/-- What starts neither a text nor a collection is a word or a number. -/
theorem valueFrom_plain {c : Char} (hc : c ≠ '"' ∧ c ≠ '[' ∧ c ≠ '\x7b') (fuel : Nat)
    (s : List Char) (h : word? (c :: s) = none) :
    valueFrom (fuel + 1) room (c :: s) = number (c :: s) := by
  obtain ⟨hquote, harray, hobject⟩ := hc
  rw [valueFrom, h]
  · intro rest heq
    exact hquote (List.cons.inj heq).1
  · intro rest heq
    exact harray (List.cons.inj heq).1
  · intro rest heq
    exact hobject (List.cons.inj heq).1

theorem ne_of_isDigit {c d : Char} (hc : c.isDigit = true) (hd : d.isDigit = false) : c ≠ d := by
  rintro rfl
  rw [hc] at hd
  exact absurd hd (by decide)

/-- No word starts with a digit, or with a minus sign and a digit. -/
theorem word?_of_isDigit {d : Char} (hd : d.isDigit = true) (rest : List Char) :
    word? (d :: rest) = none ∧ word? ('-' :: d :: rest) = none := by
  have hletter {c : Char} (hc : c.isDigit = false) : (c == d) = false :=
    beq_eq_false_iff_ne.2 (ne_of_isDigit hd hc).symm
  constructor <;> simp [word?, words, Text.isPrefixOf?_cons_cons, hletter]

theorem isSpace_of_isDigit {d : Char} (hd : d.isDigit = true) : isSpace d = false := by
  simp [isSpace, ne_of_isDigit hd]

/-- What starts with a digit is a number. -/
theorem valueFrom_digit {d : Char} (hd : d.isDigit = true) (fuel : Nat) (rest : List Char) :
    valueFrom (fuel + 1) room (d :: rest) = number (d :: rest) :=
  valueFrom_plain ⟨ne_of_isDigit hd rfl, ne_of_isDigit hd rfl, ne_of_isDigit hd rfl⟩ fuel rest
    (word?_of_isDigit hd rest).1

theorem valueFrom_number {v : Json} {s : List Char} (h : NumberText v s) (fuel : Nat)
    (rest : List Char) : valueFrom (fuel + 1) room (s ++ rest) = number (s ++ rest) := by
  obtain ⟨d, more, hd, rfl | rfl⟩ := h.exists_cons
  · exact valueFrom_digit hd fuel (more ++ rest)
  · exact valueFrom_plain (by decide) fuel _ (word?_of_isDigit hd (more ++ rest)).2

/-- **A text of a value is read as the value**, whatever follows a value that has ended. -/
theorem Spells.readsAs {v : Json} {s : List Char} (h : Spells room v s) : ReadsAs room v s := by
  induction h with
  | @word room w hw =>
    simp only [words, List.mem_cons, List.not_mem_nil, or_false] at hw
    rcases hw with rfl | rfl | rfl | rfl | rfl | rfl <;>
      exact .of_succ (by decide) fun _ _ _ _ => rfl
  | number hnumber =>
    refine .of_succ ?_ fun fuel rest _ hstops => ?_
    · obtain ⟨d, more, -, rfl | rfl⟩ := hnumber.exists_cons <;> simp
    · rw [valueFrom_number hnumber, hstops hnumber]
  | text hstring =>
    obtain ⟨inside, rfl, hread⟩ := hstring.exists_inside
    refine .of_succ (List.cons_ne_nil _ _) fun fuel rest _ _ => ?_
    simp only [List.cons_append, List.append_assoc, List.nil_append]
    rw [valueFrom, hread]
    rfl
  | @emptyArray room gap hgap =>
    refine .of_succ (List.cons_ne_nil _ _) fun fuel rest _ _ => ?_
    simp only [List.cons_append, List.append_assoc, List.nil_append]
    rw [valueFrom, if_neg (by omega), skipSpace_append_cons hgap (by decide)]
    rfl
  | @array room items hne hblank _ ih =>
    refine .of_succ (List.cons_ne_nil _ _) fun fuel rest hfuel _ => ?_
    simp only [List.length_cons, List.length_append] at hfuel
    have hread := itemsFrom_itemsText hne hblank ih
      (show 2 * (itemsText items).length ≤ fuel by omega) [] rest
    simp only [List.cons_append, List.append_assoc, List.nil_append]
    rw [valueFrom, if_neg (by omega)]
    split
    · rename_i hclose
      exact absurd hclose (itemsFrom_ok hread _)
    · exact hread
  | @emptyObject room gap hgap =>
    refine .of_succ (List.cons_ne_nil _ _) fun fuel rest _ _ => ?_
    simp only [List.cons_append, List.append_assoc, List.nil_append]
    rw [valueFrom, if_neg (by omega), skipSpace_append_cons hgap (by decide)]
    rfl
  | @object room fields hne hnames hblank _ ih =>
    refine .of_succ (List.cons_ne_nil _ _) fun fuel rest hfuel _ => ?_
    simp only [List.length_cons, List.length_append] at hfuel
    have hread := fieldsFrom_fieldsText hne hnames hblank ih
      (show 2 * (fieldsText fields).length ≤ fuel by omega) [] rest
    simp only [List.cons_append, List.append_assoc, List.nil_append]
    rw [valueFrom, if_neg (by omega)]
    split
    · rename_i hclose
      exact absurd hclose (fieldsFrom_ok hread _)
    · exact hread

theorem Spells.value {room : Nat} {v : Json} {s rest : List Char} (h : Spells room v s)
    (hstops : Stops v s rest) : value room (s ++ rest) = .ok (v, rest) :=
  h.readsAs _ rest (by rw [List.length_append]; omega) hstops

/-- A document that is a text of a value, with blanks around it, is read as the value. -/
theorem Spells.read {room : Nat} {v : Json} {before s after : List Char} (h : Spells room v s)
    (hbefore : Blanks before) (hafter : Blanks after) :
    read (String.ofList (before ++ (s ++ after))) room = .ok v := by
  have hvalue : Json.value room (skipSpace (before ++ (s ++ after))) = .ok (v, after) := by
    rw [skipSpace_append hbefore, (h.readsAs.begins.append _).skipSpace]
    refine h.value (Ends.stops ?_)
    rw [← List.append_nil after]
    exact ends_append hafter ends_nil
  have hend : skipSpace after = [] := List.dropWhile_eq_nil_iff.2 hafter
  unfold Json.read
  rw [String.toList_ofList]
  split
  · rename_i heq
    -- a byte order mark is no blank, and starts no value
    rw [heq, (begins_cons (by decide) _).skipSpace, Json.value,
      valueFrom_stranger (by decide)] at hvalue
    cases hvalue
  · rw [hvalue]
    simp [hend]

end UpgradeAudit.Json
