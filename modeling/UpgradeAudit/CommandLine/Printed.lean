/-
# Printed text

What becomes of a text on its way to an output stream.  Sequences that steer a terminal are
left out, because the streams are no terminals.  A surrogate has no bytes: on standard output
it is a failure, on standard error it is written as an escape.
-/
import UpgradeAudit.Text.CodingFault

namespace UpgradeAudit.CommandLine.Printed

/-! ## 1. Terminal sequences -/

/-- The character that opens a terminal sequence. -/
def escape : Char := '\x1b'

/-- Whether a character is a parameter of a sequence. -/
def isParameter (c : Char) : Bool := '0' ≤ c && c ≤ '?'

/-- Whether a character may stand between the parameters of a sequence and its last character. -/
def isBetween (c : Char) : Bool := ' ' ≤ c && c ≤ '/'

/-- Whether a character completes a sequence. -/
def isLast (c : Char) : Bool := '@' ≤ c && c ≤ '~'

/-- What follows a sequence whose opening character has been read: a bracket, parameters, what
stands between, and the last character belong to it. -/
def afterSequence? : List Char → Option (List Char)
  | '[' :: s =>
    match (s.dropWhile isParameter).dropWhile isBetween with
    | c :: rest => if isLast c then some rest else none
    | [] => none
  | _ => none

/-- A sequence is not empty. -/
theorem length_lt_of_afterSequence? {s rest : List Char} (h : afterSequence? s = some rest) :
    rest.length < s.length := by
  unfold afterSequence? at h
  split at h
  · rename_i s
    have hs : ((s.dropWhile isParameter).dropWhile isBetween).length ≤ s.length :=
      Nat.le_trans (List.dropWhile_sublist _).length_le (List.dropWhile_sublist _).length_le
    split at h
    · rename_i c r hr
      split at h
      · cases h
        rw [hr] at hs
        simp only [List.length_cons] at hs ⊢
        omega
      · cases h
    · cases h
  · cases h

/-- The characters of a text without its terminal sequences. -/
def withoutSequences : List Char → List Char
  | [] => []
  | c :: s =>
    if c = escape then
      match _h : afterSequence? s with
      | some rest => withoutSequences rest
      | none => c :: withoutSequences s
    else c :: withoutSequences s
  termination_by s => s.length
  decreasing_by
    · have := length_lt_of_afterSequence? _h
      simp only [List.length_cons]
      omega
    · simp
    · simp

/-- A text in which nothing opens a terminal sequence is left alone. -/
theorem withoutSequences_eq_self {s : List Char} (h : escape ∉ s) : withoutSequences s = s := by
  induction s with
  | nil => simp [withoutSequences]
  | cons c s ih =>
    have hc : c ≠ escape := fun he => h (by simp [he])
    rw [withoutSequences, if_neg hc, ih fun hs => h (List.mem_cons_of_mem c hs)]

/-- A text without terminal sequences. -/
def plain (s : String) : String := String.ofList (withoutSequences s.toList)

/-! ## 2. Streams -/

/-- A text with an escape for each surrogate. -/
def escaped (s : String) : String :=
  String.ofList ((Text.points s).flatMap fun n =>
    if Text.isSurrogate n then '\\' :: 'u' :: Text.Hex.fixed 4 n else Text.spell n)

/-- A text as standard error shows it. -/
def onError (s : String) : String := escaped (plain s)

/-- A text as standard output shows it, or why it cannot. -/
def onOutput (s : String) : Except Text.WritingFault String :=
  match Text.WritingFault.ofPrinted? (plain s) with
  | some fault => .error fault
  | none => .ok (plain s)

end UpgradeAudit.CommandLine.Printed
