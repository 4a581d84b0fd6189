/-
# The shortest decimal

The decimal with the fewest digits that reads back as a given number, and its text.

The numbers that read back as `m * 2 ^ q` fill an interval around it.  For each number of
digits from one to seventeen the two neighbours of the number on that decimal grid are tried;
the first grid with a hit wins, of two hits the nearer.  How the digits are laid out is a
record (`Layout`): a number whose point falls within its first places is written out, any
other with an exponent.
-/
import UpgradeAudit.Decimal.Binary64

namespace UpgradeAudit.Decimal

/-! ## 1. Digits -/

/-- A positive number `value / den` with the interval `low / den` to `high / den` of the reals
that round to it; the ends belong to it when `closed`. -/
structure Rounding where
  value : Nat
  low : Nat
  high : Nat
  den : Nat
  closed : Bool

/-- The interval of the number `m * 2 ^ q`. -/
def Rounding.ofBinary (m : Nat) (q : Int) : Rounding :=
  let lowGap := if m = hiddenBit && q > -1074 then 1 else 2
  let scale := if q < 2 then 1 else Nat.pow 2 (q - 2).toNat
  { value := 4 * m * scale
    low := (4 * m - lowGap) * scale
    high := (4 * m + 2) * scale
    den := if q < 2 then Nat.pow 2 (2 - q).toNat else 1
    closed := m % 2 = 0 }

/-- Whether the decimal `num / den` reads back as the number. -/
def Rounding.contains (r : Rounding) (num den : Nat) : Bool :=
  let x := num * r.den
  let low := r.low * den
  let high := r.high * den
  if r.closed then low ≤ x && x ≤ high else low < x && x < high

/-- `10 ^ p` as a numerator and a denominator. -/
def powerOfTen (p : Int) : Nat × Nat :=
  if p < 0 then (1, Nat.pow 10 (-p).toNat) else (Nat.pow 10 p.toNat, 1)

/-- The power of ten of the leading digit of a positive quotient. -/
def leadingPower (num den : Nat) : Int :=
  let guess : Int := (((Nat.log2 num : Int) - (Nat.log2 den : Int)) * 30103).fdiv 100000
  let reaches (k : Int) : Bool := (powerOfTen k).1 * den ≤ num * (powerOfTen k).2
  if reaches (guess + 1) then guess + 1 else if reaches guess then guess else guess - 1

/-- The neighbour of the number on the grid of `10 ^ p` that reads back, the nearer of two. -/
def Rounding.onGrid? (r : Rounding) (p : Int) : Option Nat :=
  let (pn, pd) := powerOfTen p
  let unit := r.den * pn
  let below := r.value * pd / unit
  let above := below + 1
  match r.contains (below * pn) pd, r.contains (above * pn) pd with
  | true, true =>
    let twice := 2 * (r.value * pd)
    let middle := (below + above) * unit
    some (if twice < middle || (twice = middle && below % 2 = 0) then below else above)
  | true, false => some below
  | false, true => some above
  | false, false => none

/-- Digits without trailing zeros, and the power of ten of the last of them. -/
def dropZeros : (fuel : Nat) → Nat → Int → Nat × Int
  | 0, t, p => (t, p)
  | fuel + 1, t, p => if t ≠ 0 ∧ t % 10 = 0 then dropZeros fuel (t / 10) (p + 1) else (t, p)

/-- The shortest decimal `t * 10 ^ p` that reads back as `m * 2 ^ q`, for a positive `m`. -/
def shortest (m : Nat) (q : Int) : Nat × Int :=
  let r := Rounding.ofBinary m q
  let k := leadingPower r.value r.den
  let hit := (List.range 17).findSome? fun n : Nat =>
    (r.onGrid? (k - n)).map fun t => (t, k - (n : Int))
  let (t, p) := hit.getD (r.value, 0)
  dropZeros 400 t p

/-! ## 2. Text -/

/-- How the digits of a number are laid out. -/
structure Layout where
  /-- The least place of the point, counted from the first digit, at which a number is written
  out. -/
  leastPlace : Int
  /-- The greatest such place. -/
  greatestPlace : Int
  /-- The least number of digits of an exponent. -/
  exponentDigits : Nat

/-- Numbers from one ten-thousandth up to ten quadrillions are written out, and exponents have
two digits at least. -/
def Layout.standard : Layout := ⟨-3, 16, 2⟩

/-- The digits `ds` with the point after the first `place` of them. -/
def written (ds : List Char) (place : Int) : List Char :=
  if place ≤ 0 then '0' :: '.' :: List.replicate (-place).toNat '0' ++ ds
  else
    let n := place.toNat
    let whole := ds.take n ++ List.replicate (n - ds.length) '0'
    let part := ds.drop n
    whole ++ '.' :: (if part.isEmpty then ['0'] else part)

/-- The digits `ds` with one digit before the point and an exponent. -/
def withExponent (width : Nat) (ds : List Char) (place : Int) : List Char :=
  let e := place - 1
  let digits := Nat.toDigits 10 e.natAbs
  let tail := match ds with
    | [] => []
    | [d] => [d]
    | d :: rest => d :: '.' :: rest
  tail ++ 'e' :: (if e < 0 then '-' else '+') ::
    (List.replicate (width - digits.length) '0' ++ digits)

/-- The text of a number: its shortest decimal, laid out. -/
def Binary64.text (layout : Layout) : Binary64 → String
  | .notANumber => "nan"
  | .infinite negative => if negative then "-inf" else "inf"
  | .finite negative m q =>
    let sign := if negative then ['-'] else []
    let body :=
      if m = 0 then ['0', '.', '0'] else
      let (t, p) := shortest m q
      let ds := Nat.toDigits 10 t
      let place := p + ds.length
      if layout.leastPlace ≤ place ∧ place ≤ layout.greatestPlace then written ds place
      else withExponent layout.exponentDigits ds place
    String.ofList (sign ++ body)

end UpgradeAudit.Decimal
