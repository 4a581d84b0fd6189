/-
# Numbers of 64-bit binary floating point

A number is kept as an exact pair of integers, `mantissa * 2 ^ exponent`, so that reading a
decimal and writing the shortest one are exact arithmetic on natural numbers.

`ofDecimal` rounds a decimal to the nearest number, a tie to the even mantissa.
-/

namespace UpgradeAudit.Decimal

/-- A number of 64-bit binary floating point. -/
inductive Binary64 where
  /-- The number `mantissa * 2 ^ exponent`, or its negative; the mantissa is below `2 ^ 53`,
  the exponent at least `-1074`, and larger only when the mantissa has all 53 bits. -/
  | finite (negative : Bool) (mantissa : Nat) (exponent : Int)
  | infinite (negative : Bool)
  | notANumber
  deriving DecidableEq, Repr

/-- The quotient rounded to the nearest integer, a tie to the even one. -/
def roundQuotient (num den : Nat) : Nat :=
  let q := num / den
  let r := num % den
  if 2 * r > den || (2 * r = den && q % 2 = 1) then q + 1 else q

/-- `num / den` divided by `2 ^ e`, as a numerator and a denominator. -/
def scaleDown (num den : Nat) (e : Int) : Nat × Nat :=
  if e < 0 then (num * Nat.pow 2 (-e).toNat, den) else (num, den * Nat.pow 2 e.toNat)

/-- The least mantissa that has all 53 bits. -/
def hiddenBit : Nat := 0x10000000000000

/-- The exponent of the number nearest to a positive quotient. -/
def exponentOf (num den : Nat) : Int :=
  let guess : Int := (Nat.log2 num : Int) - (Nat.log2 den : Int) - 52
  let (n, d) := scaleDown num den guess
  let e := if n < d * hiddenBit then guess - 1 else guess
  max e (-1074)

namespace Binary64

/-- Zero. -/
def zero (negative : Bool) : Binary64 := .finite negative 0 (-1074)

/-- The number nearest to a quotient. -/
def ofQuotient (negative : Bool) (num den : Nat) : Binary64 :=
  if num = 0 then zero negative else
  let e := exponentOf num den
  let (n, d) := scaleDown num den e
  let m := roundQuotient n d
  let (m, e) := if m = 2 * hiddenBit then (hiddenBit, e + 1) else (m, e)
  if e > 971 then .infinite negative else .finite negative m e

/-- How many decimal digits a natural number has. -/
def digitCount (n : Nat) : Nat := (Nat.toDigits 10 n).length

/-- The number nearest to `digits * 10 ^ power`.  Powers far outside the range are settled by
their size alone. -/
def ofDecimal (negative : Bool) (digits : Nat) (power : Int) : Binary64 :=
  let size := power + digitCount digits
  if digits = 0 || size < -330 then zero negative
  else if size > 310 then .infinite negative
  else if power < 0 then ofQuotient negative digits (Nat.pow 10 (-power).toNat)
  else ofQuotient negative (digits * Nat.pow 10 power.toNat) 1

/-- The integer that a number is, when it is one. -/
def toInt? : Binary64 → Option Int
  | .finite negative m e =>
    let magnitude : Option Nat :=
      if e < 0 then
        let d := Nat.pow 2 (-e).toNat
        if m % d = 0 then some (m / d) else none
      else some (m * Nat.pow 2 e.toNat)
    magnitude.map fun n => if negative then -(n : Int) else n
  | _ => none

end Binary64
end UpgradeAudit.Decimal
