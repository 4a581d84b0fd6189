/-
# Fixed-width encodings

Bytes to code points for the encodings in units of two and of four bytes.  A surrogate that
has no partner is kept as a code point of its own.
-/
import UpgradeAudit.Text.Utf8

namespace UpgradeAudit.Text

namespace Utf16

/-- The two-byte units, `none` when a byte is left over. -/
def units? (bigEndian : Bool) : Bytes → Option (List Nat)
  | [] => some []
  | [_] => none
  | a :: b :: rest =>
    (units? bigEndian rest).map fun us =>
      (if bigEndian then a.toNat * 256 + b.toNat else b.toNat * 256 + a.toNat) :: us

/-- Joins each first half with a second half that follows it. -/
def joinPairs : List Nat → List Nat
  | [] => []
  | [u] => [u]
  | u :: v :: rest =>
    if isHighSurrogate u && isLowSurrogate v then joinSurrogates u v :: joinPairs rest
    else u :: joinPairs (v :: rest)

/-- The code points of a byte string in two-byte units. -/
def decodePoints? (bigEndian : Bool) (bytes : Bytes) : Option (List Nat) :=
  (units? bigEndian bytes).map joinPairs

end Utf16

namespace Utf32

/-- The code points of a byte string in four-byte units, `none` when bytes are left over or a
unit is no code point. -/
def decodePoints? (bigEndian : Bool) : Bytes → Option (List Nat)
  | [] => some []
  | a :: b :: c :: d :: rest =>
    let n := if bigEndian then ((a.toNat * 256 + b.toNat) * 256 + c.toNat) * 256 + d.toNat
      else ((d.toNat * 256 + c.toNat) * 256 + b.toNat) * 256 + a.toNat
    if n ≤ 0x10ffff then (decodePoints? bigEndian rest).map (n :: ·) else none
  | _ => none

end Utf32
end UpgradeAudit.Text
