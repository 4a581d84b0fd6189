/-
# UTF-8

Bytes to code points, one byte at a time: a state says which continuation bytes may follow,
and every byte emits the code points or faults that it settles.  A fault stands for the
longest start of a well-formed sequence that was broken off, so that replacing each fault by
one U+FFFD gives the usual replacement decoding (`decodeLossy`); the strict reading answers
only when there is no fault (`decodePoints?`).

Sequences for surrogates are faults in text; a strict reader may ask for them to be kept.
-/
import UpgradeAudit.Text.Points

namespace UpgradeAudit

/-- The contents of a file or of a stream. -/
abbrev Bytes := List UInt8

namespace Text.Utf8

/-- Between two sequences, or inside one that needs `more` further bytes, the next of them
between `low` and `high`, with the bits read so far in `bits`. -/
inductive State where
  | idle
  | inside (more low high bits : Nat)
  deriving DecidableEq, Repr

/-- The first byte of a sequence: what it settles, and the state after it. -/
def lead (surrogates : Bool) (b : Nat) : List (Option Nat) × State :=
  if b < 0x80 then ([some b], .idle)
  else if b < 0xc2 then ([none], .idle)
  else if b < 0xe0 then ([], .inside 1 0x80 0xbf (b - 0xc0))
  else if b = 0xe0 then ([], .inside 2 0xa0 0xbf 0)
  else if b = 0xed then ([], .inside 2 0x80 (if surrogates then 0xbf else 0x9f) 0xd)
  else if b < 0xf0 then ([], .inside 2 0x80 0xbf (b - 0xe0))
  else if b = 0xf0 then ([], .inside 3 0x90 0xbf 0)
  else if b < 0xf4 then ([], .inside 3 0x80 0xbf (b - 0xf0))
  else if b = 0xf4 then ([], .inside 3 0x80 0x8f 4)
  else ([none], .idle)

/-- One byte in any state. -/
def feed (surrogates : Bool) : State → Nat → List (Option Nat) × State
  | .idle, b => lead surrogates b
  | .inside more low high bits, b =>
    if low ≤ b ∧ b ≤ high then
      let bits := bits * 64 + b % 64
      if more ≤ 1 then ([some bits], .idle) else ([], .inside (more - 1) 0x80 0xbf bits)
    else
      let (out, next) := lead surrogates b
      (none :: out, next)

/-- The code points and faults of the bytes that follow in a state. -/
def unitsFrom (surrogates : Bool) : State → Bytes → List (Option Nat)
  | .idle, [] => []
  | .inside .., [] => [none]
  | state, b :: rest =>
    let step := feed surrogates state b.toNat
    step.1 ++ unitsFrom surrogates step.2 rest

/-- The code points and faults of a byte string. -/
def units (surrogates : Bool) (bytes : Bytes) : List (Option Nat) :=
  unitsFrom surrogates .idle bytes

/-- The text of a byte string, each fault replaced by U+FFFD. -/
def decodeLossy (bytes : Bytes) : String :=
  ofPoints ((units false bytes).map fun u => u.getD 0xfffd)

/-- The code points of a byte string without faults; surrogates are kept. -/
def decodePoints? (bytes : Bytes) : Option (List Nat) := (units true bytes).mapM id

/-- The text of a well-formed byte string. -/
def decode? (bytes : Bytes) : Option String :=
  ((units false bytes).mapM id).map ofPoints

/-- A byte that carries the six lowest bits of a number. -/
def continuation (n : Nat) : UInt8 := UInt8.ofNat (0x80 + n % 0x40)

/-- The bytes of a code point. -/
def encodePoint (n : Nat) : Bytes :=
  if n < 0x80 then [UInt8.ofNat n]
  else if n < 0x800 then [UInt8.ofNat (0xc0 + n / 0x40), continuation n]
  else if n < 0x10000 then
    [UInt8.ofNat (0xe0 + n / 0x1000), continuation (n / 0x40), continuation n]
  else
    [UInt8.ofNat (0xf0 + n / 0x40000), continuation (n / 0x1000), continuation (n / 0x40),
     continuation n]

/-- The bytes of a text. -/
def encode (s : String) : Bytes := (points s).flatMap encodePoint

end Text.Utf8
end UpgradeAudit
