/-
# Faults in encoded text

Where a byte string stops being text, and why: the first fault, with the name of the encoding,
the bytes that are no character, and how many bytes stand before them.  In the other direction
there is one fault only: surrogates have no bytes.

In UTF-8 the faulty bytes are the longest start of a well-formed sequence, or one byte when no
sequence starts with it.  The sequence of a surrogate counts as well-formed here when it is
complete; broken off, it is only the first byte that is at fault.
-/
import UpgradeAudit.Text.Hex
import UpgradeAudit.Text.Utf16

namespace UpgradeAudit.Text

/-- The first place at which a byte string is no text. -/
structure CodingFault where
  encoding : String
  /-- How many bytes stand before the faulty ones. -/
  start : Nat
  bytes : Bytes
  reason : String
  deriving DecidableEq, Repr

namespace CodingFault

/-- The wording of a fault. -/
def message (f : CodingFault) : String :=
  "'" ++ f.encoding ++ "' codec can't decode "
    ++ (match f.bytes with
      | [b] => "byte 0x" ++ String.ofList (Hex.fixed 2 b.toNat) ++ " in position "
          ++ toString f.start
      | bs => "bytes in position " ++ toString f.start ++ "-"
          ++ toString (f.start + bs.length - 1))
    ++ ": " ++ f.reason

/-- The fault at bytes that were cut short, nothing being left to complete them. -/
def truncated (encoding : String) (start : Nat) (bytes : Bytes) : CodingFault :=
  ⟨encoding, start, bytes, "truncated data"⟩

end CodingFault

/-- The first place at which a text cannot be put into bytes. -/
structure WritingFault where
  /-- How many code points stand before the faulty ones. -/
  start : Nat
  /-- The surrogates from there on. -/
  surrogates : List Nat
  deriving DecidableEq, Repr

namespace WritingFault

/-- The wording of a fault. -/
def message (f : WritingFault) : String :=
  "'utf-8' codec can't encode "
    ++ (match f.surrogates with
      | [n] => "character '\\u" ++ String.ofList (Hex.fixed 4 n) ++ "' in position "
          ++ toString f.start
      | ns => "characters in position " ++ toString f.start ++ "-"
          ++ toString (f.start + ns.length - 1))
    ++ ": surrogates not allowed"

/-- The first fault from a place on; `kept` tells the surrogates that have bytes all the
same. -/
def first? (kept : Nat → Bool) (start : Nat) : List Nat → Option WritingFault
  | [] => none
  | n :: rest =>
    if isSurrogate n && ! kept n then some ⟨start, n :: rest.takeWhile isSurrogate⟩
    else first? kept (start + 1) rest

/-- The fault of a text that is printed. -/
def ofPrinted? (s : String) : Option WritingFault := first? (fun _ => false) 0 (points s)

/-- Whether a surrogate stands for a byte of a file name that is no text. -/
def isNameByte (n : Nat) : Bool := 0xdc80 ≤ n && n ≤ 0xdcff

/-- The fault of a file name. -/
def ofFileName? (s : String) : Option WritingFault := first? isNameByte 0 (points s)

end WritingFault

namespace Utf8

/-- The fault at a sequence that was broken off. -/
def brokenOff (start : Nat) (bytes : Bytes) (reason : String) : CodingFault :=
  match bytes with
  | 0xed :: b :: _ =>
    if 0xa0 ≤ b then ⟨"utf-8", start, [0xed], "invalid continuation byte"⟩
    else ⟨"utf-8", start, bytes, reason⟩
  | _ => ⟨"utf-8", start, bytes, reason⟩

/-- The first fault from a place on; `seen` holds the bytes of the sequence that is being read,
which began at `start`. -/
def faultFrom? (start : Nat) (seen : Bytes) : State → Bytes → Option CodingFault
  | .idle, [] => none
  | .inside .., [] => some (brokenOff start seen "unexpected end of data")
  | .idle, b :: rest =>
    match lead true b.toNat with
    | ([none], _) => some ⟨"utf-8", start, [b], "invalid start byte"⟩
    | (_, .idle) => faultFrom? (start + 1) [] .idle rest
    | (_, inside) => faultFrom? start [b] inside rest
  | .inside more low high bits, b :: rest =>
    if low ≤ b.toNat ∧ b.toNat ≤ high then
      match (feed true (.inside more low high bits) b.toNat).2 with
      | .idle => faultFrom? (start + seen.length + 1) [] .idle rest
      | inside => faultFrom? start (seen ++ [b]) inside rest
    else some (brokenOff start seen "invalid continuation byte")

/-- The first fault of a byte string, sequences for surrogates being kept. -/
def fault? (bytes : Bytes) : Option CodingFault := faultFrom? 0 [] .idle bytes

end Utf8

namespace Utf16

/-- The fault of a byte string in two-byte units, of which `start` bytes have been read. -/
def fault? (encoding : String) (start : Nat) : Bytes → Option CodingFault
  | [] => none
  | [b] => some (.truncated encoding start [b])
  | _ :: _ :: rest => fault? encoding (start + 2) rest

end Utf16

namespace Utf32

/-- The first fault of a byte string in four-byte units, of which `start` bytes have been
read. -/
def fault? (encoding : String) (bigEndian : Bool) (start : Nat) : Bytes → Option CodingFault
  | [] => none
  | a :: b :: c :: d :: rest =>
    if (decodePoints? bigEndian [a, b, c, d]).isSome then
      fault? encoding bigEndian (start + 4) rest
    else some ⟨encoding, start, [a, b, c, d], "code point not in range(0x110000)"⟩
  | left => some (.truncated encoding start left)

end Utf32
end UpgradeAudit.Text
