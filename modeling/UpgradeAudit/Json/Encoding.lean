/-
# The encoding of a JSON document

A document in bytes is UTF-8, UTF-16 or UTF-32.  A byte order mark says which; without one
the zero bytes among the first four do, because a document starts with ASCII characters.
-/
import UpgradeAudit.Json.Reader
import UpgradeAudit.Text.CodingFault

namespace UpgradeAudit.Json

/-- How the bytes of a document stand for text. -/
inductive Encoding where
  | utf8
  | utf16 (bigEndian : Bool)
  | utf32 (bigEndian : Bool)
  deriving DecidableEq, Repr

/-- The encoding of a document, its bytes without the byte order mark, and how many bytes the
mark takes of those that positions count. -/
def Encoding.detect (bytes : Bytes) : Encoding × Nat × Bytes :=
  match bytes with
  | 0x00 :: 0x00 :: 0xfe :: 0xff :: rest => (.utf32 true, 4, rest)
  | 0xff :: 0xfe :: 0x00 :: 0x00 :: rest => (.utf32 false, 4, rest)
  | 0xfe :: 0xff :: rest => (.utf16 true, 2, rest)
  | 0xff :: 0xfe :: rest => (.utf16 false, 2, rest)
  | 0xef :: 0xbb :: 0xbf :: rest => (.utf8, 0, rest)
  | [a, b] => (if a = 0 then .utf16 true else if b = 0 then .utf16 false else .utf8, 0, bytes)
  | a :: b :: c :: d :: _ =>
    (if a = 0 then (if b = 0 then .utf32 true else .utf16 true)
     else if b = 0 then (if c = 0 && d = 0 then .utf32 false else .utf16 false)
     else .utf8, 0, bytes)
  | _ => (.utf8, 0, bytes)

/-- The code points of bytes in an encoding; surrogates are kept. -/
def Encoding.points? : Encoding → Bytes → Option (List Nat)
  | .utf8, bytes => Text.Utf8.decodePoints? bytes
  | .utf16 bigEndian, bytes => Text.Utf16.decodePoints? bigEndian bytes
  | .utf32 bigEndian, bytes => Text.Utf32.decodePoints? bigEndian bytes

/-- The name of an encoding in faults. -/
def Encoding.name : Encoding → String
  | .utf8 => "utf-8"
  | .utf16 bigEndian => if bigEndian then "utf-16-be" else "utf-16-le"
  | .utf32 bigEndian => if bigEndian then "utf-32-be" else "utf-32-le"

/-- The first fault of bytes in an encoding, `start` bytes standing before them. -/
def Encoding.fault? (start : Nat) : Encoding → Bytes → Option Text.CodingFault
  | .utf8, bytes => Text.Utf8.fault? bytes
  | .utf16 bigEndian, bytes => Text.Utf16.fault? (Encoding.name (.utf16 bigEndian)) start bytes
  | .utf32 bigEndian, bytes =>
    Text.Utf32.fault? (Encoding.name (.utf32 bigEndian)) bigEndian start bytes

/-- The text of a document in bytes, or where the bytes are ill-formed. -/
def textOfBytes (bytes : Bytes) : Except Text.CodingFault String :=
  let (encoding, start, bytes) := Encoding.detect bytes
  match encoding.points? bytes with
  | some points => .ok (Text.ofPoints points)
  | none =>
    .error ((encoding.fault? start bytes).getD (.truncated encoding.name start bytes))

end UpgradeAudit.Json
