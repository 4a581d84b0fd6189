/-
# Quoted text

How a text is shown inside a message: between quotes, with escapes for the quote, the
backslash and every character that is not printable.  Single quotes are used unless the text
holds a single quote and no double quote.
-/
import UpgradeAudit.Text.Hex
import UpgradeAudit.Text.Points
import UpgradeAudit.Text.Printable

namespace UpgradeAudit.Text.Quoted

/-- The code point of the single quote. -/
def singleQuote : Nat := 0x27

/-- The code point of the double quote. -/
def doubleQuote : Nat := 0x22

/-- The code point of the backslash. -/
def backslash : Nat := 0x5c

/-- The quote that surrounds a text. -/
def quoteFor (s : List Nat) : Nat :=
  if s.contains singleQuote && ! s.contains doubleQuote then doubleQuote else singleQuote

/-- A code point that is not printable: by a letter, or by the shortest width of two, four or
eight hexadecimal digits that holds it. -/
def hidden (n : Nat) : List Char :=
  if n = 0x0a then ['\\', 'n']
  else if n = 0x0d then ['\\', 'r']
  else if n = 0x09 then ['\\', 't']
  else if n < 0x100 then '\\' :: 'x' :: Hex.fixed 2 n
  else if n < 0x10000 then '\\' :: 'u' :: Hex.fixed 4 n
  else '\\' :: 'U' :: Hex.fixed 8 n

/-- One code point between the quotes `q`. -/
def encodePoint (q n : Nat) : List Char :=
  if n = q || n = backslash then ['\\', Char.ofNat n]
  else if isPrintable n then [Char.ofNat n] else hidden n

/-- The quoted form of a text. -/
def encode (s : List Nat) : List Char :=
  let q := quoteFor s
  Char.ofNat q :: s.flatMap (encodePoint q) ++ [Char.ofNat q]

end UpgradeAudit.Text.Quoted

namespace UpgradeAudit.Text

/-- The quoted form of a string. -/
def quote (s : String) : String := String.ofList (Quoted.encode (points s))

end UpgradeAudit.Text
