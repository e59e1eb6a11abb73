import BaseLib.Decimal.Printer
import BaseLib.Text.CharClass
import BaseLib.Text.Utf16

namespace BaseLib.Text.Quoted

def hex (width n : Nat) : List Char :=
  let ds := Nat.toDigits 16 n
  Decimal.zeros (width - ds.length) ++ ds

def escape (quote c : Char) : List Char :=
  if c == quote || c == '\\' then ['\\', c]
  else if c == '\n' then "\\n".toList
  else if c == '\r' then "\\r".toList
  else if c == '\t' then "\\t".toList
  else if isPrintable c.toNat then [c]
  else if c.toNat < 0x100 then '\\' :: 'x' :: hex 2 c.toNat
  else if c.toNat < 0x10000 then '\\' :: 'u' :: hex 4 c.toNat
  else '\\' :: 'U' :: hex 8 c.toNat

def escapeCode (quote : Char) (n : Nat) : List Char :=
  if isScalar n then escape quote (Char.ofNat n) else '\\' :: 'u' :: hex 4 n

def quoteOf (codes : List Nat) : Char :=
  if codes.contains '\''.toNat && !codes.contains '"'.toNat then '"' else '\''

/-- The quoted form of a text: single quotes unless the text holds one and no double quote, with escapes for the
quote, the backslash and everything that is not printable. -/
def encode (codes : List Nat) : List Char :=
  let quote := quoteOf codes
  quote :: codes.flatMap (escapeCode quote) ++ [quote]

end BaseLib.Text.Quoted
