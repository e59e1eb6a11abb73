import BaseLib.Bytes.Encoding
import BaseLib.Double.Basic
import BaseLib.Error
import BaseLib.Word

namespace BaseLib.Binary

def lowBytes : Nat → Nat → List Nat
  | 0, _ => []
  | count + 1, n => n % 0x100 :: lowBytes count (n / 0x100)

def ofBool (b : Bool) : List Nat := [if b then 1 else 0]

def ofInt (n : Int) : Except Failure (List Nat) :=
  if Word.InRange n then .ok (lowBytes 4 (Word.unsigned n)) else .error .outsideInt32

def ofDouble (d : Double) : List Nat := lowBytes 8 d.bits.toNat

def sevenBit (n : Nat) : List Nat :=
  if n < 0x80 then [n] else (n % 0x80 + 0x80) :: sevenBit (n / 0x80)

def ofText (s : List Char) : List Nat :=
  let bytes := Encoding.utf8.encode s
  sevenBit bytes.length ++ bytes

end BaseLib.Binary
