import BaseLib.Double.Arith
import BaseLib.Double.Literal
import BaseLib.Text.Utf16

namespace BaseLib

/-- Unbounded integers and binary64 numbers side by side. An integer and a double that are equal have one hash.
-/
inductive Number
  | int (n : Int)
  | double (d : Double)
  deriving DecidableEq, Repr, Inhabited

namespace Number

def isFinite : Number → Bool
  | int _ => true
  | double d => d.isFinite

def toDecimal : Number → Decimal
  | int n => Decimal.ofInt n
  | double d => d.toDecimal

def compare? : Number → Number → Option Ordering
  | int a, int b => some (compare a b)
  | int a, double b => Double.compareInt? a b
  | double a, int b => (Double.compareInt? b a).map Ordering.swap
  | double a, double b => Double.compare? a b

def eq (a b : Number) : Bool := compare? a b == some .eq

def lt (a b : Number) : Bool := compare? a b == some .lt

def le (a b : Number) : Bool := a.lt b || a.eq b

def toInt? : Number → Option Int
  | int n => some n
  | double d => d.toInt?

def toDouble? : Number → Option Double
  | int n => Double.ofInt? n
  | double d => some d

/-- The shortest text: positional while the leading digit stands between `1e-4` and `1e14`. -/
def display : Number → List Char
  | int n => Decimal.withSign (n < 0) (Decimal.digits n.natAbs)
  | double d =>
    if d.isNaN then "NaN".toList
    else if d.isInfinite then Decimal.withSign d.neg "Infinity".toList
    else
      let s := d.shortest
      if -5 < s.leadingExponent ∧ s.leadingExponent < 15 then s.positional
      else Double.scientific 'E' s

def hash : Number → Int
  | int n => Word.fold n
  | double d =>
    match d.toInt? with
    | some n => Word.fold n
    | none => Text.Utf16.hash (display (double d))

def add? : Number → Number → Option Number
  | int a, int b => some (int (a + b))
  | a, b => do some (double (Double.add (← a.toDouble?) (← b.toDouble?)))

def mul? : Number → Number → Option Number
  | int a, int b => some (int (a * b))
  | a, b => do some (double (Double.mul (← a.toDouble?) (← b.toDouble?)))

def sub? : Number → Number → Option Number
  | int a, int b => some (int (a - b))
  | a, b => do some (double (Double.sub (← a.toDouble?) (← b.toDouble?)))

def isZero : Number → Bool
  | int n => n == 0
  | double d => d.isZero

/-- The remainder of a floored division; it has the sign of the divisor, which is not zero. -/
def floorMod? : Number → Number → Option Number
  | int a, int b => some (int (Int.fmod a b))
  | a, b => do some (double (Double.floorMod (← a.toDouble?) (← b.toDouble?)))

def negate : Number → Number
  | int n => int (-n)
  | double d => double d.negate

def abs : Number → Number
  | int n => int n.natAbs
  | double d => double d.abs

end Number

end BaseLib
