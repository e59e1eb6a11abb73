namespace BaseLib

structure Double where
  bits : UInt64
  deriving DecidableEq, Repr, Inhabited

namespace Double

def neg (d : Double) : Bool := 0x8000000000000000 ≤ d.bits

def twoTo (k : Nat) : Nat := Nat.pow 2 k

def magnitudeBits (d : Double) : Nat := d.bits.toNat % twoTo 63

def infinityBits : Nat := 0x7FF * twoTo 52

def isNaN (d : Double) : Bool := infinityBits < d.magnitudeBits

def isInfinite (d : Double) : Bool := d.magnitudeBits == infinityBits

def isFinite (d : Double) : Bool := d.magnitudeBits < infinityBits

def isZero (d : Double) : Bool := d.magnitudeBits == 0

def ofParts (neg : Bool) (magnitude : Nat) : Double :=
  ⟨UInt64.ofNat ((if neg then twoTo 63 else 0) + magnitude)⟩

def zero : Double := ofParts false 0

def nan : Double := ⟨0x7FF8000000000000⟩

def infinity (neg : Bool) : Double := ofParts neg infinityBits

def withSign (neg : Bool) (d : Double) : Double := ofParts neg d.magnitudeBits

def negate (d : Double) : Double := d.withSign (!d.neg)

def abs (d : Double) : Double := d.withSign false

def exponentField (d : Double) : Nat := d.magnitudeBits / twoTo 52

def significand (d : Double) : Nat :=
  let fraction := d.magnitudeBits % twoTo 52
  if d.exponentField = 0 then fraction else fraction + twoTo 52

def scale (d : Double) : Int :=
  if d.exponentField = 0 then -1074 else d.exponentField - 1075

def signedSignificand (d : Double) : Int :=
  if d.neg then -(d.significand : Int) else d.significand

def ratio (d : Double) : Nat × Nat :=
  if 0 ≤ d.scale then (d.significand * twoTo d.scale.toNat, 1)
  else (d.significand, twoTo (-d.scale).toNat)

def wholePart (d : Double) : Nat := d.ratio.1 / d.ratio.2

def isIntegral (d : Double) : Bool := d.ratio.1 % d.ratio.2 == 0

def truncate (d : Double) : Int := if d.neg then -(d.wholePart : Int) else d.wholePart

def floor (d : Double) : Int :=
  if d.neg && !d.isIntegral then -(d.wholePart : Int) - 1 else d.truncate

def ceiling (d : Double) : Int :=
  if !d.neg && !d.isIntegral then (d.wholePart : Int) + 1 else d.truncate

def toInt? (d : Double) : Option Int :=
  if d.isFinite && d.isIntegral then some d.truncate else none

def compareDyadic (a : Int) (p : Int) (b : Int) (q : Int) : Ordering :=
  let low := min p q
  compare (a * twoTo (p - low).toNat) (b * twoTo (q - low).toNat)

def compare? (a b : Double) : Option Ordering :=
  if a.isNaN || b.isNaN then none
  else if a.isInfinite || b.isInfinite then
    let side (d : Double) : Int := if d.isInfinite then (if d.neg then -1 else 1) else 0
    some (compare (side a) (side b))
  else some (compareDyadic a.signedSignificand a.scale b.signedSignificand b.scale)

def compareInt? (n : Int) (d : Double) : Option Ordering :=
  if d.isNaN then none
  else if d.isInfinite then some (if d.neg then .gt else .lt)
  else some (compareDyadic n 0 d.signedSignificand d.scale)

end Double

end BaseLib
