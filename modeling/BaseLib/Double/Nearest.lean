import BaseLib.Decimal.Rounding
import BaseLib.Double.Basic

namespace BaseLib.Double

/-- The magnitude word nearest to `num / den`: with a unit of `2 ^ k` the significand keeps 53 bits,
and one word follows another as the unit grows. -/
def nearestBits (num den : Nat) : Nat :=
  if num = 0 then 0
  else
    let guess : Int := (Nat.log2 num : Int) - Nat.log2 den - 53
    let quotient (k : Int) : Nat × Nat :=
      if 0 ≤ k then (num, den * twoTo k.toNat) else (num * twoTo (-k).toNat, den)
    let fits (k : Int) : Bool := (quotient k).1 / (quotient k).2 < twoTo 53
    let k := if fits guess then guess else guess + 1
    let k := max k (-1074)
    let m := Decimal.roundDiv .toEven (quotient k).1 (quotient k).2
    min ((k + 1074).toNat * twoTo 52 + m) infinityBits

def ofRatio (neg : Bool) (num den : Nat) : Double := ofParts neg (nearestBits num den)

def nearestInt (n : Int) : Double := ofRatio (n < 0) n.natAbs 1

def ofInt? (n : Int) : Option Double :=
  let d := nearestInt n
  if d.isFinite then some d else none

/-- The number nearest to a decimal. Exponents far outside the range are not expanded. -/
def ofDecimal (d : Decimal) : Double :=
  if d.coeff = 0 then ofParts d.neg 0
  else if 400 < d.leadingExponent then infinity d.neg
  else if d.leadingExponent < -400 then ofParts d.neg 0
  else ofRatio d.neg d.ratio.1 d.ratio.2

/-- The number nearest to `n · 2 ^ q`; `zeroSign` is the sign of a zero result. -/
def ofDyadic (zeroSign : Bool) (n : Int) (q : Int) : Double :=
  let neg := if n = 0 then zeroSign else n < 0
  if 0 ≤ q then ofRatio neg (n.natAbs * twoTo q.toNat) 1
  else ofRatio neg n.natAbs (twoTo (-q).toNat)

end BaseLib.Double
