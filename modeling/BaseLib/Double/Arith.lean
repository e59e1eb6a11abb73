import BaseLib.Double.Nearest

namespace BaseLib.Double

def add (a b : Double) : Double :=
  if a.isNaN || b.isNaN then nan
  else if a.isInfinite then
    if b.isInfinite && a.neg != b.neg then nan else a
  else if b.isInfinite then b
  else
    let low := min a.scale b.scale
    ofDyadic (a.neg && b.neg)
      (a.signedSignificand * twoTo (a.scale - low).toNat + b.signedSignificand * twoTo (b.scale - low).toNat)
      low

def sub (a b : Double) : Double := add a b.negate

def mul (a b : Double) : Double :=
  let sign := a.neg != b.neg
  if a.isNaN || b.isNaN then nan
  else if a.isInfinite || b.isInfinite then
    if a.isZero || b.isZero then nan else infinity sign
  else ofDyadic sign (a.signedSignificand * b.signedSignificand) (a.scale + b.scale)

def div (a b : Double) : Double :=
  let sign := a.neg != b.neg
  if a.isNaN || b.isNaN then nan
  else if a.isInfinite then (if b.isInfinite then nan else infinity sign)
  else if b.isInfinite then ofParts sign 0
  else if b.isZero then (if a.isZero then nan else infinity sign)
  else ofRatio sign (a.ratio.1 * b.ratio.2) (a.ratio.2 * b.ratio.1)

def ofQuotient (a : Int) (b : Nat) : Double := ofRatio (a < 0) a.natAbs b

/-- The remainder of a floored division by a nonzero number; it has the divisor's sign. -/
def floorMod (a b : Double) : Double :=
  if a.isNaN || b.isNaN || a.isInfinite || b.isZero then nan
  else if b.isInfinite then
    if a.isZero then a.withSign b.neg else if a.neg == b.neg then a else b
  else
    let low := min a.scale b.scale
    let x := a.signedSignificand * twoTo (a.scale - low).toNat
    let y := b.signedSignificand * twoTo (b.scale - low).toNat
    let r := ofDyadic b.neg (Int.tmod x y) low
    if r.isZero then r.withSign b.neg
    else if r.neg == b.neg then r
    else add r b

end BaseLib.Double
