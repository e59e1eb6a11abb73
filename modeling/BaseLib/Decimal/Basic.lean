namespace BaseLib

/-- The number `± coefficient · 10 ^ exponent`. The exponent is part of the value: it says how many places a
printer writes, so `1.0` and `1.00` are different decimals of equal magnitude. -/
structure Decimal where
  neg : Bool
  coeff : Nat
  exp : Int
  deriving DecidableEq, Repr, Inhabited

namespace Decimal

def digits (n : Nat) : List Char := Nat.toDigits 10 n

def numDigits (n : Nat) : Nat := (digits n).length

def ofInt (n : Int) : Decimal := ⟨n < 0, n.natAbs, 0⟩

def isZero (d : Decimal) : Bool := d.coeff == 0

def leadingExponent (d : Decimal) : Int := d.exp + numDigits d.coeff - 1

def isNegative (d : Decimal) : Bool := d.neg && d.coeff != 0

def normalize (d : Decimal) : Decimal :=
  if d.coeff = 0 then ⟨d.neg, 0, 0⟩ else strip (numDigits d.coeff) d
where
  strip : Nat → Decimal → Decimal
    | 0, d => d
    | n + 1, d => if d.coeff % 10 = 0 then strip n ⟨d.neg, d.coeff / 10, d.exp + 1⟩ else d

def ofDigits (ds : List Char) : Nat := ds.foldl (fun n c => 10 * n + (c.toNat - 48)) 0

def tenTo (k : Nat) : Nat := Nat.pow 10 k

def ratio (d : Decimal) : Nat × Nat :=
  if 0 ≤ d.exp then (d.coeff * tenTo d.exp.toNat, 1) else (d.coeff, tenTo (-d.exp).toNat)

def wholePart (d : Decimal) : Nat := d.ratio.1 / d.ratio.2

end Decimal

end BaseLib
