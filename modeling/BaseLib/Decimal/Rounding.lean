import BaseLib.Decimal.Basic

namespace BaseLib.Decimal

inductive Midpoint
  | awayFromZero
  | toEven
  deriving DecidableEq, Repr, Inhabited

def roundDiv (tie : Midpoint) (num den : Nat) : Nat :=
  let q := num / den
  let twice := 2 * (num % den)
  if twice < den then q
  else if den < twice then q + 1
  else match tie with
    | .awayFromZero => q + 1
    | .toEven => if q % 2 = 0 then q else q + 1

def rescale (tie : Midpoint) (d : Decimal) (exp : Int) : Decimal :=
  if exp ≤ d.exp then ⟨d.neg, d.coeff * tenTo (d.exp - exp).toNat, exp⟩
  else if d.exp + numDigits d.coeff < exp then ⟨d.neg, 0, exp⟩
  else ⟨d.neg, roundDiv tie d.coeff (tenTo (exp - d.exp).toNat), exp⟩

def widest : Nat := 1200

def tooWide (d : Decimal) (exp : Int) : Bool :=
  d.coeff != 0 && (widest : Int) < d.exp + numDigits d.coeff - exp

/-- Rounds to `places` decimals; `none` when the result is wider than `widest` digits. -/
def round? (tie : Midpoint) (d : Decimal) (places : Nat) : Option Decimal :=
  if d.tooWide (-places) then none
  else
    let r := rescale tie d (-places)
    if widest < numDigits r.coeff then none else some r

def toSignificant (n : Nat) (d : Decimal) : Decimal :=
  let width := numDigits d.coeff
  if width ≤ n then d
  else
    let r := rescale .toEven d (d.exp + (width - n : Nat))
    if numDigits r.coeff ≤ n then r else ⟨r.neg, r.coeff / 10, r.exp + 1⟩

def working : Nat := 28

end BaseLib.Decimal
