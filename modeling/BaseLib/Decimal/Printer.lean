import BaseLib.Decimal.Rounding

namespace BaseLib.Decimal

def zeros (n : Nat) : List Char := List.replicate n '0'

def padded (width n : Nat) : List Char :=
  let ds := digits n
  zeros (width - ds.length) ++ ds

def positionalParts (d : Decimal) : List Char × List Char :=
  if 0 ≤ d.exp then
    (if d.coeff = 0 then ['0'] else digits d.coeff ++ zeros d.exp.toNat, [])
  else
    let places := (-d.exp).toNat
    let ds := padded (places + 1) d.coeff
    (ds.take (ds.length - places), ds.drop (ds.length - places))

def withPoint (whole frac : List Char) : List Char :=
  if frac.isEmpty then whole else whole ++ '.' :: frac

def withSign (neg : Bool) (text : List Char) : List Char :=
  if neg then '-' :: text else text

def positional (d : Decimal) : List Char :=
  let (whole, frac) := d.positionalParts
  withSign d.neg (withPoint whole frac)

/-- A comma before every third digit counted from the right, the first digit excepted. -/
def group : List Char → List Char
  | [] => []
  | c :: rest => if rest ≠ [] ∧ rest.length % 3 = 0 then c :: ',' :: group rest else c :: group rest

def grouped (d : Decimal) : List Char :=
  let (whole, frac) := d.positionalParts
  withSign d.neg (withPoint (group whole) frac)

def exponentText (e : Int) : List Char :=
  (if e < 0 then '-' else '+') :: digits e.natAbs

/-- At most `n` significant digits, positional while the coefficient reaches the units and the
leading digit is not below the sixth place, otherwise with an exponent. -/
def general (n : Nat) (d : Decimal) : List Char :=
  let r := toSignificant n d
  let ds := digits r.coeff
  if r.exp ≤ 0 ∧ -6 < r.exp + ds.length then positional r
  else
    let mantissa := withPoint (ds.take 1) (ds.drop 1)
    withSign r.neg (if r.leadingExponent = 0 then mantissa
      else mantissa ++ 'E' :: exponentText r.leadingExponent)

end BaseLib.Decimal
