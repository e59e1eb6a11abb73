import BaseLib.Decimal.Printer
import BaseLib.Double.Shortest

namespace BaseLib.Double

def toDecimal (d : Double) : Decimal :=
  let s := d.shortest
  if -4 ≤ s.leadingExponent ∧ s.leadingExponent < 16 ∧ 0 ≤ s.exp then
    ⟨s.neg, s.coeff * Decimal.tenTo (s.exp + 1).toNat, -1⟩
  else s

def exponentText (e : Int) : List Char :=
  (if e < 0 then '-' else '+') :: Decimal.padded 2 e.natAbs

def scientific (letter : Char) (s : Decimal) : List Char :=
  let ds := Decimal.digits s.coeff
  Decimal.withSign s.neg
    (Decimal.withPoint (ds.take 1) (ds.drop 1) ++ letter :: exponentText s.leadingExponent)

/-- The literal form: the shortest decimal, positional with at least one place from `1e-4` up to `1e16`,
otherwise with an exponent of at least two digits. -/
def literal (d : Double) : List Char :=
  if d.isNaN then "nan".toList
  else if d.isInfinite then Decimal.withSign d.neg "inf".toList
  else
    let s := d.shortest
    if -4 ≤ s.leadingExponent ∧ s.leadingExponent < 16 then d.toDecimal.positional
    else scientific 'e' s

end BaseLib.Double
