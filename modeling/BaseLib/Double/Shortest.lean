import BaseLib.Decimal.Basic
import BaseLib.Double.Basic

namespace BaseLib.Double

/-- The reals that read back as a positive number, in quarters of its unit `2 ^ (scale - 2)`: the
lower end, the number itself and the upper end. -/
def quarters (d : Double) : Nat × Nat × Nat :=
  let v := 4 * d.significand
  let below := if d.significand = twoTo 52 ∧ 1 < d.exponentField then 1 else 2
  (v - below, v, v + 2)

def sides (d : Double) (a c : Nat) (g : Int) : Nat × Nat :=
  let q := d.scale - 2
  (a * twoTo q.toNat * Decimal.tenTo (-g).toNat, c * Decimal.tenTo g.toNat * twoTo (-q).toNat)

/-- Does `c · 10 ^ g` read back as the positive number `d`? The ends do when the significand is even. -/
def readsBack (d : Double) (c : Nat) (g : Int) : Bool :=
  let (low, _, high) := d.quarters
  let (l, c₁) := d.sides low c g
  let (h, c₂) := d.sides high c g
  if d.significand % 2 = 0 then l ≤ c₁ && c₂ ≤ h else l < c₁ && c₂ < h

def leadingDigit (num den : Nat) : Int :=
  if den ≤ num then Decimal.numDigits (num / den) - 1
  else
    let width := Decimal.numDigits (den / num)
    if den ≤ num * Decimal.tenTo (width - 1) then 1 - (width : Int) else -width

/-- The point of the grid of multiples of `10 ^ g` that reads back as `d`, the nearer one if two do. -/
def gridPoint? (d : Double) (g : Int) : Option Nat :=
  let (v, unit) := d.sides (4 * d.significand) 1 g
  let c := v / unit
  let low := d.readsBack c g
  let high := d.readsBack (c + 1) g
  if low && high then
    let twice := 2 * (v % unit)
    some (if twice < unit then c else if unit < twice then c + 1
      else if c % 2 = 0 then c else c + 1)
  else if low then some c
  else if high then some (c + 1)
  else none

/-- Of all decimals nearer to the number than to any other, one with the fewest digits, and of those the
nearest. -/
def shortest (d : Double) : Decimal :=
  if d.isZero then ⟨d.neg, 0, 0⟩
  else
    let lead := leadingDigit d.ratio.1 d.ratio.2
    let found := (List.range 17).findSome? fun (n : Nat) =>
      (d.gridPoint? (lead - n)).map fun c => (⟨d.neg, c, lead - n⟩ : Decimal)
    (found.getD ⟨d.neg, 0, 0⟩).normalize

end BaseLib.Double
