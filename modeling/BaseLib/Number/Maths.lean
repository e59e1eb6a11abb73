import BaseLib.Error
import BaseLib.Number.Format

namespace BaseLib.Maths

def e : Double := ⟨0x4005BF0A8B145769⟩

def pi : Double := ⟨0x400921FB54442D18⟩

def machine (f : Float → Float) (x : Double) : Double := ⟨(f (Float.ofBits x.bits)).toBits⟩

def real (x : Number) : Except Fault Double :=
  match x.toDouble? with
  | some d => .ok d
  | none => .error Misuse.tooLarge

def ofInt (n : Int) : Except Fault Double := real (.int n)

def isNaN : Number → Bool
  | .int _ => false
  | .double d => d.isNaN

/-- Rounds the decimal of a number to at most 15 places, and keeps the sign of a zero. -/
def round (x : Number) (places : Int) (tie : Decimal.Midpoint) (strict : Bool) :
    Except Fault Double :=
  if places < 0 ∨ 15 < places then .error Failure.roundingDigits
  else if strict && !x.isFinite then .error (Failure.nonFinite "Round")
  else
    match x with
    | .double d =>
      if !d.isFinite then .ok d
      else do
        let r := Double.ofDecimal (← nearest d.toDecimal)
        pure (if r.isZero then r.withSign d.neg else r)
    | .int n => do pure (Double.ofDecimal (← nearest (Decimal.ofInt n)))
where
  nearest (d : Decimal) : Except Fault Decimal :=
    match d.round? tie places.toNat with
    | some r => .ok r
    | none => .error Misuse.tooWide

def truncate (x : Number) (strict : Bool) : Except Fault Double :=
  match x with
  | .int n => ofInt n
  | .double d =>
    if !d.isFinite then
      if strict then .error (Failure.nonFinite "Truncate") else .ok d
    else ofInt d.truncate

def floor : Number → Except Fault Double
  | .int n => ofInt n
  | .double d => if d.isFinite then ofInt d.floor else .ok d

def ceiling : Number → Except Fault Double
  | .int n => ofInt n
  | .double d => if d.isFinite then ofInt d.ceiling else .ok d

def ln (x : Double) : Double :=
  if x.isNaN then Double.nan
  else if x.isZero then Double.infinity true
  else if x.neg then Double.nan
  else if x.isInfinite then Double.infinity false
  else machine Float.log x

def log (x : Number) (base : Number) : Except Fault Double :=
  if base.eq (.double e) then return ln (← real x)
  else if base.eq (.int 1) || base.le (.int 0) || isNaN base then .ok Double.nan
  else do
    let b ← real base
    if b.isInfinite then pure Double.nan else pure (Double.div (ln (← real x)) (ln b))

/-- The common logarithm; an integer beyond the range is scaled by a power of two first. -/
def log10 (x : Number) : Except Fault Double :=
  if x.le (.int 0) then return ln (← real x)
  else
    match x with
    | .double d => .ok (machine Float.log10 d)
    | .int n =>
      match Double.ofInt? n with
      | some d => .ok (machine Float.log10 d)
      | none =>
        let k := Nat.log2 n.natAbs + 1
        let head := Double.ofRatio false n.natAbs (Double.twoTo k)
        let two := Double.nearestInt 2
        .ok (Double.add (machine Float.log10 head)
          (Double.mul (machine Float.log10 two) (Double.nearestInt k)))

def orInfinite (x : Number) (f : Double → Double) : Double :=
  match x.toDouble? with
  | some d => f d
  | none => Double.infinity false

def exp (x : Number) : Double := orInfinite x (machine Float.exp)

def cosh (x : Number) : Double := orInfinite x (machine Float.cosh)

def sinh (x : Number) : Except Fault Double := do
  pure (machine Float.sinh (← real x))

def tanh (x : Number) : Except Fault Double := do
  pure (machine Float.tanh (← real x))

def isOdd (d : Double) : Bool :=
  match d.toInt? with
  | some n => n % 2 == 1
  | none => false

/-- A power of finite numbers: NaN at a pole or for a fractional power of a negative number, positive
infinity beyond the range. -/
def powFinite (x y : Double) : Double :=
  let r : Double := ⟨(Float.pow (Float.ofBits x.bits) (Float.ofBits y.bits)).toBits⟩
  if r.isNaN then Double.nan
  else if r.isInfinite then (if x.isZero then Double.nan else Double.infinity false)
  else r

def powDouble (x y : Double) : Double :=
  let one := Double.nearestInt 1
  if x.isFinite && y.isFinite then powFinite x y
  else if x.isNaN then (if y.isZero then one else x)
  else if y.isNaN then (if x = one then one else y)
  else if x.isInfinite then
    let odd := y.isFinite && isOdd y
    if y.isZero then one
    else if y.neg then (if odd then Double.zero.withSign x.neg else Double.zero)
    else if odd then x else x.abs
  else
    match Double.compare? x.abs one with
    | some .eq => one
    | some .gt => if y.neg then Double.zero else Double.infinity false
    | _ => if y.neg then Double.infinity false else Double.zero

def pow (x y : Number) : Double :=
  match x.toDouble?, y.toDouble? with
  | some a, some b => powDouble a b
  | _, _ => Double.infinity false

def sqrt (x : Number) : Except Fault Double :=
  if x.lt (.int 0) then .ok Double.nan
  else do
    let d ← real x
    pure (if d.isNaN then Double.nan else machine Float.sqrt d)

def abs : Number → Except Failure Number
  | .int n => if n = Word.minValue then .error .negatedMinimum else .ok (.int n.natAbs)
  | .double d => .ok (.double d.abs)

def sign (x : Number) : Except Failure Int :=
  if isNaN x then .error .signOfNaN
  else if x.lt (.int 0) then .ok (-1)
  else if (Number.int 0).lt x then .ok 1
  else .ok 0

end BaseLib.Maths
