import BaseLib.Decimal.Printer
import BaseLib.Error
import BaseLib.Number.Basic

namespace BaseLib

/-- A signed duration in ticks of 100 nanoseconds, within 64 bits. Components cut toward zero, so they carry the
sign of the duration. -/
structure TimeSpan where
  ticks : Int
  lower : -9223372036854775808 ≤ ticks
  upper : ticks ≤ 9223372036854775807
  deriving DecidableEq, Repr

namespace TimeSpan

instance : Inhabited TimeSpan := ⟨⟨0, by decide, by decide⟩⟩

def perMillisecond : Nat := 10000
def perSecond : Nat := 10000000
def perMinute : Nat := 600000000
def perHour : Nat := 36000000000
def perDay : Nat := 864000000000

def ofTicks (ticks : Int) : Except Failure TimeSpan :=
  if h : -9223372036854775808 ≤ ticks ∧ ticks ≤ 9223372036854775807 then .ok ⟨ticks, h.1, h.2⟩
  else .error .durationOverflow

def zero : TimeSpan := ⟨0, by decide, by decide⟩

def maxValue : TimeSpan := ⟨9223372036854775807, by decide, by decide⟩

def minValue : TimeSpan := ⟨-9223372036854775808, by decide, by decide⟩

def days (t : TimeSpan) : Int := t.ticks.tdiv perDay

def hours (t : TimeSpan) : Int := (t.ticks.tdiv perHour).tmod 24

def minutes (t : TimeSpan) : Int := (t.ticks.tdiv perMinute).tmod 60

def seconds (t : TimeSpan) : Int := (t.ticks.tdiv perSecond).tmod 60

def milliseconds (t : TimeSpan) : Int := (t.ticks.tdiv perMillisecond).tmod 1000

def total (t : TimeSpan) (unit : Nat) : Double := Double.ofQuotient t.ticks unit

def add (a b : TimeSpan) : Except Failure TimeSpan := ofTicks (a.ticks + b.ticks)

def subtract (a b : TimeSpan) : Except Failure TimeSpan := ofTicks (a.ticks - b.ticks)

def negate (t : TimeSpan) : Except Failure TimeSpan :=
  if t.ticks = -9223372036854775808 then .error .negatedMinimum else ofTicks (-t.ticks)

def ofAmount (amount : Number) (unit : Nat) : Except Fault TimeSpan :=
  match amount with
  | .int n => (ofTicks (n * unit)).mapError .failure
  | .double d =>
    if d.isNaN then .error Failure.durationNaN
    else
      let ticks := Double.mul d (Double.nearestInt unit)
      if ticks.isInfinite then .error Failure.durationOverflow
      else if (Number.double ticks).lt (.int (-9223372036854775808)) ||
          (Number.int 9223372036854775807).lt (.double ticks) then .error Failure.durationOverflow
      else (ofTicks ticks.truncate).mapError .failure

def toText (t : TimeSpan) : List Char :=
  let n := t.ticks.natAbs
  let days := n / perDay
  let fraction := n % perSecond
  Decimal.withSign (t.ticks < 0)
    ((if days = 0 then [] else Decimal.digits days ++ ['.']) ++
      Decimal.padded 2 (n % perDay / perHour) ++ ':' ::
      Decimal.padded 2 (n % perHour / perMinute) ++ ':' ::
      Decimal.padded 2 (n % perMinute / perSecond) ++
      (if fraction = 0 then [] else '.' :: Decimal.padded 7 fraction))

end TimeSpan

end BaseLib
