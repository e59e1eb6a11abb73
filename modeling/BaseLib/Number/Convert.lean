import BaseLib.Number.Format
import BaseLib.Number.Parse

namespace BaseLib.Convert

def checked (n : Int) : Except Failure Int :=
  if Word.InRange n then .ok n else .error .outsideInt32

/-- Digits in base 2, 8, 10 or 16; outside base 10 a negative number is written as its 32-bit
complement. -/
def toBase (n : Int) (base : Int) : Except Fault (List Char) :=
  if base = 10 then (Number.int n).shown
  else if base = 2 ∨ base = 8 ∨ base = 16 then
    .ok (Nat.toDigits base.toNat (if n < 0 then Word.unsigned n else n.toNat))
  else .error Failure.badBase

/-- A text in a base; a value of the upper half of 32 bits is a negative number outside base 10. -/
def ofBase (text : List Char) (base : Int) : Except Failure Int :=
  match Number.readInteger? (Text.strip text) base with
  | none => .error (.badNumber (String.ofList text))
  | some n =>
    if base ≠ 10 ∧ 0x80000000 ≤ n ∧ n ≤ 0xFFFFFFFF then .ok (Word.wrap n) else checked n

def ofText (text : List Char) (symbols : NumberSymbols) : Except Failure Int := do
  match ← Number.parse text NumberStyles.float symbols with
  | .int n => checked n
  | .double d =>
    if d.isInfinite then .error .outsideInt32
    else
      match d.toInt? with
      | some n => checked n
      | none => .error (.badNumber (String.ofList text))

def ofNumber : Number → Except Fault Int
  | .int n => (checked n).mapError .failure
  | .double d =>
    if !d.isFinite then .error Failure.outsideInt32
    else
      match d.toDecimal.round? .toEven 0 with
      | none => .error Misuse.tooWide
      | some r => (checked (if r.neg then -(r.coeff : Int) else r.coeff)).mapError .failure

end BaseLib.Convert
