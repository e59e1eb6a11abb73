import BaseLib.Error
import BaseLib.Number.Basic
import BaseLib.Number.Culture
import BaseLib.Text.Composite

namespace BaseLib.Number

inductive FormatKind
  | fixed
  | grouped
  | percent
  | currency
  | exponent (upper : Bool)
  | general
  | integer
  | hex (upper : Bool)
  | roundTrip
  deriving DecidableEq, Repr

def FormatKind.ofLetter? : Char → Option FormatKind
  | 'F' | 'f' => some .fixed
  | 'N' | 'n' => some .grouped
  | 'P' | 'p' => some .percent
  | 'C' | 'c' => some .currency
  | 'E' => some (.exponent true)
  | 'e' => some (.exponent false)
  | 'G' | 'g' => some .general
  | 'D' | 'd' => some .integer
  | 'X' => some (.hex true)
  | 'x' => some (.hex false)
  | 'R' | 'r' => some .roundTrip
  | _ => none

def precision (spec : List Char) (default : Nat) : Except Fault Nat :=
  if spec.isEmpty then .ok default
  else do
    let n ← Text.Composite.readNumeral spec
    if n ≤ 999 then .ok n else .error Failure.badSpecifier

def widestShift : Nat := 2000054

def rounded (d : Decimal) (places : Nat) : Except Fault Decimal :=
  if widestShift < places then .error Misuse.tooWide
  else
    match d.round? .awayFromZero places with
    | some r => .ok r
    | none => .error Misuse.tooWide

def magnitude (d : Decimal) : Decimal :=
  { Decimal.toSignificant Decimal.working d with neg := false }

def hundredfold (d : Decimal) : Decimal :=
  Decimal.toSignificant Decimal.working ⟨d.neg, d.coeff * 100, d.exp⟩

def shifted (d : Decimal) (by_ : Int) : Except Fault Decimal :=
  if widestShift < by_.natAbs then .error Misuse.tooWide
  else .ok (Decimal.toSignificant Decimal.working ⟨d.neg, d.coeff, d.exp + by_⟩)

def exponentForm (d : Decimal) (places : Nat) (letter : Char) : Except Fault (List Char) := do
  let (mantissa, e) ←
    if d.isZero then pure ((⟨false, 0, -places⟩ : Decimal), (0 : Int))
    else do
      let e := d.leadingExponent
      let m ← rounded (← shifted d (-e)) places
      if 10 ≤ (magnitude m).wholePart then
        pure (← rounded (← shifted d (-(e + 1))) places, e + 1)
      else pure (m, e)
  pure (mantissa.positional ++
    letter :: (if 0 ≤ e then '+' else '-') :: Decimal.padded 3 e.natAbs)

def integral (x : Number) : Except Fault Int :=
  match x.toInt? with
  | some n => .ok n
  | none => .error Failure.badSpecifier

def plainDigits (n : Nat) : Except Fault (List Char) :=
  let ds := Decimal.digits n
  if Text.Composite.longestNumeral < ds.length then .error Misuse.badValue else .ok ds

def shown : Number → Except Fault (List Char)
  | int n => do pure (Decimal.withSign (n < 0) (← plainDigits n.natAbs))
  | double d => .ok (display (double d))

def hexDigits (upper : Bool) (n : Nat) : List Char :=
  let ds := Nat.toDigits 16 n
  if upper then ds.map Char.toUpper else ds

/-- The two's complement of a negative number in 32 bits, or in 64 if it needs them. -/
def complement (n : Int) : Nat :=
  if 0 ≤ n then n.toNat
  else if Word.minValue ≤ n then Word.unsigned n
  else (n % 18446744073709551616).toNat

def fillZeros (width : Nat) (ds : List Char) : List Char :=
  Decimal.zeros (width - ds.length) ++ ds

def generalLimit : Nat := 999999999999999999

def standard (x : Number) (kind : FormatKind) (spec : List Char) (symbols : NumberSymbols) :
    Except Fault (List Char) :=
  match kind with
  | .roundTrip => do pure (symbols.localize (← shown x))
  | .general => do
    let n ← if spec.isEmpty then pure 0 else Text.Composite.readNumeral spec
    if n = 0 then pure (symbols.localize (← shown x))
    else if generalLimit < n then .error Misuse.badValue
    else pure (symbols.localize (x.toDecimal.general n))
  | .fixed => do
    let p ← precision spec 2
    pure (symbols.localize (← rounded x.toDecimal p).positional)
  | .grouped => do
    let p ← precision spec 2
    pure (symbols.localize (← rounded x.toDecimal p).grouped)
  | .percent => do
    let p ← precision spec 2
    let q ← rounded (hundredfold x.toDecimal) p
    pure (symbols.localize q.grouped ++ ' ' :: symbols.percent.toList)
  | .currency => do
    let p ← precision spec 2
    let q ← rounded x.toDecimal p
    let body := symbols.localize (magnitude q).grouped
    pure (Decimal.withSign q.isNegative (symbols.currency.toList ++ body))
  | .exponent upper => do
    let p ← precision spec 6
    pure (symbols.localize (← exponentForm x.toDecimal p (if upper then 'E' else 'e')))
  | .integer => do
    let n ← integral x
    let ds ← plainDigits n.natAbs
    let p ← precision spec 0
    pure (Decimal.withSign (n < 0) (fillZeros p ds))
  | .hex upper => do
    let n ← integral x
    let p ← precision spec 0
    pure (fillZeros p (hexDigits upper (complement n)))

def withoutCommas (s : List Char) : List Char := s.filter (· != ',')

/-- A finite number by a picture: `0` asks for a digit, `#` allows one, a comma before the point asks
for groups. -/
def pictured (x : Number) (picture : List Char) (symbols : NumberSymbols) :
    Except Fault (List Char) :=
  if picture.any fun c => !"0#.,".toList.contains c then
    .error (Failure.badCustomFormat (Text.codesOf picture))
  else do
    let (wholeMarks, rest) := Text.breakOn ['.'] picture
    let fracMarks := rest.getD []
    let minWhole := wholeMarks.count '0'
    let minFrac := fracMarks.count '0'
    let q ← rounded x.toDecimal (withoutCommas fracMarks).length
    let (whole, frac) := (magnitude q).positionalParts
    let whole := if wholeMarks.contains ',' then Decimal.group whole else whole
    let frac := Text.trimEnd (· == '0') frac
    let frac := frac ++ Decimal.zeros (minFrac - frac.length)
    let whole := if withoutCommas whole = ['0'] ∧ minWhole = 0 then [] else whole
    let whole := Decimal.zeros (minWhole - (withoutCommas whole).length) ++ whole
    let out := Decimal.withPoint whole frac
    let visible := out.any fun c => c != '0' && c != '.' && c != ','
    let out := Decimal.withSign (q.isNegative && visible) out
    pure (symbols.localize (if out.isEmpty then ['0'] else out))

/-- The text of a number in a format; an empty format is the display text, and a number that is not
finite has one text in every other format. -/
def format (x : Number) (fmt : List Char) (symbols : NumberSymbols) : Except Fault (List Char) :=
  match fmt with
  | [] => do pure (symbols.localize (← shown x))
  | letter :: spec =>
    if !x.isFinite then .ok x.display
    else
      match FormatKind.ofLetter? letter with
      | some kind =>
        if spec.isEmpty || Text.allDigits spec then standard x kind spec symbols
        else pictured x fmt symbols
      | none => pictured x fmt symbols

end BaseLib.Number
