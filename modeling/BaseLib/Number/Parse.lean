import BaseLib.Error
import BaseLib.Number.Basic
import BaseLib.Number.Culture
import BaseLib.Text.CharClass

namespace BaseLib

structure NumberStyles where
  bits : Nat
  deriving DecidableEq, Repr, Inhabited

namespace NumberStyles

def allows (s : NumberStyles) (flag : Nat) : Bool := s.bits &&& flag != 0

def leadingWhite (s : NumberStyles) : Bool := s.allows 1
def trailingWhite (s : NumberStyles) : Bool := s.allows 2
def leadingSign (s : NumberStyles) : Bool := s.allows 4
def decimalPoint (s : NumberStyles) : Bool := s.allows 32
def thousands (s : NumberStyles) : Bool := s.allows 64
def exponent (s : NumberStyles) : Bool := s.allows 128
def hexSpecifier (s : NumberStyles) : Bool := s.allows 512

def float : NumberStyles := ⟨167⟩

end NumberStyles

namespace Number

def isBlank (c : Char) : Bool := c == ' ' || ('\t' ≤ c && c ≤ '\r')

def isAsciiDigit (c : Char) : Bool := '0' ≤ c && c ≤ '9'

def hexValue? (c : Char) : Option Nat :=
  if '0' ≤ c && c ≤ '9' then some (c.toNat - 48)
  else if 'a' ≤ c && c ≤ 'f' then some (c.toNat - 87)
  else if 'A' ≤ c && c ≤ 'F' then some (c.toNat - 55)
  else none

def readHex? (s : List Char) : Option Nat :=
  if s.isEmpty then none else s.foldlM (fun n c => (hexValue? c).map (16 * n + ·)) 0

structure Parts where
  sign : Option Char
  whole : List Char
  fraction : Option (List Char)
  exponent : Option (Bool × List Char)
  deriving DecidableEq, Repr

def takeSign : List Char → Option Char × List Char
  | '+' :: s => (some '+', s)
  | '-' :: s => (some '-', s)
  | s => (none, s)

def takeDigits (s : List Char) : List Char × List Char :=
  (s.takeWhile isAsciiDigit, s.dropWhile isAsciiDigit)

def readExponent? : List Char → Option (Option (Bool × List Char))
  | [] => some none
  | c :: s =>
    if c == 'e' || c == 'E' then
      let (sign, s) := takeSign s
      if !s.isEmpty && s.all isAsciiDigit then some (some (sign == some '-', s)) else none
    else none

def readParts? (s : List Char) : Option Parts := do
  let (sign, s) := takeSign s
  let (whole, s) := takeDigits s
  let (fraction, s) :=
    match s with
    | '.' :: s =>
      let (digits, s) := takeDigits s
      (some digits, s)
    | s => (none, s)
  let exponent ← readExponent? s
  some ⟨sign, whole, fraction, exponent⟩

namespace Parts

def hasDigit (p : Parts) : Bool := !p.whole.isEmpty || !(p.fraction.getD []).isEmpty

def permitted (p : Parts) (style : NumberStyles) : Bool :=
  (p.sign.isNone || style.leadingSign) && (p.fraction.isNone || style.decimalPoint) &&
    (p.exponent.isNone || style.exponent)

def toDecimal (p : Parts) : Decimal :=
  let fraction := p.fraction.getD []
  let e : Int :=
    match p.exponent with
    | none => 0
    | some (neg, ds) => if neg then -(Decimal.ofDigits ds : Int) else Decimal.ofDigits ds
  ⟨p.sign == some '-', Decimal.ofDigits (p.whole ++ fraction), e - fraction.length⟩

end Parts

def symbol? (s : List Char) : Option Double :=
  if s = "NaN".toList then some Double.nan
  else if s = "Infinity".toList ∨ s = "∞".toList then some (Double.infinity false)
  else if s = "-Infinity".toList ∨ s = "-∞".toList then some (Double.infinity true)
  else none

/-- A text cut down to its digits: permitted blanks and group separators removed and the decimal
separator written as a point. -/
def bare (s : List Char) (style : NumberStyles) (symbols : NumberSymbols) : List Char :=
  let group := symbols.groupSeparator.toList
  let s := if !group.isEmpty && style.thousands then Text.replace group [] s else s
  if symbols.decimalSeparator = "." then s else Text.replace symbols.decimalSeparator.toList ['.'] s

def trimBlanks (s : List Char) (style : NumberStyles) : List Char :=
  let s := if style.leadingWhite then Text.trimStart isBlank s else s
  if style.trailingWhite then Text.trimEnd isBlank s else s

def read? (text : List Char) (style : NumberStyles) (symbols : NumberSymbols) : Option Number :=
  let s := trimBlanks text style
  if style.hexSpecifier then (readHex? s).map fun n => .int n
  else
    let s := bare s style symbols
    match symbol? s with
    | some d => if d.neg && !style.leadingSign then none else some (.double d)
    | none => do
      let p ← readParts? s
      if p.hasDigit && p.permitted style then some (.double (Double.ofDecimal p.toDecimal)) else none

def parse (text : List Char) (style : NumberStyles) (symbols : NumberSymbols) :
    Except Failure Number :=
  match read? text style symbols with
  | some x => .ok x
  | none => .error (.badNumber (String.ofList text))

def readDigitsIn? (base : Nat) (s : List Char) : Option Nat :=
  let step (state : Option (Nat × Bool)) (c : Char) : Option (Nat × Bool) := do
    let (n, afterDigit) ← state
    if c == '_' then if afterDigit then some (n, false) else none
    else
      let v ←
        match Text.digitValue? c.toNat with
        | some v => some v
        | none =>
          if 'a' ≤ c && c ≤ 'z' then some (c.toNat - 87)
          else if 'A' ≤ c && c ≤ 'Z' then some (c.toNat - 55)
          else none
      if v < base then some (base * n + v, true) else none
  match s.foldl step (some (0, false)) with
  | some (n, true) => some n
  | _ => none

def markedBase? : List Char → Option Nat
  | '0' :: c :: _ =>
    if c == 'x' || c == 'X' then some 16
    else if c == 'o' || c == 'O' then some 8
    else if c == 'b' || c == 'B' then some 2
    else none
  | _ => none

/-- Blanks around an integer; the separators of files, groups, records and units are none. -/
def isIntegerBlank (c : Char) : Bool :=
  Text.isSpace c.toNat && !('\x1c' ≤ c && c ≤ '\x1f')

/-- The host reads and writes no more digits of an integer, unless the base is a power of two. -/
def mostDigits : Nat := 4300

def isTooLong (base : Nat) (s : List Char) : Bool :=
  base &&& (base - 1) != 0 && mostDigits < s.countP (· != '_')

/-- An integer written in a base from 2 to 36, optionally with the mark of base 2, 8 or 16. Base 0
takes the base from the mark, else 10 without leading zeros. -/
def readInteger? (s : List Char) (base : Int) : Option Int := do
  let (sign, s) := takeSign (Text.trim isIntegerBlank s)
  let marked := markedBase? s
  let (b, s) ←
    if base = 0 then
      match marked with
      | some b => some (b, s.drop 2)
      | none =>
        if s.head? = some '0' && s.any (fun c => c != '0' && c != '_') then none else some (10, s)
    else if 2 ≤ base ∧ base ≤ 36 then
      if marked = some base.toNat then some (base.toNat, s.drop 2) else some (base.toNat, s)
    else none
  let s := if (base = 0 ∨ marked = some b) && marked.isSome && s.head? = some '_' then s.drop 1 else s
  let n ← if isTooLong b s then none else readDigitsIn? b s
  some (if sign = some '-' then -(n : Int) else n)

def readBool? (lowered : List Char) : Option Bool :=
  let s := Text.strip lowered
  if s = "true".toList then some true
  else if s = "false".toList then some false
  else none

end Number

end BaseLib
