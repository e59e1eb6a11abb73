import BaseLib.Text.ClassTable

namespace BaseLib.Text

def isSpace (n : Nat) : Bool :=
  if n < 128 then n == 32 || (9 ≤ n && n ≤ 13) || (28 ≤ n && n ≤ 31)
  else Run.anyMem ClassTable.space n

def digitValue? (n : Nat) : Option Nat :=
  if n < 128 then (if 48 ≤ n ∧ n ≤ 57 then some (n - 48) else none)
  else (ClassTable.zeros.find? fun z => z ≤ n && n < z + 10).map (n - ·)

def isDecimal (n : Nat) : Bool := (digitValue? n).isSome

/-- Decimal digits, and digits such as superscripts that have no decimal value. -/
def isDigit (n : Nat) : Bool := isDecimal n || Run.anyMem ClassTable.otherDigits n

def isLatinLetter (n : Nat) : Bool := (65 ≤ n && n ≤ 90) || (97 ≤ n && n ≤ 122)

def isLetter (n : Nat) : Bool :=
  if n < 128 then isLatinLetter n else Run.anyMem ClassTable.letters n

def isAlphanumeric (n : Nat) : Bool :=
  if n < 128 then isLatinLetter n || isDecimal n
  else isLetter n || Run.anyMem ClassTable.numerals n

def isWord (n : Nat) : Bool := n == 95 || isAlphanumeric n

def canStartName (n : Nat) : Bool :=
  if n < 128 then isLatinLetter n || n == 95
  else (isLetter n && !Run.anyMem ClassTable.noNameStart n) || Run.anyMem ClassTable.nameStart n

def canContinueName (n : Nat) : Bool :=
  if n < 128 then isWord n else canStartName n || Run.anyMem ClassTable.nameRest n

def isName : List Char → Bool
  | [] => false
  | c :: rest => canStartName c.toNat && rest.all (canContinueName ·.toNat)

def isPrintable (n : Nat) : Bool := !Run.anyMem ClassTable.unprintable n

/-- The value of a text of decimal digits of any scripts; `none` if another character occurs. -/
def decimalValue? (s : List Char) : Option Nat :=
  s.foldlM (fun n c => (digitValue? c.toNat).map (10 * n + ·)) 0

def allDigits (s : List Char) : Bool := !s.isEmpty && s.all (isDigit ·.toNat)

def trimStart (p : Char → Bool) (s : List Char) : List Char := s.dropWhile p

def trimEnd (p : Char → Bool) (s : List Char) : List Char := (s.reverse.dropWhile p).reverse

def trim (p : Char → Bool) (s : List Char) : List Char := trimEnd p (trimStart p s)

def strip (s : List Char) : List Char := trim (isSpace ·.toNat) s

end BaseLib.Text
