import BaseLib.Text.CaseTable

namespace BaseLib.Text

/-- The mapping of a code point if it is a single other one, else the code point itself. -/
def toUpper (n : Nat) : Nat := (Shift.map? CaseTable.upper n).getD n

def toLower (n : Nat) : Nat := (Shift.map? CaseTable.lower n).getD n

def upperChar (c : Char) : Char := Char.ofNat (toUpper c.toNat)

def lowerChar (c : Char) : Char := Char.ofNat (toLower c.toNat)

def upper (s : List Char) : List Char := s.map upperChar

def lower (s : List Char) : List Char := s.map lowerChar

def upperHead (n : Nat) : Nat := (CaseTable.upperExpanding.lookup n).getD (toUpper n)

def lowerHead (n : Nat) : Nat := (CaseTable.lowerExpanding.lookup n).getD (toLower n)

def isUpper (n : Nat) : Bool := Run.anyMem CaseTable.uppercase n

def isLower (n : Nat) : Bool := Run.anyMem CaseTable.lowercase n

theorem length_lower (s : List Char) : (lower s).length = s.length := by simp [lower]

/-- The difference of the codes at the first place where two texts differ, else of their lengths. -/
def compareOrdinal : List Char → List Char → Int
  | x :: xs, y :: ys => if x = y then compareOrdinal xs ys else (x.toNat : Int) - y.toNat
  | xs, ys => (xs.length : Int) - ys.length

def folded (ignoreCase : Bool) (s : List Char) : List Char := if ignoreCase then lower s else s

/-- The order of texts: by the characters at the first place where two texts differ, and a text after its
beginnings. -/
def compareTexts (ignoreCase : Bool) (a b : List Char) : Int :=
  let x := folded ignoreCase a
  let y := folded ignoreCase b
  (decide (y < x)).toNat - (decide (x < y)).toNat

def compareMissing (rest : List Char → List Char → Int) : Option (List Char) → Option (List Char) → Int
  | some a, some b => rest a b
  | a, b => (a.isSome.toNat : Int) - b.isSome.toNat

def startsWith (ignoreCase : Bool) (s value : List Char) : Bool :=
  (folded ignoreCase value).isPrefixOf (folded ignoreCase s)

def endsWith (ignoreCase : Bool) (s value : List Char) : Bool :=
  (folded ignoreCase value).isSuffixOf (folded ignoreCase s)

end BaseLib.Text
