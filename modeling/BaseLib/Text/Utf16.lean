import BaseLib.Word

namespace BaseLib.Text

def codesOf (t : List Char) : List Nat := t.map Char.toNat

def plain (s : String) : List Nat := codesOf s.toList

/-- Is the code one of a character? Those of surrogates are not, but a host text may have them. -/
def isScalar (n : Nat) : Bool := n < 0xD800 || (0xDFFF < n && n < 0x110000)

def charsOf (codes : List Nat) : List Char := codes.map Char.ofNat

/-- The codes of a text that is broken by a surrogate. -/
structure Broken where
  codes : List Nat
  broken : codes.all isScalar = false
  deriving DecidableEq, Repr

theorem isScalar_toNat (c : Char) : isScalar c.toNat = true := by
  have h := c.valid
  simp only [UInt32.isValidChar, Nat.isValidChar] at h
  simp only [isScalar, Bool.or_eq_true, Bool.and_eq_true, decide_eq_true_eq]
  exact h

theorem toNat_ofNat {n : Nat} (h : isScalar n = true) : (Char.ofNat n).toNat = n := by
  simp only [isScalar, Bool.or_eq_true, Bool.and_eq_true, decide_eq_true_eq] at h
  rw [Char.ofNat, dif_pos h]
  rfl

theorem all_isScalar_codesOf (t : List Char) : (codesOf t).all isScalar = true := by
  simp [codesOf, isScalar_toNat]

@[simp]
theorem charsOf_codesOf (t : List Char) : charsOf (codesOf t) = t := by
  rw [charsOf, codesOf, List.map_map]
  exact (List.map_congr_left fun c _ => Char.ofNat_toNat c).trans (List.map_id t)

theorem codesOf_charsOf {codes : List Nat} (h : codes.all isScalar = true) : codesOf (charsOf codes) = codes := by
  rw [charsOf, codesOf, List.map_map]
  exact (List.map_congr_left fun n hn => toNat_ofNat (List.all_eq_true.mp h n hn)).trans
    (List.map_id codes)

@[simp]
theorem codesOf_inj {t u : List Char} : codesOf t = codesOf u ↔ t = u :=
  ⟨fun h => by rw [← charsOf_codesOf t, h, charsOf_codesOf], congrArg codesOf⟩

@[simp]
theorem codesOf_append (t u : List Char) : codesOf (t ++ u) = codesOf t ++ codesOf u := List.map_append

@[simp]
theorem length_codesOf (t : List Char) : (codesOf t).length = t.length := List.length_map _

namespace Utf16

/-- A code of the basic plane is its own unit, also that of a surrogate; any other is a pair. -/
def ofCode (n : Nat) : List Nat :=
  if n < 0x10000 then [n] else [0xD800 + (n - 0x10000) / 0x400, 0xDC00 + (n - 0x10000) % 0x400]

def ofChar (c : Char) : List Nat := ofCode c.toNat

def units (s : List Char) : List Nat := s.flatMap ofChar

theorem units_append (s t : List Char) : units (s ++ t) = units s ++ units t := by
  simp [units]

/-- One step of the rolling hash: the next unit joins 31 times what was hashed so far. -/
def step (h : Int) (u : Nat) : Int := Word.wrap (31 * h + u)

def hashUnits (us : List Nat) : Int := us.foldl step 0

def hashCodes (codes : List Nat) : Int := hashUnits (codes.flatMap ofCode)

def hash (s : List Char) : Int := hashUnits (units s)

end Utf16

end BaseLib.Text
