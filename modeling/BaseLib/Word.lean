namespace BaseLib.Word

def minValue : Int := -2147483648

def maxValue : Int := 2147483647

def maxSize : Nat := 9223372036854775807

/-- The one integer in the signed 32-bit range that is congruent to `n` modulo `2 ^ 32`. -/
def wrap (n : Int) : Int := Int.bmod n 4294967296

def InRange (n : Int) : Prop := minValue ≤ n ∧ n ≤ maxValue

instance (n : Int) : Decidable (InRange n) := inferInstanceAs (Decidable (_ ∧ _))

theorem wrap_inRange (n : Int) : InRange (wrap n) := by
  have hlo := @Int.le_bmod n 4294967296 (by decide)
  have hhi := @Int.bmod_lt n 4294967296 (by decide)
  constructor <;> simp only [wrap, minValue, maxValue] <;> omega

theorem wrap_of_inRange {n : Int} (h : InRange n) : wrap n = n := by
  obtain ⟨hlo, hhi⟩ := h
  simp only [minValue, maxValue] at hlo hhi
  exact Int.bmod_eq_of_le (by omega) (by omega)

def unsigned (n : Int) : Nat := (n % 4294967296).toNat

/-- Folds a wide integer into 32 bits: the low word crossed with the word above it. -/
def fold (n : Int) : Int :=
  if InRange n then n else wrap ((unsigned n ^^^ unsigned (n / 4294967296) : Nat) : Int)

end BaseLib.Word
