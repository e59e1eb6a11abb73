import BaseLib.Number.Basic
import BaseLib.Proofs.Double.Equality
import Mathlib.Data.Prod.Lex

namespace BaseLib

variable {o : Ordering}

namespace Double

variable {a b d : Double}

def side (d : Double) : Int := if d.isInfinite then (if d.neg then -1 else 1) else 0

def place (d : Double) : ℤ ×ₗ ℤ := toLex (d.side, if d.isInfinite then 0 else d.units)

theorem compares_same_side {s x y : Int} (h : o.Compares x y) :
    o.Compares (toLex (s, x) : ℤ ×ₗ ℤ) (toLex (s, y)) := by
  cases o with
  | lt => exact Prod.Lex.toLex_lt_toLex.mpr (.inr ⟨rfl, h⟩)
  | eq => exact congrArg (fun x => toLex (s, x)) h
  | gt => exact Prod.Lex.toLex_lt_toLex.mpr (.inr ⟨rfl, h⟩)

theorem place_lt_place (h : a.side < b.side) : a.place < b.place :=
  Prod.Lex.toLex_lt_toLex.mpr (.inl h)

theorem place_of_finite (h : d.isInfinite = false) : d.place = toLex (0, d.units) := by
  simp [place, side, h]

theorem place_of_infinite (h : d.isInfinite = true) : d.place = toLex (d.side, 0) := by
  simp [place, h]

theorem side_eq_zero_iff : d.side = 0 ↔ d.isInfinite ≠ true := by
  rw [side]
  split
  · rename_i hi
    exact iff_of_false (by split <;> decide) fun h => h hi
  · rename_i hi
    exact iff_of_true rfl hi

theorem side_of_infinite (h : d.isInfinite = true) : d.side = if d.neg then -1 else 1 := if_pos h

theorem compare?_compares (ha : a.isNaN = false) (hb : b.isNaN = false) :
    ∃ o, compare? a b = some o ∧ o.Compares a.place b.place := by
  rw [compare?, ha, hb, if_neg (by decide)]
  by_cases h : a.isInfinite = true ∨ b.isInfinite = true
  · rw [if_pos (by simpa using h)]
    refine ⟨_, rfl, ?_⟩
    change (compare a.side b.side).Compares a.place b.place
    have hsides : (compare a.side b.side).Compares a.side b.side := compares_compareOfLessAndEq
    generalize compare a.side b.side = o at hsides
    cases o with
    | lt => exact place_lt_place hsides
    | gt => exact place_lt_place hsides
    | eq =>
        -- two at the same end are both infinite
        change a.side = b.side at hsides
        have hinfinite : a.isInfinite = true ↔ b.isInfinite = true := by
          rw [← not_iff_not, ← Ne, ← Ne, ← side_eq_zero_iff, ← side_eq_zero_iff, hsides]
        obtain ⟨hai, hbi⟩ : a.isInfinite = true ∧ b.isInfinite = true := by
          rcases h with h | h
          · exact ⟨h, hinfinite.mp h⟩
          · exact ⟨hinfinite.mpr h, h⟩
        show a.place = b.place
        rw [place_of_infinite hai, place_of_infinite hbi, hsides]
  · rw [if_neg (by simpa using h)]
    obtain ⟨hai, hbi⟩ := not_or.mp h
    rw [place_of_finite (Bool.eq_false_iff.mpr hai), place_of_finite (Bool.eq_false_iff.mpr hbi)]
    exact ⟨_, rfl, compares_same_side (compareDyadic_units a b)⟩

theorem compareInt?_compares (n : Int) (hd : d.isNaN = false) :
    ∃ o, compareInt? n d = some o ∧ o.Compares (toLex (0, n * perOne) : ℤ ×ₗ ℤ) d.place := by
  rw [compareInt?, hd, if_neg (by decide)]
  cases hi : d.isInfinite with
  | true =>
      have hside := side_of_infinite hi
      rw [if_pos rfl, place_of_infinite hi]
      cases hn : d.neg with
      | true =>
          rw [hn, if_pos rfl] at hside
          exact ⟨_, rfl, Prod.Lex.toLex_lt_toLex.mpr (.inl (hside ▸ by norm_num))⟩
      | false =>
          rw [hn, if_neg (by decide)] at hside
          exact ⟨_, rfl, Prod.Lex.toLex_lt_toLex.mpr (.inl (hside ▸ by norm_num))⟩
  | false =>
      rw [if_neg (by decide), place_of_finite hi]
      exact ⟨_, rfl, compares_same_side (compareDyadic_int n d)⟩

end Double

namespace Number

def place? : Number → Option (ℤ ×ₗ ℤ)
  | int n => some (toLex (0, n * Double.perOne))
  | double d => if d.isNaN then none else some d.place

variable {a b : Number} {p q : ℤ ×ₗ ℤ} {d : Double}

theorem place?_double (h : (double d).place? = some p) : d.isNaN = false ∧ d.place = p := by
  rw [place?] at h
  split at h
  · cases h
  · rename_i hnan
    exact ⟨Bool.eq_false_iff.mpr hnan, Option.some.inj h⟩

theorem compare?_compares (ha : a.place? = some p) (hb : b.place? = some q) :
    ∃ o, a.compare? b = some o ∧ o.Compares p q := by
  cases a with
  | int m =>
      cases ha
      cases b with
      | int n =>
          cases hb
          exact ⟨_, rfl, Double.compares_same_side
            (Double.compares_mul Double.perOne_pos Double.compares_compareOfLessAndEq)⟩
      | double e =>
          obtain ⟨he, rfl⟩ := place?_double hb
          exact Double.compareInt?_compares m he
  | double d =>
      obtain ⟨hd, rfl⟩ := place?_double ha
      cases b with
      | int n =>
          cases hb
          obtain ⟨o, ho, hcompares⟩ := Double.compareInt?_compares n hd
          refine ⟨o.swap, ?_, Ordering.compares_swap.mpr hcompares⟩
          rw [compare?, ho]
          rfl
      | double e =>
          obtain ⟨he, rfl⟩ := place?_double hb
          exact Double.compare?_compares hd he

theorem compare?_none (h : a.place? = none ∨ b.place? = none) : a.compare? b = none := by
  have hnan {d : Double} (h : (double d).place? = none) : d.isNaN = true := by
    by_contra hd
    rw [place?, if_neg hd] at h
    cases h
  rcases a with m | d <;> rcases b with n | e
  · rcases h with h | h <;> cases h
  · have he := hnan (h.resolve_left fun h => by cases h)
    simp [compare?, Double.compareInt?, he]
  · have hd := hnan (h.resolve_right fun h => by cases h)
    simp [compare?, Double.compareInt?, hd]
  · rcases h with h | h
    · simp [compare?, Double.compare?, hnan h]
    · simp [compare?, Double.compare?, hnan h]

end Number

end BaseLib
