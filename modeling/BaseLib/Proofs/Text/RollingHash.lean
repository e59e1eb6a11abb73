import BaseLib.Text.Utf16
import Mathlib.Algebra.BigOperators.Fin
import Mathlib.Tactic.Ring

namespace BaseLib.Text.Utf16

variable {us : List Nat} {s : List Char}

/-- The units of a text: a character of the basic plane is one, and any other is spelled by a high and a low
surrogate. -/
inductive Spelled : List Char → List Nat → Prop
  | nil : Spelled [] []
  | basic {c : Char} {s us} (plane : c.toNat < 0x10000) (rest : Spelled s us) :
      Spelled (c :: s) (c.toNat :: us)
  | pair {c : Char} {high low : Nat} {s us} (hhigh : 0xD800 ≤ high ∧ high ≤ 0xDBFF)
      (hlow : 0xDC00 ≤ low ∧ low ≤ 0xDFFF)
      (code : c.toNat = 0x10000 + (high - 0xD800) * 0x400 + (low - 0xDC00)) (rest : Spelled s us) :
      Spelled (c :: s) (high :: low :: us)

theorem spelled_units (s : List Char) : Spelled s (units s) := by
  induction s with
  | nil => exact .nil
  | cons c s ih =>
      have hvalid : c.toNat < 0xD800 ∨ 0xDFFF < c.toNat ∧ c.toNat < 0x110000 := c.valid
      rw [units, List.flatMap_cons, ofChar, ofCode]
      split
      · rename_i hbasic
        exact .basic hbasic ih
      · exact .pair (by omega) (by omega) (by omega) ih

theorem Spelled.eq_units (hs : Spelled s us) : us = units s := by
  induction hs with
  | nil => rfl
  | basic plane rest ih =>
      rw [units, List.flatMap_cons, ofChar, ofCode, if_pos plane, ih]
      rfl
  | @pair c high low s us hhigh hlow code rest ih =>
      have hastral : ¬c.toNat < 0x10000 := by omega
      have hquotient : 0xD800 + (c.toNat - 0x10000) / 0x400 = high := by omega
      have hremainder : 0xDC00 + (c.toNat - 0x10000) % 0x400 = low := by omega
      rw [units, List.flatMap_cons, ofChar, ofCode, if_neg hastral, hquotient, hremainder, ih]
      rfl

theorem spelled_iff : Spelled s us ↔ us = units s := ⟨Spelled.eq_units, fun h => h ▸ spelled_units s⟩

theorem wrap_add_wrap (m n : ℤ) : Word.wrap (m + Word.wrap n) = Word.wrap (m + n) := Int.add_bmod_bmod

theorem step_wrap (m : ℤ) (u : Nat) : step (Word.wrap m) u = Word.wrap (31 * m + u) := by
  unfold step Word.wrap
  rw [← Int.bmod_add_bmod, Int.mul_bmod_bmod, Int.bmod_add_bmod]

/-- The sum of the units, each multiplied by 31 once for every unit after it. -/
def rolled (us : List Nat) : ℤ := ∑ i : Fin us.length, (us[i] : ℤ) * 31 ^ (us.length - 1 - i)

theorem rolled_cons (u : Nat) (us : List Nat) : rolled (u :: us) = u * 31 ^ us.length + rolled us := by
  have hpower (i : Fin us.length) : us.length - i.succ = us.length - 1 - i := by
    rw [Fin.val_succ]
    omega
  have hsum : rolled (u :: us) = ∑ i : Fin (us.length + 1), ((u :: us)[i] : ℤ) * 31 ^ (us.length - i) := rfl
  rw [hsum, Fin.sum_univ_succ]
  congr 1
  refine Finset.sum_congr rfl fun i _ => ?_
  rw [hpower]
  rfl

theorem foldl_step (m : ℤ) (us : List Nat) :
    us.foldl step (Word.wrap m) = Word.wrap (m * 31 ^ us.length + rolled us) := by
  induction us generalizing m with
  | nil => simp [rolled]
  | cons u us ih =>
      rw [List.foldl_cons, step_wrap, ih, rolled_cons, List.length_cons]
      congr 1
      ring

theorem hashUnits_eq (us : List Nat) : hashUnits us = Word.wrap (rolled us) := by
  have hfold := foldl_step 0 us
  rwa [zero_mul, zero_add] at hfold

theorem hashUnits_append (us vs : List Nat) :
    hashUnits (us ++ vs) = Word.wrap (hashUnits us * 31 ^ vs.length + hashUnits vs) := by
  have hreduced : hashUnits us = Word.wrap (hashUnits us) := by
    rw [hashUnits_eq]
    exact (Word.wrap_of_inRange (Word.wrap_inRange _)).symm
  calc hashUnits (us ++ vs) = vs.foldl step (hashUnits us) := List.foldl_append
    _ = vs.foldl step (Word.wrap (hashUnits us)) := congrArg (vs.foldl step) hreduced
    _ = Word.wrap (hashUnits us * 31 ^ vs.length + rolled vs) := foldl_step _ vs
    _ = Word.wrap (hashUnits us * 31 ^ vs.length + hashUnits vs) := by rw [hashUnits_eq vs, wrap_add_wrap]

/-- The hash of any units, also of those that no text has, is their sum with powers of 31, reduced once, and that
of a concatenation is computed from the hashes of its parts. A text has exactly the units that spell it and is
hashed by them; the units of two texts together are those of both. -/
theorem hash_rolls (us vs : List Nat) (s t : List Char) :
    hashUnits us = Word.wrap (rolled us) ∧
      hashUnits (us ++ vs) = Word.wrap (hashUnits us * 31 ^ vs.length + hashUnits vs) ∧
      (Spelled s us ↔ us = units s) ∧ hash s = Word.wrap (rolled (units s)) ∧
      units (s ++ t) = units s ++ units t ∧
      hash (s ++ t) = Word.wrap (hash s * 31 ^ (units t).length + hash t) := by
  refine ⟨hashUnits_eq us, hashUnits_append us vs, spelled_iff, hashUnits_eq _, units_append s t, ?_⟩
  rw [hash, units_append]
  exact hashUnits_append _ _

end BaseLib.Text.Utf16
