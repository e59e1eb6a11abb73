import BaseLib.Proofs.Double.Nearest
import Mathlib.Data.Nat.Log

namespace BaseLib.Double

section

variable {x v : ℚ} {d : Double} {m u w : Nat}

theorem Rounds.not_lt (h : Rounds x u) (h' : Rounds x w) : ¬u < w := by
  intro hlt
  obtain ⟨t, rfl⟩ : ∃ t, w = t + 1 := ⟨w - 1, by omega⟩
  have hnext := unitsAt_le (Nat.succ_le_of_lt hlt)
  have habove := h.above
  have hbelow := h'.below t rfl
  obtain rfl : u = t := by
    by_contra hne
    have hstep := unitsAt_lt (lt_of_le_of_ne (Nat.le_of_lt_succ hlt) hne)
    linarith
  -- a midpoint has an even word on one side only
  have heven := h.above_even (le_antisymm habove hbelow)
  have heven' := h'.below_even u rfl (le_antisymm hbelow habove)
  exact Nat.even_add_one.mp heven' heven

theorem Rounds.unique (h : Rounds x u) (h' : Rounds x w) : u = w :=
  Nat.le_antisymm (Nat.le_of_not_lt (h'.not_lt h)) (Nat.le_of_not_lt (h.not_lt h'))

theorem IsNearest.exists_rounds (hd : IsNearest v d) (hsign : v = signed d.neg |v|) :
    ∃ w, Rounds (|v| * perOne) w ∧ d.magnitudeBits = min w infinityBits := by
  obtain ⟨w, -, hw⟩ := Double.exists_rounds |v|.num.toNat |v|.den_pos
  have hratio : ((|v|.num.toNat : Nat) : ℚ) / |v|.den = |v| := by
    have hnum : ((|v|.num.toNat : Nat) : ℤ) = |v|.num := Int.toNat_of_nonneg (Rat.num_nonneg.mpr (abs_nonneg v))
    rw [← Int.cast_natCast, hnum]
    exact Rat.num_div_den _
  rw [hratio] at hw
  have hnear := hw.isNearest (mul_nonneg (abs_nonneg v) perOne_rat_pos.le) d.neg
  rw [mul_div_cancel_right₀ _ perOne_rat_pos.ne', ← hsign] at hnear
  have hmin : min w infinityBits < 2 ^ 63 := lt_of_le_of_lt (Nat.min_le_right _ _) (by decide)
  have heq := hd.unique hnear (neg_ofParts d.neg hmin).symm
  exact ⟨w, hw, (congrArg magnitudeBits heq).trans (magnitudeBits_ofParts d.neg hmin)⟩

def wordOf (m : Nat) : Nat := if m = 0 then 0 else (1022 + m.log2) * 2 ^ 52 + m * 2 ^ (52 - m.log2)

def halfAbove (m : Nat) : ℚ := if m = 0 then 2 ^ (-1075 : ℤ) else 2 ^ ((m.log2 : ℤ) - 53)

/-- Half the way from an integer to the next number of smaller magnitude, half as long below a power of two. -/
def halfBelow (m : Nat) : ℚ := 2 ^ (((2 * m - 1).log2 : ℤ) - 54)

theorem significand_bounds (hne : m ≠ 0) (hm : m ≤ 2 ^ 52) :
    m.log2 ≤ 52 ∧ 2 ^ 52 ≤ m * 2 ^ (52 - m.log2) ∧ m * 2 ^ (52 - m.log2) < 2 ^ 53 ∧
      (m * 2 ^ (52 - m.log2) = 2 ^ 52 ↔ m = 2 ^ m.log2) := by
  have hlow := Nat.log2_self_le hne
  have hhigh := Nat.lt_log2_self (n := m)
  have hlog : m.log2 ≤ 52 := (Nat.pow_le_pow_iff_right (by decide)).mp (hlow.trans hm)
  have hpow : 2 ^ m.log2 * 2 ^ (52 - m.log2) = 2 ^ 52 := by rw [← pow_add, Nat.add_sub_cancel' hlog]
  have hpos : 0 < 2 ^ (52 - m.log2) := Nat.two_pow_pos _
  refine ⟨hlog, ?_, ?_, ?_⟩
  · rw [← hpow]
    exact Nat.mul_le_mul_right _ hlow
  · have hlt := Nat.mul_lt_mul_of_pos_right hhigh hpos
    rwa [pow_succ, mul_right_comm, hpow] at hlt
  · rw [← hpow]
    exact Nat.mul_left_inj hpos.ne'

theorem unitsAt_wordOf (hm : m ≤ 2 ^ 52) : (unitsAt (wordOf m) : ℚ) = m * perOne := by
  rw [wordOf]
  split
  · rename_i hzero
    rw [hzero, unitsAt_zero, Nat.cast_zero, zero_mul]
  · rename_i hne
    obtain ⟨hlog, hlow, hhigh, -⟩ := significand_bounds hne hm
    have hexp : 52 - m.log2 + (1022 + m.log2) = 1074 := by omega
    rw [unitsAt_add hhigh.le (.inr hlow), mul_assoc, ← pow_add, hexp, perOne_cast, Nat.cast_mul, Nat.cast_pow,
      Nat.cast_ofNat]

theorem even_wordOf (hm : m ≤ 2 ^ 52) : Even (wordOf m) := by
  rw [wordOf]
  split
  · exact Even.zero
  · rename_i hne
    obtain ⟨hlog, -, -, hpower⟩ := significand_bounds hne hm
    refine (Even.mul_left (by decide) _).add ?_
    rcases hlog.lt_or_eq with hlt | heq
    · exact Even.mul_left ((Nat.even_pow.mpr ⟨by decide, by omega⟩)) _
    · rw [hpower.mpr (le_antisymm (heq ▸ hm) (Nat.log2_self_le hne))]
      decide

theorem two_pow_units {i : Nat} {e : ℤ} (h : (i : ℤ) = e + 1075) : (2 : ℚ) ^ i = 2 * 2 ^ e * perOne := by
  have htwo : (2 : ℚ) ≠ 0 := two_ne_zero
  rw [perOne_cast, ← zpow_natCast, ← zpow_natCast, ← zpow_one_add₀ htwo, ← zpow_add₀ htwo, h]
  congr 1
  push_cast
  ring

theorem unitsAt_wordOf_succ (hm : m ≤ 2 ^ 52) :
    (unitsAt (wordOf m + 1) : ℚ) = (m + 2 * halfAbove m) * perOne := by
  have hstep : (2 : ℚ) ^ gradeOf (wordOf m) = 2 * halfAbove m * perOne := by
    rw [halfAbove, wordOf]
    split
    · exact two_pow_units rfl
    · rename_i hne
      obtain ⟨-, hlow, hhigh, -⟩ := significand_bounds hne hm
      refine two_pow_units ?_
      rw [gradeOf]
      omega
  rw [unitsAt_succ, Nat.cast_add, Nat.cast_pow, Nat.cast_ofNat, hstep, unitsAt_wordOf hm, add_mul]

theorem log2_pred (hne : m ≠ 0) : (2 * m - 1).log2 = if m = 2 ^ m.log2 then m.log2 else m.log2 + 1 := by
  have hlow := Nat.log2_self_le hne
  have hhigh := Nat.lt_log2_self (n := m)
  rw [Nat.log2_eq_iff (by omega)]
  split
  · rename_i hpower
    generalize m.log2 = l at hpower
    rw [pow_succ]
    omega
  · rename_i hpower
    generalize m.log2 = l at hlow hhigh hpower
    rw [pow_succ] at hhigh
    rw [pow_succ, pow_succ, pow_succ]
    omega

theorem unitsAt_wordOf_pred (hm : m ≤ 2 ^ 52) (hu : u + 1 = wordOf m) :
    (unitsAt u : ℚ) = (m - 2 * halfBelow m) * perOne := by
  have hne : m ≠ 0 := by
    rintro rfl
    exact absurd hu (Nat.succ_ne_zero u)
  obtain ⟨-, hlow, hhigh, hpower⟩ := significand_bounds hne hm
  have hword : wordOf m = (1022 + m.log2) * 2 ^ 52 + m * 2 ^ (52 - m.log2) := if_neg hne
  have hgrade : gradeOf u = 1021 + (2 * m - 1).log2 := by
    rw [hword] at hu
    rw [log2_pred hne, gradeOf]
    split
    · rename_i hfirst
      rw [hpower.mpr hfirst] at hu
      omega
    · rename_i hfirst
      have hlow' := lt_of_le_of_ne hlow fun h => hfirst (hpower.mp h.symm)
      omega
  have hstep : (2 : ℚ) ^ gradeOf u = 2 * halfBelow m * perOne := by
    refine two_pow_units ?_
    omega
  have hnext := unitsAt_wordOf hm
  rw [← hu, unitsAt_succ, Nat.cast_add, Nat.cast_pow, Nat.cast_ofNat, hstep] at hnext
  rw [sub_mul, ← hnext, add_sub_cancel_right]

theorem rounds_wordOf {y : ℚ} (hm : m ≤ 2 ^ 52) (hy : 0 ≤ y) :
    Rounds (y * perOne) (wordOf m) ↔ m - halfBelow m ≤ y ∧ y ≤ m + halfAbove m := by
  have hpos := perOne_rat_pos
  have hhere := unitsAt_wordOf hm
  have hnext := unitsAt_wordOf_succ hm
  constructor
  · intro h
    have habove := h.above
    rw [hhere, hnext] at habove
    have hupper : y ≤ m + halfAbove m := le_of_mul_le_mul_right (by linarith) hpos
    refine ⟨?_, hupper⟩
    rcases Nat.eq_zero_or_pos (wordOf m) with hzero | hword
    · rw [hzero, unitsAt_zero, Nat.cast_zero, eq_comm, mul_eq_zero] at hhere
      rw [hhere.resolve_right hpos.ne', zero_sub]
      have hhalf : 0 ≤ halfBelow m := (zpow_pos zero_lt_two _).le
      linarith
    · obtain ⟨u, hu⟩ : ∃ u, u + 1 = wordOf m := ⟨wordOf m - 1, by omega⟩
      have hbelow := h.below u hu
      rw [hhere, unitsAt_wordOf_pred hm hu] at hbelow
      exact le_of_mul_le_mul_right (by linarith) hpos
  · rintro ⟨hlower, hupper⟩
    have hlower' := mul_le_mul_of_nonneg_right hlower hpos.le
    have hupper' := mul_le_mul_of_nonneg_right hupper hpos.le
    refine ⟨?_, fun _ => even_wordOf hm, fun u hu => ?_, fun _ _ _ => even_wordOf hm⟩
    · rw [hhere, hnext]
      linarith
    · rw [hhere, unitsAt_wordOf_pred hm hu]
      linarith

end

/-- The rational lies between the midpoints next to an integer of its sign. -/
structure RoundsToInt (v : ℚ) (k : ℤ) : Prop where
  sign : 0 ≤ k * v
  lower : k.natAbs - halfBelow k.natAbs ≤ |v|
  upper : |v| ≤ k.natAbs + halfAbove k.natAbs

section

variable {v : ℚ} {d : Double} {k : ℤ} {m w : Nat}

theorem toInt?_iff_value : d.toInt? = some k ↔ d.isFinite = true ∧ d.value = k := by
  rw [toInt?_eq_some_iff, value, div_eq_iff perOne_rat_pos.ne', eq_comm (a := k * perOne)]
  exact_mod_cast Iff.rfl

theorem unitsAt_of_toInt? (h : d.toInt? = some k) : (unitsAt d.magnitudeBits : ℚ) = k.natAbs * perOne := by
  obtain ⟨-, hvalue⟩ := toInt?_iff_value.mp h
  have habs := congrArg (fun x : ℚ => |x|) hvalue
  have hnonneg : (0 : ℚ) ≤ unitsAt d.magnitudeBits / perOne := div_nonneg (Nat.cast_nonneg _) perOne_rat_pos.le
  rw [value_eq, abs_signed _ hnonneg, div_eq_iff perOne_rat_pos.ne'] at habs
  rw [habs, Nat.cast_natAbs, Int.cast_abs]

theorem wordOf_lt (hm : m ≤ 2 ^ 52) : wordOf m < infinityBits := by
  rw [wordOf, infinityBits_eq]
  split
  · decide
  · rename_i hne
    obtain ⟨hlog, -, hhigh, -⟩ := significand_bounds hne hm
    omega

theorem eq_wordOf (hm : m ≤ 2 ^ 52) (hw : (unitsAt w : ℚ) = m * perOne) : w = wordOf m := by
  rw [← unitsAt_wordOf hm] at hw
  exact unitsAt_strictMono.injective (by exact_mod_cast hw)

theorem eq_signed {neg : Bool} (hsign : v = signed neg |v|) (hk : 0 ≤ k * v) (hzero : v = 0 → k = 0) :
    (k : ℚ) = signed neg k.natAbs := by
  rw [Nat.cast_natAbs, Int.cast_abs]
  rcases lt_trichotomy v 0 with hv | hv | hv
  · have hneg : neg = true := by
      by_contra hpos
      rw [eq_false_of_ne_true hpos] at hsign
      exact absurd (abs_nonneg v) (hsign ▸ hv).not_ge
    have hle : (k : ℚ) ≤ 0 := nonpos_of_mul_nonneg_left hk hv
    rw [hneg, abs_of_nonpos hle]
    exact (neg_neg _).symm
  · rw [hzero hv, Int.cast_zero, abs_zero]
    cases neg
    · rfl
    · exact neg_zero.symm
  · have hpos : neg = false := by
      by_contra hneg
      rw [eq_true_of_ne_false hneg] at hsign
      have hle : signed true |v| ≤ 0 := neg_nonpos.mpr (abs_nonneg v)
      exact absurd hle (hsign ▸ hv).not_ge
    have hle : (0 : ℚ) ≤ k := nonneg_of_mul_nonneg_left hk hv
    rw [hpos, abs_of_nonneg hle]
    rfl

/-- The nearest number is an integer if and only if the rational lies between the midpoints next to it. -/
theorem IsNearest.toInt?_iff (hd : IsNearest v d) (hsign : v = signed d.neg |v|) (hk : k.natAbs ≤ 2 ^ 52) :
    d.toInt? = some k ↔ RoundsToInt v k := by
  obtain ⟨w, hw, hbits⟩ := hd.exists_rounds hsign
  have hlt := wordOf_lt hk
  have hpos := perOne_rat_pos
  have hrounds := rounds_wordOf hk (abs_nonneg v)
  constructor
  · intro h
    have hword := eq_wordOf hk (unitsAt_of_toInt? h)
    obtain ⟨-, hvalue⟩ := toInt?_iff_value.mp h
    obtain rfl : w = wordOf k.natAbs := by omega
    obtain ⟨hlower, hupper⟩ := hrounds.mp hw
    refine ⟨?_, hlower, hupper⟩
    rw [← hvalue, value_eq, hsign]
    have hnonneg : (0 : ℚ) ≤ unitsAt d.magnitudeBits / perOne := div_nonneg (Nat.cast_nonneg _) hpos.le
    cases d.neg
    · exact mul_nonneg hnonneg (abs_nonneg v)
    · exact mul_nonneg_of_nonpos_of_nonpos (neg_nonpos.mpr hnonneg) (neg_nonpos.mpr (abs_nonneg v))
  · rintro ⟨hk', hlower, hupper⟩
    obtain rfl := hw.unique (hrounds.mpr ⟨hlower, hupper⟩)
    rw [Nat.min_eq_left hlt.le] at hbits
    have hunits := unitsAt_wordOf hk
    have hzero : v = 0 → k = 0 := by
      intro hv
      rw [hv, abs_zero, zero_mul] at hw
      have hword := hw.unique (rounds_zero (x := 0) (by norm_num))
      rw [hword, unitsAt_zero, Nat.cast_zero, eq_comm, mul_eq_zero] at hunits
      exact Int.natAbs_eq_zero.mp (by exact_mod_cast hunits.resolve_right hpos.ne')
    refine toInt?_iff_value.mpr ⟨?_, ?_⟩
    · rw [isFinite_iff, hbits, ← infinityBits_eq]
      exact hlt
    · rw [value_eq, hbits, hunits, mul_div_cancel_right₀ _ hpos.ne', eq_signed hsign hk' hzero]

theorem wordOf_two_pow : wordOf (2 ^ 52) = 1075 * 2 ^ 52 := by
  rw [wordOf, Nat.log2_two_pow]
  rfl

theorem unitsAt_wordOf_two_pow : (unitsAt (wordOf (2 ^ 52)) : ℚ) = 2 ^ 52 * perOne := by
  rw [unitsAt_wordOf le_rfl, Nat.cast_pow, Nat.cast_ofNat]

theorem two_pow_lt_limit : (2 : ℚ) ^ 52 < limit := by
  rw [limit]
  have hone : (1 : ℚ) ≤ 2 ^ 970 := one_le_pow₀ one_le_two
  calc (2 : ℚ) ^ 52 < 2 ^ 54 - 1 := by norm_num
    _ ≤ (2 ^ 54 - 1) * 2 ^ 970 := le_mul_of_one_le_right (by norm_num) hone

theorem IsNearest.of_small (hd : IsNearest v d) (hsign : v = signed d.neg |v|) (hv : |v| < 2 ^ 52) :
    d.isInfinite = false ∧ ∀ k, d.toInt? = some k → k.natAbs ≤ 2 ^ 52 := by
  have hfinite := hd.finite (hv.trans two_pow_lt_limit)
  refine ⟨isInfinite_eq_false_of_finite hfinite, fun k hk => ?_⟩
  obtain ⟨w, hw, hbits⟩ := hd.exists_rounds hsign
  have hunits := unitsAt_of_toInt? hk
  have hpos := perOne_rat_pos
  have htop := unitsAt_wordOf_two_pow
  rw [isFinite_iff, ← infinityBits_eq] at hfinite
  obtain rfl : d.magnitudeBits = w := by omega
  by_contra hlarge
  have hlt : (unitsAt (wordOf (2 ^ 52)) : ℚ) < unitsAt d.magnitudeBits := by
    rw [hunits, htop]
    exact mul_lt_mul_of_pos_right (by exact_mod_cast Nat.lt_of_not_le hlarge) hpos
  have hword : wordOf (2 ^ 52) < d.magnitudeBits := unitsAt_strictMono.lt_iff_lt.mp (by exact_mod_cast hlt)
  have hbelow := hw.below (d.magnitudeBits - 1) (by omega)
  have hle : (unitsAt (wordOf (2 ^ 52)) : ℚ) ≤ unitsAt (d.magnitudeBits - 1) := unitsAt_le (by omega)
  have hscaled := mul_lt_mul_of_pos_right hv hpos
  linarith

theorem IsNearest.of_large (hd : IsNearest v d) (hsign : v = signed d.neg |v|) (hv : 2 ^ 52 ≤ |v|) :
    d.isInfinite = true ∨ ∃ k, d.toInt? = some k ∧ 2 ^ 52 ≤ k.natAbs := by
  obtain ⟨w, hw, hbits⟩ := hd.exists_rounds hsign
  have hpos := perOne_rat_pos
  have htop := unitsAt_wordOf_two_pow
  have hword : wordOf (2 ^ 52) ≤ w := by
    by_contra hlt
    have habove := hw.above
    have hstep := unitsAt_lt (Nat.lt_of_not_le hlt)
    have hle : (unitsAt (w + 1) : ℚ) ≤ unitsAt (wordOf (2 ^ 52)) := unitsAt_le (Nat.lt_of_not_le hlt)
    have hscaled := mul_le_mul_of_nonneg_right hv hpos.le
    linarith
  by_cases hinfinite : infinityBits ≤ w
  · rw [Nat.min_eq_right hinfinite, infinityBits_eq] at hbits
    exact .inl ((isInfinite_iff d).mpr hbits)
  · rw [Nat.min_eq_left (Nat.le_of_not_le hinfinite)] at hbits
    have hgrade : 1074 ≤ gradeOf w := by
      rw [wordOf_two_pow] at hword
      rw [gradeOf]
      omega
    -- the unit of the word is a multiple of one
    obtain ⟨i, hi⟩ := Nat.exists_eq_add_of_le' hgrade
    obtain ⟨n, hn⟩ : ∃ n : Nat, (unitsAt w : ℚ) = n * perOne := by
      refine ⟨(w - gradeOf w * 2 ^ 52) * 2 ^ i, ?_⟩
      rw [unitsAt, hi, pow_add, ← mul_assoc, Nat.cast_mul, perOne_cast, Nat.cast_pow 2 1074, Nat.cast_ofNat]
    have hlarge : 2 ^ 52 ≤ n := by
      have hle := unitsAt_le hword
      rw [htop, hn] at hle
      exact_mod_cast le_of_mul_le_mul_right hle hpos
    refine .inr ⟨if d.neg then -n else n, toInt?_iff_value.mpr ⟨?_, ?_⟩, ?_⟩
    · rw [isFinite_iff, hbits, ← infinityBits_eq]
      exact Nat.lt_of_not_le hinfinite
    · rw [value_eq, hbits, hn, mul_div_cancel_right₀ _ hpos.ne', signed]
      split <;> push_cast <;> rfl
    · split
      · rwa [Int.natAbs_neg]
      · exact hlarge

end

end BaseLib.Double
