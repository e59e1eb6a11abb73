import BaseLib.Double.Literal
import BaseLib.Proofs.Decimal.Rounding
import BaseLib.Proofs.Double.Integral

namespace BaseLib

open Decimal

namespace Decimal

variable {m n k : Nat} {d : Decimal}

theorem numDigits_mono (h : m ≤ n) : numDigits m ≤ numDigits n :=
  (Decimal.numDigits_le_iff (Double.numDigits_pos n)).mpr (h.trans_lt (Double.lt_tenTo_length n))

theorem value_strip (n : Nat) (d : Decimal) : (normalize.strip n d).value = d.value := by
  induction n generalizing d with
  | zero => rfl
  | succ n ih =>
      unfold normalize.strip
      split
      · rename_i hzero
        rw [ih, value_carried (by omega)]
      · rfl

theorem value_normalize (d : Decimal) : d.normalize.value = d.value := by
  unfold normalize
  split
  · rename_i hzero
    simp [value, hzero]
  · exact value_strip _ d

theorem value_signed (d : Decimal) : d.value = Double.signed d.neg |d.value| := by
  rw [abs_value]
  rfl

theorem neg_strip (n : Nat) (d : Decimal) : (normalize.strip n d).neg = d.neg := by
  induction n generalizing d with
  | zero => rfl
  | succ n ih =>
      unfold normalize.strip
      split
      · exact ih _
      · rfl

theorem neg_normalize (d : Decimal) : d.normalize.neg = d.neg := by
  unfold normalize
  split
  · rfl
  · exact neg_strip _ d

theorem coeff_strip_le (n : Nat) (d : Decimal) : (normalize.strip n d).coeff ≤ d.coeff := by
  induction n generalizing d with
  | zero => exact Nat.le_refl _
  | succ n ih =>
      unfold normalize.strip
      split
      · exact (ih _).trans (Nat.div_le_self _ _)
      · exact Nat.le_refl _

theorem strip_mod (hne : d.coeff ≠ 0) (hlt : d.coeff < 10 ^ n) : (normalize.strip n d).coeff % 10 ≠ 0 := by
  induction n generalizing d with
  | zero => exact absurd hlt (by omega)
  | succ n ih =>
      rw [pow_succ] at hlt
      unfold normalize.strip
      split
      · exact ih (d := ⟨d.neg, d.coeff / 10, d.exp + 1⟩) (by dsimp only; omega) (by dsimp only; omega)
      · assumption

theorem normalize_mod (hne : d.coeff ≠ 0) : d.normalize.coeff % 10 ≠ 0 := by
  rw [normalize, if_neg hne]
  exact strip_mod hne (Double.lt_tenTo_length _)

theorem normalize_zero (h : d.coeff = 0) : d.normalize = ⟨d.neg, 0, 0⟩ := if_pos h

theorem numDigits_normalize_le (hk : 0 < k) (h : d.coeff ≤ 10 ^ k) : numDigits d.normalize.coeff ≤ k := by
  rw [Decimal.numDigits_le_iff hk]
  by_cases hzero : d.coeff = 0
  · rw [normalize_zero hzero]
    exact Nat.pow_pos (by decide)
  · rw [normalize, if_neg hzero]
    rcases h.lt_or_eq with hlt | heq
    · exact (coeff_strip_le _ d).trans_lt hlt
    · obtain ⟨i, hi⟩ : ∃ i, numDigits d.coeff = i + 1 := ⟨numDigits d.coeff - 1, by
        have hpos := Double.numDigits_pos d.coeff
        omega⟩
      have hten : d.coeff % 10 = 0 := by
        rw [heq]
        exact Nat.mod_eq_zero_of_dvd (dvd_pow_self 10 hk.ne')
      rw [hi, normalize.strip, if_pos hten]
      refine (coeff_strip_le i _).trans_lt ?_
      dsimp only
      omega

end Decimal

namespace Double

section

variable {x y z : ℚ} {w c : Nat} {g : ℤ} {d : Double} {q : Decimal}

theorem Rounds.between (hx : Rounds x w) (hz : Rounds z w) (hxy : x ≤ y) (hyz : y ≤ z) : Rounds y w := by
  have habove := hz.above
  refine ⟨by linarith, fun heq => hz.above_even (by linarith), fun v hv => ?_, fun v hv heq => ?_⟩
  · have hbelow := hx.below v hv
    linarith
  · have hbelow := hx.below v hv
    exact hx.below_even v hv (by linarith)

theorem rounds_unitsAt (w : Nat) : Rounds (unitsAt w) w := by
  have hnext := unitsAt_lt (Nat.lt_succ_self w)
  refine ⟨by linarith, fun heq => by linarith, fun v hv => ?_, fun v hv heq => ?_⟩
  · have hlt := unitsAt_lt (show v < w by omega)
    linarith
  · have hlt := unitsAt_lt (show v < w by omega)
    linarith

def Admits (d : Double) (x : ℚ) : Prop := Rounds (x * perOne) d.magnitudeBits

theorem Admits.between (hx : d.Admits x) (hz : d.Admits z) (hxy : x ≤ y) (hyz : y ≤ z) : d.Admits y :=
  Rounds.between hx hz (mul_le_mul_of_nonneg_right hxy perOne_rat_pos.le)
    (mul_le_mul_of_nonneg_right hyz perOne_rat_pos.le)

theorem abs_value (d : Double) : |d.value| = unitsAt d.magnitudeBits / perOne := by
  rw [value_eq, abs_signed d.neg (div_nonneg (Nat.cast_nonneg _) perOne_rat_pos.le)]

theorem value_signed (d : Double) : d.value = signed d.neg |d.value| := by
  rw [abs_value, ← value_eq]

theorem admits_self (d : Double) : d.Admits |d.value| := by
  rw [Admits, abs_value, div_mul_cancel₀ _ perOne_rat_pos.ne']
  exact rounds_unitsAt _

/-- A decimal reads back as a finite number if it has the number's sign and a magnitude that is rounded to
the number's. -/
theorem ofDecimal_eq_iff (hd : d.isFinite = true) :
    ofDecimal q = d ↔ q.neg = d.neg ∧ d.Admits |q.value| := by
  have hlt : d.magnitudeBits < infinityBits := by rwa [isFinite_iff, ← infinityBits_eq] at hd
  have hnearest := ofDecimal_isNearest q
  constructor
  · rintro rfl
    have hsigned : q.value = signed (ofDecimal q).neg |q.value| := by
      rw [neg_ofDecimal]
      exact Decimal.value_signed q
    refine ⟨(neg_ofDecimal q).symm, ?_⟩
    obtain ⟨w, hw, hbits⟩ := hnearest.exists_rounds hsigned
    obtain rfl : w = (ofDecimal q).magnitudeBits := by omega
    exact hw
  · rintro ⟨hneg, hadmits⟩
    have hd' := Rounds.isNearest hadmits (mul_nonneg (abs_nonneg _) perOne_rat_pos.le) q.neg
    rw [mul_div_cancel_right₀ _ perOne_rat_pos.ne', ← Decimal.value_signed,
      Nat.min_eq_left hlt.le] at hd'
    have hword : ofParts q.neg d.magnitudeBits = d := by
      have hsmall : d.magnitudeBits < 2 ^ 63 := hlt.trans (by decide)
      exact ext_magnitude ((neg_ofParts _ hsmall).trans hneg) (magnitudeBits_ofParts _ hsmall)
    rw [hword] at hd'
    exact hnearest.unique hd' ((neg_ofDecimal q).trans hneg)

def quarter (d : Double) : ℚ := 2 ^ (d.scale - 2)

theorem quarter_pos (d : Double) : 0 < d.quarter := zpow_pos zero_lt_two _

theorem four_quarters (d : Double) : 4 * (d.quarter * perOne) = 2 ^ (d.binade - 1) := by
  have hone : 1 ≤ d.binade := le_max_right _ _
  have hfour : (4 : ℚ) = 2 ^ (2 : ℤ) := by norm_num
  rw [quarter, perOne_cast, hfour, ← zpow_natCast, ← zpow_natCast, ← zpow_add₀ two_ne_zero,
    ← zpow_add₀ two_ne_zero, scale_eq]
  congr 1
  omega

theorem unitsAt_magnitudeBits (d : Double) :
    (unitsAt d.magnitudeBits : ℚ) = d.significand * 2 ^ (d.binade - 1) := by
  rw [← natAbs_units_eq, natAbs_units]
  push_cast
  rfl

theorem abs_value_quarters (d : Double) : |d.value| = (4 * d.significand : Nat) * d.quarter := by
  rw [abs_value, div_eq_iff perOne_rat_pos.ne', unitsAt_magnitudeBits, ← four_quarters]
  push_cast
  ring

theorem significand_pos (hz : d.isZero = false) : 0 < d.significand := by
  have hbits : d.magnitudeBits ≠ 0 := ne_of_beq_false hz
  have heq := magnitudeBits_eq d
  have hge := d.significand_ge
  by_contra hzero
  omega

theorem quarters_eq (d : Double) : d.quarters =
    (4 * d.significand - if d.significand = 2 ^ 52 ∧ 1 < d.exponentField then 1 else 2,
      4 * d.significand, 4 * d.significand + 2) := rfl

/-- The lower end is half way to the word below, which counts in half the unit if the significand is the least
of its binade. -/
theorem sum_before (hz : d.isZero = false) {u : Nat} (hu : u + 1 = d.magnitudeBits) :
    (unitsAt u + unitsAt d.magnitudeBits : ℚ) = 2 * (d.quarters.1 * (d.quarter * perOne)) := by
  have hword := magnitudeBits_eq d
  have hpos := significand_pos hz
  have hlt := significand_lt d
  have hunit := four_quarters d
  have hbinade : d.binade - 1 = 0 ∨ 2 ^ 52 ≤ d.significand := by
    have hge := d.significand_ge
    omega
  rw [unitsAt_magnitudeBits, quarters_eq]
  dsimp only
  split
  · rename_i hfirst
    obtain ⟨j, hj⟩ : ∃ j, d.binade - 1 = j + 1 := ⟨d.exponentField - 2, by rw [binade]; omega⟩
    have hprev : (unitsAt u : ℚ) = (2 ^ 53 - 1) * 2 ^ j := by
      rw [show u = j * 2 ^ 52 + (2 ^ 53 - 1) by omega, unitsAt_add (by decide) (.inr (by decide))]
      push_cast
      norm_num
    rw [hj, pow_succ 2 j] at hunit
    rw [hprev, hfirst.1, hj, pow_succ 2 j]
    push_cast
    linarith
  · rename_i hfirst
    have hlater : ¬(d.significand = 2 ^ 52 ∧ d.binade - 1 ≠ 0) := by
      rw [binade]
      omega
    rw [(units_before hlt.le hbinade (hu.trans hword)).resolve_right hlater, Nat.cast_sub (by omega), ← hunit]
    push_cast
    ring

theorem sum_after (d : Double) : (unitsAt d.magnitudeBits + unitsAt (d.magnitudeBits + 1) : ℚ) =
    2 * (d.quarters.2.2 * (d.quarter * perOne)) := by
  rw [unitsAt_succ, ← binade_sub_one, quarters_eq, Nat.cast_add, Nat.cast_pow, Nat.cast_ofNat,
    unitsAt_magnitudeBits, ← four_quarters]
  push_cast
  ring

theorem admits_iff (hz : d.isZero = false) :
    d.Admits x ↔ (d.quarters.1 * d.quarter ≤ x ∧ x ≤ d.quarters.2.2 * d.quarter) ∧
      (x = d.quarters.1 * d.quarter ∨ x = d.quarters.2.2 * d.quarter → Even d.significand) := by
  have hpos := perOne_rat_pos
  have hbefore {u : Nat} (hu : u + 1 = d.magnitudeBits) := sum_before hz hu
  have hafter := sum_after d
  rw [even_significand_iff]
  constructor
  · intro h
    obtain ⟨u, hu⟩ : ∃ u, u + 1 = d.magnitudeBits := ⟨d.magnitudeBits - 1, by
      have hbits : d.magnitudeBits ≠ 0 := ne_of_beq_false hz
      omega⟩
    have habove := h.above
    have hbelow := h.below u hu
    rw [hafter] at habove
    rw [hbefore hu] at hbelow
    refine ⟨⟨le_of_mul_le_mul_right (by linarith) hpos, le_of_mul_le_mul_right (by linarith) hpos⟩, ?_⟩
    rintro (rfl | rfl)
    · exact h.below_even u hu (by rw [hbefore hu, mul_assoc])
    · exact h.above_even (by rw [hafter, mul_assoc])
  · rintro ⟨⟨hlow, hhigh⟩, heven⟩
    have hlow' := mul_le_mul_of_nonneg_right hlow hpos.le
    have hhigh' := mul_le_mul_of_nonneg_right hhigh hpos.le
    refine ⟨by rw [hafter]; linarith, fun heq => heven (.inr ?_), fun u hu => by rw [hbefore hu]; linarith,
      fun u hu heq => heven (.inl ?_)⟩
    · rw [hafter] at heq
      exact mul_right_cancel₀ hpos.ne' (by linarith)
    · rw [hbefore hu] at heq
      exact mul_right_cancel₀ hpos.ne' (by linarith)

theorem pow_div_pow (b : ℚ) (q : ℤ) : b ^ q.toNat / b ^ (-q).toNat = b ^ q := by
  rcases le_total 0 q with hq | hq
  · obtain ⟨i, rfl⟩ := Int.eq_ofNat_of_zero_le hq
    simp
  · obtain ⟨i, hi⟩ := Int.eq_ofNat_of_zero_le (show 0 ≤ -q by omega)
    rw [show q = -(i : ℤ) by omega]
    simp

theorem sides_scaled (d : Double) (g : ℤ) : ∃ scale : ℚ, 0 < scale ∧ ∀ a c : Nat,
    ((d.sides a c g).1 : ℚ) = scale * (a * d.quarter) ∧ ((d.sides a c g).2 : ℚ) = scale * (c * 10 ^ g) := by
  refine ⟨2 ^ (-(d.scale - 2)).toNat * 10 ^ (-g).toNat, by positivity, fun a c => ?_⟩
  rw [quarter, ← pow_div_pow 2, ← pow_div_pow 10, sides]
  simp only [twoTo, tenTo, Nat.pow_eq]
  push_cast
  constructor <;> field_simp

theorem readsBack_iff (hz : d.isZero = false) : d.readsBack c g = true ↔ d.Admits (c * 10 ^ g) := by
  have hrun : d.readsBack c g =
      if d.significand % 2 = 0 then
        decide ((d.sides d.quarters.1 c g).1 ≤ (d.sides d.quarters.1 c g).2) &&
          decide ((d.sides d.quarters.2.2 c g).2 ≤ (d.sides d.quarters.2.2 c g).1)
      else
        decide ((d.sides d.quarters.1 c g).1 < (d.sides d.quarters.1 c g).2) &&
          decide ((d.sides d.quarters.2.2 c g).2 < (d.sides d.quarters.2.2 c g).1) := rfl
  obtain ⟨scale, hpos, hsides⟩ := sides_scaled d g
  have hle {a : Nat} : (d.sides a c g).1 ≤ (d.sides a c g).2 ↔ a * d.quarter ≤ c * 10 ^ g := by
    rw [← Nat.cast_le (α := ℚ), (hsides a c).1, (hsides a c).2, mul_le_mul_iff_right₀ hpos]
  have hge {a : Nat} : (d.sides a c g).2 ≤ (d.sides a c g).1 ↔ c * 10 ^ g ≤ a * d.quarter := by
    rw [← Nat.cast_le (α := ℚ), (hsides a c).1, (hsides a c).2, mul_le_mul_iff_right₀ hpos]
  rw [hrun, admits_iff hz]
  split
  · rename_i heven
    rw [Bool.and_eq_true, decide_eq_true_eq, decide_eq_true_eq, hle, hge]
    exact (and_iff_left fun _ => Nat.even_iff.mpr heven).symm
  · rename_i hodd
    have hends {y : ℚ} : (c * 10 ^ g = y → Even d.significand) ↔ c * 10 ^ g ≠ y :=
      imp_congr_right fun _ => iff_false_intro (mt Nat.even_iff.mp hodd)
    rw [Bool.and_eq_true, decide_eq_true_eq, decide_eq_true_eq, ← Nat.not_le, ← Nat.not_le, hle, hge, not_le, not_le,
      or_imp, hends, hends, lt_iff_le_and_ne, lt_iff_le_and_ne]
    tauto

def gridFloor (d : Double) (g : ℤ) : Nat :=
  (d.sides (4 * d.significand) 1 g).1 / (d.sides (4 * d.significand) 1 g).2

theorem gridFloor_spec (d : Double) (g : ℤ) : ∃ scale : ℚ, 0 < scale ∧
    ((d.sides (4 * d.significand) 1 g).2 : ℚ) = scale * 10 ^ g ∧
    (((d.sides (4 * d.significand) 1 g).1 % (d.sides (4 * d.significand) 1 g).2 : Nat) : ℚ) =
      scale * (|d.value| - d.gridFloor g * 10 ^ g) ∧
    d.gridFloor g * 10 ^ g ≤ |d.value| ∧ |d.value| < (d.gridFloor g + 1 : Nat) * 10 ^ g := by
  obtain ⟨scale, hpos, hsides⟩ := sides_scaled d g
  obtain ⟨hvalue, hunit⟩ := hsides (4 * d.significand) 1
  rw [← abs_value_quarters] at hvalue
  rw [Nat.cast_one, one_mul] at hunit
  have hten := ten_zpow_pos g
  have hunit_pos : 0 < (d.sides (4 * d.significand) 1 g).2 := by
    have hcast : (0 : ℚ) < (d.sides (4 * d.significand) 1 g).2 := hunit ▸ mul_pos hpos hten
    exact_mod_cast hcast
  have hdiv := Nat.div_add_mod' (d.sides (4 * d.significand) 1 g).1 (d.sides (4 * d.significand) 1 g).2
  have hmod := Nat.mod_lt (d.sides (4 * d.significand) 1 g).1 hunit_pos
  rw [← gridFloor] at hdiv
  generalize (d.sides (4 * d.significand) 1 g).1 % (d.sides (4 * d.significand) 1 g).2 = rest at hdiv hmod ⊢
  have hdiv' : (d.gridFloor g * (d.sides (4 * d.significand) 1 g).2 + rest : ℚ) =
      (d.sides (4 * d.significand) 1 g).1 := by exact_mod_cast hdiv
  have hmod' : (rest : ℚ) < (d.sides (4 * d.significand) 1 g).2 := by exact_mod_cast hmod
  have hrest : (0 : ℚ) ≤ rest := Nat.cast_nonneg _
  rw [hunit] at hdiv' hmod'
  rw [hvalue] at hdiv'
  refine ⟨scale, hpos, hunit, by linarith, ?_, ?_⟩
  · exact le_of_mul_le_mul_left (by linarith) hpos
  · refine lt_of_mul_lt_mul_left ?_ hpos.le
    push_cast
    linarith

def gap (d : Double) (g : ℤ) (c : Nat) : ℚ := |c * 10 ^ g - (|d.value|)|

theorem gap_of_le (h : (c * 10 ^ g : ℚ) ≤ |d.value|) : d.gap g c = |d.value| - c * 10 ^ g := by
  rw [gap, abs_sub_comm, abs_of_nonneg (sub_nonneg.mpr h)]

theorem gap_of_ge (h : |d.value| ≤ c * 10 ^ g) : d.gap g c = c * 10 ^ g - |d.value| := by
  rw [gap, abs_of_nonneg (sub_nonneg.mpr h)]

/-- Of the two points next to the number one is as near as any point in the interval, and in it as well. -/
theorem exists_neighbour (h : d.Admits (c * 10 ^ g)) :
    ∃ b, (b = d.gridFloor g ∨ b = d.gridFloor g + 1) ∧ d.Admits (b * 10 ^ g) ∧ d.gap g b ≤ d.gap g c := by
  obtain ⟨-, -, -, -, hle, hlt⟩ := gridFloor_spec d g
  have hten := ten_zpow_pos g
  rcases Nat.lt_or_ge (d.gridFloor g) c with hgt | hge
  · have hstep : ((d.gridFloor g + 1 : Nat) * 10 ^ g : ℚ) ≤ c * 10 ^ g :=
      mul_le_mul_of_nonneg_right (by exact_mod_cast hgt) hten.le
    refine ⟨_, .inr rfl, (admits_self d).between h hlt.le hstep, ?_⟩
    rw [gap_of_ge hlt.le, gap_of_ge (hlt.le.trans hstep)]
    linarith
  · have hstep : (c * 10 ^ g : ℚ) ≤ d.gridFloor g * 10 ^ g :=
      mul_le_mul_of_nonneg_right (by exact_mod_cast hge) hten.le
    refine ⟨_, .inl rfl, h.between (admits_self d) hstep hle, ?_⟩
    rw [gap_of_le hle, gap_of_le (hstep.trans hle)]
    linarith

theorem gridPoint?_none (hz : d.isZero = false) (h : d.gridPoint? g = none) (c : Nat) : ¬d.Admits (c * 10 ^ g) := by
  intro hc
  have hrun : d.gridPoint? g = none → d.readsBack (d.gridFloor g) g = false ∧
      d.readsBack (d.gridFloor g + 1) g = false := by
    unfold gridPoint? gridFloor
    dsimp only
    generalize d.readsBack _ g = low
    generalize d.readsBack _ g = high
    cases low <;> cases high <;> simp
  obtain ⟨hlow, hhigh⟩ := hrun h
  obtain ⟨b, rfl | rfl, hb, -⟩ := exists_neighbour hc
  · exact Bool.eq_false_iff.mp hlow ((readsBack_iff hz).mpr hb)
  · exact Bool.eq_false_iff.mp hhigh ((readsBack_iff hz).mpr hb)

theorem gap_gridFloor (d : Double) (g : ℤ) :
    let twice := 2 * ((d.sides (4 * d.significand) 1 g).1 % (d.sides (4 * d.significand) 1 g).2)
    (twice ≤ (d.sides (4 * d.significand) 1 g).2 → d.gap g (d.gridFloor g) ≤ d.gap g (d.gridFloor g + 1)) ∧
      ((d.sides (4 * d.significand) 1 g).2 ≤ twice → d.gap g (d.gridFloor g + 1) ≤ d.gap g (d.gridFloor g)) := by
  obtain ⟨scale, hpos, hunit, hrest, hle, hlt⟩ := gridFloor_spec d g
  dsimp only
  rw [gap_of_le hle, gap_of_ge hlt.le, ← Nat.cast_le (α := ℚ), ← Nat.cast_le (α := ℚ), Nat.cast_mul, hunit, hrest]
  push_cast
  constructor
  · intro h
    exact le_of_mul_le_mul_left (by linarith) hpos
  · intro h
    exact le_of_mul_le_mul_left (by linarith) hpos

/-- The result for a grid is a point next to the number, in the interval, and as near as any other that is. -/
theorem gridPoint?_some (hz : d.isZero = false) (h : d.gridPoint? g = some c) :
    c ≤ d.gridFloor g + 1 ∧ d.Admits (c * 10 ^ g) ∧ ∀ b : Nat, d.Admits (b * 10 ^ g) → d.gap g c ≤ d.gap g b := by
  have hrun : d.gridPoint? g =
      if d.readsBack (d.gridFloor g) g && d.readsBack (d.gridFloor g + 1) g then
        some (if 2 * ((d.sides (4 * d.significand) 1 g).1 % (d.sides (4 * d.significand) 1 g).2) <
            (d.sides (4 * d.significand) 1 g).2 then d.gridFloor g
          else if (d.sides (4 * d.significand) 1 g).2 <
            2 * ((d.sides (4 * d.significand) 1 g).1 % (d.sides (4 * d.significand) 1 g).2) then d.gridFloor g + 1
          else if d.gridFloor g % 2 = 0 then d.gridFloor g else d.gridFloor g + 1)
      else if d.readsBack (d.gridFloor g) g then some (d.gridFloor g)
      else if d.readsBack (d.gridFloor g + 1) g then some (d.gridFloor g + 1)
      else none := rfl
  have hchosen : (c = d.gridFloor g ∨ c = d.gridFloor g + 1) ∧ d.readsBack c g = true ∧
      ∀ b, b = d.gridFloor g ∨ b = d.gridFloor g + 1 → d.readsBack b g = true → d.gap g c ≤ d.gap g b := by
    obtain ⟨hdown, hup⟩ := gap_gridFloor d g
    rw [hrun] at h
    split at h
    · rename_i hboth
      rw [Bool.and_eq_true] at hboth
      have hnearest : (c = d.gridFloor g ∧ d.gap g c ≤ d.gap g (d.gridFloor g + 1)) ∨
          (c = d.gridFloor g + 1 ∧ d.gap g c ≤ d.gap g (d.gridFloor g)) := by
        obtain rfl := Option.some.inj h
        split
        · rename_i hlt
          exact .inl ⟨rfl, hdown hlt.le⟩
        · rename_i hge
          split
          · exact .inr ⟨rfl, hup (Nat.le_of_not_lt hge)⟩
          · rename_i hle
            split
            · exact .inl ⟨rfl, hdown (Nat.le_of_not_lt hle)⟩
            · exact .inr ⟨rfl, hup (Nat.le_of_not_lt hge)⟩
      rcases hnearest with ⟨rfl, hgap⟩ | ⟨rfl, hgap⟩
      · exact ⟨.inl rfl, hboth.1, fun b hb _ => hb.elim (fun hb => hb ▸ le_rfl) fun hb => hb ▸ hgap⟩
      · exact ⟨.inr rfl, hboth.2, fun b hb _ => hb.elim (fun hb => hb ▸ hgap) fun hb => hb ▸ le_rfl⟩
    · rename_i hnot
      rw [Bool.and_eq_true, not_and] at hnot
      split at h
      · rename_i hlow
        obtain rfl := Option.some.inj h
        exact ⟨.inl rfl, hlow, fun b hb hback => hb.elim (fun hb => hb ▸ le_rfl) fun hb =>
          absurd (hb ▸ hback) (hnot hlow)⟩
      · rename_i hlow
        split at h
        · rename_i hhigh
          obtain rfl := Option.some.inj h
          exact ⟨.inr rfl, hhigh, fun b hb hback => hb.elim (fun hb => absurd (hb ▸ hback) hlow) fun hb =>
            hb ▸ le_rfl⟩
        · cases h
  obtain ⟨hc, hback, hnearest⟩ := hchosen
  refine ⟨by omega, (readsBack_iff hz).mp hback, fun b hb => ?_⟩
  obtain ⟨a, ha, hadmits, hgap⟩ := exists_neighbour hb
  exact (hnearest a ha ((readsBack_iff hz).mpr hadmits)).trans hgap

theorem div_le_zpow_neg {num den k : Nat} (hden : 0 < den) (h : num * 10 ^ k ≤ den) :
    (num / den : ℚ) ≤ 10 ^ (-k : ℤ) := by
  have hden' : (0 : ℚ) < den := by exact_mod_cast hden
  have hk : (0 : ℚ) < 10 ^ k := by positivity
  rw [zpow_neg, zpow_natCast, div_le_iff₀ hden', ← div_eq_inv_mul, le_div_iff₀ hk]
  exact_mod_cast h

theorem zpow_neg_le_div_iff {num den : Nat} (hden : 0 < den) (k : Nat) :
    (10 : ℚ) ^ (-k : ℤ) ≤ num / den ↔ den ≤ num * 10 ^ k := by
  have hden' : (0 : ℚ) < den := by exact_mod_cast hden
  have hk : (0 : ℚ) < 10 ^ k := by positivity
  rw [zpow_neg, zpow_natCast, le_div_iff₀ hden', inv_mul_le_iff₀ hk, mul_comm]
  exact_mod_cast Iff.rfl

theorem leadingDigit_bounds {num den : Nat} (hnum : 0 < num) (hden : 0 < den) :
    (10 : ℚ) ^ leadingDigit num den ≤ num / den ∧ (num / den : ℚ) < 10 ^ (leadingDigit num den + 1) := by
  have hden' : (0 : ℚ) < den := by exact_mod_cast hden
  unfold leadingDigit
  split
  · rename_i hlarge
    have hlow := (Nat.le_div_iff_mul_le hden).mp (tenTo_length_le (Nat.div_pos hlarge hden).ne')
    have hhigh := (Nat.div_lt_iff_lt_mul hden).mp (lt_tenTo_length (num / den))
    obtain ⟨i, hi⟩ : ∃ i, numDigits (num / den) = i + 1 := ⟨_, (Nat.succ_pred_eq_of_pos (numDigits_pos _)).symm⟩
    rw [hi, Nat.add_sub_cancel] at hlow
    rw [hi] at hhigh ⊢
    rw [Nat.cast_succ, add_sub_cancel_right, ← Nat.cast_succ, zpow_natCast, zpow_natCast, le_div_iff₀ hden',
      div_lt_iff₀ hden']
    exact ⟨by exact_mod_cast hlow, by exact_mod_cast hhigh⟩
  · rename_i hsmall
    have hlow := tenTo_length_le (Nat.div_pos (show num ≤ den by omega) hnum).ne'
    have hhigh := (Nat.div_lt_iff_lt_mul hnum).mp (lt_tenTo_length (den / num))
    obtain ⟨i, hi⟩ : ∃ i, numDigits (den / num) = i + 1 := ⟨_, (Nat.succ_pred_eq_of_pos (numDigits_pos _)).symm⟩
    rw [hi, Nat.add_sub_cancel] at hlow
    rw [hi] at hhigh
    dsimp only
    rw [hi, Nat.add_sub_cancel, tenTo, Nat.pow_eq]
    split
    · rename_i hfirst
      rw [Nat.cast_succ, sub_add_cancel_right]
      refine ⟨(zpow_neg_le_div_iff hden i).mpr hfirst, ?_⟩
      have hle := div_le_zpow_neg hden ((Nat.mul_comm _ _).trans_le ((Nat.le_div_iff_mul_le hnum).mp hlow))
      exact hle.trans_lt (zpow_lt_zpow_right₀ (by norm_num) (by omega))
    · rename_i hlater
      refine ⟨(zpow_neg_le_div_iff hden (i + 1)).mpr ?_, ?_⟩
      · rw [Nat.mul_comm]
        exact hhigh.le
      · have hexp : -((i + 1 : Nat) : ℤ) + 1 = -(i : ℤ) := by
          push_cast
          ring
        rw [hexp]
        exact lt_of_not_ge (mt (zpow_neg_le_div_iff hden i).mp hlater)

def lead (d : Double) : ℤ := leadingDigit d.ratio.1 d.ratio.2

theorem ratio_eq (d : Double) : (d.ratio.1 / d.ratio.2 : ℚ) = |d.value| := by
  have hscale : (d.significand * 2 ^ d.scale : ℚ) = |d.value| := by
    rw [abs_value_quarters, quarter, zpow_sub₀ two_ne_zero]
    push_cast
    ring
  rw [← hscale, ← pow_div_pow, ratio]
  split
  · rename_i hnonneg
    rw [Int.toNat_of_nonpos (show -d.scale ≤ 0 by omega)]
    simp [twoTo]
  · rename_i hneg
    rw [Int.toNat_of_nonpos (show d.scale ≤ 0 by omega)]
    simp [twoTo, div_eq_mul_inv]

theorem lead_bounds (hz : d.isZero = false) : 10 ^ d.lead ≤ |d.value| ∧ |d.value| < 10 ^ (d.lead + 1) := by
  have hnum : 0 < d.ratio.1 := by
    have hpos := significand_pos hz
    unfold ratio
    split
    · exact Nat.mul_pos hpos (Nat.two_pow_pos _)
    · exact hpos
  rw [← ratio_eq]
  exact leadingDigit_bounds hnum (ratio_den_pos d)

/-- On the grid `n` places below the leading digit the points next to the number have at most `n + 1` digits, or are
a power of ten. -/
theorem gridFloor_lt (hz : d.isZero = false) (n : Nat) : d.gridFloor (d.lead - n) < 10 ^ (n + 1) := by
  obtain ⟨-, -, -, -, hle, -⟩ := gridFloor_spec d (d.lead - n)
  have hpow : (10 : ℚ) ^ (d.lead + 1) = 10 ^ (n + 1) * 10 ^ (d.lead - n) := by
    rw [← zpow_natCast, ← ten_zpow_add]
    congr 1
    push_cast
    ring
  have hlt := hle.trans_lt (lead_bounds hz).2
  rw [hpow] at hlt
  exact_mod_cast lt_of_mul_lt_mul_right hlt (ten_zpow_pos _).le

theorem quarters_cast (hz : d.isZero = false) : ∃ below : ℚ, (d.quarters.1 : ℚ) = 4 * d.significand - below ∧
    (below = 2 ∨ below = 1 ∧ d.significand = 2 ^ 52) := by
  have hpos := significand_pos hz
  rw [quarters_eq]
  dsimp only
  split
  · rename_i hfirst
    refine ⟨1, ?_, .inr ⟨rfl, hfirst.1⟩⟩
    rw [Nat.cast_sub (by omega)]
    push_cast
    rfl
  · refine ⟨2, ?_, .inl rfl⟩
    rw [Nat.cast_sub (by omega)]
    push_cast
    rfl

theorem exists_admits (hz : d.isZero = false) : ∃ c : Nat, d.Admits (c * 10 ^ (d.lead - 16)) := by
  obtain ⟨below, hlow, hbelow⟩ := quarters_cast hz
  have hhigh : (d.quarters.2.2 : ℚ) = 4 * d.significand + 2 := by
    rw [quarters_eq]
    push_cast
    rfl
  have hinside {x : ℚ} (hx : d.quarters.1 * d.quarter < x) (hx' : x < d.quarters.2.2 * d.quarter) : d.Admits x :=
    (admits_iff hz).mpr ⟨⟨hx.le, hx'.le⟩, fun h => h.elim (fun h => absurd h hx.ne') fun h => absurd h hx'.ne⟩
  have hquarter := quarter_pos d
  have hvalue := abs_value_quarters d
  have hstep : (10 : ℚ) ^ (d.lead - 16) < (2 + below) * d.quarter := by
    have hpow : (10 : ℚ) ^ (d.lead - 16) * 10 ^ 16 = 10 ^ d.lead := by
      rw [← zpow_natCast, ← ten_zpow_add]
      congr 1
      push_cast
      ring
    have hle := (lead_bounds hz).1
    rw [← hpow, hvalue, Nat.cast_mul, mul_assoc] at hle
    have hsmall : ((4 : Nat) : ℚ) * (d.significand * d.quarter) < (2 + below) * d.quarter * 10 ^ 16 := by
      rcases hbelow with rfl | ⟨rfl, hm⟩
      · have hlt : (d.significand : ℚ) < 2 ^ 53 := by exact_mod_cast significand_lt d
        have hmul := mul_lt_mul_of_pos_right hlt hquarter
        push_cast
        linarith
      · rw [hm]
        push_cast
        linarith
    exact lt_of_mul_lt_mul_right (hle.trans_lt hsmall) (by positivity)
  obtain ⟨-, -, -, -, hle, hlt⟩ := gridFloor_spec d (d.lead - 16)
  rw [hvalue] at hle hlt
  push_cast at hle hlt
  have hbelow_pos : 0 < below * d.quarter := by
    rcases hbelow with rfl | ⟨rfl, -⟩ <;> linarith
  rcases lt_or_ge (d.quarters.1 * d.quarter) (d.gridFloor (d.lead - 16) * 10 ^ (d.lead - 16)) with hin | hout
  · exact ⟨_, hinside hin (by rw [hhigh]; linarith)⟩
  · rw [hlow] at hout
    refine ⟨d.gridFloor (d.lead - 16) + 1, hinside ?_ ?_⟩
    · rw [hlow]
      push_cast
      linarith
    · rw [hhigh]
      push_cast
      linarith

theorem shortest_found (hz : d.isZero = false) : ∃ n c : Nat, n < 17 ∧ d.gridPoint? (d.lead - n) = some c ∧
    (∀ m < n, d.gridPoint? (d.lead - m) = none) ∧
    d.shortest = (⟨d.neg, c, d.lead - n⟩ : Decimal).normalize := by
  have hrun : d.shortest = (((List.range 17).findSome? fun (n : Nat) =>
      (d.gridPoint? (d.lead - n)).map fun c => (⟨d.neg, c, d.lead - n⟩ : Decimal)).getD ⟨d.neg, 0, 0⟩).normalize := by
    rw [shortest, if_neg (Bool.eq_false_iff.mp hz)]
    rfl
  cases hfound : (List.range 17).findSome? fun (n : Nat) =>
      (d.gridPoint? (d.lead - n)).map fun c => (⟨d.neg, c, d.lead - n⟩ : Decimal) with
  | none =>
      obtain ⟨c, hc⟩ := exists_admits hz
      have hlast := Option.map_eq_none_iff.mp
        (List.findSome?_eq_none_iff.mp hfound 16 (List.mem_range.mpr (by decide)))
      exact absurd hc (gridPoint?_none hz hlast c)
  | some q =>
      rw [hfound] at hrun
      obtain ⟨before, n, after, hrange, hn, hbefore⟩ := List.findSome?_eq_some_iff.mp hfound
      obtain ⟨c, hc, rfl⟩ := Option.map_eq_some_iff.mp hn
      rw [List.range_eq_range', List.range'_eq_append_iff] at hrange
      obtain ⟨k, hk, rfl, hafter⟩ := hrange
      obtain ⟨hstart, hleft, -⟩ := List.range'_eq_cons_iff.mp hafter.symm
      refine ⟨n, c, by omega, hc, fun m hm => ?_, hrun⟩
      exact Option.map_eq_none_iff.mp (hbefore m (List.mem_range'_1.mpr (by omega)))

/-- A decimal in the interval has a point there that is as near to the number, on a grid that takes no more
digits. -/
theorem exists_gridPoint {r : Decimal} (hz : d.isZero = false) (h : d.Admits |r.value|) :
    ∃ n b : Nat, n < numDigits r.coeff ∧ d.Admits (b * 10 ^ (d.lead - n)) ∧
      d.gap (d.lead - n) b ≤ |(|r.value| - |d.value|)| := by
  obtain ⟨i, hi⟩ : ∃ i, numDigits r.coeff = i + 1 := ⟨_, (Nat.succ_pred_eq_of_pos (numDigits_pos _)).symm⟩
  obtain ⟨hlow, hhigh⟩ := lead_bounds hz
  have hself := admits_self d
  have hcoeff : r.coeff ≠ 0 := by
    intro hzero
    have hpos := significand_pos hz
    have hend : 0 < d.quarters.1 := by
      rw [quarters_eq]
      dsimp only
      split <;> omega
    have hle := ((admits_iff hz).mp h).1.1
    rw [(value_eq_zero_iff r).mpr hzero, abs_zero] at hle
    exact absurd hle (not_le.mpr (mul_pos (by exact_mod_cast hend) (quarter_pos d)))
  have hfirst := tenTo_length_le hcoeff
  have hnext := lt_tenTo_length r.coeff
  rw [hi, Nat.add_sub_cancel] at hfirst
  rw [hi] at hnext
  have hr : |r.value| = r.coeff * 10 ^ r.exp := Decimal.abs_value r
  have hrlow : (10 : ℚ) ^ (r.exp + i) ≤ |r.value| := by
    rw [hr, add_comm, ten_zpow_add, zpow_natCast]
    exact mul_le_mul_of_nonneg_right (by exact_mod_cast hfirst) (ten_zpow_pos _).le
  have hrhigh : |r.value| < 10 ^ (r.exp + i + 1) := by
    rw [hr, add_assoc, add_comm, ten_zpow_add, ← Nat.cast_succ, zpow_natCast]
    exact mul_lt_mul_of_pos_right (by exact_mod_cast hnext) (ten_zpow_pos _)
  rw [hi]
  rcases lt_trichotomy (r.exp + i) d.lead with hlt | heq | hgt
  · -- the power of ten below the number stands between the two
    have hstep : |r.value| ≤ 10 ^ d.lead := hrhigh.le.trans (ten_zpow_le (by omega))
    refine ⟨0, 1, Nat.succ_pos i, ?_, ?_⟩
    · rw [Nat.cast_zero, sub_zero, Nat.cast_one, one_mul]
      exact h.between hself hstep hlow
    · rw [gap, abs_sub_comm, abs_sub_comm |r.value|, Nat.cast_zero, sub_zero, Nat.cast_one, one_mul,
        abs_of_nonneg (sub_nonneg.mpr hlow), abs_of_nonneg (sub_nonneg.mpr (hstep.trans hlow))]
      linarith
  · refine ⟨i, r.coeff, Nat.lt_succ_self i, ?_, ?_⟩
    · rwa [← heq, add_sub_cancel_right, ← hr]
    · rw [gap, ← heq, add_sub_cancel_right, ← hr]
  · -- and so does the power of ten above it
    have hstep : (10 : ℚ) ^ (d.lead + 1) ≤ |r.value| := (ten_zpow_le (by omega)).trans hrlow
    have hten : ((10 : Nat) : ℚ) * 10 ^ (d.lead - (0 : Nat)) = 10 ^ (d.lead + 1) := by
      rw [Nat.cast_zero, sub_zero, add_comm, ten_zpow_add, zpow_one]
      rfl
    refine ⟨0, 10, Nat.succ_pos i, ?_, ?_⟩
    · rw [hten]
      exact hself.between h hhigh.le hstep
    · rw [gap, hten, abs_of_nonneg (sub_nonneg.mpr hhigh.le), abs_of_nonneg (sub_nonneg.mpr (hhigh.le.trans hstep))]
      linarith

/-- Of the decimals that read back as the number it has the fewest digits, and of those with as few it is
the nearest. -/
structure IsShortest (d : Double) (q : Decimal) : Prop where
  back : ofDecimal q = d
  fewest : ∀ r, ofDecimal r = d → numDigits q.coeff ≤ numDigits r.coeff
  nearest : ∀ r, ofDecimal r = d → numDigits r.coeff = numDigits q.coeff → |q.value - d.value| ≤ |r.value - d.value|

theorem shortest_of_zero (hz : d.isZero = true) : d.shortest = ⟨d.neg, 0, 0⟩ := by
  rw [shortest, if_pos hz]

theorem neg_shortest (d : Double) : d.shortest.neg = d.neg := by
  cases hz : d.isZero with
  | true => rw [shortest_of_zero hz]
  | false =>
      obtain ⟨n, c, -, -, -, hshortest⟩ := shortest_found hz
      rw [hshortest, neg_normalize]

theorem isShortest_shortest (hd : d.isFinite = true) : d.IsShortest d.shortest := by
  cases hz : d.isZero with
  | true =>
      rw [shortest_of_zero hz]
      have hvalue : d.value = 0 := by
        rw [← abs_eq_zero, abs_value, eq_of_beq hz]
        simp [unitsAt]
      refine ⟨(ofDecimal_eq_iff hd).mpr ⟨rfl, ?_⟩, fun r _ => numDigits_mono (Nat.zero_le _), fun r _ _ => ?_⟩
      · have hself := admits_self d
        rwa [hvalue, ← (Decimal.value_eq_zero_iff ⟨d.neg, 0, 0⟩).mpr rfl] at hself
      · rw [hvalue, (Decimal.value_eq_zero_iff ⟨d.neg, 0, 0⟩).mpr rfl, sub_self, abs_zero]
        exact abs_nonneg _
  | false =>
      obtain ⟨n, c, -, hc, hnone, hshortest⟩ := shortest_found hz
      obtain ⟨hle, hadmits, hgap⟩ := gridPoint?_some hz hc
      have hvalue : |d.shortest.value| = c * 10 ^ (d.lead - n) := by
        rw [hshortest, value_normalize, Decimal.abs_value]
      have hdigits : numDigits d.shortest.coeff ≤ n + 1 := by
        rw [hshortest]
        exact numDigits_normalize_le (Nat.succ_pos n) (hle.trans (gridFloor_lt hz n))
      have hdist {r : Decimal} (hr : r.neg = d.neg) : |r.value - d.value| = |(|r.value| - |d.value|)| := by
        have hsigned := abs_signed_sub d.neg |r.value| |d.value|
        rwa [← value_signed, ← hr, ← Decimal.value_signed] at hsigned
      have hgrid {r : Decimal} (hr : ofDecimal r = d) : ∃ m b : Nat, n ≤ m ∧ m < numDigits r.coeff ∧
          d.Admits (b * 10 ^ (d.lead - m)) ∧ d.gap (d.lead - m) b ≤ |r.value - d.value| := by
        obtain ⟨hsign, hr⟩ := (ofDecimal_eq_iff hd).mp hr
        obtain ⟨m, b, hm, hb, hnear⟩ := exists_gridPoint hz hr
        refine ⟨m, b, Nat.le_of_not_lt fun hlt => gridPoint?_none hz (hnone m hlt) b hb, hm, hb, ?_⟩
        rwa [hdist hsign]
      refine ⟨(ofDecimal_eq_iff hd).mpr ⟨neg_shortest d, hvalue ▸ hadmits⟩, fun r hr => ?_, fun r hr hcount => ?_⟩
      · obtain ⟨m, b, hnm, hm, -⟩ := hgrid hr
        omega
      · obtain ⟨m, b, hnm, hm, hb, hnear⟩ := hgrid hr
        obtain rfl : m = n := by omega
        rw [hdist (neg_shortest d), hvalue]
        exact (hgap b hb).trans hnear

end

end Double

end BaseLib
