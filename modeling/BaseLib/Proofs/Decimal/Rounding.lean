import BaseLib.Proofs.Number.Misuse
import Mathlib.Data.Int.Log
import Mathlib.Data.Rat.Floor

namespace BaseLib.Decimal

open Double

def Midpoint.Takes (a : ℚ) (k : ℤ) : Midpoint → Prop
  | awayFromZero => |a| < |(k : ℚ)|
  | toEven => Even k

/-- An integer is the one nearest to a rational. -/
structure Nearest (tie : Midpoint) (a : ℚ) (k : ℤ) : Prop where
  near : |a - k| ≤ 1 / 2
  half : |a - k| = 1 / 2 → tie.Takes a k

/-- A rational is another one rounded to some decimals; a negative number of them counts to the left of
the point. -/
def RoundsTo (tie : Midpoint) (places : ℤ) (x y : ℚ) : Prop :=
  ∃ k : ℤ, Nearest tie (x * 10 ^ places) k ∧ y * 10 ^ places = k

/-- A rational is another one rounded to `n` significant digits. -/
def Significant (tie : Midpoint) (n : Nat) (x y : ℚ) : Prop :=
  RoundsTo tie (n - 1 - Int.log 10 |x|) x y

def Fits (n : Nat) (x : ℚ) : Prop := ∃ k e : ℤ, x = k * 10 ^ e ∧ |k| < 10 ^ n

variable {tie : Midpoint} {a b x x' y y' z : ℚ} {k l e places : ℤ} {n : Nat} {d r : Decimal}

theorem ten_zpow_pos (e : ℤ) : (0 : ℚ) < 10 ^ e := zpow_pos (by norm_num) e

theorem ten_zpow_ne (e : ℤ) : (10 : ℚ) ^ e ≠ 0 := (ten_zpow_pos e).ne'

theorem ten_zpow_add (e f : ℤ) : (10 : ℚ) ^ (e + f) = 10 ^ e * 10 ^ f := zpow_add₀ (by norm_num) e f

theorem ten_zpow_le {e f : ℤ} (h : e ≤ f) : (10 : ℚ) ^ e ≤ 10 ^ f := zpow_le_zpow_right₀ (by norm_num) h

theorem nearest_self (tie : Midpoint) (k : ℤ) : Nearest tie k k := by
  constructor <;> norm_num

theorem Nearest.neg (h : Nearest tie a k) : Nearest tie (-a) (-k) := by
  have habs : |-a - ((-k : ℤ) : ℚ)| = |a - k| := by
    rw [← abs_neg]
    push_cast
    ring_nf
  refine ⟨habs ▸ h.near, fun hhalf => ?_⟩
  have htakes := h.half (habs ▸ hhalf)
  cases tie with
  | awayFromZero =>
      show |-a| < |((-k : ℤ) : ℚ)|
      rw [Int.cast_neg, abs_neg, abs_neg]
      exact htakes
  | toEven => exact Even.neg htakes

theorem Nearest.of_lt (h : |a - k| < 1 / 2) : Nearest tie a k := ⟨h.le, fun heq => absurd heq h.ne⟩

theorem Nearest.unique (h : Nearest tie a k) (h' : Nearest tie a l) : k = l := by
  have hnext {k l : ℤ} (h : Nearest tie a k) (h' : Nearest tie a l) (hkl : k < l) : False := by
    have hle : (k : ℚ) + 1 ≤ l := by exact_mod_cast hkl
    have hk := abs_le.mp h.near
    have hl := abs_le.mp h'.near
    have hk' : a - k = 1 / 2 := by linarith
    have hl' : a - l = -(1 / 2) := by linarith
    have hl'' : l = k + 1 := by
      have hcast : (l : ℚ) = k + 1 := by linarith
      exact_mod_cast hcast
    have hlow := h.half (by rw [hk']; norm_num)
    have hhigh := h'.half (by rw [hl']; norm_num)
    cases tie with
    | awayFromZero =>
        change |a| < _ at hlow hhigh
        have ha : a = k + 1 / 2 := by linarith
        rw [hl'', ha] at hhigh
        rw [ha] at hlow
        push_cast at hhigh
        rcases lt_or_ge k 0 with hneg | hpos
        · have hneg' : (k : ℚ) + 1 ≤ 0 := by exact_mod_cast hneg
          rw [abs_of_nonpos (by linarith), abs_of_nonpos hneg'] at hhigh
          linarith
        · have hpos' : (0 : ℚ) ≤ k := by exact_mod_cast hpos
          rw [abs_of_nonneg (by linarith), abs_of_nonneg hpos'] at hlow
          linarith
    | toEven =>
        change Even _ at hlow hhigh
        rw [hl'', Int.even_add_one] at hhigh
        exact hhigh hlow
  rcases lt_trichotomy k l with hlt | heq | hgt
  · exact (hnext h h' hlt).elim
  · exact heq
  · exact (hnext h' h hgt).elim

theorem Nearest.mono (h : Nearest tie a k) (h' : Nearest tie b l) (hab : a ≤ b) : k ≤ l := by
  by_contra hlt
  have hstep : (l : ℚ) + 1 ≤ k := by exact_mod_cast not_le.mp hlt
  have hk := abs_le.mp h.near
  have hl := abs_le.mp h'.near
  -- both lie half way between the two integers, so they are the same
  obtain rfl : a = b := by linarith
  exact hlt (h.unique h').le

theorem nearest_roundDiv (tie : Midpoint) (num : Nat) {den : Nat} (hd : 0 < den) :
    Nearest tie (num / den) (roundDiv tie num den : Nat) := by
  obtain ⟨f, hquotient, hnonneg, hlt, hsettles⟩ := settles_roundDiv tie num hd
  rw [hquotient]
  have hlow : |(num / den : Nat) + f - ((num / den : Nat) : ℤ)| = f := by
    rw [Int.cast_natCast, add_sub_cancel_left, abs_of_nonneg hnonneg]
  have hhigh : |(num / den : Nat) + f - ((num / den + 1 : Nat) : ℤ)| = 1 - f := by
    rw [Int.cast_natCast, Nat.cast_succ, add_sub_add_left_eq_sub, abs_of_neg (by linarith), neg_sub]
  generalize roundDiv tie num den = m at hsettles
  cases hsettles with
  | below hf => exact .of_lt (by linarith)
  | above hf => exact .of_lt (by linarith)
  | away hf =>
      refine ⟨by linarith, fun _ => ?_⟩
      show |((num / den : Nat) : ℚ) + f| < |(((num / den + 1 : Nat) : ℤ) : ℚ)|
      rw [Int.cast_natCast, Nat.cast_succ, abs_of_nonneg (by positivity), abs_of_nonneg (by positivity)]
      linarith
  | even hf hm heven =>
      have hnear : |(num / den : Nat) + f - (m : ℤ)| ≤ 1 / 2 := by
        rcases hm with rfl | rfl <;> linarith
      exact ⟨hnear, fun _ => (Int.even_coe_nat _).mpr heven⟩

theorem RoundsTo.unique (h : RoundsTo tie places x y) (h' : RoundsTo tie places x z) : y = z := by
  obtain ⟨k, hk, hy⟩ := h
  obtain ⟨l, hl, hz⟩ := h'
  obtain rfl := hk.unique hl
  exact mul_right_cancel₀ (ten_zpow_ne places) (hy.trans hz.symm)

theorem roundsTo_self (tie : Midpoint) (h : x * 10 ^ places = k) : RoundsTo tie places x x :=
  ⟨k, h ▸ nearest_self tie k, h⟩

theorem RoundsTo.scale (h : RoundsTo tie places x y) (e : ℤ) :
    RoundsTo tie (places - e) (x * 10 ^ e) (y * 10 ^ e) := by
  obtain ⟨k, hk, hy⟩ := h
  have hmove (x : ℚ) : x * 10 ^ e * 10 ^ (places - e) = x * 10 ^ places := by
    rw [mul_assoc, ← ten_zpow_add, add_sub_cancel]
  exact ⟨k, by rwa [hmove], by rwa [hmove]⟩

theorem RoundsTo.neg (h : RoundsTo tie places x y) : RoundsTo tie places (-x) (-y) := by
  obtain ⟨k, hk, hy⟩ := h
  refine ⟨-k, ?_, ?_⟩
  · rw [neg_mul]
    exact hk.neg
  · rw [neg_mul, hy, Int.cast_neg]

theorem RoundsTo.signed (h : RoundsTo tie places x y) (neg : Bool) :
    RoundsTo tie places (signed neg x) (signed neg y) := by
  cases neg with
  | false => exact h
  | true => exact h.neg

theorem RoundsTo.mono (h : RoundsTo tie places x y) (h' : RoundsTo tie places x' y') (hx : x ≤ x') : y ≤ y' := by
  obtain ⟨k, hk, hy⟩ := h
  obtain ⟨l, hl, hy'⟩ := h'
  have hpos := ten_zpow_pos places
  refine le_of_mul_le_mul_right ?_ hpos
  rw [hy, hy']
  exact_mod_cast hk.mono hl (mul_le_mul_of_nonneg_right hx hpos.le)

theorem abs_value (d : Decimal) : |d.value| = d.coeff * 10 ^ d.exp :=
  abs_signed d.neg (mul_nonneg (Nat.cast_nonneg _) (ten_zpow_pos _).le)

theorem value_eq_zero_iff (d : Decimal) : d.value = 0 ↔ d.coeff = 0 := by
  rw [← abs_eq_zero, abs_value, mul_eq_zero, or_iff_left (ten_zpow_ne _), Nat.cast_eq_zero]

theorem roundsTo_coeff {c : Nat} (h : Nearest tie (d.coeff * 10 ^ (d.exp - e)) c) :
    RoundsTo tie (-e) d.value (⟨d.neg, c, e⟩ : Decimal).value := by
  refine RoundsTo.signed ⟨c, ?_, ?_⟩ d.neg
  · rwa [mul_assoc, ← ten_zpow_add, ← sub_eq_add_neg]
  · rw [mul_assoc, ← ten_zpow_add, add_neg_cancel, zpow_zero, mul_one, Int.cast_natCast]

theorem roundsTo_rescale (tie : Midpoint) (d : Decimal) (e : ℤ) :
    RoundsTo tie (-e) d.value (d.rescale tie e).value := by
  unfold rescale
  split
  · rename_i hle
    obtain ⟨i, hi⟩ := Int.eq_ofNat_of_zero_le (show 0 ≤ d.exp - e by omega)
    refine roundsTo_coeff ?_
    have hcoeff : (d.coeff * 10 ^ (d.exp - e) : ℚ) = ((d.coeff * tenTo (d.exp - e).toNat : Nat) : ℤ) := by
      rw [hi, zpow_natCast, tenTo, Nat.pow_eq]
      push_cast
      rfl
    rw [hcoeff]
    exact nearest_self tie _
  · split
    · -- So far below the last place the number is less than a tenth of it.
      rename_i hsmall
      refine roundsTo_coeff (.of_lt ?_)
      have hlt : (d.coeff * 10 ^ (d.exp - e) : ℚ) < 10 ^ (-1 : ℤ) := by
        refine (magnitude_lt ⟨d.neg, d.coeff, d.exp - e⟩).trans_le (ten_zpow_le ?_)
        unfold leadingExponent
        dsimp only
        omega
      have hpos : (0 : ℚ) ≤ d.coeff * 10 ^ (d.exp - e) := mul_nonneg (Nat.cast_nonneg _) (ten_zpow_pos _).le
      rw [Nat.cast_zero, Int.cast_zero, sub_zero, abs_of_nonneg hpos]
      exact hlt.trans (by norm_num)
    · rename_i hle hnear
      obtain ⟨i, hi⟩ := Int.eq_ofNat_of_zero_le (show 0 ≤ e - d.exp by omega)
      refine roundsTo_coeff ?_
      have hcoeff : (d.coeff * 10 ^ (d.exp - e) : ℚ) = d.coeff / tenTo (e - d.exp).toNat := by
        rw [show d.exp - e = -(i : ℤ) by omega, hi, zpow_neg, zpow_natCast, tenTo, Nat.pow_eq]
        push_cast
        rfl
      rw [hcoeff]
      exact nearest_roundDiv tie _ (Nat.pow_pos (by decide))

theorem exp_rescale (tie : Midpoint) (d : Decimal) (e : ℤ) : (d.rescale tie e).exp = e := by
  unfold rescale
  split_ifs <;> rfl

theorem rescale_neg (tie : Midpoint) (d : Decimal) (e : ℤ) : (d.rescale tie e).neg = d.neg := by
  unfold rescale
  split_ifs <;> rfl

theorem log_eq_of_bounds (h : (10 : ℚ) ^ e ≤ x) (h' : x < 10 ^ (e + 1)) : Int.log 10 x = e := by
  have hpos : 0 < x := (ten_zpow_pos e).trans_le h
  have hle := (Int.zpow_le_iff_le_log (b := 10) (by norm_num) hpos).mp (by exact_mod_cast h)
  have hlt := (Int.lt_zpow_iff_log_lt (b := 10) (by norm_num) hpos).mp (by exact_mod_cast h')
  omega

theorem log_value (h : d.coeff ≠ 0) : Int.log 10 |d.value| = d.leadingExponent := by
  rw [abs_value]
  exact log_eq_of_bounds (le_magnitude h) (magnitude_lt d)

theorem Fits.significant_self (h : Fits n x) (tie : Midpoint) : Significant tie n x x := by
  obtain ⟨k, e, rfl, hk⟩ := h
  by_cases hzero : k = 0
  · exact roundsTo_self (k := 0) tie (by simp [hzero])
  have hlog : Int.log 10 |(k : ℚ) * 10 ^ e| < n + e := by
    have hpos : 0 < |(k : ℚ) * 10 ^ e| :=
      abs_pos.mpr (mul_ne_zero (Int.cast_ne_zero.mpr hzero) (ten_zpow_ne e))
    refine (Int.lt_zpow_iff_log_lt (b := 10) (by norm_num) hpos).mp ?_
    have hk' : |(k : ℚ)| < 10 ^ n := by exact_mod_cast hk
    rw [abs_mul, abs_of_pos (ten_zpow_pos e), Nat.cast_ofNat, ten_zpow_add, zpow_natCast]
    exact mul_lt_mul_of_pos_right hk' (ten_zpow_pos e)
  obtain ⟨i, hi⟩ := Int.eq_ofNat_of_zero_le
    (show 0 ≤ e + (n - 1 - Int.log 10 |(k : ℚ) * 10 ^ e|) by omega)
  refine roundsTo_self (k := k * 10 ^ i) tie ?_
  rw [mul_assoc, ← ten_zpow_add, hi, zpow_natCast]
  push_cast
  rfl

theorem Significant.eq_of_fits (h : Significant tie n x y) (hx : Fits n x) : y = x :=
  RoundsTo.unique h (hx.significant_self tie)

theorem fits_of_numDigits (h : numDigits d.coeff ≤ n) : Fits n d.value := by
  have hlt : d.coeff < 10 ^ n := (lt_tenTo_length _).trans_le (Nat.pow_le_pow_right (by decide) h)
  refine ⟨if d.neg then -d.coeff else d.coeff, d.exp, ?_, ?_⟩
  · unfold value Double.signed
    split
    · push_cast
      exact (neg_mul _ _).symm
    · push_cast
      rfl
  · split
    · rw [abs_neg]
      exact_mod_cast hlt
    · exact_mod_cast hlt

theorem Nearest.pow_le {i : Nat} (h : Nearest tie a k) (ha : (10 : ℚ) ^ i ≤ |a|) : (10 : ℤ) ^ i ≤ |k| := by
  have hnear := (abs_sub_abs_le_abs_sub a k).trans h.near
  have hlt : ((10 ^ i : ℤ) : ℚ) < |k| + 1 := by
    push_cast
    linarith
  exact Int.lt_add_one_iff.mp (by exact_mod_cast hlt)

theorem Nearest.le_pow {i : Nat} (h : Nearest tie a k) (ha : |a| ≤ (10 : ℚ) ^ i) : |k| ≤ (10 : ℤ) ^ i := by
  have hnear := (abs_sub_abs_le_abs_sub (k : ℚ) a).trans (abs_sub_comm a k ▸ h.near)
  have hlt : ((|k| : ℤ) : ℚ) < ((10 ^ i : ℤ) : ℚ) + 1 := by
    push_cast
    linarith
  exact Int.lt_add_one_iff.mp (by exact_mod_cast hlt)

theorem abs_mul_zpow (x : ℚ) (e : ℤ) : |x * 10 ^ e| = |x| * 10 ^ e := by
  rw [abs_mul, abs_of_pos (ten_zpow_pos e)]

theorem RoundsTo.pow_le (h : RoundsTo tie places x y) (he : 0 ≤ e + places) (hx : 10 ^ e ≤ |x|) :
    10 ^ e ≤ |y| := by
  obtain ⟨k, hk, hy⟩ := h
  obtain ⟨i, hi⟩ := Int.eq_ofNat_of_zero_le he
  have hpow : (10 : ℚ) ^ e * 10 ^ places = 10 ^ i := by rw [← ten_zpow_add, hi, zpow_natCast]
  have hle := hk.pow_le (i := i) (by
    rw [abs_mul_zpow, ← hpow]
    exact mul_le_mul_of_nonneg_right hx (ten_zpow_pos places).le)
  refine le_of_mul_le_mul_right ?_ (ten_zpow_pos places)
  rw [hpow, ← abs_mul_zpow, hy]
  exact_mod_cast hle

theorem RoundsTo.le_pow (h : RoundsTo tie places x y) (he : 0 ≤ e + places) (hx : |x| ≤ 10 ^ e) :
    |y| ≤ 10 ^ e := by
  obtain ⟨k, hk, hy⟩ := h
  obtain ⟨i, hi⟩ := Int.eq_ofNat_of_zero_le he
  have hpow : (10 : ℚ) ^ e * 10 ^ places = 10 ^ i := by rw [← ten_zpow_add, hi, zpow_natCast]
  have hle := hk.le_pow (i := i) (by
    rw [abs_mul_zpow, ← hpow]
    exact mul_le_mul_of_nonneg_right hx (ten_zpow_pos places).le)
  refine le_of_mul_le_mul_right ?_ (ten_zpow_pos places)
  rw [hpow, ← abs_mul_zpow, hy]
  exact_mod_cast hle

theorem zpow_log_le (hx : x ≠ 0) : (10 : ℚ) ^ Int.log 10 |x| ≤ |x| := by
  exact_mod_cast Int.zpow_log_le_self (b := 10) (by norm_num) (abs_pos.mpr hx)

theorem lt_zpow_log (x : ℚ) : |x| < 10 ^ (Int.log 10 |x| + 1) := by
  exact_mod_cast Int.lt_zpow_succ_log_self (b := 10) (by norm_num) |x|

theorem log_mul_zpow (hx : x ≠ 0) (e : ℤ) : Int.log 10 |x * 10 ^ e| = Int.log 10 |x| + e := by
  rw [abs_mul_zpow]
  refine log_eq_of_bounds ?_ ?_
  · rw [ten_zpow_add]
    exact mul_le_mul_of_nonneg_right (zpow_log_le hx) (ten_zpow_pos e).le
  · rw [add_right_comm, ten_zpow_add]
    exact mul_lt_mul_of_pos_right (lt_zpow_log x) (ten_zpow_pos e)

theorem Significant.scale (h : Significant tie n x y) (hx : x ≠ 0) (e : ℤ) :
    Significant tie n (x * 10 ^ e) (y * 10 ^ e) := by
  have hscale := RoundsTo.scale h e
  rw [Significant, log_mul_zpow hx, ← sub_sub]
  exact hscale

theorem Significant.bounds (h : Significant tie n x y) (hx : x ≠ 0) (hn : 0 < n) :
    10 ^ Int.log 10 |x| ≤ |y| ∧ |y| ≤ 10 ^ (Int.log 10 |x| + 1) :=
  ⟨RoundsTo.pow_le h (by omega) (zpow_log_le hx), RoundsTo.le_pow h (by omega) (lt_zpow_log x).le⟩

theorem RoundsTo.fits (h : RoundsTo tie places x y) (hx : Fits n x) (hn : 0 < n) : Fits n y := by
  obtain ⟨c, e, hc, hlt⟩ := hx
  rcases le_or_gt (-places) e with hle | hgt
  · obtain ⟨i, hi⟩ := Int.eq_ofNat_of_zero_le (show 0 ≤ e + places by omega)
    have hgrid : x * 10 ^ places = ((c * 10 ^ i : ℤ) : ℚ) := by
      rw [hc, mul_assoc, ← ten_zpow_add, hi, zpow_natCast]
      push_cast
      rfl
    rw [h.unique (roundsTo_self tie hgrid)]
    exact ⟨c, e, hc, hlt⟩
  · obtain ⟨k, hk, hy⟩ := h
    obtain ⟨i, rfl⟩ : ∃ i, n = i + 1 := ⟨n - 1, by omega⟩
    have hlt' : |(c : ℚ)| ≤ 10 ^ (i + 1) := by exact_mod_cast hlt.le
    have hbound : |x * 10 ^ places| ≤ 10 ^ i := by
      rw [hc, mul_assoc, ← ten_zpow_add, abs_mul_zpow]
      have hten : (10 : ℚ) ^ (e + places) ≤ 10 ^ (-1 : ℤ) := ten_zpow_le (by omega)
      refine (mul_le_mul hlt' hten (ten_zpow_pos _).le (by positivity)).trans_eq ?_
      rw [pow_succ, mul_assoc]
      norm_num
    refine ⟨k, -places, ?_, (hk.le_pow hbound).trans_lt (pow_lt_pow_right₀ (by norm_num) (Nat.lt_succ_self i))⟩
    rw [← hy, mul_assoc, ← ten_zpow_add, add_neg_cancel, zpow_zero, mul_one]

theorem value_carried {c : Nat} (h : c = 10 * (c / 10)) (neg : Bool) (e : ℤ) :
    (⟨neg, c / 10, e + 1⟩ : Decimal).value = (⟨neg, c, e⟩ : Decimal).value := by
  have hc : (c : ℚ) = 10 * (c / 10 : Nat) := by exact_mod_cast h
  unfold value
  dsimp only
  rw [hc, ten_zpow_add, zpow_one]
  congr 1
  ring

theorem toSignificant_spec (hn : 0 < n) (d : Decimal) :
    (d.toSignificant n).neg = d.neg ∧ numDigits (d.toSignificant n).coeff ≤ n ∧
      Significant .toEven n d.value (d.toSignificant n).value := by
  unfold toSignificant
  dsimp only
  split
  · rename_i hle
    exact ⟨rfl, hle, (fits_of_numDigits hle).significant_self _⟩
  · rename_i hwide
    obtain ⟨k, hk⟩ : ∃ k, numDigits d.coeff = n + k := ⟨numDigits d.coeff - n, by omega⟩
    have hsub : numDigits d.coeff - n = k := by omega
    have hne : d.coeff ≠ 0 := by
      rintro hzero
      rw [hzero, show numDigits 0 = 1 from rfl] at hk
      omega
    have hrescale := roundsTo_rescale .toEven d (d.exp + k)
    have hplaces : -(d.exp + k) = n - 1 - Int.log 10 |d.value| := by
      rw [log_value hne, leadingExponent, hk]
      push_cast
      ring
    rw [hplaces, Number.rescale_toEven hk (by omega)] at hrescale
    rw [hsub, Number.rescale_toEven hk (by omega)]
    have hle := Number.roundDiv_tenTo_le (hk ▸ lt_tenTo_length d.coeff) .toEven
    generalize roundDiv .toEven d.coeff (tenTo k) = c at hle hrescale
    dsimp only
    split
    · rename_i hdigits
      exact ⟨rfl, hdigits, hrescale⟩
    · rename_i hdigits
      -- The coefficient was carried to a power of ten, which loses a zero.
      rw [Decimal.numDigits_le_iff hn, Nat.not_lt] at hdigits
      obtain rfl : c = 10 ^ n := Nat.le_antisymm hle hdigits
      obtain ⟨i, rfl⟩ : ∃ i, n = i + 1 := ⟨n - 1, by omega⟩
      have hten : (10 : Nat) ^ (i + 1) / 10 = 10 ^ i := by
        rw [pow_succ, Nat.mul_div_cancel _ (by decide)]
      refine ⟨rfl, ?_, ?_⟩
      · dsimp only
        rw [hten, Decimal.numDigits_le_iff (by omega)]
        exact Nat.pow_lt_pow_right (by decide) (Nat.lt_succ_self i)
      · rw [value_carried (by rw [hten, pow_succ, mul_comm])]
        exact hrescale

theorem RoundsTo.exists_nearest (h : RoundsTo tie places x r.value) (hr : r.exp = -places) :
    ∃ k, Nearest tie (x * 10 ^ places) k ∧ k.natAbs = r.coeff := by
  obtain ⟨k, hk, hy⟩ := h
  refine ⟨k, hk, ?_⟩
  have habs : |(k : ℚ)| = r.coeff := by
    rw [← hy, abs_mul_zpow, abs_value, hr, mul_assoc, ← ten_zpow_add, neg_add_cancel, zpow_zero, mul_one]
  rw [← Int.cast_abs, Int.abs_eq_natAbs] at habs
  exact_mod_cast habs

section

variable {places : Nat}

theorem width_of_tooWide (h : d.tooWide (-places) = true) (hk : Nearest tie (d.value * 10 ^ (places : ℤ)) k) :
    widest < numDigits k.natAbs := by
  rw [tooWide, Bool.and_eq_true, bne_iff_ne, decide_eq_true_eq, sub_neg_eq_add] at h
  obtain ⟨hne, hwide⟩ := h
  have hmagnitude : (10 : ℚ) ^ widest ≤ |d.value * 10 ^ (places : ℤ)| := by
    rw [abs_mul_zpow, abs_value, mul_assoc, ← ten_zpow_add, ← zpow_natCast]
    refine le_trans (ten_zpow_le ?_) (le_magnitude (d := ⟨d.neg, d.coeff, d.exp + places⟩) hne)
    unfold leadingExponent
    dsimp only
    omega
  have hle := hk.pow_le hmagnitude
  rw [← Nat.not_le, Decimal.numDigits_le_iff (by decide), Nat.not_lt]
  rw [Int.abs_eq_natAbs] at hle
  exact_mod_cast hle

inductive Rounding (tie : Midpoint) (places : Nat) (d : Decimal) : Option Decimal → Prop
  | fits {r : Decimal} (rounds : RoundsTo tie places d.value r.value) (exp : r.exp = -places)
      (neg : r.neg = d.neg) (narrow : numDigits r.coeff ≤ widest) : Rounding tie places d (some r)
  | wide {k : ℤ} (nearest : Nearest tie (d.value * 10 ^ (places : ℤ)) k) (wide : widest < numDigits k.natAbs) :
      Rounding tie places d none

theorem rounding (tie : Midpoint) (places : Nat) (d : Decimal) :
    Rounding tie places d (d.round? tie places) := by
  have hrounds := roundsTo_rescale tie d (-places)
  rw [neg_neg] at hrounds
  have hexp := exp_rescale tie d (-places)
  obtain ⟨k, hk, hcoeff⟩ := hrounds.exists_nearest hexp
  unfold round?
  by_cases hwide : d.tooWide (-places) = true
  · rw [if_pos hwide]
    exact .wide hk (width_of_tooWide hwide hk)
  · rw [if_neg hwide]
    dsimp only
    split
    · rename_i hdigits
      exact .wide hk (hcoeff ▸ hdigits)
    · rename_i hdigits
      exact .fits hrounds hexp (rescale_neg tie d _) (Nat.not_lt.mp hdigits)

theorem round?_none_iff (tie : Midpoint) (places : Nat) (d : Decimal) :
    d.round? tie places = none ↔
      ∃ k, Nearest tie (d.value * 10 ^ (places : ℤ)) k ∧ widest < numDigits k.natAbs := by
  have hround := rounding tie places d
  generalize d.round? tie places = out at hround
  cases hround with
  | wide nearest wide => exact iff_of_true rfl ⟨_, nearest, wide⟩
  | fits rounds exp neg narrow =>
      refine iff_of_false (fun h => nomatch h) ?_
      rintro ⟨k, hk, hwide⟩
      obtain ⟨l, hl, hcoeff⟩ := rounds.exists_nearest exp
      rw [hk.unique hl, hcoeff] at hwide
      omega

example : (⟨false, 10 ^ 1201 - 5, -1⟩ : Decimal).round? .awayFromZero 0 = none := by decide +kernel

def opposite (d : Decimal) : Decimal := { d with neg := !d.neg }

theorem value_opposite (d : Decimal) : d.opposite.value = -d.value := by
  obtain ⟨_ | _, coeff, exp⟩ := d
  · rfl
  · exact (neg_neg _).symm

theorem rescale_opposite (tie : Midpoint) (d : Decimal) (e : ℤ) :
    d.opposite.rescale tie e = (d.rescale tie e).opposite := by
  unfold rescale opposite
  split_ifs <;> rfl

theorem round?_opposite (tie : Midpoint) (places : Nat) (d : Decimal) :
    d.opposite.round? tie places = (d.round? tie places).map opposite := by
  have hwide : d.opposite.tooWide (-places) = d.tooWide (-places) := rfl
  have hcoeff (r : Decimal) : r.opposite.coeff = r.coeff := rfl
  unfold round?
  rw [hwide, rescale_opposite]
  dsimp only
  rw [hcoeff]
  split_ifs <;> rfl

theorem rescale_self (tie : Midpoint) (hr : r.exp = e) : r.rescale tie e = r := by
  subst hr
  unfold rescale
  rw [if_pos le_rfl, sub_self]
  exact congrArg (Decimal.mk r.neg · r.exp) (Nat.mul_one r.coeff)

theorem round?_self (tie : Midpoint) (hexp : r.exp = -places) (hnarrow : numDigits r.coeff ≤ widest) :
    r.round? tie places = some r := by
  have hfits : ¬r.tooWide (-places) = true := by
    rw [tooWide, Bool.and_eq_true, decide_eq_true_eq, hexp]
    omega
  unfold round?
  rw [if_neg hfits, rescale_self tie hexp]
  exact if_neg (Nat.not_lt.mpr hnarrow)

/-- Rounding to places, by either rule for midpoints. There is no outcome exactly where the integer nearest to
the scaled number has too many digits. An outcome has these places and the sign of the number, is the nearest
such decimal, is not changed by rounding it again, and is not above the outcome for a larger number. The
opposite number has the opposite outcome. -/
theorem rounds_at_places (tie : Midpoint) (places : Nat) (d : Decimal) :
    (d.round? tie places = none ↔
        ∃ k, Nearest tie (d.value * 10 ^ (places : ℤ)) k ∧ widest < numDigits k.natAbs) ∧
      (∀ r, d.round? tie places = some r →
        RoundsTo tie places d.value r.value ∧ r.exp = -places ∧ r.neg = d.neg ∧ numDigits r.coeff ≤ widest ∧
          r.round? tie places = some r ∧
          ∀ d' r' : Decimal, d'.round? tie places = some r' → d.value ≤ d'.value → r.value ≤ r'.value) ∧
      d.opposite.value = -d.value ∧ d.opposite.round? tie places = (d.round? tie places).map opposite := by
  refine ⟨round?_none_iff tie places d, fun r hr => ?_, value_opposite d, round?_opposite tie places d⟩
  have hround := rounding tie places d
  rw [hr] at hround
  cases hround with
  | fits rounds exp neg narrow =>
      refine ⟨rounds, exp, neg, narrow, round?_self tie exp narrow, fun d' r' hr' hle => ?_⟩
      have hround' := rounding tie places d'
      rw [hr'] at hround'
      cases hround' with
      | fits rounds' => exact rounds.mono rounds' hle

/-- Half way between two decimals the even one is taken, here the one nearer to zero and then the one farther
from it. -/
theorem rounds_at_places_halves :
    (⟨true, 2345, -3⟩ : Decimal).round? .toEven 2 = some ⟨true, 234, -2⟩ ∧
      (⟨false, 2355, -3⟩ : Decimal).round? .toEven 2 = some ⟨false, 236, -2⟩ ∧
      RoundsTo .toEven 2 (⟨true, 2345, -3⟩ : Decimal).value (⟨true, 234, -2⟩ : Decimal).value ∧
      (⟨true, 234, -2⟩ : Decimal).value ≤ (⟨false, 236, -2⟩ : Decimal).value := by
  have hlow : (⟨true, 2345, -3⟩ : Decimal).round? .toEven 2 = some ⟨true, 234, -2⟩ := by decide
  have hhigh : (⟨false, 2355, -3⟩ : Decimal).round? .toEven 2 = some ⟨false, 236, -2⟩ := by decide
  have hle : (⟨true, 2345, -3⟩ : Decimal).value ≤ (⟨false, 2355, -3⟩ : Decimal).value := by
    norm_num [value, signed]
  obtain ⟨hrounds, -, -, -, -, hmono⟩ := (rounds_at_places .toEven 2 ⟨true, 2345, -3⟩).2.1 _ hlow
  exact ⟨hlow, hhigh, hrounds, hmono _ _ hhigh hle⟩

end

end BaseLib.Decimal
