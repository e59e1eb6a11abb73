import BaseLib.Double.Basic
import Mathlib.Tactic.Ring
import Mathlib.Tactic.Linarith
import Mathlib.Order.Compare

namespace BaseLib.Double

theorem bits_eq (d : Double) :
    d.bits.toNat = (if d.neg then 2 ^ 63 else 0) + d.magnitudeBits := by
  have hlt := d.bits.toNat_lt
  have hn : d.neg = decide (2 ^ 63 ≤ d.bits.toNat) := by
    simp [neg, UInt64.le_iff_toNat_le]
  simp only [hn, decide_eq_true_eq, magnitudeBits, twoTo, Nat.pow_eq]
  split <;> omega

theorem ext_magnitude {a b : Double} (hn : a.neg = b.neg) (hm : a.magnitudeBits = b.magnitudeBits) :
    a = b := by
  have h : a.bits.toNat = b.bits.toNat := by rw [bits_eq a, bits_eq b, hn, hm]
  cases a
  cases b
  exact congrArg Double.mk (UInt64.toNat_inj.mp h)

theorem infinityBits_eq : infinityBits = 2047 * 2 ^ 52 := rfl

theorem isFinite_iff (d : Double) : d.isFinite = true ↔ d.magnitudeBits < 2047 * 2 ^ 52 := by
  rw [isFinite, decide_eq_true_eq, infinityBits_eq]

theorem isNaN_iff (d : Double) : d.isNaN = true ↔ 2047 * 2 ^ 52 < d.magnitudeBits := by
  rw [isNaN, decide_eq_true_eq, infinityBits_eq]

theorem isInfinite_iff (d : Double) : d.isInfinite = true ↔ d.magnitudeBits = 2047 * 2 ^ 52 := by
  rw [isInfinite, beq_iff_eq, infinityBits_eq]

/-- The exponent that scales the significand: the lowest two words share one. -/
def binade (d : Double) : Nat := max d.exponentField 1

theorem scale_eq (d : Double) : d.scale = (d.binade : Int) - 1075 := by
  rw [scale, binade]
  split <;> omega

theorem significand_lt (d : Double) : d.significand < 2 ^ 53 := by
  have h : d.magnitudeBits % 2 ^ 52 < 2 ^ 52 := Nat.mod_lt _ (by decide)
  simp only [significand, twoTo, Nat.pow_eq]
  split <;> omega

theorem significand_ge (d : Double) (h : 1 < d.binade) : 2 ^ 52 ≤ d.significand := by
  have he : d.exponentField ≠ 0 := by
    rw [binade] at h
    omega
  simp only [significand, if_neg he, twoTo, Nat.pow_eq]
  omega

theorem magnitudeBits_eq (d : Double) :
    d.magnitudeBits = (d.binade - 1) * 2 ^ 52 + d.significand := by
  have hdiv : d.exponentField * 2 ^ 52 + d.magnitudeBits % 2 ^ 52 = d.magnitudeBits :=
    Nat.div_add_mod' _ _
  rw [binade]
  by_cases he : d.exponentField = 0
  · have hs : d.significand = d.magnitudeBits % 2 ^ 52 := if_pos he
    omega
  · have hs : d.significand = d.magnitudeBits % 2 ^ 52 + 2 ^ 52 := if_neg he
    omega

/-- The value of a finite number in units of the least positive one, `2 ^ (-1074)`. -/
def units (d : Double) : Int := d.signedSignificand * 2 ^ (d.binade - 1)

theorem natAbs_signedSignificand (d : Double) : d.signedSignificand.natAbs = d.significand := by
  rw [signedSignificand]
  split <;> simp

theorem natAbs_units (d : Double) : d.units.natAbs = d.significand * 2 ^ (d.binade - 1) := by
  simp [units, Int.natAbs_mul, Int.natAbs_pow, natAbs_signedSignificand]

theorem compares_compareOfLessAndEq {α : Type} [LinearOrder α] {a b : α} [Decidable (a < b)] [DecidableEq α] :
    (compareOfLessAndEq a b).Compares a b := by
  unfold compareOfLessAndEq
  split
  · assumption
  · split
    · assumption
    · exact lt_of_le_of_ne (not_lt.mp ‹_›) (Ne.symm ‹_›)

theorem compares_mul {o : Ordering} {x y k : Int} (hk : 0 < k) (h : o.Compares x y) :
    o.Compares (x * k) (y * k) := by
  cases o with
  | lt => exact Int.mul_lt_mul_of_pos_right h hk
  | eq => exact congrArg (· * k) h
  | gt => exact Int.mul_lt_mul_of_pos_right h hk

theorem compareDyadic_compares {a p b q : Int} (t : Int) (hp : 0 ≤ p + t) (hq : 0 ≤ q + t) :
    (compareDyadic a p b q).Compares (a * 2 ^ (p + t).toNat) (b * 2 ^ (q + t).toNat) := by
  have hp' : (p + t).toNat = (p - min p q).toNat + (min p q + t).toNat := by omega
  have hq' : (q + t).toNat = (q - min p q).toNat + (min p q + t).toNat := by omega
  have hpos : 0 < (2 : Int) ^ (min p q + t).toNat := by positivity
  have hlow : (compareDyadic a p b q).Compares (a * 2 ^ (p - min p q).toNat) (b * 2 ^ (q - min p q).toNat) := by
    simp only [compareDyadic, twoTo]
    exact compares_compareOfLessAndEq
  rw [hp', hq', pow_add, pow_add, ← mul_assoc, ← mul_assoc]
  exact compares_mul hpos hlow

theorem scale_add (d : Double) : (d.scale + 1074).toNat = d.binade - 1 := by
  rw [scale_eq]
  omega

theorem scale_nonneg (d : Double) : 0 ≤ d.scale + 1074 := by
  have h : 1 ≤ d.binade := Nat.le_max_right _ _
  rw [scale_eq]
  omega

theorem compareDyadic_units (a b : Double) :
    (compareDyadic a.signedSignificand a.scale b.signedSignificand b.scale).Compares a.units b.units := by
  have h := compareDyadic_compares (a := a.signedSignificand) (b := b.signedSignificand) 1074
    (scale_nonneg a) (scale_nonneg b)
  rwa [scale_add, scale_add] at h

/-- A significand in range fixes the binade: in a higher one the significand has its top bit, and
doubling it would leave the range. -/
theorem binade_le_of_units {a b : Double}
    (h : a.significand * 2 ^ (a.binade - 1) = b.significand * 2 ^ (b.binade - 1)) :
    b.binade ≤ a.binade := by
  by_contra hlt
  have ha := significand_lt a
  have h1 : 1 ≤ a.binade := Nat.le_max_right _ _
  have hb := significand_ge b (by omega)
  have hsplit : b.binade - 1 = (b.binade - a.binade - 1) + 1 + (a.binade - 1) := by omega
  rw [hsplit, pow_add, ← mul_assoc] at h
  have hs := Nat.eq_of_mul_eq_mul_right (by positivity) h
  have hpow : 2 ^ 1 ≤ 2 ^ (b.binade - a.binade - 1 + 1) :=
    Nat.pow_le_pow_right (by decide) (Nat.le_add_left _ _)
  have hmul : 2 ^ 52 * 2 ≤ b.significand * 2 ^ (b.binade - a.binade - 1 + 1) :=
    Nat.mul_le_mul hb (by simpa using hpow)
  omega

theorem units_unique {a b : Double} (h : a.units = b.units) :
    a.magnitudeBits = b.magnitudeBits ∧ a.signedSignificand = b.signedSignificand := by
  have hn := congrArg Int.natAbs h
  rw [natAbs_units, natAbs_units] at hn
  have hb : a.binade = b.binade :=
    Nat.le_antisymm (binade_le_of_units hn.symm) (binade_le_of_units hn)
  have hs : a.signedSignificand = b.signedSignificand := by
    rw [units, units, hb] at h
    exact Int.eq_of_mul_eq_mul_right (by positivity) h
  refine ⟨?_, hs⟩
  have hm := congrArg Int.natAbs hs
  rw [natAbs_signedSignificand, natAbs_signedSignificand] at hm
  rw [magnitudeBits_eq a, magnitudeBits_eq b, hb, hm]

theorem signedSignificand_eq_zero {a b : Double} (hn : a.neg ≠ b.neg)
    (hm : a.significand = b.significand) (hs : a.signedSignificand = b.signedSignificand) :
    a.significand = 0 := by
  cases ha : a.neg <;> cases hb : b.neg <;>
    simp only [signedSignificand, ha, hb, hm, if_true, if_false, Bool.false_eq_true] at hs hn ⊢ <;>
    first
    | exact absurd rfl hn
    | omega

theorem eq_or_zero_of_units {a b : Double} (h : a.units = b.units) : a = b ∨ a.units = 0 := by
  obtain ⟨hm, hs⟩ := units_unique h
  by_cases hn : a.neg = b.neg
  · exact .inl (ext_magnitude hn hm)
  · have hsig : a.significand = b.significand := by
      rw [← natAbs_signedSignificand, ← natAbs_signedSignificand, hs]
    have hz := signedSignificand_eq_zero hn hsig hs
    rw [← natAbs_signedSignificand, Int.natAbs_eq_zero] at hz
    exact .inr (by simp [units, hz])

def perOne : Int := Int.pow 2 1074

theorem perOne_pos : 0 < perOne := Int.pow_pos (by decide)

theorem two_pow_perOne : (2 : Int) ^ 1074 = perOne := rfl

theorem perOne_eq {a b : Nat} (h : a + b = 1074) : perOne = 2 ^ a * 2 ^ b := by
  rw [← pow_add, h, two_pow_perOne]

theorem compareDyadic_int (n : Int) (d : Double) :
    (compareDyadic n 0 d.signedSignificand d.scale).Compares (n * perOne) d.units := by
  have h := compareDyadic_compares (a := n) (p := 0) (b := d.signedSignificand) 1074 (by decide) (scale_nonneg d)
  rwa [scale_add] at h

def signedNumerator (d : Double) : Int := if d.neg then -(d.ratio.1 : Int) else d.ratio.1

theorem units_mul_ratio (d : Double) : d.units * d.ratio.2 = d.signedNumerator * perOne := by
  have h1 : 1 ≤ d.binade := Nat.le_max_right _ _
  by_cases hs : 0 ≤ d.scale
  · have hr : d.ratio = (d.significand * 2 ^ d.scale.toNat, 1) := if_pos hs
    have hb : d.binade - 1 = d.scale.toNat + 1074 := by
      rw [scale_eq] at hs ⊢
      omega
    rw [signedNumerator, hr, units, hb, pow_add, two_pow_perOne, signedSignificand]
    split <;> push_cast <;> ring
  · have hr : d.ratio = (d.significand, 2 ^ (-d.scale).toNat) := if_neg hs
    have hb : (d.binade - 1) + (-d.scale).toNat = 1074 := by
      rw [scale_eq] at hs ⊢
      omega
    rw [signedNumerator, hr, units, perOne_eq hb, signedSignificand]
    split <;> push_cast <;> ring

theorem ratio_den_pos (d : Double) : 0 < d.ratio.2 := by
  rw [ratio]
  split
  · exact Nat.one_pos
  · exact Nat.two_pow_pos _

theorem signedNumerator_eq_iff (n : Int) (d : Double) :
    n * d.ratio.2 = d.signedNumerator ↔ d.isIntegral = true ∧ d.truncate = n := by
  have hd := ratio_den_pos d
  rw [signedNumerator, isIntegral, beq_iff_eq, truncate, wholePart]
  constructor
  · intro h
    have hdvd : d.ratio.2 ∣ d.ratio.1 := by
      rw [← Int.natCast_dvd_natCast]
      split at h
      · exact (Int.dvd_neg).mp (h ▸ Int.dvd_mul_left _ _)
      · exact h ▸ Int.dvd_mul_left _ _
    obtain ⟨q, hq⟩ := hdvd
    rw [hq, Nat.mul_mod_right, Nat.mul_div_cancel_left _ hd]
    refine ⟨rfl, ?_⟩
    have hd' : (d.ratio.2 : Int) ≠ 0 := by exact_mod_cast hd.ne'
    apply Int.eq_of_mul_eq_mul_right hd'
    rw [h, hq]
    split <;> push_cast <;> ring
  · rintro ⟨hmod, rfl⟩
    have hq : d.ratio.1 / d.ratio.2 * d.ratio.2 = d.ratio.1 :=
      Nat.div_mul_cancel (Nat.dvd_of_mod_eq_zero hmod)
    split
    · rw [neg_mul]
      exact_mod_cast congrArg (fun k : Nat => -(k : Int)) hq
    · exact_mod_cast hq

theorem units_eq_iff (n : Int) (d : Double) :
    n * perOne = d.units ↔ d.isIntegral = true ∧ d.truncate = n := by
  have hr := units_mul_ratio d
  have hd : (d.ratio.2 : Int) ≠ 0 := by exact_mod_cast (ratio_den_pos d).ne'
  rw [← signedNumerator_eq_iff]
  constructor
  · intro h
    apply Int.eq_of_mul_eq_mul_right perOne_pos.ne'
    rw [← hr, ← h, mul_right_comm]
  · intro h
    apply Int.eq_of_mul_eq_mul_right hd
    rw [hr, ← h, mul_right_comm]

theorem toInt?_eq_some_iff (d : Double) (n : Int) :
    d.toInt? = some n ↔ d.isFinite = true ∧ n * perOne = d.units := by
  rw [units_eq_iff, toInt?]
  by_cases hf : d.isFinite <;> by_cases hi : d.isIntegral <;> simp [hf, hi]

theorem not_isNaN_iff (d : Double) :
    d.isNaN = false ↔ d.isFinite = true ∨ d.isInfinite = true := by
  rw [isFinite_iff, isInfinite_iff, ← Bool.not_eq_true, isNaN_iff]
  omega

theorem isInfinite_eq_false_of_finite {d : Double} (h : d.isFinite = true) : d.isInfinite = false := by
  rw [← Bool.not_eq_true, isInfinite_iff]
  rw [isFinite_iff] at h
  omega

theorem eq_of_infinite {a b : Double} (ha : a.isInfinite = true) (hb : b.isInfinite = true)
    (hn : a.neg = b.neg) : a = b := by
  rw [isInfinite_iff] at ha hb
  exact ext_magnitude hn (ha.trans hb.symm)

theorem toInt?_of_infinite {d : Double} (h : d.isInfinite = true) : d.toInt? = none := by
  have hf : d.isFinite = false := by
    rw [← Bool.not_eq_true, isFinite_iff]
    rw [isInfinite_iff] at h
    omega
  simp [toInt?, hf]

theorem toInt?_of_NaN {d : Double} (h : d.isNaN = true) : d.toInt? = none := by
  have hf : d.isFinite = false := by
    rw [← Bool.not_eq_true, isFinite_iff]
    rw [isNaN_iff] at h
    omega
  simp [toInt?, hf]

theorem compareInt?_eq_iff (n : Int) (d : Double) :
    compareInt? n d = some .eq ↔ d.toInt? = some n := by
  cases hn : d.isNaN with
  | true => simp [compareInt?, hn, toInt?_of_NaN hn]
  | false =>
      rcases (not_isNaN_iff d).mp hn with hf | hi
      · have hi := isInfinite_eq_false_of_finite hf
        simp [compareInt?, hn, hi, (compareDyadic_int n d).eq_eq, toInt?_eq_some_iff, hf]
      · simp only [compareInt?, hn, hi, toInt?_of_infinite hi, if_true]
        cases d.neg <;> simp

theorem compare?_of_finite {a b : Double} (ha : a.isFinite = true) (hb : b.isFinite = true) :
    compare? a b = some .eq ↔ a.units = b.units := by
  have hna := (not_isNaN_iff a).mpr (.inl ha)
  have hnb := (not_isNaN_iff b).mpr (.inl hb)
  simp [compare?, hna, hnb, isInfinite_eq_false_of_finite ha, isInfinite_eq_false_of_finite hb,
    (compareDyadic_units a b).eq_eq]

theorem compare?_of_infinite {a b : Double} (hna : a.isNaN = false) (hnb : b.isNaN = false)
    (h : a.isInfinite = true ∨ b.isInfinite = true) : compare? a b = some .eq ↔ a = b := by
  constructor
  · intro heq
    cases ha : a.isInfinite <;> cases hb : b.isInfinite
    · simp [ha, hb] at h
    · cases hs : b.neg <;> simp [compare?, hna, hnb, ha, hb, hs] at heq
    · cases hs : a.neg <;> simp [compare?, hna, hnb, ha, hb, hs] at heq
    · refine eq_of_infinite ha hb ?_
      cases hs : a.neg <;> cases ht : b.neg <;>
        simp [compare?, hna, hnb, ha, hb, hs, ht] at heq ⊢
  · rintro rfl
    have ha : a.isInfinite = true := h.elim id id
    simp [compare?, hna, ha]

/-- Two numbers compare equal when they are one word or one integer; NaN compares equal to nothing. -/
theorem compare?_eq_iff (a b : Double) :
    compare? a b = some .eq ↔
      a.isNaN = false ∧ b.isNaN = false ∧ (a = b ∨ ∃ n, a.toInt? = some n ∧ b.toInt? = some n) := by
  cases hna : a.isNaN with
  | true => simp [compare?, hna]
  | false =>
      cases hnb : b.isNaN with
      | true => simp [compare?, hnb]
      | false =>
          simp only [true_and]
          rcases (not_isNaN_iff a).mp hna with ha | ha
          · rcases (not_isNaN_iff b).mp hnb with hb | hb
            · rw [compare?_of_finite ha hb]
              constructor
              · intro h
                refine (eq_or_zero_of_units h).imp id fun hz => ⟨0, ?_, ?_⟩
                · rw [toInt?_eq_some_iff, hz]
                  exact ⟨ha, zero_mul _⟩
                · rw [toInt?_eq_some_iff, ← h, hz]
                  exact ⟨hb, zero_mul _⟩
              · rintro (rfl | ⟨n, hx, hy⟩)
                · rfl
                · rw [← ((toInt?_eq_some_iff a n).mp hx).2, ← ((toInt?_eq_some_iff b n).mp hy).2]
            · rw [compare?_of_infinite hna hnb (.inr hb)]
              simp [toInt?_of_infinite hb]
          · rw [compare?_of_infinite hna hnb (.inl ha)]
            simp [toInt?_of_infinite ha]

end BaseLib.Double
