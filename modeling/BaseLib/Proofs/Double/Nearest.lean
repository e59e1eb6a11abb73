import BaseLib.Double.Nearest
import BaseLib.Proofs.Double.Equality
import Mathlib.Algebra.Order.Field.Basic
import Mathlib.Algebra.Order.Field.Power
import Mathlib.Algebra.Ring.Parity
import Mathlib.Data.Rat.Cast.Order
import Mathlib.Order.Monotone.Basic
import Mathlib.Tactic.FieldSimp
import Mathlib.Tactic.NormNum

namespace BaseLib.Double

def gradeOf (w : Nat) : Nat := w / 2 ^ 52 - 1

/-- The magnitude of a word in units of the least positive one. Words beyond the largest number go on in
the same way. -/
def unitsAt (w : Nat) : Nat := (w - gradeOf w * 2 ^ 52) * 2 ^ gradeOf w

theorem unitsAt_add {j m : Nat} (hm : m ≤ 2 ^ 53) (hj : j = 0 ∨ 2 ^ 52 ≤ m) :
    unitsAt (j * 2 ^ 52 + m) = m * 2 ^ j := by
  by_cases htop : m = 2 ^ 53
  · have hg : gradeOf (j * 2 ^ 52 + m) = j + 1 := by
      rw [gradeOf]
      omega
    have hs : j * 2 ^ 52 + m - (j + 1) * 2 ^ 52 = 2 ^ 52 := by omega
    rw [unitsAt, hg, hs, htop, pow_succ 2 j]
    omega
  · have hg : gradeOf (j * 2 ^ 52 + m) = j := by
      rw [gradeOf]
      omega
    rw [unitsAt, hg, Nat.add_sub_cancel_left]

theorem split_word (w : Nat) : ∃ m, w = gradeOf w * 2 ^ 52 + m ∧ m < 2 ^ 53 ∧
    (gradeOf w = 0 ∨ 2 ^ 52 ≤ m) := by
  refine ⟨w - gradeOf w * 2 ^ 52, ?_⟩
  rw [gradeOf]
  omega

theorem unitsAt_succ (w : Nat) : unitsAt (w + 1) = unitsAt w + 2 ^ gradeOf w := by
  obtain ⟨m, hw, hm, hj⟩ := split_word w
  have hnext : w + 1 = gradeOf w * 2 ^ 52 + (m + 1) := by omega
  have hj' : gradeOf w = 0 ∨ 2 ^ 52 ≤ m + 1 := hj.imp_right Nat.le_succ_of_le
  have hhere : unitsAt w = m * 2 ^ gradeOf w := by
    rw [← unitsAt_add hm.le hj, ← hw]
  rw [hnext, unitsAt_add hm hj', hhere, Nat.succ_mul]

theorem unitsAt_strictMono : StrictMono unitsAt :=
  strictMono_nat_of_lt_succ fun w => by
    rw [unitsAt_succ]
    exact Nat.lt_add_of_pos_right (Nat.two_pow_pos _)

theorem unitsAt_zero : unitsAt 0 = 0 := rfl

theorem binade_sub_one (d : Double) : d.binade - 1 = gradeOf d.magnitudeBits := by
  rw [binade, gradeOf, exponentField, twoTo, Nat.pow_eq]
  omega

theorem natAbs_units_eq (d : Double) : d.units.natAbs = unitsAt d.magnitudeBits := by
  have hm := magnitudeBits_eq d
  have hs : d.magnitudeBits - gradeOf d.magnitudeBits * 2 ^ 52 = d.significand := by
    rw [← binade_sub_one]
    omega
  rw [natAbs_units, unitsAt, hs, binade_sub_one]

theorem even_significand_iff (d : Double) : Even d.significand ↔ Even d.magnitudeBits := by
  have h : Even ((d.binade - 1) * 2 ^ 52) := Even.mul_left (by decide) _
  rw [magnitudeBits_eq d, Nat.even_add, iff_true_left h]

theorem perOne_cast : (perOne : ℚ) = 2 ^ 1074 := by
  rw [← two_pow_perOne, Int.cast_pow, Int.cast_ofNat]

theorem perOne_rat_pos : (0 : ℚ) < perOne := by exact_mod_cast perOne_pos

def value (d : Double) : ℚ := d.units / perOne

/-- Half a unit beyond the largest number: from here on there is no finite nearest number. -/
def limit : ℚ := (2 ^ 54 - 1) * 2 ^ 970

/-- The number is the one nearest to a rational, and of two equally near the one whose significand is
even. From the limit on it is infinite. -/
structure IsNearest (q : ℚ) (d : Double) : Prop where
  infinite : limit ≤ |q| → d.isInfinite = true
  finite : |q| < limit → d.isFinite = true
  nearest : |q| < limit → ∀ e : Double, e.isFinite = true → |q - d.value| ≤ |q - e.value|
  even : |q| < limit → ∀ e : Double, e.isFinite = true → |q - e.value| = |q - d.value| →
    e.value = d.value ∨ Even d.significand

def signed (neg : Bool) (x : ℚ) : ℚ := if neg then -x else x

theorem abs_signed {x : ℚ} (neg : Bool) (hx : 0 ≤ x) : |signed neg x| = x := by
  cases neg
  · exact abs_of_nonneg hx
  · rw [signed, if_pos rfl, abs_neg, abs_of_nonneg hx]

theorem abs_signed_sub (neg : Bool) (x y : ℚ) : |signed neg x - signed neg y| = |x - y| := by
  cases neg
  · rfl
  · rw [signed, signed, if_pos rfl, if_pos rfl, neg_sub_neg, abs_sub_comm]

theorem abs_signed_sub_of_ne {n m : Bool} {x y : ℚ} (hx : 0 ≤ x) (hy : 0 ≤ y) (hnm : n ≠ m) :
    |signed n x - signed m y| = x + y := by
  cases n <;> cases m
  · exact absurd rfl hnm
  · simp [signed, abs_of_nonneg (add_nonneg hx hy)]
  · simp only [signed, if_true, if_false, Bool.false_eq_true]
    rw [← neg_add', abs_neg, abs_of_nonneg (add_nonneg hx hy)]
  · exact absurd rfl hnm

theorem value_eq (d : Double) :
    d.value = signed d.neg ((unitsAt d.magnitudeBits : ℚ) / perOne) := by
  have hs : d.units = if d.neg then -(unitsAt d.magnitudeBits : Int) else unitsAt d.magnitudeBits := by
    rw [← natAbs_units_eq, natAbs_units, units, signedSignificand]
    split <;> push_cast <;> ring
  rw [value, hs, signed]
  split
  · push_cast
    exact neg_div _ _
  · push_cast
    rfl

theorem eq_of_value {a b : Double} (hn : a.neg = b.neg) (h : a.value = b.value) : a = b := by
  have hu : a.units = b.units := by
    rw [value, value, div_left_inj' perOne_rat_pos.ne'] at h
    exact_mod_cast h
  exact ext_magnitude hn (units_unique hu).1

theorem toNat_ofParts (neg : Bool) {m : Nat} (hm : m < 2 ^ 63) :
    (ofParts neg m).bits.toNat = (if neg then 2 ^ 63 else 0) + m := by
  rw [ofParts, UInt64.toNat_ofNat', twoTo, Nat.pow_eq]
  exact Nat.mod_eq_of_lt (by split <;> omega)

theorem magnitudeBits_ofParts (neg : Bool) {m : Nat} (hm : m < 2 ^ 63) :
    (ofParts neg m).magnitudeBits = m := by
  rw [magnitudeBits, toNat_ofParts neg hm, twoTo, Nat.pow_eq]
  split <;> omega

theorem neg_ofParts (neg : Bool) {m : Nat} (hm : m < 2 ^ 63) : (ofParts neg m).neg = neg := by
  have hneg : (ofParts neg m).neg = decide (2 ^ 63 ≤ (ofParts neg m).bits.toNat) := by
    simp [Double.neg, UInt64.le_iff_toNat_le]
  rw [hneg, toNat_ofParts neg hm]
  cases neg
  · exact decide_eq_false (by simpa using hm)
  · exact decide_eq_true (Nat.le_add_right _ _)

structure Rounds (x : ℚ) (w : Nat) : Prop where
  above : 2 * x ≤ unitsAt w + unitsAt (w + 1)
  above_even : 2 * x = unitsAt w + unitsAt (w + 1) → Even w
  below : ∀ v, v + 1 = w → (unitsAt v + unitsAt w : ℚ) ≤ 2 * x
  below_even : ∀ v, v + 1 = w → (unitsAt v + unitsAt w : ℚ) = 2 * x → Even w

section

variable {x : ℚ} {v w : Nat}

theorem unitsAt_le (h : v ≤ w) : (unitsAt v : ℚ) ≤ unitsAt w := by
  exact_mod_cast unitsAt_strictMono.monotone h

theorem unitsAt_lt (h : v < w) : (unitsAt v : ℚ) < unitsAt w := by
  exact_mod_cast unitsAt_strictMono h

theorem Rounds.closest (h : Rounds x w) (hv : v ≠ w) :
    |x - unitsAt w| < |x - unitsAt v| ∨ |x - unitsAt w| = |x - unitsAt v| ∧ Even w := by
  rcases Nat.lt_or_gt_of_ne hv with hlt | hgt
  · obtain ⟨u, rfl⟩ : ∃ u, w = u + 1 := ⟨w - 1, by omega⟩
    have hu := unitsAt_le (Nat.lt_succ_iff.mp hlt)
    have hstep := unitsAt_lt (Nat.lt_succ_self u)
    have hbelow := h.below u rfl
    have hxv : |x - unitsAt v| = x - unitsAt v := abs_of_nonneg (by linarith)
    have hle : |x - unitsAt (u + 1)| ≤ |x - unitsAt v| := by
      rw [hxv, abs_le]
      constructor <;> linarith
    rcases hle.lt_or_eq with hlt' | heq
    · exact .inl hlt'
    · refine .inr ⟨heq, h.below_even u rfl ?_⟩
      rw [hxv] at heq
      rcases abs_cases (x - unitsAt (u + 1)) with ⟨habs, -⟩ | ⟨habs, -⟩ <;> linarith
  · have hu := unitsAt_le (Nat.succ_le_of_lt hgt)
    have hstep := unitsAt_lt (Nat.lt_succ_self w)
    have habove := h.above
    have hxv : |x - unitsAt v| = unitsAt v - x := by
      rw [abs_sub_comm, abs_of_nonneg (by linarith)]
    have hle : |x - unitsAt w| ≤ |x - unitsAt v| := by
      rw [hxv, abs_le]
      constructor <;> linarith
    rcases hle.lt_or_eq with hlt' | heq
    · exact .inl hlt'
    · refine .inr ⟨heq, h.above_even ?_⟩
      rw [hxv] at heq
      rcases abs_cases (x - unitsAt w) with ⟨habs, -⟩ | ⟨habs, -⟩ <;> linarith

theorem two_pow_add {a b c : Nat} (h : a + b + 1 = c) : (2 : ℚ) ^ a * 2 ^ b * 2 = 2 ^ c := by
  rw [← h, pow_succ, pow_add]

theorem rounds_zero (hx : 2 * x ≤ 1) : Rounds x 0 := by
  have hone : (unitsAt 0 + unitsAt (0 + 1) : ℚ) = 1 := by
    rw [unitsAt_succ, unitsAt_zero]
    norm_num [gradeOf]
  exact ⟨hone ▸ hx, fun _ => by decide, fun _ hv => (nomatch hv), fun _ hv => (nomatch hv)⟩

theorem unitsAt_top :
    (unitsAt (infinityBits - 1) + unitsAt infinityBits : ℚ) = 2 * (limit * perOne) := by
  have hlast : infinityBits - 1 = 2045 * 2 ^ 52 + (2 ^ 53 - 1) := by decide
  have hnext : infinityBits = 2045 * 2 ^ 52 + 2 ^ 53 := by decide
  rw [hlast, hnext, unitsAt_add (by decide) (.inr (by decide)), unitsAt_add le_rfl (.inr (by decide)),
    limit, perOne_cast, Nat.cast_mul, Nat.cast_mul, Nat.cast_pow 2 2045, Nat.cast_ofNat,
    ← two_pow_add (show 970 + 1074 + 1 = 2045 from rfl)]
  generalize (2 : ℚ) ^ 970 = a
  generalize (2 : ℚ) ^ 1074 = b
  norm_num
  ring

theorem Rounds.lt_infinityBits_iff (h : Rounds x w) : w < infinityBits ↔ x < limit * perOne := by
  have htop := unitsAt_top
  constructor
  · intro hw
    have hle := unitsAt_le (Nat.le_sub_one_of_lt hw)
    have hle' : (unitsAt (w + 1) : ℚ) ≤ unitsAt infinityBits := unitsAt_le hw
    have habove := h.above
    refine lt_of_le_of_ne (by linarith) fun heq => ?_
    have hw' : w = infinityBits - 1 := by
      by_contra hne
      have hlt := unitsAt_lt (lt_of_le_of_ne (Nat.le_sub_one_of_lt hw) hne)
      linarith
    subst hw'
    have heven := h.above_even (show 2 * x = _ by rw [heq]; exact htop.symm)
    revert heven
    decide
  · intro hx
    by_contra hw
    have htop_pos : 0 < infinityBits := by decide
    obtain ⟨u, rfl⟩ : ∃ u, w = u + 1 := ⟨w - 1, by omega⟩
    have hle : (unitsAt (infinityBits - 1) : ℚ) ≤ unitsAt u := unitsAt_le (by omega)
    have hle' : (unitsAt infinityBits : ℚ) ≤ unitsAt (u + 1) := unitsAt_le (Nat.le_of_not_lt hw)
    have hbelow := h.below u rfl
    linarith

theorem Rounds.closest_le (h : Rounds x w) (v : Nat) : |x - unitsAt w| ≤ |x - unitsAt v| := by
  by_cases hv : v = w
  · rw [hv]
  · exact (h.closest hv).elim le_of_lt fun heq => heq.1.le

theorem abs_sub_same (neg : Bool) (x : ℚ) (v : Nat) :
    |signed neg (x / perOne) - signed neg ((unitsAt v : ℚ) / perOne)| = |x - unitsAt v| / perOne := by
  rw [abs_signed_sub, ← sub_div, abs_div, abs_of_pos perOne_rat_pos]

theorem abs_sub_opposite (hx : 0 ≤ x) {neg : Bool} {e : Double} (hn : neg ≠ e.neg) :
    |signed neg (x / perOne) - e.value| = (x + unitsAt e.magnitudeBits) / perOne := by
  have hpos := perOne_rat_pos
  rw [value_eq, abs_signed_sub_of_ne (div_nonneg hx hpos.le)
    (div_nonneg (Nat.cast_nonneg _) hpos.le) hn, ← add_div]

theorem le_abs_sub (hx : 0 ≤ x) (neg : Bool) (e : Double) :
    |x - unitsAt e.magnitudeBits| / perOne ≤ |signed neg (x / perOne) - e.value| := by
  by_cases hn : neg = e.neg
  · rw [value_eq, ← hn, abs_sub_same]
  · have hu : (0 : ℚ) ≤ unitsAt e.magnitudeBits := Nat.cast_nonneg _
    rw [abs_sub_opposite hx hn]
    refine div_le_div_of_nonneg_right ?_ perOne_rat_pos.le
    rw [abs_le]
    constructor <;> linarith

theorem Rounds.unitsAt_eq_zero (h : Rounds x w) (hx : 0 ≤ x) {neg : Bool} {e : Double}
    (hn : neg ≠ e.neg) (hw : e.magnitudeBits = w)
    (heq : |signed neg (x / perOne) - e.value| = |x - unitsAt w| / perOne) : (unitsAt w : ℚ) = 0 := by
  have hu : (0 : ℚ) ≤ unitsAt w := Nat.cast_nonneg _
  have hzero := h.closest_le 0
  rw [unitsAt_zero, Nat.cast_zero, sub_zero, abs_of_nonneg hx] at hzero
  rw [abs_sub_opposite hx hn, div_left_inj' perOne_rat_pos.ne', hw] at heq
  linarith

end

theorem Rounds.isNearest {x : ℚ} {w : Nat} (h : Rounds x w) (hx : 0 ≤ x) (neg : Bool) :
    IsNearest (signed neg (x / perOne)) (ofParts neg (min w infinityBits)) := by
  have hpos := perOne_rat_pos
  have hmin : min w infinityBits < 2 ^ 63 :=
    lt_of_le_of_lt (Nat.min_le_right _ _) (by decide)
  have hbits := magnitudeBits_ofParts neg hmin
  have hneg := neg_ofParts neg hmin
  have hword : |signed neg (x / perOne)| < limit ↔ w < infinityBits := by
    rw [abs_signed neg (div_nonneg hx hpos.le), div_lt_iff₀ hpos, h.lt_infinityBits_iff]
  have hvalue : ∀ hw : w < infinityBits,
      (ofParts neg (min w infinityBits)).value = signed neg (unitsAt w / perOne) := by
    intro hw
    rw [value_eq, hneg, hbits, Nat.min_eq_left hw.le]
  refine ⟨fun hq => ?_, fun hq => ?_, fun hq e _ => ?_, fun hq e _ heq => ?_⟩
  · have hw : infinityBits ≤ w := Nat.le_of_not_lt fun hw => absurd (hword.mpr hw) hq.not_gt
    rw [isInfinite_iff, hbits, Nat.min_eq_right hw, infinityBits_eq]
  · rw [isFinite_iff, hbits, Nat.min_eq_left (hword.mp hq).le, ← infinityBits_eq]
    exact hword.mp hq
  · rw [hvalue (hword.mp hq), abs_sub_same]
    exact (div_le_div_of_nonneg_right (h.closest_le _) hpos.le).trans (le_abs_sub hx neg e)
  · have hw := hword.mp hq
    rw [hvalue hw] at heq ⊢
    rw [abs_sub_same] at heq
    by_cases hv : e.magnitudeBits = w
    · left
      by_cases hn : neg = e.neg
      · rw [value_eq, hv, hn]
      · rw [value_eq, hv, h.unitsAt_eq_zero hx hn hv heq, zero_div]
        cases neg <;> cases e.neg <;> simp [signed]
    · right
      rw [even_significand_iff, hbits, Nat.min_eq_left hw.le]
      rcases h.closest hv with hlt | ⟨-, heven⟩
      · have hle := le_abs_sub hx neg e
        rw [heq] at hle
        exact absurd (div_lt_div_of_pos_right hlt hpos) hle.not_gt
      · exact heven

theorem signed_signed (neg : Bool) (x : ℚ) : signed neg (signed neg x) = x := by
  cases neg
  · rfl
  · exact neg_neg x

theorem between_nearer {q a b c : ℚ} (hab : a < b) (hbc : b < c) (h : |q - a| = |q - c|) :
    |q - b| < |q - a| := by
  have hmid : q - a = c - q := by
    rcases abs_eq_abs.mp h with heq | heq <;> linarith
  rw [abs_of_nonneg (show 0 ≤ q - a by linarith), abs_lt]
  constructor <;> linarith

theorem IsNearest.magnitude_not_lt {q : ℚ} {d e : Double} (hd : IsNearest q d) (hq : |q| < limit)
    (hn : d.neg = e.neg) (he : e.isFinite = true) (heq : |q - e.value| = |q - d.value|)
    (hde : Even d.magnitudeBits) (hee : Even e.magnitudeBits) : ¬ d.magnitudeBits < e.magnitudeBits := by
  intro hlt
  have hpos := perOne_rat_pos
  have hnext : d.magnitudeBits + 1 < e.magnitudeBits := by
    refine lt_of_le_of_ne hlt fun h => ?_
    rw [← h, Nat.even_add_one] at hee
    exact hee hde
  rw [isFinite_iff] at he
  have hbits := magnitudeBits_ofParts d.neg (m := d.magnitudeBits + 1) (by omega)
  have hnear := hd.nearest hq (ofParts d.neg (d.magnitudeBits + 1)) <| by
    rw [isFinite_iff, hbits]
    omega
  rw [← signed_signed d.neg q] at heq hnear
  rw [value_eq (ofParts _ _), hbits, neg_ofParts _ (by omega), abs_signed_sub, value_eq d,
    abs_signed_sub] at hnear
  rw [value_eq e, value_eq d, ← hn, abs_signed_sub, abs_signed_sub] at heq
  have hfirst := div_lt_div_of_pos_right (unitsAt_lt (Nat.lt_succ_self d.magnitudeBits)) hpos
  have hsecond := div_lt_div_of_pos_right (unitsAt_lt hnext) hpos
  exact absurd (between_nearer hfirst hsecond heq.symm) hnear.not_gt

theorem IsNearest.unique {q : ℚ} {d e : Double} (hd : IsNearest q d) (he : IsNearest q e)
    (hn : d.neg = e.neg) : d = e := by
  by_cases hq : limit ≤ |q|
  · exact eq_of_infinite (hd.infinite hq) (he.infinite hq) hn
  · have hq := lt_of_not_ge hq
    have hfd := hd.finite hq
    have hfe := he.finite hq
    have heq := le_antisymm (hd.nearest hq e hfe) (he.nearest hq d hfd)
    rcases hd.even hq e hfe heq.symm with hv | hde
    · exact eq_of_value hn hv.symm
    · rcases he.even hq d hfd heq with hv | hee
      · exact eq_of_value hn hv
      · rw [even_significand_iff] at hde hee
        refine ext_magnitude hn (Nat.le_antisymm ?_ ?_) <;> refine Nat.le_of_not_lt ?_
        · exact he.magnitude_not_lt hq hn.symm hfd heq hee hde
        · exact hd.magnitude_not_lt hq hn hfe heq.symm hde hee

section

variable {num den m j : Nat} {y : ℚ}

structure HalfEven (y : ℚ) (m : Nat) : Prop where
  above : 2 * y ≤ 2 * m + 1
  above_even : 2 * y = 2 * m + 1 → Even m
  below : (2 * m : ℚ) ≤ 2 * y + 1
  below_even : (2 * m : ℚ) = 2 * y + 1 → Even m

theorem halfEven_below {q : Nat} {f : ℚ} (h : 0 ≤ f) (hf : 2 * f < 1) : HalfEven (q + f) q := by
  constructor <;> intros <;> linarith

theorem halfEven_above {q : Nat} {f : ℚ} (h : f < 1) (hf : 1 < 2 * f) : HalfEven (q + f) (q + 1 : Nat) := by
  constructor <;> intros <;> push_cast at * <;> linarith

theorem halfEven_between {q m : Nat} {f : ℚ} (hf : 2 * f = 1) (hm : m = q ∨ m = q + 1) (heven : Even m) :
    HalfEven (q + f) m := by
  have hm' : (m : ℚ) = q ∨ (m : ℚ) = q + 1 := by exact_mod_cast hm
  refine ⟨?_, fun _ => heven, ?_, fun _ => heven⟩ <;> rcases hm' with hm' | hm' <;> linarith

theorem div_eq_add_mod (num : Nat) (hd : 0 < den) :
    (num : ℚ) / den = (num / den : Nat) + (num % den : Nat) / (den : ℚ) := by
  have hd' : (den : ℚ) ≠ 0 := by exact_mod_cast hd.ne'
  rw [eq_comm, ← eq_sub_iff_add_eq', div_eq_iff hd', sub_mul, div_mul_cancel₀ _ hd', eq_sub_iff_add_eq']
  exact_mod_cast Nat.div_add_mod' num den

inductive Settles (q : Nat) (f : ℚ) : Decimal.Midpoint → Nat → Prop
  | below {tie : Decimal.Midpoint} (hf : 2 * f < 1) : Settles q f tie q
  | above {tie : Decimal.Midpoint} (hf : 1 < 2 * f) : Settles q f tie (q + 1)
  | away (hf : 2 * f = 1) : Settles q f .awayFromZero (q + 1)
  | even {m : Nat} (hf : 2 * f = 1) (hm : m = q ∨ m = q + 1) (heven : Even m) : Settles q f .toEven m

theorem settles_roundDiv (tie : Decimal.Midpoint) (num : Nat) (hd : 0 < den) :
    ∃ f : ℚ, (num : ℚ) / den = (num / den : Nat) + f ∧ 0 ≤ f ∧ f < 1 ∧
      Settles (num / den) f tie (Decimal.roundDiv tie num den) := by
  have hd' : (0 : ℚ) < den := by exact_mod_cast hd
  have hrem : ((num % den : Nat) : ℚ) / den < 1 := by
    rw [div_lt_one hd']
    exact_mod_cast Nat.mod_lt num hd
  have htwice : 2 * (((num % den : Nat) : ℚ) / den) = ((2 * (num % den) : Nat) : ℚ) / den := by
    push_cast
    exact (mul_div_assoc _ _ _).symm
  refine ⟨_, div_eq_add_mod num hd, by positivity, hrem, ?_⟩
  unfold Decimal.roundDiv
  dsimp only
  split
  · rename_i hlt
    refine .below ?_
    rw [htwice, div_lt_one hd']
    exact_mod_cast hlt
  · rename_i hge
    split
    · rename_i hlt
      refine .above ?_
      rw [htwice, one_lt_div hd']
      exact_mod_cast hlt
    · rename_i hle
      have hhalf : 2 * (((num % den : Nat) : ℚ) / den) = 1 := by
        rw [htwice, div_eq_one_iff_eq hd'.ne']
        exact_mod_cast (by omega : 2 * (num % den) = den)
      cases tie with
      | awayFromZero => exact .away hhalf
      | toEven =>
          dsimp only
          split
          · rename_i heven
            exact .even hhalf (.inl rfl) (Nat.even_iff.mpr heven)
          · rename_i hodd
            refine .even hhalf (.inr rfl) ?_
            rw [Nat.even_add_one, Nat.even_iff]
            exact hodd

theorem halfEven_roundDiv (num : Nat) (hd : 0 < den) :
    HalfEven (num / den) (Decimal.roundDiv .toEven num den) := by
  obtain ⟨f, hquotient, hnonneg, hlt, hsettles⟩ := settles_roundDiv .toEven num hd
  rw [hquotient]
  generalize Decimal.roundDiv .toEven num den = m at hsettles
  cases hsettles with
  | below hf => exact halfEven_below hnonneg hf
  | above hf => exact halfEven_above hlt hf
  | even hf hm heven => exact halfEven_between hf hm heven

/-- The word before another counts in the same unit, unless the other is the first that counts in its. -/
theorem units_before {v : Nat} (hm : m ≤ 2 ^ 53) (hj : j = 0 ∨ 2 ^ 52 ≤ m) (hv : v + 1 = j * 2 ^ 52 + m) :
    (unitsAt v : ℚ) = (m - 1) * 2 ^ j ∨ m = 2 ^ 52 ∧ j ≠ 0 := by
  by_cases hfirst : m = 2 ^ 52 ∧ j ≠ 0
  · exact .inr hfirst
  · obtain ⟨n, rfl⟩ : ∃ n, m = n + 1 := ⟨m - 1, by omega⟩
    have hvn : v = j * 2 ^ 52 + n := by omega
    left
    rw [hvn, unitsAt_add (by omega) (by omega)]
    push_cast
    ring

/-- A magnitude in units of `2 ^ j`, rounded to an integer, is rounded to a word: below the word the unit
may be the next smaller one, but only when the magnitude is not below the word. -/
theorem HalfEven.rounds (h : HalfEven y m) (hm : m ≤ 2 ^ 53) (hj : j = 0 ∨ (2 : ℚ) ^ 52 ≤ y ∧ 2 ^ 52 ≤ m) :
    Rounds (y * 2 ^ j) (j * 2 ^ 52 + m) := by
  have hpow : (0 : ℚ) < 2 ^ j := by positivity
  have hword : (unitsAt (j * 2 ^ 52 + m) : ℚ) = m * 2 ^ j := by
    rw [unitsAt_add hm (hj.imp_right And.right)]
    push_cast
    rfl
  have heven : Even m → Even (j * 2 ^ 52 + m) := (Even.mul_left (by decide) j).add
  have hnext : ((m + 1) * 2 ^ j : ℚ) ≤ unitsAt (j * 2 ^ 52 + m + 1) := by
    have hgrade : j ≤ gradeOf (j * 2 ^ 52 + m) := by
      have hj' := hj.imp_right And.right
      rw [gradeOf]
      omega
    have hstep : (2 : ℚ) ^ j ≤ 2 ^ gradeOf (j * 2 ^ 52 + m) := pow_le_pow_right₀ one_le_two hgrade
    rw [unitsAt_succ, Nat.cast_add, Nat.cast_pow, Nat.cast_ofNat, hword]
    linarith
  have habove := mul_le_mul_of_nonneg_right h.above hpow.le
  have hbelow := mul_le_mul_of_nonneg_right h.below hpow.le
  refine ⟨by linarith, fun heq => heven (h.above_even ?_), fun v hv => ?_, fun v hv heq => ?_⟩
  · apply mul_right_cancel₀ hpow.ne'
    linarith
  · rcases units_before hm (hj.imp_right And.right) hv with hprev | ⟨hm', hj'⟩
    · linarith
    · have hy := mul_le_mul_of_nonneg_right (hj.resolve_left hj').1 hpow.le
      have hlt := unitsAt_lt (show v < j * 2 ^ 52 + m by omega)
      rw [hword, hm'] at hlt ⊢
      push_cast at hlt ⊢
      linarith
  · rcases units_before hm (hj.imp_right And.right) hv with hprev | ⟨hm', hj'⟩
    · refine heven (h.below_even ?_)
      apply mul_right_cancel₀ hpow.ne'
      linarith
    · exact heven (hm' ▸ by decide)

def quotientAt (num den : Nat) (k : Int) : Nat × Nat :=
  if 0 ≤ k then (num, den * twoTo k.toNat) else (num * twoTo (-k).toNat, den)

def unitGuess (num den : Nat) : Int := (Nat.log2 num : Int) - Nat.log2 den - 53

def fitsAt (num den : Nat) (k : Int) : Bool :=
  (quotientAt num den k).1 / (quotientAt num den k).2 < twoTo 53

def unitFor (num den : Nat) : Int :=
  max (if fitsAt num den (unitGuess num den) then unitGuess num den else unitGuess num den + 1) (-1074)

theorem nearestBits_eq (hn : num ≠ 0) :
    nearestBits num den = min ((unitFor num den + 1074).toNat * 2 ^ 52 +
      Decimal.roundDiv .toEven (quotientAt num den (unitFor num den)).1
        (quotientAt num den (unitFor num den)).2) infinityBits :=
  if_neg hn

theorem quotientAt_den_pos (num : Nat) (hd : 0 < den) (k : Int) : 0 < (quotientAt num den k).2 := by
  rw [quotientAt]
  split
  · exact Nat.mul_pos hd (Nat.two_pow_pos _)
  · exact hd

theorem quotientAt_div (num den : Nat) (k : Int) :
    ((quotientAt num den k).1 / (quotientAt num den k).2 : ℚ) = num / den / 2 ^ k := by
  rw [quotientAt]
  split
  · rename_i hk
    obtain ⟨n, rfl⟩ := Int.eq_ofNat_of_zero_le hk
    rw [div_div]
    push_cast [twoTo]
    simp
  · rename_i hk
    obtain ⟨n, hn⟩ := Int.eq_ofNat_of_zero_le (show 0 ≤ -k by omega)
    obtain rfl : k = -(n : Int) := by omega
    rw [zpow_neg, div_inv_eq_mul, div_mul_eq_mul_div]
    push_cast [twoTo]
    simp

theorem fitsAt_iff (hd : 0 < den) (k : Int) :
    fitsAt num den k = true ↔ (num / den / 2 ^ k : ℚ) < 2 ^ 53 := by
  have hpos := quotientAt_den_pos num hd k
  have hpos' : (0 : ℚ) < (quotientAt num den k).2 := by exact_mod_cast hpos
  rw [fitsAt, decide_eq_true_eq, twoTo, Nat.pow_eq, Nat.div_lt_iff_lt_mul hpos, ← quotientAt_div,
    div_lt_iff₀ hpos']
  norm_cast

theorem guess_bounds (hn : 0 < num) (hd : 0 < den) :
    2 ^ 52 ≤ (num / den / 2 ^ unitGuess num den : ℚ) ∧ (num / den / 2 ^ unitGuess num den : ℚ) < 2 ^ 54 := by
  have hd' : (0 : ℚ) < den := by exact_mod_cast hd
  have hg : (0 : ℚ) < 2 ^ unitGuess num den := by positivity
  have hnlow : (2 : ℚ) ^ (Nat.log2 num) ≤ num := by exact_mod_cast Nat.log2_self_le hn.ne'
  have hnhigh : (num : ℚ) < 2 ^ (Nat.log2 num + 1) := by exact_mod_cast Nat.lt_log2_self
  have hdlow : (2 : ℚ) ^ (Nat.log2 den) ≤ den := by exact_mod_cast Nat.log2_self_le hd.ne'
  have hdhigh : (den : ℚ) < 2 ^ (Nat.log2 den + 1) := by exact_mod_cast Nat.lt_log2_self
  have hsplit : (2 : ℚ) ^ unitGuess num den * 2 ^ 53 * 2 ^ (Nat.log2 den) = 2 ^ (Nat.log2 num) := by
    rw [← zpow_natCast 2 53, ← zpow_natCast 2 (Nat.log2 den), ← zpow_natCast 2 (Nat.log2 num),
      ← zpow_add₀ two_ne_zero, ← zpow_add₀ two_ne_zero, unitGuess]
    congr 1
    push_cast
    ring
  constructor
  · rw [le_div_iff₀ hg, le_div_iff₀ hd']
    have hmul := mul_le_mul_of_nonneg_left hdhigh.le (show (0 : ℚ) ≤ 2 ^ 52 * 2 ^ unitGuess num den by positivity)
    rw [pow_succ 2 (Nat.log2 den)] at hmul
    linarith
  · rw [div_lt_iff₀ hg, div_lt_iff₀ hd']
    have hmul := mul_le_mul_of_nonneg_left hdlow (show (0 : ℚ) ≤ 2 ^ 54 * 2 ^ unitGuess num den by positivity)
    rw [pow_succ 2 (Nat.log2 num)] at hnhigh
    linarith

theorem div_zpow_anti {x : ℚ} {k l : Int} (hx : 0 ≤ x) (hkl : k ≤ l) : x / 2 ^ l ≤ x / 2 ^ k :=
  div_le_div_of_nonneg_left hx (by positivity) (zpow_le_zpow_right₀ one_le_two hkl)

theorem unitFor_spec (hn : 0 < num) (hd : 0 < den) :
    (num / den / 2 ^ unitFor num den : ℚ) < 2 ^ 53 ∧
      (unitFor num den = -1074 ∨ (2 ^ 52 : ℚ) ≤ num / den / 2 ^ unitFor num den) := by
  have hx : (0 : ℚ) ≤ num / den := by positivity
  have hbase : ∃ k, unitFor num den = max k (-1074) ∧ (num / den / 2 ^ k : ℚ) < 2 ^ 53 ∧
      (2 ^ 52 : ℚ) ≤ num / den / 2 ^ k := by
    obtain ⟨hlow, hhigh⟩ := guess_bounds hn hd
    by_cases hfits : fitsAt num den (unitGuess num den) = true
    · exact ⟨unitGuess num den, by rw [unitFor, if_pos hfits], (fitsAt_iff hd _).mp hfits, hlow⟩
    · have hge := le_of_not_gt (mt (fitsAt_iff hd _).mpr hfits)
      refine ⟨unitGuess num den + 1, by rw [unitFor, if_neg hfits], ?_, ?_⟩ <;>
        rw [zpow_add_one₀ two_ne_zero, ← div_div]
      · linarith
      · linarith
  obtain ⟨k, hk, hlt, hge⟩ := hbase
  rw [hk]
  refine ⟨(div_zpow_anti hx (le_max_left k _)).trans_lt hlt, ?_⟩
  rcases le_total k (-1074) with hle | hle
  · exact .inl (max_eq_right hle)
  · rw [max_eq_left hle]
    exact .inr hge

theorem rounds_nearestBits (hn : 0 < num) (hd : 0 < den) :
    ∃ w, nearestBits num den = min w infinityBits ∧ Rounds (num / den * perOne) w := by
  obtain ⟨hlt, hge⟩ := unitFor_spec hn hd
  have hround := halfEven_roundDiv (quotientAt num den (unitFor num den)).1
    (quotientAt_den_pos num hd (unitFor num den))
  rw [quotientAt_div] at hround
  refine ⟨_, nearestBits_eq hn.ne', ?_⟩
  generalize hm : Decimal.roundDiv .toEven _ _ = m at hround ⊢
  have hunit : -1074 ≤ unitFor num den := le_max_right _ _
  have hscale : (num / den * perOne : ℚ) =
      num / den / 2 ^ unitFor num den * 2 ^ (unitFor num den + 1074).toNat := by
    rw [← zpow_natCast, Int.toNat_of_nonneg (by omega), zpow_add₀ two_ne_zero, perOne_cast]
    field_simp
  rw [hscale]
  refine hround.rounds ?_ ?_
  · have habove := hround.below
    have hm' : (m : ℚ) < 2 ^ 53 + 1 := by linarith
    have hm' : m < 2 ^ 53 + 1 := by exact_mod_cast hm'
    omega
  · refine hge.imp (fun h => by omega) fun h => ⟨h, ?_⟩
    have habove := hround.above
    have hm' : (2 ^ 52 : ℚ) < m + 1 := by linarith
    have hm' : 2 ^ 52 < m + 1 := by exact_mod_cast hm'
    omega

theorem exists_rounds (num : Nat) (hd : 0 < den) :
    ∃ w, nearestBits num den = min w infinityBits ∧ Rounds (num / den * perOne) w := by
  rcases Nat.eq_zero_or_pos num with rfl | hn
  · have hbits : nearestBits 0 den = min 0 infinityBits := (if_pos rfl).trans (Nat.zero_min _).symm
    exact ⟨0, hbits, rounds_zero (by simp)⟩
  · exact rounds_nearestBits hn hd

theorem ofRatio_isNearest (hd : 0 < den) (neg : Bool) :
    IsNearest (signed neg (num / den)) (ofRatio neg num den) := by
  have hscale : (num / den : ℚ) = num / den * perOne / perOne := by
    rw [mul_div_cancel_right₀ _ perOne_rat_pos.ne']
  have hpos : (0 : ℚ) ≤ num / den * perOne := mul_nonneg (by positivity) perOne_rat_pos.le
  obtain ⟨w, hw, hr⟩ := exists_rounds num hd
  rw [hscale, ofRatio, hw]
  exact hr.isNearest hpos neg

theorem neg_ofRatio (neg : Bool) (num den : Nat) : (ofRatio neg num den).neg = neg := by
  refine neg_ofParts neg (lt_of_le_of_lt ?_ (show infinityBits < 2 ^ 63 by decide))
  by_cases hn : num = 0
  · exact (if_pos hn : nearestBits num den = 0).le.trans (Nat.zero_le _)
  · rw [nearestBits_eq hn]
    exact Nat.min_le_right _ _

end

theorem tenTo_length_le {n : Nat} (hn : n ≠ 0) : 10 ^ (Decimal.numDigits n - 1) ≤ n := by
  by_contra hlt
  have hlen := Nat.length_toDigits_le_iff (b := 10) (n := n) (k := Decimal.numDigits n - 1) (by decide)
  change _ → (Decimal.numDigits n ≤ _ ↔ _) at hlen
  rcases Nat.eq_zero_or_pos (Decimal.numDigits n - 1) with hzero | hpos
  · rw [hzero] at hlt
    omega
  · have hle := (hlen hpos).mpr (Nat.lt_of_not_le hlt)
    omega

theorem numDigits_pos (n : Nat) : 0 < Decimal.numDigits n := Nat.length_toDigits_pos

theorem lt_tenTo_length (n : Nat) : n < 10 ^ Decimal.numDigits n :=
  (Nat.length_toDigits_le_iff (by decide) (numDigits_pos n)).mp le_rfl

theorem two_pow_le_ten_pow {a b : Nat} (h : a ≤ 3 * b) : (2 : ℚ) ^ a ≤ 10 ^ b :=
  calc (2 : ℚ) ^ a ≤ 2 ^ (3 * b) := pow_le_pow_right₀ one_le_two h
    _ = 8 ^ b := by rw [pow_mul]; norm_num
    _ ≤ 10 ^ b := pow_le_pow_left₀ (by norm_num) (by norm_num) b

theorem limit_le : limit ≤ 10 ^ 401 := by
  have hpow : (2 : ℚ) ^ 54 * 2 ^ 970 ≤ 10 ^ 401 := by
    rw [← pow_add]
    exact two_pow_le_ten_pow (by decide)
  rw [limit, sub_mul, one_mul]
  exact (sub_le_self _ (by positivity)).trans hpow

end BaseLib.Double

namespace BaseLib.Decimal

open Double

def value (d : Decimal) : ℚ := signed d.neg (d.coeff * 10 ^ d.exp)

theorem ratio_den_pos (d : Decimal) : 0 < d.ratio.2 := by
  rw [ratio]
  split
  · exact Nat.one_pos
  · exact Nat.pow_pos (by decide)

theorem ratio_div (d : Decimal) : (d.ratio.1 / d.ratio.2 : ℚ) = d.coeff * 10 ^ d.exp := by
  rw [ratio]
  split
  · rename_i he
    obtain ⟨n, hn⟩ := Int.eq_ofNat_of_zero_le he
    simp [hn, tenTo]
  · rename_i he
    obtain ⟨n, hn⟩ := Int.eq_ofNat_of_zero_le (show 0 ≤ -d.exp by omega)
    have he' : d.exp = -(n : Int) := by omega
    simp [he', tenTo, div_eq_mul_inv]

theorem le_magnitude {d : Decimal} (h : d.coeff ≠ 0) :
    (10 : ℚ) ^ d.leadingExponent ≤ d.coeff * 10 ^ d.exp := by
  have hlen := numDigits_pos d.coeff
  have hle : (10 : ℚ) ^ (numDigits d.coeff - 1) ≤ d.coeff := by exact_mod_cast tenTo_length_le h
  have he : d.leadingExponent = ((numDigits d.coeff - 1 : Nat) : Int) + d.exp := by
    rw [leadingExponent]
    omega
  rw [he, zpow_add₀ (by norm_num), zpow_natCast]
  exact mul_le_mul_of_nonneg_right hle (by positivity)

theorem magnitude_lt (d : Decimal) : (d.coeff * 10 ^ d.exp : ℚ) < 10 ^ (d.leadingExponent + 1) := by
  have hlt : (d.coeff : ℚ) < 10 ^ numDigits d.coeff := by exact_mod_cast lt_tenTo_length d.coeff
  have he : d.leadingExponent + 1 = (numDigits d.coeff : Int) + d.exp := by
    rw [leadingExponent]
    omega
  rw [he, zpow_add₀ (by norm_num), zpow_natCast]
  exact mul_lt_mul_of_pos_right hlt (by positivity)

theorem ofDecimal_isNearest (d : Decimal) : IsNearest d.value (ofDecimal d) := by
  have hpos : (0 : ℚ) ≤ d.coeff * 10 ^ d.exp := by positivity
  have htiny : ∀ x : ℚ, 0 ≤ x → 2 * (x * perOne) ≤ 1 → IsNearest (signed d.neg x) (ofParts d.neg 0) := by
    intro x hx hle
    have h := (rounds_zero hle).isNearest (mul_nonneg hx perOne_rat_pos.le) d.neg
    rwa [mul_div_cancel_right₀ _ perOne_rat_pos.ne', Nat.zero_min] at h
  rw [value, ofDecimal]
  split
  · rename_i hzero
    rw [hzero, Nat.cast_zero, zero_mul]
    exact htiny 0 le_rfl (by simp)
  · rename_i hne
    split
    · rename_i hbig
      have hle : limit ≤ |signed d.neg (d.coeff * 10 ^ d.exp)| := by
        rw [abs_signed d.neg hpos]
        refine limit_le.trans (le_trans ?_ (le_magnitude hne))
        rw [← zpow_natCast]
        exact zpow_le_zpow_right₀ (by norm_num) (by exact_mod_cast hbig)
      have hbits : (infinity d.neg).magnitudeBits = infinityBits :=
        magnitudeBits_ofParts d.neg (by decide)
      refine ⟨fun _ => ?_, fun h => absurd hle h.not_ge, fun h => absurd hle h.not_ge,
        fun h => absurd hle h.not_ge⟩
      rw [isInfinite_iff, hbits, infinityBits_eq]
    · split
      · rename_i hsmall
        refine htiny _ hpos ?_
        have hlt : (d.coeff * 10 ^ d.exp : ℚ) ≤ 10 ^ (-400 : Int) :=
          (magnitude_lt d).le.trans (zpow_le_zpow_right₀ (by norm_num) (by omega))
        have hpow : (2 : ℚ) * perOne ≤ 10 ^ 400 := by
          rw [perOne_cast, ← pow_succ']
          exact two_pow_le_ten_pow (by decide)
        have hone : (10 : ℚ) ^ (-400 : Int) * 10 ^ 400 = 1 := by
          rw [zpow_neg]
          exact inv_mul_cancel₀ (by positivity)
        rw [← hone, mul_left_comm]
        exact mul_le_mul hlt hpow (mul_nonneg zero_le_two perOne_rat_pos.le) (by positivity)
      · rw [← ratio_div]
        exact ofRatio_isNearest (ratio_den_pos d) d.neg

theorem neg_ofDecimal (d : Decimal) : (ofDecimal d).neg = d.neg := by
  rw [ofDecimal]
  split
  · exact neg_ofParts _ (by decide)
  · split
    · exact neg_ofParts _ (by decide)
    · split
      · exact neg_ofParts _ (by decide)
      · exact neg_ofRatio _ _ _

end BaseLib.Decimal
