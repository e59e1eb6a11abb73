import BaseLib.Number.Format
import BaseLib.Proofs.Double.Nearest
import Mathlib.Data.Nat.Cast.Order.Field

namespace BaseLib

/-- The outcome is a fault that the library has no wording for. -/
def Misused {α : Type} (r : Except Fault α) : Prop := ∃ m, r = .error (.misuse m)

section

variable {α β : Type} {r : Except Fault α}

@[simp]
theorem misused_ok (a : α) : ¬Misused (.ok a : Except Fault α) := fun ⟨_, h⟩ => (nomatch h)

@[simp]
theorem misused_pure (a : α) : ¬Misused (pure a : Except Fault α) := misused_ok a

@[simp]
theorem misused_failure (f : Failure) : ¬Misused (.error (.failure f) : Except Fault α) :=
  fun ⟨_, h⟩ => (nomatch h)

@[simp]
theorem misused_misuse (m : Misuse) : Misused (.error (.misuse m) : Except Fault α) := ⟨m, rfl⟩

theorem misused_error_iff {e : Fault} : Misused (.error e : Except Fault α) ↔ ∃ m, e = .misuse m :=
  exists_congr fun _ => ⟨Except.error.inj, congrArg Except.error⟩

theorem misused_bind {f : α → Except Fault β} :
    Misused (r >>= f) ↔ Misused r ∨ ∃ a, r = .ok a ∧ Misused (f a) := by
  cases r with
  | ok a =>
      refine ⟨fun h => .inr ⟨a, rfl, h⟩, ?_⟩
      rintro (h | ⟨b, hb, h⟩)
      · exact absurd h (misused_ok a)
      · cases hb
        exact h
  | error e =>
      constructor
      · rintro ⟨m, hm⟩
        cases hm
        exact .inl ⟨m, rfl⟩
      · rintro (⟨m, hm⟩ | ⟨b, hb, -⟩)
        · cases hm
          exact ⟨m, rfl⟩
        · cases hb

theorem misused_bind_pure {f : α → β} : Misused (r >>= fun a => pure (f a)) ↔ Misused r := by
  rw [misused_bind]
  exact or_iff_left fun ⟨a, _, h⟩ => misused_pure (f a) h

theorem misused_map (f : α → β) : Misused (r.map f) ↔ Misused r := misused_bind_pure

end

theorem Decimal.numDigits_le_iff {n k : Nat} (hk : 0 < k) : numDigits n ≤ k ↔ n < 10 ^ k :=
  Nat.length_toDigits_le_iff (by decide) hk

namespace Text.Composite

/-- A run of digits is no numeral when it is too long or one of its digits has no decimal value. -/
def Unreadable (s : List Char) : Prop :=
  longestNumeral < s.length ∨ ∃ c ∈ s, isDecimal c.toNat = false

theorem foldlM_eq_none_iff {s : List Char} (n : Nat) :
    s.foldlM (fun n c => (digitValue? c.toNat).map (10 * n + ·)) n = none ↔
      ∃ c ∈ s, isDecimal c.toNat = false := by
  induction s generalizing n with
  | nil => simp
  | cons c s ih =>
      rw [List.foldlM_cons]
      cases hc : digitValue? c.toNat with
      | none => simp [isDecimal, hc]
      | some v => simpa [isDecimal, hc] using ih _

theorem misused_readNumeral {s : List Char} : Misused (readNumeral s) ↔ Unreadable s := by
  rw [readNumeral, Unreadable, ← foldlM_eq_none_iff 0]
  split
  · rename_i hlong
    exact ⟨fun _ => .inl hlong, fun _ => misused_misuse _⟩
  · rename_i hshort
    change _ ↔ _ ∨ decimalValue? s = none
    cases decimalValue? s with
    | none => simp
    | some n => simp [hshort]

end Text.Composite

namespace Number

open Text.Composite

theorem unreadable_nil : ¬Unreadable [] := by
  rintro (h | ⟨c, hc, -⟩)
  · exact absurd h (by decide)
  · cases hc

theorem misused_precision {spec : List Char} {default : Nat} :
    Misused (precision spec default) ↔ Unreadable spec := by
  unfold precision
  cases spec with
  | nil => exact ⟨fun h => absurd h (misused_ok _), fun h => absurd h unreadable_nil⟩
  | cons c spec =>
      show Misused (readNumeral (c :: spec) >>= _) ↔ _
      rw [misused_bind, misused_readNumeral]
      refine or_iff_left ?_
      rintro ⟨n, -, h⟩
      split at h <;> simp at h

theorem roundDiv_awayFromZero {num den : Nat} (hd : 0 < den) :
    Decimal.roundDiv .awayFromZero num den = (2 * num + den) / (2 * den) := by
  have hsplit := Nat.div_add_mod num den
  have hlt := Nat.mod_lt num hd
  have hlow : num / den * (2 * den) = 2 * (den * (num / den)) := by ring
  have hhigh : (num / den + 1) * (2 * den) = 2 * (den * (num / den)) + 2 * den := by ring
  have hnext : (num / den + 1 + 1) * (2 * den) = 2 * (den * (num / den)) + 4 * den := by ring
  unfold Decimal.roundDiv
  dsimp only
  split
  · exact (Nat.div_eq_of_lt_le (by omega) (by omega)).symm
  · rw [ite_self]
    exact (Nat.div_eq_of_lt_le (by omega) (by omega)).symm

/-- Rounded to some places, the magnitude has more digits than a coefficient may have. -/
def Overflows (d : Decimal) (places : Nat) : Prop :=
  (((10 ^ Decimal.widest : Nat) : ℚ) - 1 / 2) ≤ d.coeff * 10 ^ (d.exp + places)

theorem half_below_iff {n c : Nat} : ((n : ℚ) - 1 / 2) ≤ c ↔ n ≤ c := by
  constructor
  · intro h
    have h' : (n : ℚ) < c + 1 := by linarith
    exact Nat.lt_succ_iff.mp (by exact_mod_cast h')
  · intro h
    have h' : (n : ℚ) ≤ c := by exact_mod_cast h
    linarith

theorem le_roundDiv_iff {n num den : Nat} (hd : 0 < den) :
    n ≤ Decimal.roundDiv .awayFromZero num den ↔ ((n : ℚ) - 1 / 2) ≤ num / den := by
  have hd' : (0 : ℚ) < den := by exact_mod_cast hd
  rw [le_div_iff₀ hd', roundDiv_awayFromZero hd, Nat.le_div_iff_mul_le (by omega), ← Nat.cast_le (α := ℚ)]
  push_cast
  constructor <;> intro h <;> linarith

/-- A rounded coefficient reaches a positive integer as soon as the number is at most a half below. -/
theorem le_rescale_iff (d : Decimal) (places : Nat) {n : Nat} (hn : 0 < n) :
    n ≤ (d.rescale .awayFromZero (-places)).coeff ↔
      ((n : ℚ) - 1 / 2) ≤ d.coeff * 10 ^ (d.exp + places) := by
  unfold Decimal.rescale
  split
  · rename_i hle
    obtain ⟨k, hk⟩ := Int.eq_ofNat_of_zero_le (show 0 ≤ d.exp + places by omega)
    have hk' : (d.exp - -(places : Int)).toNat = k := by omega
    have hcoeff : (d.coeff * 10 ^ (d.exp + places) : ℚ) = ((d.coeff * Decimal.tenTo k : Nat) : ℚ) := by
      rw [hk, zpow_natCast, Decimal.tenTo, Nat.pow_eq]
      push_cast
      rfl
    rw [hcoeff, hk', half_below_iff]
  · split
    · rename_i hsmall
      have hlt : (d.coeff * 10 ^ (d.exp + places) : ℚ) < 10 ^ (-1 : Int) := by
        refine (Decimal.magnitude_lt ⟨d.neg, d.coeff, d.exp + places⟩).trans_le ?_
        refine zpow_le_zpow_right₀ (by norm_num) ?_
        unfold Decimal.leadingExponent
        dsimp only
        omega
      have htenth : (10 : ℚ) ^ (-1 : Int) = 1 / 10 := by norm_num
      have hn' : (1 : ℚ) ≤ n := by exact_mod_cast hn
      rw [htenth] at hlt
      exact iff_of_false (Nat.not_le_of_lt hn) (by linarith)
    · obtain ⟨k, hk⟩ := Int.eq_ofNat_of_zero_le (show 0 ≤ -(d.exp + places) by omega)
      have hk' : (-(places : Int) - d.exp).toNat = k := by omega
      have hvalue : (d.coeff * 10 ^ (d.exp + places) : ℚ) = d.coeff / Decimal.tenTo k := by
        rw [show d.exp + places = -(k : Int) by omega, zpow_neg, zpow_natCast, Decimal.tenTo, Nat.pow_eq]
        push_cast
        rfl
      have hpos : 0 < Decimal.tenTo k := Nat.pow_pos (by decide)
      rw [hvalue, hk', ← le_roundDiv_iff hpos]

theorem round?_eq_none_iff (d : Decimal) (places : Nat) :
    d.round? .awayFromZero places = none ↔ Overflows d places := by
  have hwidest : 0 < Decimal.widest := by decide
  unfold Decimal.round?
  split
  · rename_i htooWide
    rw [Decimal.tooWide, Bool.and_eq_true, bne_iff_ne, decide_eq_true_eq] at htooWide
    obtain ⟨hne, hwide⟩ := htooWide
    refine iff_of_true rfl ?_
    have hle : (10 : ℚ) ^ (Decimal.numDigits d.coeff - 1) ≤ d.coeff := by
      exact_mod_cast Double.tenTo_length_le hne
    have hdigits := Double.numDigits_pos d.coeff
    have hpow : ((10 ^ Decimal.widest : Nat) : ℚ) ≤ d.coeff * 10 ^ (d.exp + places) := by
      refine le_trans ?_ (mul_le_mul_of_nonneg_right hle (by positivity))
      rw [← zpow_natCast, ← zpow_add₀ (by norm_num), Nat.cast_pow, ← zpow_natCast]
      exact zpow_le_zpow_right₀ (by norm_num) (by omega)
    unfold Overflows
    linarith
  · rw [Overflows, ← le_rescale_iff d places (Nat.pow_pos (by decide)), ← Nat.not_lt,
      ← Decimal.numDigits_le_iff hwidest, Nat.not_le]
    dsimp only
    split
    · rename_i hwide
      exact iff_of_true rfl hwide
    · rename_i hwide
      exact iff_of_false (fun h => (nomatch h)) hwide

theorem misused_rounded {d : Decimal} {places : Nat} :
    Misused (rounded d places) ↔ widestShift < places ∨ Overflows d places := by
  rw [rounded, ← round?_eq_none_iff]
  split
  · rename_i h
    simp [h]
  · rename_i h
    cases d.round? .awayFromZero places <;> simp [h]

theorem roundDiv_le (tie : Decimal.Midpoint) (num den : Nat) :
    Decimal.roundDiv tie num den ≤ num / den + 1 := by
  cases tie <;> grind [Decimal.roundDiv]

theorem roundDiv_tenTo_le {n k c : Nat} (hc : c < 10 ^ (n + k)) (tie : Decimal.Midpoint) :
    Decimal.roundDiv tie c (Decimal.tenTo k) ≤ 10 ^ n := by
  refine (roundDiv_le _ _ _).trans (Nat.succ_le_of_lt (Nat.div_lt_of_lt_mul ?_))
  rwa [pow_add, mul_comm] at hc

theorem rescale_toEven {d : Decimal} {n k : Nat} (hk : Decimal.numDigits d.coeff = n + k) (hpos : 0 < k) :
    d.rescale .toEven (d.exp + k) =
      ⟨d.neg, Decimal.roundDiv .toEven d.coeff (Decimal.tenTo k), d.exp + k⟩ := by
  rw [Decimal.rescale, if_neg (by omega), if_neg (by omega)]
  congr 3
  omega

theorem toSignificant_le (n : Nat) (d : Decimal) :
    ((d.toSignificant n).coeff * 10 ^ (d.toSignificant n).exp : ℚ) ≤ 10 ^ (d.leadingExponent + 1) := by
  unfold Decimal.toSignificant
  dsimp only
  split
  · exact (Decimal.magnitude_lt d).le
  · rename_i hwide
    obtain ⟨k, hk⟩ : ∃ k, Decimal.numDigits d.coeff = n + k := ⟨Decimal.numDigits d.coeff - n, by omega⟩
    have hsub : Decimal.numDigits d.coeff - n = k := by omega
    have hcoeff : ((Decimal.roundDiv .toEven d.coeff (Decimal.tenTo k) : Nat) : ℚ) ≤ 10 ^ (n : Int) := by
      rw [zpow_natCast]
      exact_mod_cast roundDiv_tenTo_le (hk ▸ Double.lt_tenTo_length d.coeff) .toEven
    rw [hsub, rescale_toEven hk (by omega)]
    generalize Decimal.roundDiv .toEven d.coeff (Decimal.tenTo k) = c at hcoeff ⊢
    have hvalue : (c * 10 ^ (d.exp + k) : ℚ) ≤ 10 ^ (d.leadingExponent + 1) := by
      refine (mul_le_mul_of_nonneg_right hcoeff (by positivity)).trans_eq ?_
      rw [← zpow_add₀ (by norm_num), Decimal.leadingExponent, hk]
      congr 1
      push_cast
      ring
    split
    · exact hvalue
    · refine le_trans ?_ hvalue
      have hdiv : ((c / 10 : Nat) : ℚ) * 10 ≤ c := by exact_mod_cast Nat.div_mul_le_self c 10
      rw [zpow_add_one₀ (by norm_num), mul_comm ((10 : ℚ) ^ (d.exp + (k : Int))), ← mul_assoc]
      exact mul_le_mul_of_nonneg_right hdiv (by positivity)

def moved (d : Decimal) (k : Int) : Decimal :=
  Decimal.toSignificant Decimal.working ⟨d.neg, d.coeff, d.exp + k⟩

theorem shifted_eq (d : Decimal) (k : Int) :
    shifted d k = if widestShift < k.natAbs then .error Misuse.tooWide else .ok (moved d k) := rfl

theorem not_overflows_moved (d : Decimal) {k : Int} (hk : d.leadingExponent + k ≤ 0) {places : Nat}
    (hp : places ≤ 999) : ¬Overflows (moved d k) places := by
  intro h
  have hvalue := toSignificant_le Decimal.working ⟨d.neg, d.coeff, d.exp + k⟩
  have hlead : Decimal.leadingExponent ⟨d.neg, d.coeff, d.exp + k⟩ + 1 ≤ 1 := by
    unfold Decimal.leadingExponent at hk ⊢
    dsimp only
    omega
  have hten : ((moved d k).coeff * 10 ^ (moved d k).exp : ℚ) ≤ 10 :=
    hvalue.trans ((zpow_le_zpow_right₀ (by norm_num) hlead).trans_eq (zpow_one 10))
  have hplaces : (10 : ℚ) ^ places ≤ 10 ^ 999 := pow_le_pow_right₀ (by norm_num) hp
  have hwide : (10 : ℚ) ^ 1001 ≤ ((10 ^ Decimal.widest : Nat) : ℚ) := by
    rw [Nat.cast_pow]
    exact pow_le_pow_right₀ (by norm_num) (by decide)
  have hone : (1 : ℚ) ≤ 10 ^ 999 := one_le_pow₀ (by norm_num)
  rw [Overflows, zpow_add₀ (by norm_num), zpow_natCast, ← mul_assoc] at h
  have hmul := mul_le_mul hten hplaces (by positivity) (by norm_num)
  rw [pow_succ, pow_succ] at hwide
  generalize (10 : ℚ) ^ 999 = a at *
  linarith

theorem rounded_moved (d : Decimal) {k : Int} (hk : d.leadingExponent + k ≤ 0) {places : Nat}
    (hp : places ≤ 999) :
    rounded (moved d k) places = .ok ((moved d k).rescale .awayFromZero (-places)) := by
  have hsome := mt (round?_eq_none_iff _ _).mp (not_overflows_moved d hk hp)
  have hshift : ¬widestShift < places := Nat.not_lt.mpr (hp.trans (by decide))
  rw [rounded, if_neg hshift]
  unfold Decimal.round? at hsome ⊢
  dsimp only at hsome ⊢
  split at hsome
  · exact absurd rfl hsome
  · rename_i hwide
    rw [if_neg hwide]
    split at hsome
    · exact absurd rfl hsome
    · rename_i hdigits
      rw [if_neg hdigits]

def Carries (d : Decimal) (places : Nat) : Prop :=
  10 ≤ (magnitude ((moved d (-d.leadingExponent)).rescale .awayFromZero (-places))).wholePart

/-- The point of a number cannot be moved to where its exponent text puts it. -/
def Unmovable (d : Decimal) (places : Nat) : Prop :=
  d.coeff ≠ 0 ∧ (widestShift < d.leadingExponent.natAbs ∨
    Carries d places ∧ widestShift < (d.leadingExponent + 1).natAbs)

theorem misused_exponentForm {d : Decimal} {places : Nat} (hp : places ≤ 999) (letter : Char) :
    Misused (exponentForm d places letter) ↔ Unmovable d places := by
  have hhere := rounded_moved d (k := -d.leadingExponent) (by omega) hp
  have hnext := rounded_moved d (k := -(d.leadingExponent + 1)) (by omega) hp
  have hshift (k : Int) : shifted d (-k) =
      if widestShift < k.natAbs then .error Misuse.tooWide else .ok (moved d (-k)) := by
    rw [shifted_eq, Int.natAbs_neg]
  unfold exponentForm Unmovable
  dsimp only
  split
  · rename_i hzero
    have hzero : d.coeff = 0 := by simpa [Decimal.isZero] using hzero
    exact iff_of_false (misused_pure _) fun h => h.1 hzero
  · rename_i hne
    have hne : d.coeff ≠ 0 := by simpa [Decimal.isZero] using hne
    rw [hshift]
    split
    · rename_i hwide
      exact iff_of_true (misused_misuse _) ⟨hne, .inl hwide⟩
    · rename_i hnear
      simp only [hne, hnear, ne_eq, not_false_eq_true, true_and, false_or]
      show Misused (rounded (moved d (-d.leadingExponent)) places >>= _) ↔ _
      rw [hhere]
      change Misused (ite _ _ _) ↔ _
      by_cases hcarry : Carries d places <;> rw [Carries] at hcarry
      · rw [if_pos hcarry, hshift]
        split
        · rename_i hwide
          exact iff_of_true (misused_misuse _) ⟨hcarry, hwide⟩
        · rename_i hnear'
          refine iff_of_false ?_ fun h => hnear' h.2
          show ¬Misused (rounded (moved d (-(d.leadingExponent + 1))) places >>= _)
          rw [hnext]
          exact misused_pure _
      · rw [if_neg hcarry]
        exact iff_of_false (misused_pure _) fun h => hcarry h.1

def Unprintable (x : Number) : Prop := ∃ n : Int, x = .int n ∧ 10 ^ longestNumeral ≤ n.natAbs

theorem shown_of_lt {n : Int} (h : n.natAbs < 10 ^ longestNumeral) :
    shown (int n) = .ok (Decimal.withSign (n < 0) (Decimal.digits n.natAbs)) := by
  have hlength : (Decimal.digits n.natAbs).length ≤ longestNumeral := (Decimal.numDigits_le_iff (by decide)).mpr h
  rw [shown, plainDigits, if_neg (Nat.not_lt.mpr hlength)]
  rfl

theorem shown_of_le {n : Int} (h : 10 ^ longestNumeral ≤ n.natAbs) : shown (int n) = .error Misuse.badValue := by
  have hlength : longestNumeral < (Decimal.digits n.natAbs).length :=
    Nat.not_le.mp (mt (Decimal.numDigits_le_iff (by decide)).mp (Nat.not_lt.mpr h))
  rw [shown, plainDigits, if_pos hlength]
  rfl

theorem misused_plainDigits {n : Nat} : Misused (plainDigits n) ↔ 10 ^ longestNumeral ≤ n := by
  rw [← Nat.not_lt, ← Decimal.numDigits_le_iff (by decide), Nat.not_le]
  unfold plainDigits
  dsimp only
  split
  · rename_i h
    exact iff_of_true (misused_misuse _) h
  · rename_i h
    exact iff_of_false (misused_ok _) h

theorem misused_shown {x : Number} : Misused (shown x) ↔ Unprintable x := by
  cases x with
  | int n =>
      show Misused (plainDigits n.natAbs >>= fun ds => pure (Decimal.withSign (n < 0) ds)) ↔ _
      rw [misused_bind_pure, misused_plainDigits]
      exact ⟨fun h => ⟨n, rfl, h⟩, fun ⟨m, hm, h⟩ => by cases hm; exact h⟩
  | double d => exact iff_of_false (misused_ok _) fun ⟨n, hn, _⟩ => (nomatch hn)

/-- What a standard format may meet: digits that are no numeral where a numeral is read, a result that is
too wide, a whole number that is too long. -/
def KindOverreaches (x : Number) (spec : List Char) : FormatKind → Prop
  | .roundTrip => Unprintable x
  | .general => Unreadable spec ∨ ∃ n, readNumeral spec = .ok n ∧ (n = 0 ∧ Unprintable x ∨ generalLimit < n)
  | .fixed | .grouped | .currency =>
    Unreadable spec ∨ ∃ p, precision spec 2 = .ok p ∧ Overflows x.toDecimal p
  | .percent => Unreadable spec ∨ ∃ p, precision spec 2 = .ok p ∧ Overflows (hundredfold x.toDecimal) p
  | .exponent _ => Unreadable spec ∨ ∃ p, precision spec 6 = .ok p ∧ Unmovable x.toDecimal p
  | .integer => ∃ n, x.toInt? = some n ∧ (Unprintable (.int n) ∨ Unreadable spec)
  | .hex _ => (∃ n, x.toInt? = some n) ∧ Unreadable spec

def picturePlaces (picture : List Char) : Nat :=
  (withoutCommas ((Text.breakOn ['.'] picture).2.getD [])).length

/-- A picture asks for too many places, or for so many that the result is too wide. -/
def PictureOverreaches (x : Number) (picture : List Char) : Prop :=
  (∀ c ∈ picture, c ∈ "0#.,".toList) ∧
    (widestShift < picturePlaces picture ∨ Overflows x.toDecimal (picturePlaces picture))

def Overreaches (x : Number) : List Char → Prop
  | [] => Unprintable x
  | letter :: spec =>
    match FormatKind.ofLetter? letter with
    | some kind =>
      if spec.isEmpty || Text.allDigits spec then KindOverreaches x spec kind
      else PictureOverreaches x (letter :: spec)
    | none => PictureOverreaches x (letter :: spec)

theorem precision_le {spec : List Char} {default p : Nat} (hd : default ≤ 999)
    (h : precision spec default = .ok p) : p ≤ 999 := by
  unfold precision at h
  split at h
  · cases h
    exact hd
  · cases hn : readNumeral spec with
    | error e =>
        rw [hn] at h
        cases h
    | ok n =>
        rw [hn] at h
        change ite _ _ _ = _ at h
        split at h
        · cases h
          assumption
        · cases h

theorem misused_rounding {x : Decimal} {spec : List Char} {default : Nat} (hd : default ≤ 999)
    (f : Decimal → List Char) :
    Misused (do
      let p ← precision spec default
      pure (f (← rounded x p))) ↔
      Unreadable spec ∨ ∃ p, precision spec default = .ok p ∧ Overflows x p := by
  rw [misused_bind, misused_precision]
  refine or_congr_right (exists_congr fun p => and_congr_right fun hp => ?_)
  rw [misused_bind_pure, misused_rounded]
  exact or_iff_right (Nat.not_lt.mpr ((precision_le hd hp).trans (by decide)))

theorem misused_general {x : Number} {spec : List Char} {symbols : NumberSymbols} :
    Misused (x.standard .general spec symbols) ↔ KindOverreaches x spec .general := by
  have hrun : x.standard .general spec symbols = readNumeral spec >>= fun n =>
      if n = 0 then shown x >>= fun t => pure (symbols.localize t)
      else if generalLimit < n then .error Misuse.badValue
      else pure (symbols.localize (x.toDecimal.general n)) := by
    cases spec <;> rfl
  rw [hrun, misused_bind, misused_readNumeral]
  refine or_congr_right (exists_congr fun n => and_congr_right fun _ => ?_)
  split
  · rename_i hn
    rw [misused_bind_pure, misused_shown, hn]
    simp
  · rename_i hn
    split
    · rename_i hlimit
      exact iff_of_true (misused_misuse _) (.inr hlimit)
    · rename_i hlimit
      exact iff_of_false (misused_pure _) fun h => h.elim (fun h => hn h.1) hlimit

theorem misused_integral {x : Number} : ¬Misused (integral x) := by
  unfold integral
  split <;> simp

theorem integral_eq_ok_iff {x : Number} {n : Int} : integral x = .ok n ↔ x.toInt? = some n := by
  unfold integral
  cases x.toInt? <;> simp

theorem misused_integer {x : Number} {spec : List Char} {symbols : NumberSymbols} :
    Misused (x.standard .integer spec symbols) ↔ KindOverreaches x spec .integer := by
  have hprinted (n : Int) : Unprintable (.int n) ↔ Misused (plainDigits n.natAbs) := by
    rw [misused_plainDigits]
    exact ⟨fun ⟨m, hm, h⟩ => by cases hm; exact h, fun h => ⟨n, rfl, h⟩⟩
  show Misused (integral x >>= fun n => plainDigits n.natAbs >>= fun ds => precision spec 0 >>= fun p =>
    pure (Decimal.withSign (n < 0) (fillZeros p ds))) ↔ _
  rw [misused_bind, or_iff_right misused_integral]
  refine exists_congr fun n => and_congr integral_eq_ok_iff ?_
  rw [misused_bind, hprinted]
  cases hds : plainDigits n.natAbs with
  | ok ds =>
      rw [or_iff_right (misused_ok ds), or_iff_right (misused_ok ds)]
      constructor
      · rintro ⟨_, h, hm⟩
        cases h
        exact misused_precision.mp (misused_bind_pure.mp hm)
      · intro h
        exact ⟨ds, rfl, misused_bind_pure.mpr (misused_precision.mpr h)⟩
  | error e =>
      unfold plainDigits at hds
      dsimp only at hds
      split at hds
      · cases hds
        exact iff_of_true (.inl (misused_misuse _)) (.inl (misused_misuse _))
      · cases hds

theorem misused_hex {x : Number} {upper : Bool} {spec : List Char} {symbols : NumberSymbols} :
    Misused (x.standard (.hex upper) spec symbols) ↔ KindOverreaches x spec (.hex upper) := by
  show Misused (integral x >>= fun n => precision spec 0 >>= fun p =>
    pure (fillZeros p (hexDigits upper (complement n)))) ↔ _
  rw [misused_bind, or_iff_right misused_integral]
  simp only [misused_bind_pure, misused_precision, integral_eq_ok_iff, exists_and_right, KindOverreaches]

theorem misused_standard {x : Number} {spec : List Char} {kind : FormatKind} {symbols : NumberSymbols} :
    Misused (x.standard kind spec symbols) ↔ KindOverreaches x spec kind := by
  cases kind with
  | fixed => exact misused_rounding (by decide) fun q => symbols.localize q.positional
  | grouped => exact misused_rounding (by decide) fun q => symbols.localize q.grouped
  | percent => exact misused_rounding (by decide) fun q => symbols.localize q.grouped ++ ' ' :: symbols.percent.toList
  | currency => exact misused_rounding (by decide) fun q =>
      Decimal.withSign q.isNegative (symbols.currency.toList ++ symbols.localize (magnitude q).grouped)
  | exponent upper =>
      show Misused (precision spec 6 >>= fun p =>
        exponentForm x.toDecimal p (if upper then 'E' else 'e') >>= fun t => pure (symbols.localize t)) ↔ _
      rw [misused_bind, misused_precision]
      refine or_congr_right (exists_congr fun p => and_congr_right fun hp => ?_)
      rw [misused_bind_pure, misused_exponentForm (precision_le (by decide) hp)]
  | general => exact misused_general
  | integer => exact misused_integer
  | hex upper => exact misused_hex
  | roundTrip =>
      show Misused (shown x >>= fun t => pure (symbols.localize t)) ↔ _
      rw [misused_bind_pure, misused_shown]
      rfl

theorem misused_pictured {x : Number} {picture : List Char} {symbols : NumberSymbols} :
    Misused (x.pictured picture symbols) ↔ PictureOverreaches x picture := by
  have hmarks : (picture.any fun c => !"0#.,".toList.contains c) = true ↔
      ¬∀ c ∈ picture, c ∈ "0#.,".toList := by
    simp
  unfold pictured PictureOverreaches
  split
  · rename_i hbad
    exact iff_of_false (misused_failure _) fun h => hmarks.mp hbad h.1
  · rename_i hgood
    have hgood := not_not.mp (mt hmarks.mpr hgood)
    rw [and_iff_right hgood, picturePlaces, ← misused_rounded]
    generalize Text.breakOn ['.'] picture = t
    obtain ⟨wholeMarks, rest⟩ := t
    exact misused_bind_pure

theorem misused_format {x : Number} (hx : x.isFinite = true) {fmt : List Char} {symbols : NumberSymbols} :
    Misused (x.format fmt symbols) ↔ Overreaches x fmt := by
  cases fmt with
  | nil =>
      show Misused (shown x >>= fun t => pure (symbols.localize t)) ↔ _
      rw [misused_bind_pure, misused_shown]
      rfl
  | cons letter spec =>
      rw [format, hx, Overreaches, if_neg (by decide)]
      cases FormatKind.ofLetter? letter with
      | none => exact misused_pictured
      | some kind =>
          dsimp only
          split
          · exact misused_standard
          · exact misused_pictured

end Number

end BaseLib
