import BaseLib.Proofs.Double.Shortest
import BaseLib.Proofs.Number.Fixed

namespace BaseLib

open Number Decimal

namespace Decimal

variable {n m : Nat} {x : ℚ} {d : Decimal}

theorem Fits.mono (h : Fits n x) (hnm : n ≤ m) : Fits m x := by
  obtain ⟨k, e, hx, hk⟩ := h
  exact ⟨k, e, hx, hk.trans_le (pow_le_pow_right₀ (by norm_num) hnm)⟩

theorem Fits.scale (h : Fits n x) (e : ℤ) : Fits n (x * 10 ^ e) := by
  obtain ⟨k, f, rfl, hk⟩ := h
  exact ⟨k, f + e, by rw [mul_assoc, ← ten_zpow_add], hk⟩

theorem Fits.abs (h : Fits n x) : Fits n |x| := by
  obtain ⟨k, e, rfl, hk⟩ := h
  refine ⟨|k|, e, ?_, by rwa [abs_abs]⟩
  rw [abs_mul_zpow, Int.cast_abs]

theorem le_wholePart_iff (n : Nat) (d : Decimal) : n ≤ d.wholePart ↔ (n : ℚ) ≤ |d.value| := by
  have hden : (0 : ℚ) < d.ratio.2 := by exact_mod_cast d.ratio_den_pos
  rw [abs_value, ← ratio_div, le_div_iff₀ hden, wholePart, Nat.le_div_iff_mul_le d.ratio_den_pos]
  exact_mod_cast Iff.rfl

end Decimal

namespace Double

theorem fits_shortest (d : Double) : Fits 18 d.shortest.value := by
  cases hz : d.isZero with
  | true =>
      rw [shortest_of_zero hz]
      exact fits_of_numDigits (show numDigits 0 ≤ 18 by decide)
  | false =>
      obtain ⟨n, c, hn, hc, -, hshortest⟩ := shortest_found hz
      have hle : c ≤ 10 ^ (n + 1) := (gridPoint?_some hz hc).1.trans (gridFloor_lt hz n)
      rw [hshortest, value_normalize]
      exact fits_of_numDigits ((Decimal.numDigits_le_iff (by decide)).mpr
        (hle.trans_lt (Nat.pow_lt_pow_right (by decide) (by omega))))

theorem fits_toDecimal (d : Double) : Fits 18 d.toDecimal.value := by
  unfold toDecimal
  dsimp only
  split
  · rename_i hwhole
    obtain ⟨i, hi⟩ := Int.eq_ofNat_of_zero_le hwhole.2.2
    have hvalue : (⟨d.shortest.neg, d.shortest.coeff * tenTo (d.shortest.exp + 1).toNat, -1⟩ : Decimal).value =
        d.shortest.value := by
      refine congrArg (Double.signed d.shortest.neg) ?_
      have hpow : ((tenTo (i + 1) : Nat) : ℚ) * 10 ^ (-1 : ℤ) = 10 ^ (i : ℤ) := by
        rw [tenTo, Nat.pow_eq, zpow_natCast]
        push_cast
        rw [pow_succ, mul_assoc]
        norm_num
      rw [hi, show ((i : ℤ) + 1).toNat = i + 1 by omega, Nat.cast_mul, mul_assoc, hpow]
    rw [hvalue]
    exact fits_shortest d
  · exact fits_shortest d

end Double

namespace Decimal

variable {tie : Midpoint} {w y : ℚ} {p : Nat}

/-- A number from one up to ten has one digit before the point, and a ten stays when it is rounded. -/
theorem RoundsTo.significant (h : RoundsTo tie p w y) (hlow : 1 ≤ |w|) (hhigh : |w| ≤ 10) :
    Significant tie (p + 1) w y := by
  by_cases hten : |w| = 10
  · have hgrid : ∃ k : ℤ, w = k * 10 ^ (1 : ℤ) ∧ |k| = 1 := by
      rcases eq_or_eq_neg_of_abs_eq hten with hw | hw
      · exact ⟨1, by rw [hw]; norm_num, rfl⟩
      · exact ⟨-1, by rw [hw]; norm_num, rfl⟩
    obtain ⟨k, hw, hk⟩ := hgrid
    have hself : w * 10 ^ (p : ℤ) = ((k * 10 ^ (p + 1) : ℤ) : ℚ) := by
      rw [hw, mul_assoc, ← ten_zpow_add, add_comm, ← Nat.cast_succ, zpow_natCast]
      push_cast
      rfl
    rw [h.unique (roundsTo_self tie hself)]
    refine Fits.significant_self ⟨k, 1, hw, ?_⟩ tie
    rw [hk]
    exact one_lt_pow₀ (by norm_num) (Nat.succ_ne_zero p)
  · have hlog : Int.log 10 |w| = 0 := by
      refine log_eq_of_bounds (by rwa [zpow_zero]) ?_
      rw [zero_add, zpow_one]
      exact hhigh.lt_of_ne hten
    rw [Significant, hlog, Nat.cast_succ, sub_zero, add_sub_cancel_right]
    exact h

theorem RoundsTo.carried (h : RoundsTo tie p w y) (hy : |y| = 10) :
    RoundsTo tie p (w * 10 ^ (-1 : ℤ)) (y * 10 ^ (-1 : ℤ)) := by
  obtain ⟨k, hk, hyk⟩ := h
  have hone : ∃ l : ℤ, y * 10 ^ (-1 : ℤ) = l := by
    rcases eq_or_eq_neg_of_abs_eq hy with hy | hy
    · exact ⟨1, by rw [hy]; norm_num⟩
    · exact ⟨-1, by rw [hy]; norm_num⟩
  obtain ⟨l, hl⟩ := hone
  have hgrid : y * 10 ^ (-1 : ℤ) * 10 ^ (p : ℤ) = ((l * 10 ^ p : ℤ) : ℚ) := by
    rw [hl, zpow_natCast]
    push_cast
    rfl
  refine ⟨l * 10 ^ p, .of_lt ?_, hgrid⟩
  have hmoved : w * 10 ^ (-1 : ℤ) * 10 ^ (p : ℤ) - y * 10 ^ (-1 : ℤ) * 10 ^ (p : ℤ) =
      (w * 10 ^ (p : ℤ) - k) * 10 ^ (-1 : ℤ) := by
    rw [← hyk]
    ring
  have hnear := hk.near
  rw [← hgrid, hmoved, abs_mul_zpow]
  norm_num at hnear ⊢
  linarith

end Decimal

namespace Number

variable {d : Decimal} {p : Nat} {letter : Char}

def writtenExponent (letter : Char) (h : letter = 'e' ∨ letter = 'E') (width : Nat) (hw : 0 < width) (k : ℤ) :
    Exponent where
  letter := letter
  sign := some (if 0 ≤ k then '+' else '-')
  digits := padded width k.natAbs
  letter_mem := h
  sign_mem := by
    intro c hc
    cases hc
    split <;> rfl
  digits_ne := List.ne_nil_of_length_pos (hw.trans_le (length_padded width k.natAbs))
  isDigits := padded_isDigits width k.natAbs

theorem power_writtenExponent (h : letter = 'e' ∨ letter = 'E') {width : Nat} (hw : 0 < width) (k : ℤ) :
    (writtenExponent letter h width hw k).power = k := by
  have hpower : (writtenExponent letter h width hw k).power =
      if some (if 0 ≤ k then '+' else '-') = some '-' then -(ofDigits (padded width k.natAbs) : ℤ)
      else ofDigits (padded width k.natAbs) := rfl
  rw [hpower, ofDigits_padded]
  by_cases hk : 0 ≤ k
  · rw [if_pos hk, if_neg (by decide), Int.natAbs_of_nonneg hk]
  · rw [if_neg hk, if_pos rfl]
    omega

def scientificText (m : Decimal) (letter : Char) (k : ℤ) : List Char :=
  m.positional ++ letter :: (if 0 ≤ k then '+' else '-') :: padded 3 k.natAbs

/-- The point is moved a second time if the mantissa is rounded up to ten, and an exponent text is misused
only where the point cannot be moved so far. -/
theorem exponentForm_cases (hne : d.coeff ≠ 0) (hp : p ≤ 999) (letter : Char) :
    Unmovable d p ∧ exponentForm d p letter = .error Misuse.tooWide ∨
      ¬Unmovable d p ∧ ∃ k : ℤ,
        (Carries d p ∧ k = d.leadingExponent + 1 ∨ ¬Carries d p ∧ k = d.leadingExponent) ∧
        exponentForm d p letter = .ok (scientificText ((moved d (-k)).rescale .awayFromZero (-p)) letter k) := by
  have hplaced {k : ℤ} (hk : d.leadingExponent ≤ k) : (shifted d (-k) >>= fun m => rounded m p) =
      if widestShift < k.natAbs then .error Misuse.tooWide
      else .ok ((moved d (-k)).rescale .awayFromZero (-p)) := by
    rw [shifted_eq, Int.natAbs_neg, ← rounded_moved d (by omega) hp]
    split <;> rfl
  have hzero : d.isZero = false := beq_false_of_ne hne
  have hrun : exponentForm d p letter = (shifted d (-d.leadingExponent) >>= fun m => rounded m p) >>= fun m =>
      if 10 ≤ (magnitude m).wholePart then
        (shifted d (-(d.leadingExponent + 1)) >>= fun m => rounded m p) >>= fun m =>
          pure (scientificText m letter (d.leadingExponent + 1))
      else pure (scientificText m letter d.leadingExponent) := by
    rw [exponentForm, hzero]
    simp only [bind_assoc]
    rfl
  rw [hplaced le_rfl, hplaced (Int.le_add_one le_rfl)] at hrun
  by_cases hwide : widestShift < d.leadingExponent.natAbs
  · rw [if_pos hwide] at hrun
    exact .inl ⟨⟨hne, .inl hwide⟩, hrun⟩
  · rw [if_neg hwide] at hrun
    change _ = ite _ _ _ at hrun
    by_cases hcarry : Carries d p
    · rw [if_pos (show 10 ≤ _ from hcarry)] at hrun
      by_cases hwide' : widestShift < (d.leadingExponent + 1).natAbs
      · rw [if_pos hwide'] at hrun
        exact .inl ⟨⟨hne, .inr ⟨hcarry, hwide'⟩⟩, hrun⟩
      · rw [if_neg hwide'] at hrun
        exact .inr ⟨fun h => h.2.elim hwide fun h => hwide' h.2, _, .inl ⟨hcarry, rfl⟩, hrun⟩
    · rw [if_neg (show ¬10 ≤ _ from hcarry)] at hrun
      exact .inr ⟨fun h => h.2.elim hwide fun h => hcarry h.1, _, .inr ⟨hcarry, rfl⟩, hrun⟩

theorem moved_spec (d : Decimal) (k : ℤ) :
    Fits working (moved d k).value ∧ Significant .toEven working (d.value * 10 ^ k) (moved d k).value := by
  obtain ⟨-, hdigits, hnearest⟩ := toSignificant_spec (n := working) (by decide) ⟨d.neg, d.coeff, d.exp + k⟩
  have hvalue : (⟨d.neg, d.coeff, d.exp + k⟩ : Decimal).value = d.value * 10 ^ k := by
    unfold value Double.signed
    dsimp only
    rw [ten_zpow_add, ← mul_assoc]
    split
    · rw [neg_mul]
    · rfl
  rw [hvalue] at hnearest
  exact ⟨fits_of_numDigits hdigits, hnearest⟩

theorem carries_iff (d : Decimal) (p : Nat) :
    Carries d p ↔ 10 ≤ |((moved d (-d.leadingExponent)).rescale .awayFromZero (-p)).value| := by
  have hrounds := roundsTo_rescale .awayFromZero (moved d (-d.leadingExponent)) (-p)
  have hfits := hrounds.fits (moved_spec d _).1 (by decide)
  have hmagnitude := (magnitude_spec _).2.2.eq_of_fits hfits.abs
  unfold Carries
  rw [le_wholePart_iff, hmagnitude, abs_abs]
  norm_num

/-- With its point behind the leading digit a number is from one to ten, and so is what it is rounded to. -/
theorem leading_spec (hne : d.coeff ≠ 0) (p : Nat) :
    ∃ w y : ℚ, (moved d (-d.leadingExponent)).value = w ∧
      ((moved d (-d.leadingExponent)).rescale .awayFromZero (-p)).value = y ∧
      RoundsTo .awayFromZero p w y ∧ 1 ≤ |w| ∧ |w| ≤ 10 ∧ 1 ≤ |y| ∧ |y| ≤ 10 ∧
      Significant .toEven working d.value (w * 10 ^ d.leadingExponent) := by
  have hx : d.value ≠ 0 := mt (value_eq_zero_iff d).mp hne
  have hx' : d.value * 10 ^ (-d.leadingExponent) ≠ 0 := mul_ne_zero hx (ten_zpow_ne _)
  have hlog : Int.log 10 |d.value * 10 ^ (-d.leadingExponent)| = 0 := by
    rw [log_mul_zpow hx, log_value hne, add_neg_cancel]
  have hw := (moved_spec d (-d.leadingExponent)).2
  have hy := roundsTo_rescale .awayFromZero (moved d (-d.leadingExponent)) (-p)
  rw [neg_neg] at hy
  obtain ⟨hlow, hhigh⟩ := hw.bounds hx' (by decide)
  have hlow' := hy.pow_le (by rw [hlog]; omega) hlow
  have hhigh' := hy.le_pow (by rw [hlog]; omega) hhigh
  rw [hlog, zero_add, zpow_one] at hhigh hhigh'
  rw [hlog, zpow_zero] at hlow hlow'
  have hback := hw.scale hx' d.leadingExponent
  rw [mul_assoc, ← ten_zpow_add, neg_add_cancel, zpow_zero, mul_one] at hback
  exact ⟨_, _, rfl, rfl, hy, hlow, hhigh, hlow', hhigh', hback⟩

theorem carried_value (hne : d.coeff ≠ 0) {p : Nat}
    (hten : |((moved d (-d.leadingExponent)).rescale .awayFromZero (-p)).value| = 10) :
    ((moved d (-(d.leadingExponent + 1))).rescale .awayFromZero (-p)).value =
      ((moved d (-d.leadingExponent)).rescale .awayFromZero (-p)).value * 10 ^ (-1 : ℤ) := by
  have hx : d.value * 10 ^ (-d.leadingExponent) ≠ 0 :=
    mul_ne_zero (mt (value_eq_zero_iff d).mp hne) (ten_zpow_ne _)
  have hmoved := (moved_spec d (-d.leadingExponent)).2.scale hx (-1)
  rw [mul_assoc, ← ten_zpow_add, ← neg_add] at hmoved
  have hvalue := (moved_spec d (-(d.leadingExponent + 1))).2.unique hmoved
  have hy := roundsTo_rescale .awayFromZero (moved d (-d.leadingExponent)) (-p)
  have hnext := roundsTo_rescale .awayFromZero (moved d (-(d.leadingExponent + 1))) (-p)
  rw [neg_neg] at hy hnext
  rw [hvalue] at hnext
  exact hnext.unique (hy.carried hten)

/-- An exponent text is a mantissa from one to ten and an exponent. What they denote is the number rounded
twice: to the working precision, and then to the digits that the text has. -/
theorem exponentForm_spec (hne : d.coeff ≠ 0) (hp : p ≤ 999) (letter : Char) :
    Unmovable d p ∧ exponentForm d p letter = .error Misuse.tooWide ∨
      ¬Unmovable d p ∧ ∃ (w : ℚ) (m : Decimal) (k : ℤ),
        Significant .toEven working d.value w ∧ m.exp = -p ∧ 1 ≤ |m.value| ∧ |m.value| < 10 ∧
        Significant .awayFromZero (p + 1) w (m.value * 10 ^ k) ∧
        exponentForm d p letter = .ok (scientificText m letter k) := by
  refine (exponentForm_cases hne hp letter).imp_right fun ⟨hmovable, k, hk, hrun⟩ => ⟨hmovable, ?_⟩
  have hcarries := carries_iff d p
  have hcarried := carried_value hne (p := p)
  obtain ⟨w, y, -, hy, hrounds, hlow, hhigh, hlow', hhigh', hback⟩ := leading_spec hne p
  rw [hy] at hcarries hcarried
  have hw : w ≠ 0 := by
    rintro rfl
    norm_num at hlow
  have hdigits := (hrounds.significant hlow hhigh).scale hw d.leadingExponent
  rcases hk with ⟨hcarry, rfl⟩ | ⟨hcarry, rfl⟩
  · have hten : |y| = 10 := le_antisymm hhigh' (hcarries.mp hcarry)
    have hm := hcarried hten
    have hone : |y * 10 ^ (-1 : ℤ)| = 1 := by
      rw [abs_mul_zpow, hten]
      norm_num
    refine ⟨_, _, _, hback, rescale_exp .awayFromZero _ (-p), ?_, ?_, ?_, hrun⟩
    · rw [hm, hone]
    · rw [hm, hone]
      norm_num
    · rwa [hm, mul_assoc, ← ten_zpow_add, neg_add_cancel_comm_assoc]
  · refine ⟨_, _, _, hback, rescale_exp .awayFromZero _ (-p), ?_, ?_, ?_, hrun⟩
    · rwa [hy]
    · rw [hy]
      exact lt_of_not_ge (mt hcarries.mpr hcarry)
    · rwa [hy]

variable {x : Number} {fmt : List Char}

theorem format_percent (hx : x.isFinite = true) (h : Asks fmt .percent p) :
    x.format fmt NumberSymbols.invariant =
      (rounded (hundredfold x.toDecimal) p).map fun q => q.grouped ++ [' ', '%'] := by
  obtain ⟨spec, hspec, hrun⟩ := format_asked hx h NumberSymbols.invariant
  rw [hrun, standard, show precision spec 2 = .ok p from hspec]
  show (do
    let q ← rounded (hundredfold x.toDecimal) p
    pure (NumberSymbols.invariant.localize q.grouped ++ ' ' :: "%".toList)) = _
  simp only [localize_invariant]
  cases rounded (hundredfold x.toDecimal) p <;> rfl

theorem format_exponent {upper : Bool} (hx : x.isFinite = true) (h : Asks fmt (.exponent upper) p) :
    x.format fmt NumberSymbols.invariant = exponentForm x.toDecimal p (if upper then 'E' else 'e') := by
  obtain ⟨spec, hspec, hrun⟩ := format_asked hx h NumberSymbols.invariant
  rw [hrun, standard, show precision spec 6 = .ok p from hspec]
  show (do pure (NumberSymbols.invariant.localize
    (← exponentForm x.toDecimal p (if upper then 'E' else 'e')))) = _
  simp only [localize_invariant]
  cases exponentForm x.toDecimal p (if upper then 'E' else 'e') <;> rfl

theorem hundredfold_spec (d : Decimal) :
    Significant .toEven working (100 * d.value) (hundredfold d).value := by
  have hvalue : (⟨d.neg, d.coeff * 100, d.exp⟩ : Decimal).value = 100 * d.value := by
    unfold value Double.signed
    dsimp only
    split
    · push_cast
      ring
    · push_cast
      ring
  rw [← hvalue]
  exact (toSignificant_spec (by decide) ⟨d.neg, d.coeff * 100, d.exp⟩).2.2

theorem value_ofInt (n : ℤ) : (Decimal.ofInt n).value = n := by
  have hsigned : (Decimal.ofInt n).value = Double.signed (n < 0) |(n : ℚ)| := by
    rw [value, ofInt, zpow_zero, mul_one, Nat.cast_natAbs, Int.cast_abs]
  rw [hsigned, Double.signed]
  split
  · rename_i hn
    rw [abs_of_neg (by exact_mod_cast of_decide_eq_true hn), neg_neg]
  · rename_i hn
    exact abs_of_nonneg (by exact_mod_cast not_lt.mp (mt decide_eq_true hn))

/-- The value is rounded to the working precision, which changes nothing unless the number is an integer
with more digits. -/
def Reduces (x : Number) (v w : ℚ) : Prop :=
  Significant .toEven working v w ∧ ((∀ n : ℤ, x = .int n → Fits working (n : ℚ)) → w = v)

theorem fits_working (h : ∀ n : ℤ, x = .int n → Fits working (n : ℚ)) : Fits working x.toDecimal.value := by
  cases x with
  | int n =>
      rw [toDecimal, value_ofInt]
      exact h n rfl
  | double d => exact d.fits_toDecimal.mono (by decide)

end Number

namespace Session

open Library

variable {s : Session} {provider : Value} {x : Number} {p : Nat} {f g : List Char} {upper : Bool}

/-- The percent and the exponent text of a number in the invariant culture. The number is rounded to the
working precision first; then the hundredfold of it is rounded half away from zero to `p` decimals, and a
mantissa with `p` decimals times a power of ten is what it is rounded to with one digit more. -/
theorem scaled_formats_spec (hx : x.isFinite = true)
    (hsymbols : s.symbolsOf provider = .ok NumberSymbols.invariant)
    (hf : Asks f .percent p) (hg : Asks g (.exponent upper) p) :
    (Overflows (hundredfold x.toDecimal) p ∧
      s.exec (Catalogue.call "format_number" [x.toValue, .text f, provider]) = (.error (.misuse .tooWide), s) ∨
    ¬Overflows (hundredfold x.toDecimal) p ∧ ∃ (w : ℚ) (n : Numeral) (t : List Char),
      Reduces x (100 * x.toDecimal.value) w ∧ RoundsTo .awayFromZero p w n.value ∧ n.Positional p ∧
      n.Grouped t ∧
      s.exec (Catalogue.call "format_number" [x.toValue, .text f, provider]) =
        (.ok (.text (t ++ [' ', '%'])), s)) ∧
    (x.toDecimal.value ≠ 0 →
      Unmovable x.toDecimal p ∧
        s.exec (Catalogue.call "format_number" [x.toValue, .text g, provider]) = (.error (.misuse .tooWide), s) ∨
      ¬Unmovable x.toDecimal p ∧ ∃ (w : ℚ) (m : Numeral) (e : Exponent),
        Reduces x x.toDecimal.value w ∧ m.Positional p ∧ 1 ≤ |m.value| ∧ |m.value| < 10 ∧
        e.letter = (if upper then 'E' else 'e') ∧ e.sign.isSome ∧ 3 ≤ e.digits.length ∧
        Significant .awayFromZero (p + 1) w (m.value * 10 ^ e.power) ∧
        s.exec (Catalogue.call "format_number" [x.toValue, .text g, provider]) =
          (.ok (.text (m.text ++ e.text)), s)) := by
  have hpercent := exec_format hsymbols x f
  have hexponent := exec_format hsymbols x g
  rw [format_percent hx hf] at hpercent
  rw [format_exponent hx hg] at hexponent
  constructor
  · obtain ⟨hover, hq⟩ | ⟨hover, hq⟩ := rounded_eq (hundredfold x.toDecimal) hf.places_le
    · rw [hq] at hpercent
      exact .inl ⟨hover, hpercent⟩
    · have hrounds := roundsTo_rescale .awayFromZero (hundredfold x.toDecimal) (-p)
      have hexp := rescale_exp .awayFromZero (hundredfold x.toDecimal) (-p)
      have hpositional := numeral_positional ((hundredfold x.toDecimal).rescale .awayFromZero (-p))
      have hreduced := hundredfold_spec x.toDecimal
      rw [hq] at hpercent
      rw [neg_neg, ← numeral_value (Decimal.rescale _ _ _)] at hrounds
      rw [hexp, neg_neg, Int.toNat_natCast] at hpositional
      refine .inr ⟨hover, _, _, _, ⟨hreduced, fun hn => ?_⟩, hrounds, hpositional, numeral_grouped _, hpercent⟩
      have hscaled := (fits_working hn).scale 2
      rw [show x.toDecimal.value * 10 ^ (2 : ℤ) = 100 * x.toDecimal.value by rw [mul_comm]; norm_num] at hscaled
      exact hreduced.eq_of_fits hscaled
  · intro hvalue
    have hletter : (if upper then 'E' else 'e') = 'e' ∨ (if upper then 'E' else 'e') = 'E' := by
      cases upper
      · exact .inl rfl
      · exact .inr rfl
    obtain ⟨hfar, hq⟩ | ⟨hnear, w, m, k, hreduced, hexp, hlow, hhigh, hdigits, hq⟩ :=
      exponentForm_spec (mt (value_eq_zero_iff _).mpr hvalue) hg.places_le (if upper then 'E' else 'e')
    · rw [hq] at hexponent
      exact .inl ⟨hfar, hexponent⟩
    · have hpositional := numeral_positional m
      rw [hexp, neg_neg, Int.toNat_natCast] at hpositional
      rw [hq] at hexponent
      refine .inr ⟨hnear, w, m.numeral, writtenExponent _ hletter 3 (by decide) k,
        ⟨hreduced, fun hn => hreduced.eq_of_fits (fits_working hn)⟩, hpositional, ?_, ?_, rfl, rfl,
        length_padded 3 _, ?_, ?_⟩
      · rwa [numeral_value]
      · rwa [numeral_value]
      · rwa [numeral_value, power_writtenExponent]
      · rw [numeral_text]
        exact hexponent

/-- A percentage and a number with an exponent, both with one decimal. -/
theorem scaled_formats_spec_small :
    (∃ (w : ℚ) (n : Numeral) (t : List Char),
      Reduces (.int 25) (100 * (Number.int 25).toDecimal.value) w ∧ RoundsTo .awayFromZero 1 w n.value ∧
      n.Positional 1 ∧ n.Grouped t ∧
      (start 0).exec (Catalogue.call "format_number" [.int 25, .text ['P', '1'], .null]) =
        (.ok (.text (t ++ [' ', '%'])), start 0)) ∧
    ∃ (w : ℚ) (m : Numeral) (e : Exponent),
      Reduces (.int 25) (Number.int 25).toDecimal.value w ∧ m.Positional 1 ∧ 1 ≤ |m.value| ∧ |m.value| < 10 ∧
      e.letter = 'e' ∧ e.sign.isSome ∧ 3 ≤ e.digits.length ∧
      Significant .awayFromZero (1 + 1) w (m.value * 10 ^ e.power) ∧
      (start 0).exec (Catalogue.call "format_number" [.int 25, .text ['e', '1'], .null]) =
        (.ok (.text (m.text ++ e.text)), start 0) := by
  have hsymbols : (start 0).symbolsOf .null = .ok NumberSymbols.invariant := rfl
  have hf : Asks ['P', '1'] .percent 1 :=
    ⟨'P', ['1'], rfl, rfl, by decide, precision_digits (p := 1) (by decide) _⟩
  have hg : Asks ['e', '1'] (.exponent false) 1 :=
    ⟨'e', ['1'], rfl, rfl, by decide, precision_digits (p := 1) (by decide) _⟩
  have hnarrow : ¬Overflows (hundredfold (Number.int 25).toDecimal) 1 := by
    rw [← round?_eq_none_iff]
    decide +kernel
  have hmovable : ¬Unmovable (Number.int 25).toDecimal 1 := by
    rintro ⟨-, hwide | ⟨-, hwide⟩⟩
    · exact absurd hwide (by decide)
    · exact absurd hwide (by decide)
  have hvalue : (Number.int 25).toDecimal.value ≠ 0 := by
    rw [toDecimal, value_ofInt]
    norm_num
  obtain ⟨hpercent, hexponent⟩ := scaled_formats_spec (x := .int 25) rfl hsymbols hf hg
  exact ⟨(hpercent.resolve_left fun h => hnarrow h.1).2,
    ((hexponent hvalue).resolve_left fun h => hmovable h.1).2⟩

/-- An integer that is written in full, but as a percentage and with an exponent without its last digit. -/
theorem percent_loses_digits :
    (start 0).exec (Catalogue.call "format_number" [.int 12345678901234567890123456789, .text "F0".toList]) =
        (.ok (.text "12345678901234567890123456789".toList), start 0) ∧
      (start 0).exec (Catalogue.call "format_number" [.int 12345678901234567890123456789, .text "P0".toList]) =
        (.ok (.text "1,234,567,890,123,456,789,012,345,679,000 %".toList), start 0) ∧
      (start 0).exec (Catalogue.call "format_number" [.int 12345678901234567890123456789, .text "E28".toList]) =
        (.ok (.text "1.2345678901234567890123456790E+028".toList), start 0) := by
  have hformat {fmt t : List Char}
      (h : (Number.int 12345678901234567890123456789).format fmt NumberSymbols.invariant = .ok t) :
      (start 0).exec (Catalogue.call "format_number" [.int 12345678901234567890123456789, .text fmt, .null]) =
        (.ok (.text t), start 0) := by
    have hsymbols : (start 0).symbolsOf .null = .ok NumberSymbols.invariant := rfl
    have hrun := exec_format hsymbols (.int 12345678901234567890123456789) fmt
    rwa [h] at hrun
  exact ⟨hformat (by decide +kernel), hformat (by decide +kernel), hformat (by decide +kernel)⟩

end Session

end BaseLib
