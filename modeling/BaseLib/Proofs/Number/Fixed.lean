import BaseLib.Proofs.Decimal.Rounding
import BaseLib.Proofs.Number.RoundTrip

namespace BaseLib

open Number Text.Composite

namespace Number

/-- A decimal that is written in full: a minus sign or none, no needless zero before the point, and as many
digits after it as there are places. -/
structure Numeral.Positional (n : Numeral) (places : Nat) : Prop where
  minus : n.sign = none ∨ n.sign = some '-'
  whole_ne : n.whole ≠ []
  lead : n.whole.head? = some '0' → n.whole = ['0']
  count : n.places.length = places
  point : n.fraction = none ↔ places = 0
  plain : n.exponent = none

/-- Digits in groups of three counted from the right, with a comma between two groups. -/
def Grouping (whole text : List Char) : Prop :=
  ∃ first rest, whole = first ++ List.flatten rest ∧ text = first ++ rest.flatMap (',' :: ·) ∧
    0 < first.length ∧ first.length ≤ 3 ∧ ∀ g ∈ rest, g.length = 3

/-- The text is that of the numeral with its whole part in groups. -/
def Numeral.Grouped (n : Numeral) (text : List Char) : Prop :=
  ∃ whole, Grouping n.whole whole ∧ text = n.sign.toList ++ (whole ++ fractionText n.fraction)

theorem length_flatten_groups {groups : List (List Char)} (h : ∀ g ∈ groups, g.length = 3) :
    groups.flatten.length = 3 * groups.length := by
  induction groups with
  | nil => rfl
  | cons g groups ih =>
      obtain ⟨hg, hgroups⟩ := List.forall_mem_cons.mp h
      rw [List.flatten_cons, List.length_append, hg, ih hgroups, List.length_cons]
      omega

theorem grouping_group {whole : List Char} (h : whole ≠ []) : Grouping whole (Decimal.group whole) := by
  induction whole with
  | nil => exact absurd rfl h
  | cons c whole ih =>
      rw [Decimal.group]
      split
      · -- A group is complete, so the digit before it begins the next one.
        rename_i hcut
        obtain ⟨first, rest, hwhole, htext, hpos, hle, hrest⟩ := ih hcut.1
        have hthrees := length_flatten_groups hrest
        have hlen := hcut.2
        rw [hwhole, List.length_append] at hlen
        refine ⟨[c], first :: rest, ?_, ?_, Nat.one_pos, Nat.le_of_ble_eq_true rfl, ?_⟩
        · rw [hwhole]
          rfl
        · rw [htext]
          rfl
        · exact List.forall_mem_cons.mpr ⟨by omega, hrest⟩
      · rename_i hopen
        by_cases hne : whole = []
        · exact ⟨[c], [], by rw [hne]; rfl, by rw [hne]; rfl, Nat.one_pos, Nat.le_of_ble_eq_true rfl,
            List.forall_mem_nil _⟩
        · obtain ⟨first, rest, hwhole, htext, hpos, hle, hrest⟩ := ih hne
          have hthrees := length_flatten_groups hrest
          have hlen : whole.length % 3 ≠ 0 := fun hlen => hopen ⟨hne, hlen⟩
          rw [hwhole, List.length_append] at hlen
          refine ⟨c :: first, rest, ?_, ?_, Nat.succ_pos _, ?_, hrest⟩
          · rw [hwhole]
            rfl
          · rw [htext]
            rfl
          · rw [List.length_cons]
            omega

end Number

namespace Decimal

theorem ofDigits_digits (n : Nat) : ofDigits (digits n) = n :=
  Nat.ofDigitChars_toDigits (by decide) (by decide)

theorem ofDigits_zeros (n : Nat) : ofDigits (zeros n) = 0 :=
  Nat.ofDigitChars_replicate_zero.trans (Nat.mul_zero _)

theorem ofDigits_padded (width n : Nat) : ofDigits (padded width n) = n := by
  rw [padded, ofDigits_append, ofDigits_zeros, ofDigits_digits, Nat.zero_mul, Nat.zero_add]

theorem head?_digits {n : Nat} (h : n ≠ 0) : (digits n).head? ≠ some '0' :=
  head?_toDigits (by decide) (by decide) n h

theorem numeral_places (q : Decimal) : q.numeral.places = q.positionalParts.2 := by
  unfold Numeral.places numeral
  dsimp only
  split
  · rename_i hempty
    exact (List.isEmpty_iff.mp hempty).symm
  · rfl

theorem numeral_negative (q : Decimal) : q.numeral.negative = q.neg := by
  change ((if q.neg then some '-' else none) == some '-') = q.neg
  cases q.neg <;> rfl

theorem length_positionalParts (q : Decimal) : q.positionalParts.2.length = (-q.exp).toNat := by
  unfold positionalParts
  split
  · exact (Int.toNat_of_nonpos (by omega)).symm
  · have hlen := length_padded ((-q.exp).toNat + 1) q.coeff
    rw [List.length_drop]
    omega

theorem numeral_value (q : Decimal) : q.numeral.value = q.value := by
  rw [Numeral.value, numeral_negative, numeral_places, length_positionalParts, value]
  change Double.signed q.neg ((ofDigits q.positionalParts.1 + _ / _) * 10 ^ (0 : ℤ)) = _
  rw [zpow_zero, mul_one]
  refine congrArg (Double.signed q.neg) ?_
  unfold positionalParts
  split
  · rename_i hexp
    obtain ⟨i, hi⟩ := Int.eq_ofNat_of_zero_le hexp
    have hempty : ofDigits [] = 0 := rfl
    rw [hi, hempty, Nat.cast_zero, zero_div, add_zero, zpow_natCast]
    split
    · rename_i hzero
      rw [hzero, Nat.cast_zero, zero_mul]
      rfl
    · rw [ofDigits_append, ofDigits_digits, ofDigits_zeros, zeros, List.length_replicate]
      push_cast
      simp
  · rename_i hexp
    obtain ⟨i, hi⟩ := Int.eq_ofNat_of_zero_le (show 0 ≤ -q.exp by omega)
    have hlen := length_padded ((-q.exp).toNat + 1) q.coeff
    have hpadded := ofDigits_padded ((-q.exp).toNat + 1) q.coeff
    rw [← List.take_append_drop ((padded ((-q.exp).toNat + 1) q.coeff).length - (-q.exp).toNat)
      (padded ((-q.exp).toNat + 1) q.coeff), ofDigits_append, List.length_drop,
      show (padded ((-q.exp).toNat + 1) q.coeff).length -
        ((padded ((-q.exp).toNat + 1) q.coeff).length - (-q.exp).toNat) = (-q.exp).toNat by omega] at hpadded
    generalize ofDigits (List.take _ _) = whole at hpadded ⊢
    generalize ofDigits (List.drop _ _) = frac at hpadded ⊢
    have hten : (10 : ℚ) ^ (-q.exp).toNat ≠ 0 := by positivity
    have hexp' : (10 : ℚ) ^ q.exp = ((10 : ℚ) ^ (-q.exp).toNat)⁻¹ := by
      rw [← zpow_natCast, ← zpow_neg]
      congr 1
      omega
    rw [hexp', ← hpadded]
    push_cast
    field_simp

theorem eq_zero_of_head?_padded {places c : Nat}
    (h : ((padded (places + 1) c).take ((padded (places + 1) c).length - places)).head? = some '0') :
    (padded (places + 1) c).take ((padded (places + 1) c).length - places) = ['0'] := by
  have hlen := length_padded (places + 1) c
  by_cases hnarrow : (digits c).length ≤ places + 1
  · have hone : (padded (places + 1) c).length - places = 1 := by
      simp only [padded, zeros, List.length_append, List.length_replicate]
      omega
    rw [List.head?_take, if_neg (by omega)] at h
    rw [hone, List.take_one, h]
    rfl
  · have hpadded : padded (places + 1) c = digits c := by
      rw [padded, Nat.sub_eq_zero_of_le (by omega)]
      rfl
    have hne : c ≠ 0 := by
      rintro rfl
      exact hnarrow (Nat.le_add_left 1 _)
    rw [List.head?_take, if_neg (by omega), hpadded] at h
    exact absurd h (head?_digits hne)

theorem numeral_positional (q : Decimal) : q.numeral.Positional (-q.exp).toNat where
  minus := by
    change (if q.neg then some '-' else none) = none ∨ (if q.neg then some '-' else none) = some '-'
    cases q.neg
    · exact .inl rfl
    · exact .inr rfl
  whole_ne := q.positionalParts_digits.1
  lead := by
    change q.positionalParts.1.head? = _ → q.positionalParts.1 = _
    unfold positionalParts
    split
    · split
      · exact fun _ => rfl
      · rename_i hne
        intro hhead
        rw [List.head?_append_of_ne_nil _ (digits_ne _)] at hhead
        exact absurd hhead (head?_digits hne)
    · exact eq_zero_of_head?_padded
  count := by rw [numeral_places, length_positionalParts]
  point := by
    rw [← length_positionalParts]
    change (if _ then none else some _) = none ↔ _
    split
    · rename_i hempty
      exact iff_of_true rfl (List.length_eq_zero_iff.mpr (List.isEmpty_iff.mp hempty))
    · rename_i hne
      exact iff_of_false (fun h => (nomatch h)) fun h =>
        hne (List.isEmpty_iff.mpr (List.length_eq_zero_iff.mp h))
  plain := rfl

theorem numeral_grouped (q : Decimal) : q.numeral.Grouped q.grouped := by
  refine ⟨group q.positionalParts.1, grouping_group q.positionalParts_digits.1, ?_⟩
  simp only [numeral, grouped, withSign, withPoint]
  cases q.neg <;> cases q.positionalParts.2.isEmpty <;> simp [fractionText]

@[simp]
theorem rescale_exp (tie : Midpoint) (d : Decimal) (e : ℤ) : (d.rescale tie e).exp = e := by
  unfold rescale
  split
  · rfl
  · split <;> rfl

theorem exp_toSignificant (n : Nat) (d : Decimal) :
    d.exp ≤ (d.toSignificant n).exp ∧ ((d.toSignificant n).exp = d.exp ↔ numDigits d.coeff ≤ n) := by
  unfold toSignificant
  dsimp only
  split
  · rename_i hle
    exact ⟨le_rfl, iff_of_true rfl hle⟩
  · rename_i hwide
    split
    · rw [rescale_exp]
      exact ⟨by omega, iff_of_false (by omega) hwide⟩
    · dsimp only
      rw [rescale_exp]
      exact ⟨by omega, iff_of_false (by omega) hwide⟩

end Decimal

namespace Number

open Decimal

theorem magnitude_eq (d : Decimal) : magnitude d = Decimal.toSignificant working ⟨false, d.coeff, d.exp⟩ := by
  unfold magnitude Decimal.toSignificant Decimal.rescale
  dsimp only
  split_ifs <;> rfl

theorem magnitude_spec (q : Decimal) :
    (magnitude q).neg = false ∧ numDigits (magnitude q).coeff ≤ working ∧
      Significant .toEven working |q.value| (magnitude q).value := by
  rw [magnitude_eq, abs_value]
  exact toSignificant_spec (by decide) ⟨false, q.coeff, q.exp⟩

/-- What is left of a magnitude with `p` decimals within the working precision: the decimals that do not
fit are dropped, and with more whole digits than fit the last ones are zeros. -/
structure Numeral.Abridges (n : Numeral) (p : Nat) (y : ℚ) : Prop where
  unsigned : n.sign = none
  positional : n.Positional n.places.length
  nearest : Significant .toEven working y n.value
  exact : n.value = y ↔ Fits working y
  places_le : n.places.length ≤ p
  places_eq : n.places.length = p ↔ p = 0 ∨ y * 10 ^ p < 10 ^ working

theorem magnitude_abridges {q : Decimal} {p : Nat} (hq : q.exp = -p) :
    (magnitude q).numeral.Abridges p |q.value| := by
  obtain ⟨hneg, hdigits, hnearest⟩ := magnitude_spec q
  obtain ⟨hexp, hkept⟩ := exp_toSignificant working ⟨false, q.coeff, q.exp⟩
  rw [← magnitude_eq] at hexp hkept
  have hcount : (magnitude q).numeral.places.length = (-(magnitude q).exp).toNat := (numeral_positional _).count
  have hscaled : |q.value| * 10 ^ p = q.coeff := by
    rw [abs_value, hq, mul_assoc, ← zpow_natCast, ← ten_zpow_add, neg_add_cancel, zpow_zero, mul_one]
  refine ⟨?_, ?_, ?_, ?_, ?_, ?_⟩
  · change (if (magnitude q).neg then some '-' else none) = none
    rw [hneg]
    rfl
  · rw [hcount]
    exact numeral_positional _
  · rwa [numeral_value]
  · rw [numeral_value]
    refine ⟨fun h => ?_, hnearest.eq_of_fits⟩
    rw [← h]
    exact fits_of_numDigits hdigits
  · rw [hcount]
    dsimp only at hexp
    omega
  · have hwidth : |q.value| * 10 ^ p < 10 ^ working ↔ numDigits q.coeff ≤ working := by
      rw [hscaled, Decimal.numDigits_le_iff (by decide)]
      exact_mod_cast Iff.rfl
    rw [hcount, hwidth]
    dsimp only at hexp hkept
    omega

def FormatKind.usualPlaces : FormatKind → Nat
  | exponent _ => 6
  | _ => 2

/-- The format is a letter for the kind, followed by a precision or by nothing. -/
def Asks (fmt : List Char) (kind : FormatKind) (p : Nat) : Prop :=
  ∃ letter spec, fmt = letter :: spec ∧ FormatKind.ofLetter? letter = some kind ∧
    (spec.isEmpty || Text.allDigits spec) = true ∧ precision spec kind.usualPlaces = .ok p

variable {x : Number} {fmt : List Char} {kind : FormatKind} {p : Nat}

theorem Asks.places_le (h : Asks fmt kind p) : p ≤ 999 := by
  obtain ⟨letter, spec, -, -, -, hp⟩ := h
  refine precision_le ?_ hp
  cases kind <;> exact Nat.le_of_ble_eq_true rfl

theorem localize_invariant (t : List Char) : NumberSymbols.invariant.localize t = t := if_pos ⟨rfl, rfl⟩

theorem format_asked (hx : x.isFinite = true) (h : Asks fmt kind p) (symbols : NumberSymbols) :
    ∃ spec, precision spec kind.usualPlaces = .ok p ∧ x.format fmt symbols = x.standard kind spec symbols := by
  obtain ⟨letter, spec, rfl, hkind, hspec, hp⟩ := h
  refine ⟨spec, hp, ?_⟩
  rw [format, hx, hkind, hspec]
  rfl

theorem format_fixed (hx : x.isFinite = true) (h : Asks fmt .fixed p) :
    x.format fmt NumberSymbols.invariant = (rounded x.toDecimal p).map Decimal.positional := by
  obtain ⟨spec, hp, hrun⟩ := format_asked hx h NumberSymbols.invariant
  rw [hrun, standard, show precision spec 2 = .ok p from hp]
  show (do pure (NumberSymbols.invariant.localize (← rounded x.toDecimal p).positional)) = _
  simp only [localize_invariant]
  cases rounded x.toDecimal p <;> rfl

theorem format_grouped (hx : x.isFinite = true) (h : Asks fmt .grouped p) :
    x.format fmt NumberSymbols.invariant = (rounded x.toDecimal p).map Decimal.grouped := by
  obtain ⟨spec, hp, hrun⟩ := format_asked hx h NumberSymbols.invariant
  rw [hrun, standard, show precision spec 2 = .ok p from hp]
  show (do pure (NumberSymbols.invariant.localize (← rounded x.toDecimal p).grouped)) = _
  simp only [localize_invariant]
  cases rounded x.toDecimal p <;> rfl

theorem format_currency (hx : x.isFinite = true) (h : Asks fmt .currency p) :
    x.format fmt NumberSymbols.invariant =
      (rounded x.toDecimal p).map fun q => withSign q.isNegative ('¤' :: (magnitude q).grouped) := by
  obtain ⟨spec, hp, hrun⟩ := format_asked hx h NumberSymbols.invariant
  rw [hrun, standard, show precision spec 2 = .ok p from hp]
  show (do
    let q ← rounded x.toDecimal p
    pure (withSign q.isNegative ("¤".toList ++ NumberSymbols.invariant.localize (magnitude q).grouped))) = _
  simp only [localize_invariant]
  cases rounded x.toDecimal p <;> rfl

/-- Rounding fails only where there are more places than a decimal is scaled by or the result is too wide. -/
theorem rounded_cases (d : Decimal) (p : Nat) :
    (widestShift < p ∨ Overflows d p) ∧ rounded d p = .error Misuse.tooWide ∨
      ¬(widestShift < p ∨ Overflows d p) ∧ rounded d p = .ok (d.rescale .awayFromZero (-p)) := by
  rw [rounded]
  split
  · rename_i hfar
    exact .inl ⟨.inl hfar, rfl⟩
  · rename_i hnear
    rw [or_iff_right hnear, ← round?_eq_none_iff]
    unfold Decimal.round?
    dsimp only
    split
    · exact .inl ⟨rfl, rfl⟩
    · split
      · exact .inl ⟨rfl, rfl⟩
      · exact .inr ⟨Option.some_ne_none _, rfl⟩

theorem rounded_eq (d : Decimal) {p : Nat} (hp : p ≤ 999) :
    Overflows d p ∧ rounded d p = .error Misuse.tooWide ∨
      ¬Overflows d p ∧ rounded d p = .ok (d.rescale .awayFromZero (-p)) := by
  have hshift : ¬widestShift < p := Nat.not_lt.mpr (hp.trans (by decide))
  have hcases := rounded_cases d p
  rwa [or_iff_right hshift] at hcases

theorem isNegative_iff (q : Decimal) : q.isNegative = true ↔ q.value < 0 := by
  have habs := abs_value q
  have hpos : (0 : ℚ) ≤ q.coeff * 10 ^ q.exp := mul_nonneg (Nat.cast_nonneg _) (ten_zpow_pos _).le
  rw [isNegative, Bool.and_eq_true, bne_iff_ne, ne_eq, ← value_eq_zero_iff]
  unfold value Double.signed at *
  cases q.neg with
  | false => simpa using hpos
  | true =>
      simp only [if_pos, neg_eq_zero, true_and, Left.neg_neg_iff]
      exact (hpos.lt_iff_ne').symm

end Number

namespace Session

open Library Decimal

variable {s : Session} {provider : Value} {x : Number} {p : Nat} {f g c : List Char}

/-- The fixed, grouped and currency texts of a number in the invariant culture. All three write the number
rounded half away from zero, and the first two in full; the currency text has its magnitude within the
working precision. -/
theorem fixed_formats_spec (hx : x.isFinite = true)
    (hsymbols : s.symbolsOf provider = .ok NumberSymbols.invariant)
    (hf : Asks f .fixed p) (hg : Asks g .grouped p) (hc : Asks c .currency p) :
    (Overflows x.toDecimal p ∧ ∀ fmt ∈ [f, g, c],
      s.exec (Catalogue.call "format_number" [x.toValue, .text fmt, provider]) =
        (.error (.misuse .tooWide), s)) ∨
    ¬Overflows x.toDecimal p ∧ ∃ (n m : Numeral) (t u : List Char),
      RoundsTo .awayFromZero p x.toDecimal.value n.value ∧ n.Positional p ∧
      n.Grouped t ∧ t.filter (· ≠ ',') = n.text ∧ m.Abridges p |n.value| ∧ m.Grouped u ∧
      s.exec (Catalogue.call "format_number" [x.toValue, .text f, provider]) = (.ok (.text n.text), s) ∧
      s.exec (Catalogue.call "format_number" [x.toValue, .text g, provider]) = (.ok (.text t), s) ∧
      s.exec (Catalogue.call "format_number" [x.toValue, .text c, provider]) =
        (.ok (.text (withSign (n.value < 0) ('¤' :: u))), s) := by
  have hrun (fmt : List Char) := exec_format hsymbols x fmt
  have hfixed := hrun f
  have hgrouped := hrun g
  have hcurrency := hrun c
  rw [format_fixed hx hf] at hfixed
  rw [format_grouped hx hg] at hgrouped
  rw [format_currency hx hc] at hcurrency
  obtain ⟨hover, hq⟩ | ⟨hover, hq⟩ := rounded_eq x.toDecimal hf.places_le
  · rw [hq] at hfixed hgrouped hcurrency
    refine .inl ⟨hover, List.forall_mem_cons.mpr ⟨hfixed, ?_⟩⟩
    exact List.forall_mem_cons.mpr ⟨hgrouped, List.forall_mem_singleton.mpr hcurrency⟩
  · have hrounds := roundsTo_rescale .awayFromZero x.toDecimal (-p)
    have hexp := rescale_exp .awayFromZero x.toDecimal (-p)
    rw [hq] at hfixed hgrouped hcurrency
    rw [neg_neg] at hrounds
    generalize x.toDecimal.rescale .awayFromZero (-p) = q at hfixed hgrouped hcurrency hrounds hexp
    have hnegative : q.isNegative = decide (q.numeral.value < 0) := by
      rw [Bool.eq_iff_iff, decide_eq_true_iff, numeral_value, isNegative_iff]
    refine .inr ⟨hover, q.numeral, (magnitude q).numeral, q.grouped, (magnitude q).grouped, ?_, ?_,
      q.numeral_grouped, ?_, ?_, numeral_grouped _, ?_, hgrouped, ?_⟩
    · rwa [numeral_value]
    · have hpositional := numeral_positional q
      rwa [hexp, neg_neg, Int.toNat_natCast] at hpositional
    · rw [numeral_text, filter_grouped]
    · rw [numeral_value]
      exact magnitude_abridges hexp
    · rw [numeral_text]
      exact hfixed
    · rw [← hnegative]
      exact hcurrency

/-- A negative number in the three formats; the precision of one is spelled out. -/
theorem fixed_formats_spec_negative :
    ∃ (n m : Numeral) (t u : List Char),
      RoundsTo .awayFromZero 2 (Number.int (-1234567)).toDecimal.value n.value ∧ n.Positional 2 ∧
      n.Grouped t ∧ t.filter (· ≠ ',') = n.text ∧ m.Abridges 2 |n.value| ∧ m.Grouped u ∧
      (start 0).exec (Catalogue.call "format_number" [.int (-1234567), .text ['F'], .null]) =
        (.ok (.text n.text), start 0) ∧
      (start 0).exec (Catalogue.call "format_number" [.int (-1234567), .text ['n', '2'], .null]) =
        (.ok (.text t), start 0) ∧
      (start 0).exec (Catalogue.call "format_number" [.int (-1234567), .text ['c'], .null]) =
        (.ok (.text (withSign (n.value < 0) ('¤' :: u))), start 0) := by
  have hsymbols : (start 0).symbolsOf .null = .ok NumberSymbols.invariant := rfl
  have hf : Asks ['F'] .fixed 2 := ⟨'F', [], rfl, rfl, rfl, rfl⟩
  have hg : Asks ['n', '2'] .grouped 2 := ⟨'n', ['2'], rfl, rfl, by decide, precision_digits (p := 2) (by decide) _⟩
  have hc : Asks ['c'] .currency 2 := ⟨'c', [], rfl, rfl, rfl, rfl⟩
  have hnarrow : ¬Overflows (Number.int (-1234567)).toDecimal 2 := by
    rw [← round?_eq_none_iff]
    decide +kernel
  exact ((fixed_formats_spec (x := .int (-1234567)) rfl hsymbols hf hg hc).resolve_left fun h => hnarrow h.1).2

/-- The last of 28 decimals is lost with the currency sign, although the number is written in full
without it. -/
theorem currency_loses_decimal :
    (start 0).exec (Catalogue.call "format_number" [.int 1, .text "F28".toList]) =
        (.ok (.text ("1.".toList ++ zeros 28)), start 0) ∧
      (start 0).exec (Catalogue.call "format_number" [.int 1, .text "C28".toList]) =
        (.ok (.text ("¤1.".toList ++ zeros 27)), start 0) := by
  have hsymbols : (start 0).symbolsOf .null = .ok NumberSymbols.invariant := rfl
  have hformat (fmt : List Char) := exec_format hsymbols (.int 1) fmt
  have hfixed : Number.format (.int 1) "F28".toList NumberSymbols.invariant = .ok ("1.".toList ++ zeros 28) := by
    decide +kernel
  have hcurrency : Number.format (.int 1) "C28".toList NumberSymbols.invariant = .ok ("¤1.".toList ++ zeros 27) := by
    decide +kernel
  exact ⟨(hformat _).trans (by rw [hfixed]; rfl), (hformat _).trans (by rw [hcurrency]; rfl)⟩

end Session

end BaseLib
