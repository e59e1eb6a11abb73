import BaseLib.Proofs.Number.Fixed
import Mathlib.Algebra.Order.Floor.Semiring
import Mathlib.Data.Char
import Mathlib.Data.List.Lex

namespace BaseLib.Number

open Decimal

variable {ds : List Char} {n : Nat}

theorem digit_bounds {c : Char} (h : isAsciiDigit c = true) : 48 ≤ c.toNat ∧ c.toNat ≤ 57 := by
  rw [isAsciiDigit, Bool.and_eq_true, decide_eq_true_eq, decide_eq_true_eq] at h
  exact h

theorem digits_digit {c : Char} (h : isAsciiDigit c = true) : digits (c.toNat - 48) = [c] := by
  obtain ⟨hlow, hhigh⟩ := digit_bounds h
  have hlt : c.toNat - 48 < 10 := by omega
  have hcode : (c.toNat - 48).digitChar.toNat = c.toNat :=
    (Nat.toNat_digitChar_of_lt_ten hlt).trans (Nat.add_sub_cancel' hlow)
  rw [digits, Nat.toDigits_of_lt_base hlt, Char.toNat_inj.mp hcode]

theorem digits_append (hn : 0 < n) (h : Digits ds) :
    digits n ++ ds = digits (ds.foldl (fun n c => 10 * n + (c.toNat - 48)) n) := by
  induction ds generalizing n with
  | nil => exact List.append_nil _
  | cons c ds ih =>
      obtain ⟨hc, hds⟩ := List.forall_mem_cons.mp h
      have hbounds := digit_bounds hc
      have hstep : digits n ++ digits (c.toNat - 48) = digits (10 * n + (c.toNat - 48)) :=
        Nat.toDigits_append_toDigits (by decide) hn (by omega)
      rw [digits_digit hc] at hstep
      rw [List.foldl_cons, ← ih (by omega) hds, ← hstep, List.append_assoc, List.singleton_append]

theorem eq_digits (h : Digits ds) (hne : ds ≠ []) (hlead : ds.head? = some '0' → ds = ['0']) :
    ds = digits (ofDigits ds) := by
  cases ds with
  | nil => exact absurd rfl hne
  | cons c ds =>
      obtain ⟨hc, hds⟩ := List.forall_mem_cons.mp h
      by_cases hzero : c = '0'
      · rw [hlead (congrArg some hzero)]
        rfl
      · have hbounds := digit_bounds hc
        have hpos : 0 < c.toNat - 48 := by
          refine Nat.sub_pos_of_lt (lt_of_le_of_ne hbounds.1 fun heq => hzero ?_)
          exact Char.toNat_inj.mp heq.symm
        have happend := digits_append hpos hds
        rw [digits_digit hc] at happend
        rw [ofDigits, List.foldl_cons, Nat.mul_zero, Nat.zero_add]
        exact happend

theorem ofDigits_cons (c : Char) (ds : List Char) :
    ofDigits (c :: ds) = (c.toNat - 48) * 10 ^ ds.length + ofDigits ds := by
  rw [ofDigits, List.foldl_cons, Nat.mul_zero, Nat.zero_add, foldl_digits]

theorem ofDigits_lt (h : Digits ds) : ofDigits ds < 10 ^ ds.length := by
  induction ds with
  | nil => exact Nat.one_pos
  | cons c ds ih =>
      obtain ⟨hc, hds⟩ := List.forall_mem_cons.mp h
      have hbounds := digit_bounds hc
      have hle : (c.toNat - 48) * 10 ^ ds.length ≤ 9 * 10 ^ ds.length := Nat.mul_le_mul_right _ (by omega)
      have hrest := ih hds
      rw [ofDigits_cons, List.length_cons, pow_succ]
      omega

theorem ofDigits_cons_lt {c d : Char} {es : List Char} (h : c < d) (hc : isAsciiDigit c = true) (hds : Digits ds)
    (hlen : ds.length = es.length) : ofDigits (c :: ds) < ofDigits (d :: es) := by
  have hlow := ofDigits_lt hds
  have hbounds := digit_bounds hc
  have hcodes : c.toNat < d.toNat := h
  have hhead := Nat.mul_le_mul_right (10 ^ ds.length) (show c.toNat - 48 + 1 ≤ d.toNat - 48 by omega)
  rw [Nat.succ_mul] at hhead
  rw [ofDigits_cons, ofDigits_cons, ← hlen]
  omega

theorem Digits.lt_iff {es : List Char} (hd : Digits ds) (he : Digits es) (hlen : ds.length = es.length) :
    ds < es ↔ ofDigits ds < ofDigits es := by
  induction ds generalizing es with
  | nil =>
      rw [List.eq_nil_of_length_eq_zero hlen.symm]
      simp
  | cons c ds ih =>
      obtain ⟨d, es, rfl⟩ := List.exists_cons_of_length_eq_add_one hlen.symm
      rw [List.length_cons, List.length_cons, Nat.add_right_cancel_iff] at hlen
      obtain ⟨hc, hds⟩ := List.forall_mem_cons.mp hd
      obtain ⟨hc', hes⟩ := List.forall_mem_cons.mp he
      rw [List.cons_lt_cons_iff, ih hds hes hlen]
      rcases lt_trichotomy c d with h | rfl | h
      · exact iff_of_true (.inl h) (ofDigits_cons_lt h hc hds hlen)
      · simp [ofDigits_cons, hlen]
      · have hnot : ¬(c < d ∨ c = d ∧ ofDigits ds < ofDigits es) := fun hlt =>
          hlt.elim h.asymm fun heq => h.ne' heq.1
        exact iff_of_false hnot (ofDigits_cons_lt h hc' hes hlen.symm).not_gt

theorem length_padded_of_lt {width : Nat} (hwidth : 0 < width) (h : n < 10 ^ width) :
    (padded width n).length = width := by
  have hdigits : (digits n).length ≤ width := (Nat.length_toDigits_le_iff (by decide) hwidth).mpr h
  rw [padded, List.length_append, zeros, List.length_replicate, Nat.sub_add_cancel hdigits]

theorem padded_lt_iff {width m : Nat} (hwidth : 0 < width) (hn : n < 10 ^ width) (hm : m < 10 ^ width) :
    padded width n < padded width m ↔ n < m := by
  have hlen : (padded width n).length = (padded width m).length := by
    rw [length_padded_of_lt hwidth hn, length_padded_of_lt hwidth hm]
  rw [(padded_isDigits width n).lt_iff (padded_isDigits width m) hlen, ofDigits_padded, ofDigits_padded]

theorem padded_inj {width m : Nat} (h : padded width n = padded width m) : n = m := by
  rw [← ofDigits_padded width n, h, ofDigits_padded]

theorem ofDigits_eq_zero (h : ∀ c ∈ ds, c = '0') : ofDigits ds = 0 := by
  rw [List.eq_replicate_of_mem h]
  exact ofDigits_zeros _

def tenths (ds : List Char) : ℚ := ofDigits ds / 10 ^ ds.length

theorem tenths_nonneg (ds : List Char) : 0 ≤ tenths ds := by
  unfold tenths
  positivity

theorem tenths_lt_one (h : Digits ds) : tenths ds < 1 := by
  rw [tenths, div_lt_one (by positivity)]
  exact_mod_cast ofDigits_lt h

theorem tenths_append_zeros (ds : List Char) (n : Nat) : tenths (ds ++ zeros n) = tenths ds := by
  rw [tenths, tenths, ofDigits_append, ofDigits_zeros, Nat.add_zero, List.length_append, zeros,
    List.length_replicate, pow_add]
  push_cast
  exact mul_div_mul_right _ _ (by positivity)

theorem Numeral.value_plain {m : Numeral} (h : m.exponent = none) :
    m.value = Double.signed m.negative (ofDigits m.whole + tenths m.places) := by
  have hpower : m.power = 0 := by rw [Numeral.power, h]; rfl
  rw [Numeral.value, hpower, zpow_zero, mul_one]
  rfl

theorem Numeral.abs_value_plain {m : Numeral} (h : m.exponent = none) :
    |m.value| = ofDigits m.whole + tenths m.places := by
  rw [value_plain h, Double.abs_signed _ (add_nonneg (Nat.cast_nonneg _) (tenths_nonneg _))]

theorem Numeral.text_plain {m : Numeral} (h : m.exponent = none) :
    m.text = m.sign.toList ++ (m.whole ++ fractionText m.fraction) := by
  have hnone : exponentText m.exponent = [] := by rw [h]; rfl
  rw [Numeral.text, hnone, List.append_nil]

theorem Numeral.isDigits_places (m : Numeral) : Digits m.places := by
  unfold Numeral.places
  cases hf : m.fraction with
  | none => exact List.forall_mem_nil _
  | some ds => exact m.fraction_digits ds hf

theorem Numeral.floor_value {m : Numeral} (h : m.exponent = none) : ⌊|m.value|⌋₊ = ofDigits m.whole := by
  have hnonneg := tenths_nonneg m.places
  have hlt := tenths_lt_one m.isDigits_places
  rw [Nat.floor_eq_iff (abs_nonneg _), abs_value_plain h]
  constructor <;> linarith

section

variable {whole text : List Char}

theorem Digits.count_comma (h : Digits whole) : whole.count ',' = 0 :=
  List.count_eq_zero.mpr fun hmem => h.no_comma ',' hmem rfl

theorem count_comma_groups {groups : List (List Char)} (h : Digits groups.flatten) :
    (groups.flatMap (',' :: ·)).count ',' = groups.length := by
  induction groups with
  | nil => rfl
  | cons g groups ih =>
      rw [List.flatten_cons] at h
      have hg := Digits.count_comma fun c hc => h c (List.mem_append_left _ hc)
      have hgroups := ih fun c hc => h c (List.mem_append_right _ hc)
      rw [List.flatMap_cons, List.count_append, List.count_cons_self, hg, hgroups, List.length_cons]
      omega

theorem Grouping.count_comma (h : Grouping whole text) (hdigits : Digits whole) :
    text.count ',' = (whole.length - 1) / 3 := by
  obtain ⟨first, rest, rfl, rfl, hpos, hle, hrest⟩ := h
  have hfirst := Digits.count_comma fun c hc => hdigits c (List.mem_append_left rest.flatten hc)
  have hcount := count_comma_groups fun c hc => hdigits c (List.mem_append_right first hc)
  rw [List.count_append, List.length_append, hfirst, hcount, length_flatten_groups hrest]
  omega

/-- Zeros put in front of a text in groups leave it in groups exactly if they all go into its first group. -/
theorem Grouping.zeros_iff (h : Grouping whole text) (hdigits : Digits whole) (pad : Nat) :
    Grouping (zeros pad ++ whole) (zeros pad ++ text) ↔
      ((zeros pad ++ whole).length - 1) / 3 = (whole.length - 1) / 3 := by
  have hcount := h.count_comma hdigits
  constructor
  · intro hpadded
    have hzeros := (zeros_isDigits pad).count_comma
    rw [← hpadded.count_comma ((zeros_isDigits pad).append hdigits), List.count_append, hzeros, hcount, Nat.zero_add]
  · obtain ⟨first, rest, rfl, rfl, hpos, hle, hrest⟩ := h
    intro hlen
    rw [List.length_append, List.length_append, length_flatten_groups hrest] at hlen
    refine ⟨zeros pad ++ first, rest, (List.append_assoc _ _ _).symm, (List.append_assoc _ _ _).symm, ?_, ?_, hrest⟩
    · rw [List.length_append]
      omega
    · rw [List.length_append]
      omega

end

end BaseLib.Number
