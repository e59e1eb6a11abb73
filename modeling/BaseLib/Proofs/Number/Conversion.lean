import BaseLib.Proofs.Double.Integral
import BaseLib.Proofs.Number.Parse

namespace BaseLib

open Number

namespace Number

variable {symbols : NumberSymbols} {text : List Char} {n : Numeral} {x : Number}

/-- The text is that of a numeral between blanks, written with the decimal separator of a culture. -/
def IsText (symbols : NumberSymbols) (n : Numeral) (text : List Char) : Prop :=
  bare (trimBlanks text NumberStyles.float) NumberStyles.float symbols = n.text

theorem permitted_float (n : Numeral) : n.Permitted NumberStyles.float := ⟨fun _ => rfl, fun _ => rfl, fun _ => rfl⟩

theorem IsText.read? (h : IsText symbols n text) :
    Number.read? text NumberStyles.float symbols = some (.double (Double.ofDecimal n.parts.toDecimal)) := by
  rw [read?_body rfl, show bare (trimBlanks text NumberStyles.float) NumberStyles.float symbols = n.text from h,
    readBody?_numeral]
  exact ⟨permitted_float n, rfl⟩

theorem value_signed (n : Numeral) : n.value = Double.signed n.negative |n.value| := by
  have hnonneg : (0 : ℚ) ≤ (Decimal.ofDigits n.whole + Decimal.ofDigits n.places / 10 ^ n.places.length) *
      10 ^ n.power := by
    positivity
  rw [Numeral.value, Double.abs_signed _ hnonneg]

end Number

namespace Double

theorem roundsToInt_self (k : ℤ) : RoundsToInt k k := by
  have habs : |(k : ℚ)| = k.natAbs := by rw [Nat.cast_natAbs, Int.cast_abs]
  have habove : 0 ≤ halfAbove k.natAbs := by
    unfold halfAbove
    split
    · exact (zpow_pos zero_lt_two _).le
    · exact (zpow_pos zero_lt_two _).le
  have hbelow : 0 ≤ halfBelow k.natAbs := (zpow_pos zero_lt_two _).le
  refine ⟨mul_self_nonneg _, ?_, ?_⟩
  · rw [habs]
    linarith
  · rw [habs]
    linarith

end Double

namespace Convert

open Double

variable {symbols : NumberSymbols} {text : List Char} {n : Numeral} {k : ℤ}

theorem ofText_eq (h : IsText symbols n text) : ofText text symbols =
    if (ofDecimal n.parts.toDecimal).isInfinite then .error .outsideInt32
    else
      match (ofDecimal n.parts.toDecimal).toInt? with
      | some k => checked k
      | none => .error (.badNumber (String.ofList text)) := by
  rw [ofText, Number.parse, h.read?]
  rfl

theorem ofText_eq_ok_iff (h : IsText symbols n text) :
    ofText text symbols = .ok k ↔ (ofDecimal n.parts.toDecimal).toInt? = some k ∧ Word.InRange k := by
  rw [ofText_eq h]
  split
  · rename_i hinfinite
    rw [toInt?_of_infinite hinfinite]
    exact ⟨fun h => (nomatch h), fun h => (nomatch h.1)⟩
  · cases (ofDecimal n.parts.toDecimal).toInt? with
    | none => exact ⟨fun h => (nomatch h), fun h => (nomatch h.1)⟩
    | some l =>
        dsimp only
        rw [checked, Option.some.injEq]
        split
        · rename_i hrange
          rw [Except.ok.injEq]
          exact ⟨fun h => ⟨h, h ▸ hrange⟩, And.left⟩
        · rename_i hrange
          exact ⟨fun h => (nomatch h), fun h => absurd (h.1 ▸ h.2) hrange⟩

theorem ofText_eq_outside_iff (h : IsText symbols n text) :
    ofText text symbols = .error .outsideInt32 ↔ (ofDecimal n.parts.toDecimal).isInfinite = true ∨
      ∃ k, (ofDecimal n.parts.toDecimal).toInt? = some k ∧ ¬Word.InRange k := by
  rw [ofText_eq h]
  split
  · rename_i hinfinite
    exact iff_of_true rfl (.inl hinfinite)
  · rename_i hfinite
    rw [or_iff_right hfinite]
    cases (ofDecimal n.parts.toDecimal).toInt? with
    | none => exact ⟨fun h => (nomatch h), fun ⟨k, h, _⟩ => (nomatch h)⟩
    | some l =>
        dsimp only
        rw [checked]
        split
        · rename_i hrange
          exact ⟨fun h => (nomatch h), fun ⟨k, h, hk⟩ => absurd (Option.some.inj h ▸ hrange) hk⟩
        · rename_i hrange
          exact iff_of_true rfl ⟨l, rfl, hrange⟩

theorem ofText_eq_bad_iff (h : IsText symbols n text) :
    ofText text symbols = .error (.badNumber (String.ofList text)) ↔
      (ofDecimal n.parts.toDecimal).isInfinite = false ∧ (ofDecimal n.parts.toDecimal).toInt? = none := by
  rw [ofText_eq h]
  split
  · rename_i hinfinite
    rw [hinfinite]
    exact ⟨fun h => (nomatch h), fun h => (nomatch h.1)⟩
  · rename_i hfinite
    rw [and_iff_right (eq_false_of_ne_true hfinite)]
    cases (ofDecimal n.parts.toDecimal).toInt? with
    | none => exact iff_of_true rfl rfl
    | some l =>
        dsimp only
        rw [checked]
        split <;> exact ⟨fun h => (nomatch h), fun h => (nomatch h)⟩

end Convert

namespace Session

open Library Double

variable {s : Session} {symbols : NumberSymbols} {text : List Char} {n : Numeral}

theorem natAbs_le_of_inRange {k : ℤ} (h : Word.InRange k) : k.natAbs ≤ 2 ^ 52 := by
  unfold Word.InRange Word.minValue Word.maxValue at h
  omega

theorem not_inRange_of_le {k : ℤ} (h : 2 ^ 52 ≤ k.natAbs) : ¬Word.InRange k := by
  unfold Word.InRange Word.minValue Word.maxValue
  omega

theorem exec_toInt32 (hsymbols : s.currentSymbols = .ok symbols) (text : List Char) :
    s.exec (Catalogue.call "Convert.ToInt32" [.text text]) =
      (((Convert.ofText text symbols).mapError .failure).map .int, s) := by
  have hrun : s.exec (Catalogue.call "Convert.ToInt32" [.text text]) =
      s.exec (do pure (.int (← ofResult (Convert.ofText text (← ofExcept s.currentSymbols))))) := rfl
  have hcurrent := exec_ofExcept s s.currentSymbols
  rw [hsymbols] at hcurrent
  rw [hrun, hsymbols, exec_bind_ok hcurrent]
  cases Convert.ofText text symbols <;> rfl

theorem exec_toInt32_ok (hsymbols : s.currentSymbols = .ok symbols) {k : ℤ} :
    s.exec (Catalogue.call "Convert.ToInt32" [.text text]) = (.ok (.int k), s) ↔
      Convert.ofText text symbols = .ok k := by
  rw [exec_toInt32 hsymbols]
  cases Convert.ofText text symbols <;> simp [Except.map, Except.mapError]

theorem exec_toInt32_error (hsymbols : s.currentSymbols = .ok symbols) {f : Failure} :
    s.exec (Catalogue.call "Convert.ToInt32" [.text text]) = (.error (.failure f), s) ↔
      Convert.ofText text symbols = .error f := by
  rw [exec_toInt32 hsymbols]
  cases Convert.ofText text symbols <;> simp [Except.map, Except.mapError]

/-- The integer of a text that is read as a numeral by default. The text is read as the double nearest to what
it denotes. So it is converted to an integer `k` of the range if and only if what it denotes lies between the
midpoints next to `k`, it is outside the range from `2 ^ 52` on and between the midpoints next to an integer
outside, and it is of bad format otherwise. What denotes an integer is converted to that or is outside. -/
theorem text_to_int_spec (hsymbols : s.currentSymbols = .ok symbols) (htext : IsText symbols n text) :
    (∃ d, s.exec (Catalogue.call "NNumber.Parse" [.text text]) = (.ok (.double d), s) ∧ IsNearest n.value d) ∧
      (∀ k : ℤ, s.exec (Catalogue.call "Convert.ToInt32" [.text text]) = (.ok (.int k), s) ↔
        Word.InRange k ∧ RoundsToInt n.value k) ∧
      (s.exec (Catalogue.call "Convert.ToInt32" [.text text]) = (.error (.failure .outsideInt32), s) ↔
        2 ^ 52 ≤ |n.value| ∨ ∃ k : ℤ, ¬Word.InRange k ∧ k.natAbs ≤ 2 ^ 52 ∧ RoundsToInt n.value k) ∧
      (s.exec (Catalogue.call "Convert.ToInt32" [.text text]) =
          (.error (.failure (.badNumber (String.ofList text))), s) ↔
        |n.value| < 2 ^ 52 ∧ ∀ k : ℤ, k.natAbs ≤ 2 ^ 52 → ¬RoundsToInt n.value k) ∧
      ∀ k : ℤ, n.value = k → s.exec (Catalogue.call "Convert.ToInt32" [.text text]) =
        (if Word.InRange k then .ok (.int k) else .error (.failure .outsideInt32), s) := by
  have hprovider : s.symbolsOf .null = .ok symbols := hsymbols
  obtain ⟨hnear, hneg⟩ := ofDecimal_parts n
  have hsign : n.value = signed (ofDecimal n.parts.toDecimal).neg |n.value| := by
    rw [hneg]
    exact value_signed n
  have hint (k : ℤ) (hk : k.natAbs ≤ 2 ^ 52) := hnear.toInt?_iff (k := k) hsign hk
  have hoverflow : s.exec (Catalogue.call "Convert.ToInt32" [.text text]) = (.error (.failure .outsideInt32), s) ↔
      2 ^ 52 ≤ |n.value| ∨ ∃ k : ℤ, ¬Word.InRange k ∧ k.natAbs ≤ 2 ^ 52 ∧ RoundsToInt n.value k := by
    rw [exec_toInt32_error hsymbols, Convert.ofText_eq_outside_iff htext]
    rcases le_or_gt (2 ^ 52) |n.value| with hlarge | hsmall
    · refine iff_of_true ?_ (.inl hlarge)
      exact (hnear.of_large hsign hlarge).imp_right fun ⟨k, hk, hle⟩ => ⟨k, hk, not_inRange_of_le hle⟩
    · obtain ⟨hfinite, hbound⟩ := hnear.of_small hsign hsmall
      rw [or_iff_right (Bool.not_eq_true _ ▸ hfinite), or_iff_right hsmall.not_ge]
      constructor
      · rintro ⟨k, hk, hrange⟩
        exact ⟨k, hrange, hbound k hk, (hint k (hbound k hk)).mp hk⟩
      · rintro ⟨k, hrange, hle, hk⟩
        exact ⟨k, (hint k hle).mpr hk, hrange⟩
  refine ⟨⟨_, exec_parse_ok .null hprovider htext.read?, hnear⟩, fun k => ?_, hoverflow, ?_, fun k hk => ?_⟩
  · rw [exec_toInt32_ok hsymbols, Convert.ofText_eq_ok_iff htext, and_comm]
    exact and_congr_right fun hrange => hint k (natAbs_le_of_inRange hrange)
  · rw [exec_toInt32_error hsymbols, Convert.ofText_eq_bad_iff htext]
    constructor
    · rintro ⟨hfinite, hnone⟩
      refine ⟨lt_of_not_ge fun hlarge => ?_, fun k hle hk => ?_⟩
      · rcases hnear.of_large hsign hlarge with hinfinite | ⟨k, hk, -⟩
        · exact absurd (hinfinite.symm.trans hfinite) (by decide)
        · exact absurd (hk.symm.trans hnone) (Option.some_ne_none k)
      · exact absurd (((hint k hle).mpr hk).symm.trans hnone) (Option.some_ne_none k)
    · rintro ⟨hsmall, hnone⟩
      obtain ⟨hfinite, hbound⟩ := hnear.of_small hsign hsmall
      refine ⟨hfinite, Option.eq_none_iff_forall_ne_some.mpr fun k hk => ?_⟩
      exact hnone k (hbound k hk) ((hint k (hbound k hk)).mp hk)
  · rcases Nat.lt_or_ge (2 ^ 52) k.natAbs with hlarge | hsmall
    · have hle : 2 ^ 52 ≤ |n.value| := by
        rw [hk, ← Int.cast_abs, ← Nat.cast_natAbs]
        exact_mod_cast hlarge.le
      rw [if_neg (not_inRange_of_le hlarge.le)]
      exact hoverflow.mpr (.inl hle)
    · have hself : (ofDecimal n.parts.toDecimal).toInt? = some k := by
        rw [hint k hsmall, hk]
        exact roundsToInt_self k
      split
      · rename_i hrange
        exact (exec_toInt32_ok hsymbols).mpr ((Convert.ofText_eq_ok_iff htext).mpr ⟨hself, hrange⟩)
      · rename_i hrange
        exact (exec_toInt32_error hsymbols).mpr
          ((Convert.ofText_eq_outside_iff htext).mpr (.inr ⟨k, hself, hrange⟩))

def hundred : Numeral where
  sign := none
  whole := ['1']
  fraction := none
  exponent := some ⟨'e', none, ['2'], .inl rfl, fun _ hc => (nomatch hc), List.cons_ne_nil _ _,
    List.forall_mem_singleton.mpr rfl⟩
  sign_mem := fun _ hc => (nomatch hc)
  whole_digits := List.forall_mem_singleton.mpr rfl
  fraction_digits := fun _ hds => (nomatch hds)
  some_digit := .inl (List.cons_ne_nil _ _)

/-- An integer with an exponent, after a blank. -/
theorem text_to_int_spec_hundred :
    IsText NumberSymbols.invariant hundred " 1e2".toList ∧
      (∃ d, (start 0).exec (Catalogue.call "NNumber.Parse" [.text " 1e2".toList]) = (.ok (.double d), start 0) ∧
        IsNearest hundred.value d) ∧
      (start 0).exec (Catalogue.call "Convert.ToInt32" [.text " 1e2".toList]) = (.ok (.int 100), start 0) := by
  have htext : IsText NumberSymbols.invariant hundred " 1e2".toList := by
    unfold IsText
    decide
  have hvalue : hundred.value = (100 : ℤ) := by
    have hpower : hundred.power = 2 := rfl
    have hwhole : Decimal.ofDigits hundred.whole = 1 := rfl
    have hplaces : Decimal.ofDigits hundred.places = 0 := rfl
    rw [Numeral.value, hpower, hwhole, hplaces, show hundred.negative = false from rfl]
    norm_num [signed]
  obtain ⟨hparse, -, -, -, hexact⟩ := text_to_int_spec (s := start 0) rfl htext
  exact ⟨htext, hparse, hexact 100 hvalue⟩

def nearOne : Numeral where
  sign := none
  whole := ['1']
  fraction := some "00000000000000000001".toList
  exponent := none
  sign_mem := fun _ hc => (nomatch hc)
  whole_digits := List.forall_mem_singleton.mpr rfl
  fraction_digits := by
    rintro _ ⟨⟩
    exact List.all_eq_true.mp rfl
  some_digit := .inl (List.cons_ne_nil _ _)

/-- A text that denotes no integer is converted to one, but in base 10 it is refused. -/
theorem fraction_taken_for_integer :
    IsText NumberSymbols.invariant nearOne "1.00000000000000000001".toList ∧ (∀ k : ℤ, nearOne.value ≠ k) ∧
      (start 0).exec (Catalogue.call "Convert.ToInt32" [.text "1.00000000000000000001".toList]) =
        (.ok (.int 1), start 0) ∧
      (start 0).exec (Catalogue.call "Convert.ToInt32" [.text "1.00000000000000000001".toList, .int 10]) =
        (.error (.failure (.badNumber "1.00000000000000000001")), start 0) := by
  have hvalue : nearOne.value = 1 + 1 / 10 ^ 20 := by
    have hpower : nearOne.power = 0 := rfl
    have hwhole : Decimal.ofDigits nearOne.whole = 1 := rfl
    have hplaces : Decimal.ofDigits nearOne.places = 1 := rfl
    have hlength : nearOne.places.length = 20 := rfl
    rw [Numeral.value, hpower, hwhole, hplaces, hlength, show nearOne.negative = false from rfl]
    norm_num [signed]
  have hconvert : Convert.ofText "1.00000000000000000001".toList NumberSymbols.invariant = .ok 1 := by
    decide +kernel
  refine ⟨?_, fun k hk => ?_, (exec_toInt32_ok rfl).mpr hconvert, ?_⟩
  · unfold IsText
    decide
  · rw [hvalue] at hk
    have hlow : (1 : ℚ) < k := by
      rw [← hk]
      norm_num
    have hhigh : (k : ℚ) < 2 := by
      rw [← hk]
      norm_num
    have hlow' : 1 < k := by exact_mod_cast hlow
    have hhigh' : k < 2 := by exact_mod_cast hhigh
    omega
  · have hbase : Convert.ofBase "1.00000000000000000001".toList 10 =
        .error (.badNumber "1.00000000000000000001") := by
      decide +kernel
    have hrun : (start 0).exec (Catalogue.call "Convert.ToInt32" [.text "1.00000000000000000001".toList, .int 10]) =
        (start 0).exec (do pure (.int (← ofResult (Convert.ofBase "1.00000000000000000001".toList 10)))) := rfl
    rw [hrun, hbase]
    rfl

end Session

end BaseLib
