import BaseLib.Proofs.Number.Scientific

namespace BaseLib

open Number Decimal

namespace Decimal

variable {q : Decimal}

theorem getLast?_digits (n : Nat) : (digits n).getLast? = some (n % 10).digitChar := by
  rcases Nat.lt_or_ge n 10 with hlt | hge
  · rw [digits, Nat.toDigits_of_lt_base hlt, Nat.mod_eq_of_lt hlt]
    rfl
  · rw [digits, Nat.toDigits_of_base_le (by decide) hge]
    exact List.getLast?_concat

theorem digitChar_ne {n : Nat} (h : n % 10 ≠ 0) : (n % 10).digitChar ≠ '0' :=
  (by decide : ∀ k < 10, k ≠ 0 → Nat.digitChar k ≠ '0') _ (Nat.mod_lt n (by decide)) h

def scientificNumeral (q : Decimal) : Numeral where
  sign := if q.neg then some '-' else none
  whole := (digits q.coeff).take 1
  fraction := if ((digits q.coeff).drop 1).isEmpty then none else some ((digits q.coeff).drop 1)
  exponent := some (writtenExponent 'E' (.inr rfl) 2 (by decide) q.leadingExponent)
  sign_mem := q.numeral.sign_mem
  whole_digits := fun c hc => digits_isDigits _ c (List.mem_of_mem_take hc)
  fraction_digits := by
    intro ds hds
    split at hds
    · cases hds
    · cases hds
      exact fun c hc => digits_isDigits _ c (List.mem_of_mem_drop hc)
  some_digit := .inl (by simp [digits_ne])

theorem scientificNumeral_text (q : Decimal) : q.scientificNumeral.text = Double.scientific 'E' q := by
  have hsign : (if q.leadingExponent < 0 then '-' else '+') = if 0 ≤ q.leadingExponent then '+' else '-' := by
    split <;> split <;> first | rfl | omega
  have hexponent : Number.exponentText (some (writtenExponent 'E' (.inr rfl) 2 (by decide) q.leadingExponent)) =
      'E' :: Double.exponentText q.leadingExponent := by
    rw [Double.exponentText, hsign]
    rfl
  simp only [Numeral.text, scientificNumeral, Double.scientific, withSign, withPoint, hexponent]
  cases q.neg <;> cases ((digits q.coeff).drop 1).isEmpty <;> simp [fractionText]

theorem scientificNumeral_places (q : Decimal) : q.scientificNumeral.places = (digits q.coeff).drop 1 := by
  unfold Numeral.places scientificNumeral
  dsimp only
  split
  · rename_i hempty
    exact (List.isEmpty_iff.mp hempty).symm
  · rfl

theorem scientificNumeral_negative (q : Decimal) : q.scientificNumeral.negative = q.neg :=
  numeral_negative q

theorem scientificNumeral_value (q : Decimal) : q.scientificNumeral.value = q.value := by
  have hcoeff : q.scientificNumeral.parts.toDecimal.coeff = q.coeff := by
    have hdigits : (digits q.coeff).take 1 ++ q.scientificNumeral.places = digits q.coeff := by
      rw [scientificNumeral_places, List.take_append_drop]
    exact (congrArg ofDigits hdigits).trans (ofDigits_digits _)
  have hexp : q.scientificNumeral.parts.toDecimal.exp = q.exp := by
    have hlen := List.length_pos_of_ne_nil (digits_ne q.coeff)
    have hpower : q.scientificNumeral.power = q.leadingExponent := power_writtenExponent _ _ _
    rw [exp_parts, hpower, scientificNumeral_places, leadingExponent, numDigits, List.length_drop]
    omega
  rw [← value_parts, value, hcoeff, hexp]
  exact congrArg (Double.signed · _) (scientificNumeral_negative q)

def displayed (q : Decimal) : Numeral :=
  if -5 < q.leadingExponent ∧ q.leadingExponent < 15 then q.numeral else q.scientificNumeral

theorem displayed_text (q : Decimal) : q.displayed.text =
    if -5 < q.leadingExponent ∧ q.leadingExponent < 15 then q.positional else Double.scientific 'E' q := by
  unfold displayed
  split
  · exact q.numeral_text
  · exact q.scientificNumeral_text

theorem displayed_value (q : Decimal) : q.displayed.value = q.value := by
  unfold displayed
  split
  · exact q.numeral_value
  · exact q.scientificNumeral_value

theorem displayed_negative (q : Decimal) : q.displayed.negative = q.neg := by
  unfold displayed
  split
  · exact q.numeral_negative
  · exact q.scientificNumeral_negative

theorem displayed_permitted (q : Decimal) : q.displayed.Permitted NumberStyles.float :=
  ⟨fun _ => rfl, fun _ => rfl, fun _ => rfl⟩

theorem displayed_positional_iff (q : Decimal) :
    (∃ places, q.displayed.Positional places) ↔ -5 < q.leadingExponent ∧ q.leadingExponent < 15 := by
  unfold displayed
  split
  · rename_i hnear
    exact iff_of_true ⟨_, q.numeral_positional⟩ hnear
  · rename_i hfar
    exact iff_of_false (fun ⟨_, h⟩ => (nomatch h.plain)) hfar

def Trimmed (q : Decimal) : Prop := q.coeff % 10 ≠ 0 ∨ q.coeff = 0 ∧ q.exp = 0

theorem trimmed_normalize (q : Decimal) : q.normalize.Trimmed := by
  by_cases hzero : q.coeff = 0
  · rw [normalize_zero hzero]
    exact .inr ⟨rfl, rfl⟩
  · exact .inl (normalize_mod hzero)

theorem Trimmed.leadingExponent_eq (h : q.Trimmed) : q.leadingExponent = Int.log 10 |q.value| := by
  by_cases hzero : q.coeff = 0
  · have hexp := (h.resolve_left fun hmod => hmod (by rw [hzero])).2
    rw [(value_eq_zero_iff q).mpr hzero, abs_zero, Int.log_zero_right, leadingExponent, hzero, hexp]
    rfl
  · exact (log_value hzero).symm

theorem getLast?_ne_zero (h : q.coeff % 10 ≠ 0) : (digits q.coeff).getLast? ≠ some '0' := by
  rw [getLast?_digits]
  exact fun hlast => digitChar_ne h (Option.some.inj hlast)

theorem Trimmed.numeral_last (h : q.Trimmed) : q.numeral.places.getLast? ≠ some '0' := by
  rw [numeral_places, positionalParts]
  split
  · exact fun hlast => (nomatch hlast)
  · rename_i hexp
    have hlen := length_padded ((-q.exp).toNat + 1) q.coeff
    rw [List.getLast?_drop, if_neg (by omega), padded, List.getLast?_append_of_ne_nil _ (digits_ne _)]
    exact getLast?_ne_zero (h.resolve_right fun hzero => by omega)

theorem Trimmed.scientificNumeral_last (h : q.Trimmed) (hne : q.coeff ≠ 0) :
    q.scientificNumeral.places.getLast? ≠ some '0' := by
  rw [scientificNumeral_places, List.getLast?_drop]
  split
  · exact fun hlast => (nomatch hlast)
  · exact getLast?_ne_zero (h.resolve_right fun hzero => hne hzero.1)

theorem Trimmed.displayed_fraction (h : q.Trimmed) :
    q.displayed.fraction ≠ some [] ∧ q.displayed.places.getLast? ≠ some '0' := by
  have hpoint (ds : List Char) : (if ds.isEmpty then none else some ds) ≠ some [] := by
    cases ds <;> simp
  unfold displayed
  split
  · exact ⟨hpoint _, h.numeral_last⟩
  · rename_i hfar
    refine ⟨hpoint _, h.scientificNumeral_last fun hzero => hfar ?_⟩
    rw [h.leadingExponent_eq, (value_eq_zero_iff q).mpr hzero, abs_zero, Int.log_zero_right]
    decide

end Decimal

namespace Double

variable {d : Double}

theorem trimmed_shortest (d : Double) : d.shortest.Trimmed := by
  unfold shortest
  split
  · exact .inr ⟨rfl, rfl⟩
  · exact trimmed_normalize _

theorem display_eq (hd : d.isFinite = true) : (Number.double d).display = d.shortest.displayed.text := by
  have hnan : d.isNaN = false := by
    rw [isFinite_iff] at hd
    rw [← Bool.not_eq_true, isNaN_iff]
    omega
  have hinfinite : d.isInfinite = false := by
    rw [isFinite_iff] at hd
    rw [← Bool.not_eq_true, isInfinite_iff]
    omega
  rw [Number.display, hnan, hinfinite, displayed_text]
  rfl

end Double

namespace Session

open Library

variable {s : Session} {provider : Value} {d : Double}

/-- The display text of a finite number is a numeral with the value and the sign of its shortest decimal, so it
is parsed as the number. It is written in full if the leading digit stands from the fourth place after the point
to the fifteenth before it, and has no zero at the end of a fraction. -/
theorem display_number_round_trips (hd : d.isFinite = true)
    (hsymbols : s.symbolsOf provider = .ok NumberSymbols.invariant) :
    ∃ (q : Decimal) (n : Numeral), d.IsShortest q ∧
      s.exec (Catalogue.call "display_number" [.double d]) = (.ok (.text n.text), s) ∧
      n.value = q.value ∧ n.negative = q.neg ∧
      s.exec (Catalogue.call "NNumber.Parse" [.text n.text, .null, provider]) = (.ok (.double d), s) ∧
      ((∃ places, n.Positional places) ↔ -4 ≤ Int.log 10 |q.value| ∧ Int.log 10 |q.value| ≤ 14) ∧
      n.fraction ≠ some [] ∧ n.places.getLast? ≠ some '0' := by
  have hshortest := Double.isShortest_shortest hd
  have htrimmed := d.trimmed_shortest
  have htext : s.exec (Catalogue.call "display_number" [.double d]) =
      (.ok (.text (Number.double d).display), s) := rfl
  rw [Double.display_eq hd] at htext
  have hread : read? d.shortest.displayed.text NumberStyles.float NumberSymbols.invariant = some (.double d) := by
    rw [read?_numeral (displayed_permitted _), ofDecimal_numeral (displayed_value _) (displayed_negative _),
      hshortest.back]
  refine ⟨d.shortest, d.shortest.displayed, hshortest, htext, displayed_value _, displayed_negative _,
    exec_parse_ok .null hsymbols hread, ?_, htrimmed.displayed_fraction⟩
  rw [displayed_positional_iff, htrimmed.leadingExponent_eq]
  omega

/-- A negative zero keeps its sign. -/
theorem display_number_round_trips_negative_zero :
    ∃ (q : Decimal) (n : Numeral), (Double.ofParts true 0).IsShortest q ∧
      (start 0).exec (Catalogue.call "display_number" [.double (Double.ofParts true 0)]) =
        (.ok (.text n.text), start 0) ∧
      n.value = q.value ∧ n.negative = q.neg ∧
      (start 0).exec (Catalogue.call "NNumber.Parse" [.text n.text, .null, .null]) =
        (.ok (.double (Double.ofParts true 0)), start 0) ∧
      ((∃ places, n.Positional places) ↔ -4 ≤ Int.log 10 |q.value| ∧ Int.log 10 |q.value| ≤ 14) ∧
      n.fraction ≠ some [] ∧ n.places.getLast? ≠ some '0' := by
  have hsymbols : (start 0).symbolsOf .null = .ok NumberSymbols.invariant := rfl
  exact display_number_round_trips (by decide) hsymbols

end Session

end BaseLib
