import BaseLib.Proofs.Number.RoundTrip
import BaseLib.Proofs.Regex.References

namespace BaseLib.Session

open Library Text.Composite

variable {s : Session} {symbols : NumberSymbols}

theorem parse_not_misused (h : s.currentSymbols = .ok symbols) (text : List Char) :
    ¬Misused (s.exec (Catalogue.call "NNumber.Parse" [.text text])).1 := by
  have hnull : s.symbolsOf .null = .ok symbols := h
  have hexec : s.exec (Catalogue.call "NNumber.Parse" [.text text]) = _ := exec_parse .null hnull text
  rw [hexec]
  cases Number.read? text (Numbers.styleOf .null .null).1 symbols with
  | none => exact misused_failure _
  | some x => exact misused_ok _

theorem misused_format_number (h : s.currentSymbols = .ok symbols) {x : Number} (hx : x.isFinite = true)
    (fmt : List Char) :
    Misused (s.exec (Catalogue.call "format_number" [x.toValue, .text fmt])).1 ↔ x.Overreaches fmt := by
  have hnull : s.symbolsOf .null = .ok symbols := h
  have hexec : s.exec (Catalogue.call "format_number" [x.toValue, .text fmt]) = _ := exec_format hnull x fmt
  rw [hexec, misused_map, Number.misused_format hx]

theorem numberedGroup_not_misused (s t : Session) (members : Nat) (n : Int) (name : List Char) :
    ¬Misused (t.exec (numberedGroup s members n (.ok name))).1 := by
  unfold numberedGroup
  split <;> exact misused_ok _

theorem misused_groupItem (s : Session) (members : Nat) (names : List (List Char)) (key : List Char) :
    Misused (s.exec (groupItem members names (.text key))).1 ↔
      key ∉ names ∧ Text.allDigits key = true ∧ Unreadable key := by
  rw [groupItem, exec_get_bind]
  dsimp only
  split
  · rename_i hname
    have hmem : key ∈ names := by simpa using hname
    exact iff_of_false (numberedGroup_not_misused _ _ _ _ _) fun h => h.1 hmem
  · rename_i hname
    have hmem : key ∉ names := by simpa using hname
    rw [and_iff_right hmem]
    split
    · rename_i hdigits
      rw [and_iff_right hdigits, ← misused_readNumeral, exec_bind, exec_ofExcept]
      cases readNumeral key with
      | ok n => exact iff_of_false (numberedGroup_not_misused _ _ _ _ _) (misused_ok n)
      | error e => exact misused_error_iff.trans misused_error_iff.symm
    · rename_i hdigits
      exact iff_of_false (misused_ok _) fun h => hdigits h.1

theorem misused_get_Item {id members : Nat} {names : List (List Char)}
    (h : s.store[id]? = some (.groups members names)) (key : List Char) :
    Misused (s.exec (Methods.call (.ref id) "get_Item" [.text key])).1 ↔
      key ∉ names ∧ Text.allDigits key = true ∧ Unreadable key := by
  rw [exec_call h rfl]
  exact misused_groupItem s members names key

open Regex in
/-- Which texts of a caller end in faults of the host: none that is parsed as a number; the formats that
overreach; the replacement texts whose scan comes to a reference by digits that are no numeral; the keys
that are such digits and no name of a group. -/
theorem host_faults_iff (h : s.currentSymbols = .ok symbols) :
    (∀ text, ¬Misused (s.exec (Catalogue.call "NNumber.Parse" [.text text])).1) ∧
      (∀ (x : Number) (fmt : List Char), x.isFinite = true →
        (Misused (s.exec (Catalogue.call "format_number" [x.toValue, .text fmt])).1 ↔ x.Overreaches fmt)) ∧
      (∀ (m : Match) (text replacement : List Char),
        Misused ((Site.ofMatch m text).expand replacement) ↔ ∃ t digits,
          Scans (Site.ofMatch m text) replacement ('$' :: t) ∧ Refers t digits ∧ Unreadable digits) ∧
      (∀ (id members : Nat) (names : List (List Char)) (key : List Char),
        s.store[id]? = some (.groups members names) →
          (Misused (s.exec (Methods.call (.ref id) "get_Item" [.text key])).1 ↔
            key ∉ names ∧ Text.allDigits key = true ∧ Unreadable key)) :=
  ⟨parse_not_misused h, fun _ fmt hx => misused_format_number h hx fmt,
    fun m text => misused_expand (Site.ofMatch m text), fun _ _ _ key hid => misused_get_Item hid key⟩

/-- A number of 203 digits has no text with 999 places. -/
theorem host_faults_iff_wide :
    (start 0).currentSymbols = .ok NumberSymbols.invariant ∧
      Misused ((start 0).exec (Catalogue.call "format_number" [.int (10 ^ 202), .text "F999".toList])).1 := by
  have hoverflows : Number.Overflows (Number.int (10 ^ 202)).toDecimal 999 := by
    have hvalue : (Number.int (10 ^ 202)).toDecimal.coeff = 10 ^ 202 := Int.natAbs_pow 10 202
    have hexp : (Number.int (10 ^ 202)).toDecimal.exp + (999 : Nat) = (999 : Nat) := rfl
    have hle : Decimal.widest ≤ 202 + 999 := by
      rw [Decimal.widest]
      omega
    have hpow : ((10 ^ Decimal.widest : Nat) : ℚ) ≤ (10 ^ 202 : Nat) * 10 ^ 999 := by
      generalize Decimal.widest = w at hle ⊢
      rw [Nat.cast_pow, Nat.cast_pow, Nat.cast_ofNat, ← pow_add]
      exact pow_le_pow_right₀ (by norm_num) hle
    rw [Number.Overflows, hvalue, hexp, zpow_natCast]
    exact (sub_le_self _ (by norm_num)).trans hpow
  have hread : Number.precision "999".toList 2 = .ok 999 := by decide +kernel
  have hoverreaches : (Number.int (10 ^ 202)).Overreaches "F999".toList := .inr ⟨999, hread, hoverflows⟩
  exact ⟨rfl, ((host_faults_iff rfl).2.1 (.int (10 ^ 202)) _ rfl).mpr hoverreaches⟩

/-- A superscript passes for the digit of a precision. -/
theorem superscript_precision :
    (start 0).exec (Catalogue.call "format_number" [.int 1, .text "F²".toList]) =
      (.error (.misuse .badValue), start 0) := by
  have hformat : Number.format (.int 1) "F²".toList NumberSymbols.invariant =
      .error (.misuse .badValue) := by
    decide +kernel
  have hnull : (start 0).symbolsOf .null = .ok NumberSymbols.invariant := rfl
  have hexec := exec_format hnull (.int 1) "F²".toList
  rw [hformat] at hexec
  exact hexec

end BaseLib.Session
