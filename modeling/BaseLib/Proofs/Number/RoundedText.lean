import BaseLib.Proofs.Number.Scientific
import BaseLib.Proofs.Text.Builder

namespace BaseLib

open Number Decimal

namespace Double

theorem withSign_neg (d : Double) : d.withSign d.neg = d := by
  have hsmall : d.magnitudeBits < 2 ^ 63 := Nat.mod_lt _ (Nat.two_pow_pos 63)
  exact ext_magnitude (neg_ofParts _ hsmall) (magnitudeBits_ofParts _ hsmall)

theorem neg_toDecimal (d : Double) : d.toDecimal.neg = d.neg := by
  unfold toDecimal
  dsimp only
  split <;> exact neg_shortest d

end Double

namespace Maths

variable {x : Number} {p : Nat}

/-- A finite number is rounded as its decimal is for a fixed text. The sign of a zero is the one it has. -/
theorem round_eq (hx : x.isFinite = true) (hp : p ≤ 15) (strict : Bool) :
    round x p .awayFromZero strict = (rounded x.toDecimal p).map Double.ofDecimal := by
  have hplaces : ¬((p : ℤ) < 0 ∨ 15 < (p : ℤ)) := by omega
  have hnearest (q : Decimal) : round.nearest p .awayFromZero q = rounded q p := by
    have hshift : ¬widestShift < p := Nat.not_lt.mpr (hp.trans (by decide))
    cases hq : q.round? .awayFromZero p <;>
      simp only [round.nearest, rounded, if_neg hshift, Int.toNat_natCast, hq]
  cases x with
  | int n =>
      have hrun : round (.int n) p .awayFromZero strict =
          if (p : ℤ) < 0 ∨ 15 < (p : ℤ) then .error Failure.roundingDigits
          else if (strict && false) = true then .error (Failure.nonFinite "Round")
          else (do pure (Double.ofDecimal (← round.nearest p .awayFromZero (Decimal.ofInt n)))) := rfl
      rw [hrun, if_neg hplaces, Bool.and_false, if_neg Bool.false_ne_true, hnearest, toDecimal]
      cases rounded (Decimal.ofInt n) p <;> rfl
  | double d =>
      have hd : (!d.isFinite) = false := by rw [show d.isFinite = true from hx, Bool.not_true]
      have hrun : round (.double d) p .awayFromZero strict =
          if (p : ℤ) < 0 ∨ 15 < (p : ℤ) then .error Failure.roundingDigits
          else if (strict && !d.isFinite) = true then .error (Failure.nonFinite "Round")
          else if (!d.isFinite) = true then .ok d
          else (do
            let r := Double.ofDecimal (← round.nearest p .awayFromZero d.toDecimal)
            pure (if r.isZero then r.withSign d.neg else r)) := rfl
      rw [hrun, if_neg hplaces, hd, Bool.and_false, if_neg Bool.false_ne_true, if_neg Bool.false_ne_true, hnearest,
        toDecimal]
      obtain ⟨-, hq⟩ | ⟨-, hq⟩ := rounded_eq d.toDecimal (hp.trans (by decide : 15 ≤ 999))
      · rw [hq]
        rfl
      · have hsign : (Double.ofDecimal (d.toDecimal.rescale .awayFromZero (-p))).neg = d.neg := by
          rw [neg_ofDecimal, rescale_neg, Double.neg_toDecimal]
        rw [hq, ← hsign]
        show Except.ok (if _ then _ else _) = _
        rw [Double.withSign_neg, ite_self]
        rfl

end Maths

namespace Session

open Library

open Builder (optionsOf exec_readOptions)

variable {s : Session} {provider : Value} {x : Number} {p : Nat} {o : Options}

theorem exec_round (ho : optionsOf s = .ok o) (x : Number) (hp : p ≤ 15) :
    (s.exec (Catalogue.call "NMath.Round" [x.toValue, .int p])).1 =
      (Maths.round x p .awayFromZero o.strictMath).map .double := by
  have hplaces : ¬((p : ℤ) < 0 ∨ 15 < (p : ℤ)) := by omega
  have hrun : s.exec (Catalogue.call "NMath.Round" [x.toValue, .int p]) =
      s.exec (if (p : ℤ) < 0 ∨ 15 < (p : ℤ) then fail .roundingDigits
        else do
          let o ← readOptions
          Numbers.realResult (Maths.round x p .awayFromZero o.strictMath)) := by
    cases x <;> rfl
  obtain ⟨t, hread, -⟩ := exec_readOptions s
  rw [ho] at hread
  rw [hrun, if_neg hplaces, exec_bind_ok hread]
  cases Maths.round x p .awayFromZero o.strictMath <;> rfl

/-- Rounding a finite number to places and parsing its text with as many places give one result, a zero of the
same sign included, and where there is no such text there is no rounded number. The result is the number nearest
to the decimal of the argument, rounded half away from zero. -/
theorem round_eq_parse_fixed (hx : x.isFinite = true) (hp : p ≤ 15)
    (hsymbols : s.symbolsOf provider = .ok NumberSymbols.invariant) (ho : optionsOf s = .ok o) :
    (Overflows x.toDecimal p ∧
      s.exec (Catalogue.call "format_number" [x.toValue, .text ('F' :: digits p), provider]) =
        (.error (.misuse .tooWide), s) ∧
      (s.exec (Catalogue.call "NMath.Round" [x.toValue, .int p])).1 = .error (.misuse .tooWide)) ∨
    ¬Overflows x.toDecimal p ∧ ∃ (t : List Char) (y : ℚ) (d : Double),
      s.exec (Catalogue.call "format_number" [x.toValue, .text ('F' :: digits p), provider]) = (.ok (.text t), s) ∧
      (s.exec (Catalogue.call "NMath.Round" [x.toValue, .int p])).1 = .ok (.double d) ∧
      s.exec (Catalogue.call "NNumber.Parse" [.text t, .null, provider]) = (.ok (.double d), s) ∧
      RoundsTo .awayFromZero p x.toDecimal.value y ∧ d.IsNearest y ∧ d.neg = x.toDecimal.neg := by
  have hformat := exec_format hsymbols x ('F' :: digits p)
  have hround := exec_round ho x hp
  rw [format_standard hx rfl, standard_fixed x (hp.trans (by decide))] at hformat
  simp only [localize_invariant] at hformat
  rw [Maths.round_eq hx hp] at hround
  obtain ⟨hover, hq⟩ | ⟨hover, hq⟩ := rounded_eq x.toDecimal (hp.trans (by decide : 15 ≤ 999))
  · rw [hq] at hformat hround
    exact .inl ⟨hover, hformat, hround⟩
  · rw [hq] at hformat hround
    have hread := read?_positional (x.toDecimal.rescale .awayFromZero (-p))
    rw [ofDecimal_numeral (numeral_value _) (numeral_negative _)] at hread
    have hrounds := roundsTo_rescale .awayFromZero x.toDecimal (-p)
    rw [neg_neg] at hrounds
    refine .inr ⟨hover, _, _, _, hformat, hround, exec_parse_ok .null hsymbols hread, hrounds,
      ofDecimal_isNearest _, ?_⟩
    rw [neg_ofDecimal, rescale_neg]

/-- A thousandth below zero, rounded to two places. -/
theorem round_eq_parse_fixed_negative_zero :
    ∃ (t : List Char) (y : ℚ) (d : Double),
      (start 0).exec (Catalogue.call "format_number" [.double ⟨0xBF50624DD2F1A9FC⟩, .text "F2".toList, .null]) =
        (.ok (.text t), start 0) ∧
      ((start 0).exec (Catalogue.call "NMath.Round" [.double ⟨0xBF50624DD2F1A9FC⟩, .int 2])).1 = .ok (.double d) ∧
      (start 0).exec (Catalogue.call "NNumber.Parse" [.text t, .null, .null]) = (.ok (.double d), start 0) ∧
      RoundsTo .awayFromZero 2 (Number.double ⟨0xBF50624DD2F1A9FC⟩).toDecimal.value y ∧ d.IsNearest y ∧
      d.neg = (Number.double ⟨0xBF50624DD2F1A9FC⟩).toDecimal.neg := by
  have hnarrow : ¬Overflows (Number.double ⟨0xBF50624DD2F1A9FC⟩).toDecimal 2 := by
    rw [← round?_eq_none_iff]
    decide +kernel
  have hsymbols : (start 0).symbolsOf .null = .ok NumberSymbols.invariant := rfl
  have hboth := round_eq_parse_fixed (x := .double ⟨0xBF50624DD2F1A9FC⟩) (p := 2) (by decide) (by decide) hsymbols rfl
  exact (hboth.resolve_left fun h => hnarrow h.1).2

end Session

end BaseLib
