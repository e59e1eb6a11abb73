import BaseLib.Number.Parse
import BaseLib.Proofs.Double.Nearest
import BaseLib.Proofs.Text.Composite

namespace BaseLib.Number

open Text.Composite (Stops takeWhile_append dropWhile_append stops_dropWhile)

def Digits (s : List Char) : Prop := ∀ c ∈ s, isAsciiDigit c = true

def isSign (c : Char) : Bool := c == '+' || c == '-'

structure Exponent where
  letter : Char
  sign : Option Char
  digits : List Char
  letter_mem : letter = 'e' ∨ letter = 'E'
  sign_mem : ∀ c ∈ sign, isSign c = true
  digits_ne : digits ≠ []
  isDigits : Digits digits

/-- A decimal numeral as it is written; the fraction is what follows the point. -/
structure Numeral where
  sign : Option Char
  whole : List Char
  fraction : Option (List Char)
  exponent : Option Exponent
  sign_mem : ∀ c ∈ sign, isSign c = true
  whole_digits : Digits whole
  fraction_digits : ∀ ds ∈ fraction, Digits ds
  some_digit : whole ≠ [] ∨ fraction.getD [] ≠ []

def fractionText : Option (List Char) → List Char
  | none => []
  | some ds => '.' :: ds

namespace Exponent

def text (e : Exponent) : List Char := e.letter :: (e.sign.toList ++ e.digits)

def power (e : Exponent) : Int :=
  if e.sign = some '-' then -(Decimal.ofDigits e.digits : Int) else Decimal.ofDigits e.digits

def parts (e : Exponent) : Bool × List Char := (e.sign == some '-', e.digits)

end Exponent

def exponentText (e : Option Exponent) : List Char := (e.map Exponent.text).getD []

namespace Numeral

def text (n : Numeral) : List Char :=
  n.sign.toList ++ (n.whole ++ (fractionText n.fraction ++ exponentText n.exponent))

def negative (n : Numeral) : Bool := n.sign == some '-'

def places (n : Numeral) : List Char := n.fraction.getD []

def power (n : Numeral) : Int := (n.exponent.map Exponent.power).getD 0

/-- The decimal that a numeral denotes. -/
def value (n : Numeral) : ℚ :=
  Double.signed n.negative
    ((Decimal.ofDigits n.whole + Decimal.ofDigits n.places / 10 ^ n.places.length) * 10 ^ n.power)

/-- A sign, a point and an exponent stand in a numeral only where the style allows them. -/
structure Permitted (n : Numeral) (style : NumberStyles) : Prop where
  sign : n.sign.isSome → style.leadingSign = true
  point : n.fraction.isSome → style.decimalPoint = true
  exponent : n.exponent.isSome → style.exponent = true

def parts (n : Numeral) : Parts :=
  ⟨n.sign, n.whole, n.fraction, n.exponent.map Exponent.parts⟩

end Numeral

section

variable {s r ds : List Char}

theorem Digits.stops_sign (h : Digits ds) (hne : ds ≠ []) : Stops isSign (ds ++ r) := by
  cases ds with
  | nil => exact absurd rfl hne
  | cons c ds =>
      intro d hd
      cases hd
      have hc := h c List.mem_cons_self
      simp only [isAsciiDigit, Bool.and_eq_true, decide_eq_true_eq] at hc
      rw [isSign, Bool.or_eq_false_iff, beq_eq_false_iff_ne, beq_eq_false_iff_ne]
      constructor <;> rintro rfl
      · exact absurd hc.1 (by decide)
      · exact absurd hc.1 (by decide)

theorem Digits.append (hs : Digits s) (hr : Digits r) : Digits (s ++ r) := by
  intro c hc
  rcases List.mem_append.mp hc with h | h
  · exact hs c h
  · exact hr c h

theorem takeSign_stops (h : Stops isSign s) : takeSign s = (none, s) := by
  cases s with
  | nil => rfl
  | cons c s =>
      have hc := h c rfl
      rw [isSign, Bool.or_eq_false_iff, beq_eq_false_iff_ne, beq_eq_false_iff_ne] at hc
      unfold takeSign
      split
      · rename_i heq
        cases heq
        exact absurd rfl hc.1
      · rename_i heq
        cases heq
        exact absurd rfl hc.2
      · rfl

theorem isSign_eq {c : Char} (h : isSign c = true) : c = '+' ∨ c = '-' := by
  rwa [isSign, Bool.or_eq_true, beq_iff_eq, beq_iff_eq] at h

theorem takeSign_append {sign : Option Char} (h : ∀ c ∈ sign, isSign c = true) (hr : Stops isSign r) :
    takeSign (sign.toList ++ r) = (sign, r) := by
  cases sign with
  | none => exact takeSign_stops hr
  | some c => rcases isSign_eq (h c rfl) with rfl | rfl <;> rfl

theorem takeDigits_append (h : Digits ds) (hr : Stops isAsciiDigit r) :
    takeDigits (ds ++ r) = (ds, r) := by
  rw [takeDigits, takeWhile_append h hr, dropWhile_append h hr]

theorem readExponent?_text (e : Option Exponent) :
    readExponent? (exponentText e) = some (e.map Exponent.parts) := by
  cases e with
  | none => rfl
  | some e =>
      obtain ⟨letter, sign, digits, hletter, hsign, hne, hdigits⟩ := e
      have hstops : Stops isSign digits := List.append_nil digits ▸ hdigits.stops_sign (r := []) hne
      have hletter' : (letter == 'e' || letter == 'E') = true := by simpa using hletter
      have hall : (!digits.isEmpty && digits.all isAsciiDigit) = true := by
        rw [Bool.and_eq_true, List.all_eq_true]
        exact ⟨by simpa using hne, hdigits⟩
      show readExponent? (letter :: (sign.toList ++ digits)) = _
      rw [readExponent?, if_pos hletter', takeSign_append hsign hstops]
      exact if_pos hall

theorem stops_exponentText {p : Char → Bool} (he : p 'e' = false) (hE : p 'E' = false)
    (e : Option Exponent) : Stops p (exponentText e) := by
  cases e with
  | none => exact fun c hc => by cases hc
  | some e =>
      intro c hc
      cases hc
      rcases e.letter_mem with h | h <;> rw [h] <;> assumption

theorem stops_tail (f : Option (List Char)) (e : Option Exponent) :
    Stops isAsciiDigit (fractionText f ++ exponentText e) := by
  cases f with
  | none => exact stops_exponentText rfl rfl e
  | some ds => exact fun c hc => by cases hc; rfl

theorem Numeral.stops_sign (n : Numeral) :
    Stops isSign (n.whole ++ (fractionText n.fraction ++ exponentText n.exponent)) := by
  by_cases hne : n.whole = []
  · rw [hne, List.nil_append]
    cases hf : n.fraction with
    | none => exact absurd hne (n.some_digit.resolve_right (by rw [hf]; exact fun h => h rfl))
    | some ds => exact fun c hc => by cases hc; rfl
  · exact n.whole_digits.stops_sign hne

def takeFraction : List Char → Option (List Char) × List Char
  | '.' :: s => (some (takeDigits s).1, (takeDigits s).2)
  | s => (none, s)

theorem takeFraction_of_ne (h : ∀ t, s = '.' :: t → False) : takeFraction s = (none, s) := by
  unfold takeFraction
  split
  · exact absurd rfl (h _)
  · rfl

theorem readParts?_eq (s : List Char) :
    readParts? s = (readExponent? (takeFraction (takeDigits (takeSign s).2).2).2).map fun e =>
      ⟨(takeSign s).1, (takeDigits (takeSign s).2).1, (takeFraction (takeDigits (takeSign s).2).2).1, e⟩ := by
  unfold readParts?
  rcases takeSign s with ⟨sign, t⟩
  dsimp only
  rcases takeDigits t with ⟨whole, u⟩
  dsimp only
  split
  · rw [Option.map_eq_bind]
    rfl
  · rename_i hne
    rw [takeFraction_of_ne hne, Option.map_eq_bind]
    rfl

theorem takeFraction_append {f : Option (List Char)} (hf : ∀ ds ∈ f, Digits ds) (e : Option Exponent) :
    takeFraction (fractionText f ++ exponentText e) = (f, exponentText e) := by
  cases f with
  | none =>
      have hstops := stops_exponentText (p := (· == '.')) rfl rfl e
      refine takeFraction_of_ne fun t ht => ?_
      change exponentText e = _ at ht
      rw [ht] at hstops
      exact absurd (hstops '.' rfl) (by decide)
  | some ds =>
      have hds := takeDigits_append (hf ds rfl) (stops_exponentText (p := isAsciiDigit) rfl rfl e)
      show (some (takeDigits (ds ++ exponentText e)).1, (takeDigits (ds ++ exponentText e)).2) = _
      rw [hds]

theorem readParts?_text (n : Numeral) : readParts? n.text = some n.parts := by
  have hsign := takeSign_append n.sign_mem n.stops_sign
  have hwhole := takeDigits_append n.whole_digits (stops_tail n.fraction n.exponent)
  have hfraction := takeFraction_append n.fraction_digits n.exponent
  rw [readParts?_eq, Numeral.text, hsign, hwhole, hfraction, readExponent?_text]
  rfl

theorem hasDigit_parts (n : Numeral) : n.parts.hasDigit = true := by
  rw [Parts.hasDigit, Bool.or_eq_true]
  exact n.some_digit.imp (by simp [Numeral.parts]) (by simp [Numeral.parts])

theorem takeSign_eq (s : List Char) :
    s = (takeSign s).1.toList ++ (takeSign s).2 ∧ ∀ c ∈ (takeSign s).1, isSign c = true := by
  unfold takeSign
  split
  · exact ⟨rfl, fun c hc => by cases hc; rfl⟩
  · exact ⟨rfl, fun c hc => by cases hc; rfl⟩
  · exact ⟨rfl, fun c hc => by cases hc⟩

theorem takeDigits_eq (s : List Char) :
    s = (takeDigits s).1 ++ (takeDigits s).2 ∧ Digits (takeDigits s).1 :=
  ⟨List.takeWhile_append_dropWhile.symm, fun _ hc => List.mem_takeWhile_imp hc⟩

theorem takeFraction_eq (s : List Char) :
    s = fractionText (takeFraction s).1 ++ (takeFraction s).2 ∧
      ∀ ds ∈ (takeFraction s).1, Digits ds := by
  unfold takeFraction
  split
  · rename_i s
    obtain ⟨hs, hdigits⟩ := takeDigits_eq s
    exact ⟨congrArg (List.cons '.') hs, fun ds hds => by cases hds; exact hdigits⟩
  · exact ⟨rfl, fun ds hds => by cases hds⟩

theorem readExponent?_eq {s : List Char} {x : Option (Bool × List Char)} (h : readExponent? s = some x) :
    ∃ e : Option Exponent, s = exponentText e ∧ x = e.map Exponent.parts := by
  cases s with
  | nil =>
      cases h
      exact ⟨none, rfl, rfl⟩
  | cons c s =>
      rw [readExponent?] at h
      split at h
      · rename_i hletter
        obtain ⟨hs, hsign⟩ := takeSign_eq s
        generalize takeSign s = t at h hs hsign
        obtain ⟨sign, digits⟩ := t
        dsimp only at h hs hsign
        split at h
        · rename_i hall
          cases h
          rw [Bool.and_eq_true, List.all_eq_true] at hall
          refine ⟨some ⟨c, sign, digits, by simpa using hletter, hsign, by simpa using hall.1, hall.2⟩, ?_, rfl⟩
          rw [hs]
          rfl
        · cases h
      · cases h

theorem readParts?_sound {s : List Char} {p : Parts} (h : readParts? s = some p) (hp : p.hasDigit = true) :
    ∃ n : Numeral, s = n.text ∧ p = n.parts := by
  rw [readParts?_eq] at h
  obtain ⟨hs, hsign⟩ := takeSign_eq s
  obtain ⟨hrest, hwhole⟩ := takeDigits_eq (takeSign s).2
  obtain ⟨htail, hfraction⟩ := takeFraction_eq (takeDigits (takeSign s).2).2
  obtain ⟨x, hx, rfl⟩ := Option.map_eq_some_iff.mp h
  obtain ⟨e, he, rfl⟩ := readExponent?_eq hx
  rw [Parts.hasDigit, Bool.or_eq_true] at hp
  refine ⟨⟨_, _, _, e, hsign, hwhole, hfraction, hp.imp (by simp) (by simp)⟩, ?_, rfl⟩
  rw [Numeral.text, ← he, ← htail, ← hrest, ← hs]

theorem readParts?_iff {s : List Char} {p : Parts} :
    readParts? s = some p ∧ p.hasDigit = true ↔ ∃ n : Numeral, s = n.text ∧ p = n.parts := by
  constructor
  · rintro ⟨h, hp⟩
    exact readParts?_sound h hp
  · rintro ⟨n, rfl, rfl⟩
    exact ⟨readParts?_text n, hasDigit_parts n⟩

end

theorem permitted_iff (n : Numeral) (style : NumberStyles) :
    n.parts.permitted style = true ↔ n.Permitted style := by
  have himp (o b : Bool) : (!o || b) = true ↔ (o = true → b = true) := by cases o <;> simp
  have hexponent : (n.exponent.map Exponent.parts).isNone = !n.exponent.isSome := by simp
  simp only [Parts.permitted, Numeral.parts, Bool.and_eq_true, hexponent, ← Option.not_isSome, himp]
  exact ⟨fun h => ⟨h.1.1, h.1.2, h.2⟩, fun h => ⟨⟨h.sign, h.point⟩, h.exponent⟩⟩

theorem foldl_digits (ds : List Char) (n : Nat) :
    ds.foldl (fun n c => 10 * n + (c.toNat - 48)) n = n * 10 ^ ds.length + Decimal.ofDigits ds := by
  induction ds generalizing n with
  | nil => simp [Decimal.ofDigits]
  | cons c ds ih =>
      rw [Decimal.ofDigits, List.foldl_cons, List.foldl_cons, ih, ih, List.length_cons, pow_succ]
      ring

theorem ofDigits_append (a b : List Char) :
    Decimal.ofDigits (a ++ b) = Decimal.ofDigits a * 10 ^ b.length + Decimal.ofDigits b := by
  rw [Decimal.ofDigits, List.foldl_append, foldl_digits b]
  rfl

theorem exp_parts (n : Numeral) : n.parts.toDecimal.exp = n.power - n.places.length := by
  obtain ⟨sign, whole, fraction, exponent, -, -, -, -⟩ := n
  cases exponent with
  | none => rfl
  | some e => simp [Numeral.parts, Parts.toDecimal, Numeral.power, Numeral.places, Exponent.parts, Exponent.power]

theorem value_parts (n : Numeral) : n.parts.toDecimal.value = n.value := by
  have hten : (10 : ℚ) ≠ 0 := by norm_num
  have hcoeff : n.parts.toDecimal.coeff =
      Decimal.ofDigits n.whole * 10 ^ n.places.length + Decimal.ofDigits n.places :=
    ofDigits_append _ _
  rw [Decimal.value, exp_parts, hcoeff, zpow_sub₀ hten, zpow_natCast, Numeral.value]
  refine congrArg (Double.signed n.negative) ?_
  push_cast
  field_simp

theorem ofDecimal_parts (n : Numeral) :
    Double.IsNearest n.value (Double.ofDecimal n.parts.toDecimal) ∧
      (Double.ofDecimal n.parts.toDecimal).neg = n.negative :=
  ⟨value_parts n ▸ Decimal.ofDecimal_isNearest _, Decimal.neg_ofDecimal _⟩

theorem ofDecimal_numeral {n : Numeral} {q : Decimal} (hvalue : n.value = q.value) (hneg : n.negative = q.neg) :
    Double.ofDecimal n.parts.toDecimal = Double.ofDecimal q := by
  obtain ⟨hnearest, hsign⟩ := ofDecimal_parts n
  rw [hvalue] at hnearest
  exact hnearest.unique (Decimal.ofDecimal_isNearest q) ((hsign.trans hneg).trans (Decimal.neg_ofDecimal q).symm)

end BaseLib.Number
