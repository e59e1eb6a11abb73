import BaseLib.Number.Format
import BaseLib.Proofs.Number.Parse

namespace BaseLib

open Number Text.Composite

namespace Number

section

variable {b n v : Nat}

/-- The digits of a number are those of its quotient by the base, unless that is zero, and the remainder's. -/
theorem toDigits_induction {motive : Nat → List Char → Prop} (hb : 1 < b) (single : ∀ v < b, motive v [v.digitChar])
    (append : ∀ n, ∀ v < b, n ≠ 0 → motive n (Nat.toDigits b n) →
      motive (b * n + v) (Nat.toDigits b n ++ [v.digitChar])) (n : Nat) : motive n (Nat.toDigits b n) := by
  induction n using Nat.strong_induction_on with
  | _ n ih =>
    rcases Nat.lt_or_ge n b with hlt | hge
    · rw [Nat.toDigits_of_lt_base hlt]
      exact single n hlt
    · have hpos : 0 < n / b := Nat.div_pos hge (by omega)
      have hquotient := ih (n / b) (Nat.div_lt_self (by omega) hb)
      have happend := append (n / b) (n % b) (Nat.mod_lt n (by omega)) hpos.ne' hquotient
      rwa [Nat.div_add_mod, ← Nat.toDigits_of_base_le hb hge] at happend

theorem mem_toDigits {c : Char} (hb : 1 < b) (n : Nat) : c ∈ Nat.toDigits b n → ∃ v < b, c = v.digitChar := by
  refine toDigits_induction (motive := fun _ ds => c ∈ ds → ∃ v < b, c = v.digitChar) hb
    (fun v hv hc => ⟨v, hv, List.mem_singleton.mp hc⟩) (fun n v hv _ ih hc => ?_) n
  rcases List.mem_append.mp hc with hc | hc
  · exact ih hc
  · exact ⟨v, hv, List.mem_singleton.mp hc⟩

theorem head?_toDigits (hb : 1 < b) (hb' : b ≤ 16) (n : Nat) : n ≠ 0 → (Nat.toDigits b n).head? ≠ some '0' := by
  have hdigit : ∀ v : Nat, v < 16 → v ≠ 0 → [v.digitChar].head? ≠ some '0' := by decide
  refine toDigits_induction (motive := fun n ds => n ≠ 0 → ds.head? ≠ some '0') hb
    (fun v hv => hdigit v (by omega)) (fun n v hv hn ih _ => ?_) n
  rw [List.head?_append_of_ne_nil _ (List.ne_nil_of_length_pos Nat.length_toDigits_pos)]
  exact ih hn

end

end Number

namespace Decimal

theorem digits_isDigits (n : Nat) : Digits (digits n) := by
  intro c hc
  have h := Nat.isDigit_of_mem_toDigits (by decide) (by decide) hc
  simpa [Char.isDigit, isAsciiDigit, Char.le_def] using h

theorem zeros_isDigits (n : Nat) : Digits (zeros n) := by
  intro c hc
  rw [List.eq_of_mem_replicate hc]
  rfl

theorem padded_isDigits (width n : Nat) : Digits (padded width n) :=
  (zeros_isDigits _).append (digits_isDigits n)

theorem digits_ne (n : Nat) : digits n ≠ [] :=
  List.ne_nil_of_length_pos Nat.length_toDigits_pos

theorem length_padded (width n : Nat) : width ≤ (padded width n).length := by
  simp only [padded, zeros, List.length_append, List.length_replicate]
  omega

theorem positionalParts_digits (q : Decimal) :
    q.positionalParts.1 ≠ [] ∧ Digits q.positionalParts.1 ∧ Digits q.positionalParts.2 := by
  unfold positionalParts
  split
  · split
    · exact ⟨by simp, List.forall_mem_singleton.mpr rfl, List.forall_mem_nil _⟩
    · exact ⟨by simp [digits_ne], (digits_isDigits _).append (zeros_isDigits _), List.forall_mem_nil _⟩
  · have hdigits := padded_isDigits ((-q.exp).toNat + 1) q.coeff
    have hlen := length_padded ((-q.exp).toNat + 1) q.coeff
    refine ⟨fun h => ?_, fun c hc => hdigits c (List.mem_of_mem_take hc),
      fun c hc => hdigits c (List.mem_of_mem_drop hc)⟩
    have hzero := congrArg List.length h
    rw [List.length_take, List.length_nil] at hzero
    omega

def numeral (q : Decimal) : Numeral where
  sign := if q.neg then some '-' else none
  whole := q.positionalParts.1
  fraction := if q.positionalParts.2.isEmpty then none else some q.positionalParts.2
  exponent := none
  sign_mem := by
    cases q.neg <;> simp [isSign]
  whole_digits := q.positionalParts_digits.2.1
  fraction_digits := by
    intro ds hds
    cases hempty : q.positionalParts.2.isEmpty <;> rw [hempty] at hds
    · cases hds
      exact q.positionalParts_digits.2.2
    · cases hds
  some_digit := .inl q.positionalParts_digits.1

theorem numeral_text (q : Decimal) : q.numeral.text = q.positional := by
  have hexponent : Number.exponentText none = [] := rfl
  simp only [Numeral.text, numeral, positional, withSign, withPoint, hexponent, List.append_nil]
  cases q.neg <;> cases q.positionalParts.2.isEmpty <;> simp [fractionText]

end Decimal

/-- Neither a character of a whole number nor the one that stands for a separator while texts are
localized. -/
structure Free (c : Char) : Prop where
  digit : isAsciiDigit c = false
  minus : c ≠ '-'
  null : c ≠ '\x00'

/-- The separators are two distinct characters, and neither is part of a number text without groups. -/
structure Separates (symbols : NumberSymbols) (point comma : Char) : Prop where
  decimal : symbols.decimalSeparator.toList = [point]
  group : symbols.groupSeparator.toList = [comma]
  distinct : point ≠ comma
  point_free : Free point
  comma_free : Free comma

def isPlain (c : Char) : Bool := isAsciiDigit c || c == '-' || c == ',' || c == '.'

def separated (point comma : Char) (c : Char) : Char :=
  if c = ',' then comma else if c = '.' then point else c

section

variable {symbols : NumberSymbols} {point comma : Char} {s : List Char}

theorem Free.ne {c d : Char} (h : Free c) (hd : isAsciiDigit d = true ∨ d = '-') : d ≠ c := by
  rintro rfl
  rcases hd with hd | hd
  · exact absurd (hd.symm.trans h.digit) (by decide)
  · exact h.minus hd

theorem isPlain_cases {c : Char} (h : isPlain c = true) :
    c = ',' ∨ c = '.' ∨ c ≠ ',' ∧ c ≠ '.' ∧ (isAsciiDigit c = true ∨ c = '-') := by
  simp only [isPlain, Bool.or_eq_true, beq_iff_eq] at h
  by_cases hcomma : c = ','
  · exact .inl hcomma
  · by_cases hpoint : c = '.'
    · exact .inr (.inl hpoint)
    · simp only [hcomma, hpoint, or_false] at h
      exact .inr (.inr ⟨hcomma, hpoint, h⟩)

theorem decimalSeparator_eq_iff (h : Separates symbols point comma) :
    symbols.decimalSeparator = "." ↔ point = '.' := by
  rw [← String.toList_inj, h.decimal]
  simp

theorem groupSeparator_eq_iff (h : Separates symbols point comma) :
    symbols.groupSeparator = "," ↔ comma = ',' := by
  rw [← String.toList_inj, h.group]
  simp

theorem separated_comma : separated point comma ',' = comma := if_pos rfl

theorem separated_point : separated point comma '.' = point :=
  (if_neg (by decide)).trans (if_pos rfl)

theorem separated_of_ne {c : Char} (hcomma : c ≠ ',') (hpoint : c ≠ '.') :
    separated point comma c = c :=
  (if_neg hcomma).trans (if_neg hpoint)

/-- Localizing puts each separator in the place of its mark, through a character that is in no text. -/
theorem localize_eq (h : Separates symbols point comma) (hs : ∀ c ∈ s, isPlain c = true) :
    symbols.localize s = s.map (separated point comma) := by
  rw [NumberSymbols.localize]
  split
  · rename_i hsame
    obtain rfl := (decimalSeparator_eq_iff h).mp hsame.1
    obtain rfl := (groupSeparator_eq_iff h).mp hsame.2
    refine (List.map_id'' (fun c => ?_) s).symm
    unfold separated
    split
    · exact Eq.symm ‹_›
    · split
      · exact Eq.symm ‹_›
      · rfl
  · rw [h.decimal, h.group, Text.replace_singleton_singleton, Text.replace_singleton_singleton,
      Text.replace_singleton_singleton, List.map_map, List.map_map]
    refine List.map_congr_left fun c hc => ?_
    rcases isPlain_cases (hs c hc) with rfl | rfl | ⟨hcomma, hpoint, hc⟩
    · simp [separated_comma]
    · simp [separated_point, h.point_free.null]
    · have hnull : c ≠ '\x00' := by
        rintro rfl
        revert hc
        decide
      simp [separated_of_ne, hcomma, hpoint, hnull]

theorem bare_separated (h : Separates symbols point comma) (hs : ∀ c ∈ s, isPlain c = true)
    {style : NumberStyles} (hstyle : style.thousands = true) :
    bare (s.map (separated point comma)) style symbols = s.filter (· ≠ ',') := by
  have hkept : (s.map (separated point comma)).filter (fun c => !(style.thousands && c == comma)) =
      (s.filter (· ≠ ',')).map (separated point comma) := by
    rw [List.filter_map]
    congr 1
    refine List.filter_congr fun c hc => ?_
    rcases isPlain_cases (hs c hc) with rfl | rfl | ⟨hcomma, hpoint, hc⟩
    · simp [hstyle, separated_comma]
    · simp [hstyle, separated_point, h.distinct]
    · simp [hstyle, separated_of_ne, hcomma, hpoint, h.comma_free.ne hc]
  rw [bare_eq h.decimal h.group, hkept, List.map_map]
  refine (List.map_congr_left fun c hc => ?_).trans (List.map_id _)
  obtain ⟨hc, hcomma⟩ := List.mem_filter.mp hc
  rcases isPlain_cases (hs c hc) with rfl | rfl | ⟨hcomma, hpoint, hc⟩
  · exact absurd rfl (of_decide_eq_true hcomma)
  · simp [separated_point]
  · simp [separated_of_ne, hcomma, hpoint, h.point_free.ne hc]

theorem mem_group {c : Char} {whole : List Char} (h : c ∈ Decimal.group whole) : c = ',' ∨ c ∈ whole := by
  induction whole with
  | nil => exact .inr h
  | cons d whole ih =>
      rw [Decimal.group] at h
      split at h <;> simp only [List.mem_cons] at h ⊢ <;> tauto

theorem filter_group {whole : List Char} (h : ∀ c ∈ whole, c ≠ ',') :
    (Decimal.group whole).filter (· ≠ ',') = whole := by
  induction whole with
  | nil => rfl
  | cons c whole ih =>
      obtain ⟨hc, hwhole⟩ := List.forall_mem_cons.mp h
      have hkeep : decide (c ≠ ',') = true := decide_eq_true hc
      rw [Decimal.group]
      split
      · rw [List.filter_cons, if_pos hkeep, List.filter_cons, if_neg (by decide), ih hwhole]
      · rw [List.filter_cons, if_pos hkeep, ih hwhole]

theorem mem_signed {c : Char} {neg : Bool} {whole frac : List Char}
    (h : c ∈ Decimal.withSign neg (Decimal.withPoint whole frac)) :
    c = '-' ∨ c ∈ whole ∨ c = '.' ∨ c ∈ frac := by
  have hpoint (h : c ∈ Decimal.withPoint whole frac) : c ∈ whole ∨ c = '.' ∨ c ∈ frac := by
    unfold Decimal.withPoint at h
    split at h
    · exact .inl h
    · simpa using h
  cases neg with
  | false => exact .inr (hpoint h)
  | true => exact (List.mem_cons.mp h).imp_right hpoint

theorem Number.Digits.plain (h : Digits s) : ∀ c ∈ s, isPlain c = true := fun c hc => by
  simp [isPlain, h c hc]

theorem Number.Digits.no_comma (h : Digits s) : ∀ c ∈ s, c ≠ ',' := by
  rintro c hc rfl
  exact absurd (h ',' hc) (by decide)

theorem grouped_plain (q : Decimal) : ∀ c ∈ q.grouped, isPlain c = true := by
  obtain ⟨-, hwhole, hfrac⟩ := q.positionalParts_digits
  intro c hc
  rcases mem_signed hc with rfl | hc | rfl | hc
  · rfl
  · rcases mem_group hc with rfl | hc
    · rfl
    · exact hwhole.plain c hc
  · rfl
  · exact hfrac.plain c hc

theorem filter_grouped (q : Decimal) : q.grouped.filter (· ≠ ',') = q.positional := by
  obtain ⟨-, hwhole, hfrac⟩ := q.positionalParts_digits
  have hgroup := filter_group hwhole.no_comma
  have hkeep : q.positionalParts.2.filter (· ≠ ',') = q.positionalParts.2 :=
    List.filter_eq_self.mpr fun c hc => decide_eq_true (hfrac.no_comma c hc)
  have hpoint : (Decimal.withPoint (Decimal.group q.positionalParts.1) q.positionalParts.2).filter (· ≠ ',') =
      Decimal.withPoint q.positionalParts.1 q.positionalParts.2 := by
    unfold Decimal.withPoint
    split
    · exact hgroup
    · rw [List.filter_append, List.filter_cons_of_pos (by decide), hgroup, hkeep]
  unfold Decimal.grouped Decimal.positional Decimal.withSign
  dsimp only
  split
  · rw [List.filter_cons_of_pos (by decide), hpoint]
  · exact hpoint

theorem head?_group (whole : List Char) : (Decimal.group whole).head? = whole.head? := by
  cases whole with
  | nil => rfl
  | cons c whole =>
      rw [Decimal.group]
      split <;> rfl

theorem getLast?_group (whole : List Char) : (Decimal.group whole).getLast? = whole.getLast? := by
  induction whole with
  | nil => rfl
  | cons c whole ih =>
      rw [Decimal.group]
      cases whole with
      | nil => rfl
      | cons d whole => split <;> simp [List.getLast?_cons, ih]

theorem head?_withPoint {whole : List Char} (hne : whole ≠ []) (frac : List Char) :
    (Decimal.withPoint whole frac).head? = whole.head? := by
  unfold Decimal.withPoint
  split
  · rfl
  · exact List.head?_append_of_ne_nil whole hne

theorem mem_head?_grouped {c : Char} (q : Decimal) (hc : c ∈ q.grouped.head?) :
    isAsciiDigit c = true ∨ c = '-' := by
  obtain ⟨hne, hwhole, -⟩ := q.positionalParts_digits
  have hgroup : Decimal.group q.positionalParts.1 ≠ [] := by
    rwa [ne_eq, ← List.head?_eq_none_iff, head?_group, List.head?_eq_none_iff]
  have hbody := head?_withPoint hgroup q.positionalParts.2
  rw [head?_group] at hbody
  unfold Decimal.grouped Decimal.withSign at hc
  dsimp only at hc
  split at hc
  · cases hc
    exact .inr rfl
  · rw [hbody] at hc
    exact .inl (hwhole c (List.mem_of_mem_head? hc))

theorem mem_getLast?_withPoint {c : Char} {whole frac : List Char}
    (hc : c ∈ (Decimal.withPoint whole frac).getLast?) : c ∈ whole.getLast? ∨ c ∈ frac := by
  unfold Decimal.withPoint at hc
  cases frac with
  | nil => exact .inl hc
  | cons d frac =>
      have hlast : (whole ++ '.' :: d :: frac).getLast? = (d :: frac).getLast? := by
        simp [List.getLast?_append, List.getLast?_cons]
      exact .inr (List.mem_of_mem_getLast? (hlast ▸ hc))

theorem mem_getLast?_grouped {c : Char} (q : Decimal) (hc : c ∈ q.grouped.getLast?) :
    isAsciiDigit c = true ∨ c = '-' := by
  obtain ⟨-, hwhole, hfrac⟩ := q.positionalParts_digits
  have hbody (h : c ∈ (Decimal.withPoint (Decimal.group q.positionalParts.1) q.positionalParts.2).getLast?) :
      isAsciiDigit c = true := by
    rcases mem_getLast?_withPoint h with h | h
    · rw [getLast?_group] at h
      exact hwhole c (List.mem_of_mem_getLast? h)
    · exact hfrac c h
  unfold Decimal.grouped Decimal.withSign at hc
  dsimp only at hc
  split at hc
  · generalize Decimal.withPoint _ _ = body at hc hbody
    cases body with
    | nil =>
        cases hc
        exact .inr rfl
    | cons d body => exact .inl (hbody (by simpa using hc))
  · exact .inl (hbody hc)

theorem separated_not_blank {c : Char} (h : isAsciiDigit c = true ∨ c = '-') :
    isBlank (separated point comma c) = false := by
  rcases h with hc | rfl
  · have hcomma : c ≠ ',' := by
      rintro rfl
      cases hc
    have hpoint : c ≠ '.' := by
      rintro rfl
      cases hc
    rw [separated_of_ne hcomma hpoint]
    exact Digits.noBlank (s := [c]) (by simpa [Digits] using hc) c List.mem_cons_self
  · rfl

theorem trimBlanks_grouped (q : Decimal) (style : NumberStyles) :
    trimBlanks (q.grouped.map (separated point comma)) style = q.grouped.map (separated point comma) := by
  refine trimBlanks_of_stops (fun c hc => ?_) (fun c hc => ?_)
  · rw [List.head?_map] at hc
    obtain ⟨d, hd, rfl⟩ := Option.mem_map.mp hc
    exact separated_not_blank (mem_head?_grouped q hd)
  · rw [List.head?_reverse, List.getLast?_map] at hc
    obtain ⟨d, hd, rfl⟩ := Option.mem_map.mp hc
    exact separated_not_blank (mem_getLast?_grouped q hd)

theorem readBody?_positional (q : Decimal) {style : NumberStyles} (hsign : style.leadingSign = true)
    (hpoint : style.decimalPoint = true) :
    readBody? q.positional style = some (.double (Double.ofDecimal q.numeral.parts.toDecimal)) := by
  rw [← q.numeral_text, readBody?_numeral]
  exact ⟨⟨fun _ => hsign, fun _ => hpoint, fun h => (nomatch h)⟩, rfl⟩

theorem read?_grouped (h : Separates symbols point comma) (q : Decimal) :
    read? (symbols.localize q.grouped) ⟨111⟩ symbols =
      some (.double (Double.ofDecimal q.numeral.parts.toDecimal)) := by
  rw [localize_eq h (grouped_plain q), read?_body rfl, trimBlanks_grouped,
    bare_separated h (grouped_plain q) rfl, filter_grouped, readBody?_positional q rfl rfl]

theorem read?_numeral {n : Numeral} (h : n.Permitted NumberStyles.float) :
    read? n.text NumberStyles.float NumberSymbols.invariant = some (.double (Double.ofDecimal n.parts.toDecimal)) := by
  obtain ⟨hnearest, hsign⟩ := ofDecimal_parts n
  have htext : n.text = [] ++ (n.text ++ []) := (List.append_nil _).symm
  exact read?_iff.mpr ⟨[], n.text, [], htext, blanks_nil _, blanks_nil _, .numeral rfl n rfl h hnearest hsign⟩

theorem read?_positional (q : Decimal) :
    read? q.positional NumberStyles.float NumberSymbols.invariant =
      some (.double (Double.ofDecimal q.numeral.parts.toDecimal)) := by
  rw [← q.numeral_text]
  exact read?_numeral ⟨fun _ => rfl, fun _ => rfl, fun h => (nomatch h)⟩

end

theorem digitValue?_digit {c : Char} (h : isAsciiDigit c = true) :
    Text.digitValue? c.toNat = some (c.toNat - 48) := by
  rw [isAsciiDigit, Bool.and_eq_true, decide_eq_true_eq, decide_eq_true_eq] at h
  have hlow : 48 ≤ c.toNat := h.1
  have hhigh : c.toNat ≤ 57 := h.2
  rw [Text.digitValue?, if_pos (by omega), if_pos ⟨hlow, hhigh⟩]

theorem foldlM_digits {s : List Char} (h : Digits s) (n : Nat) :
    s.foldlM (fun n c => (Text.digitValue? c.toNat).map (10 * n + ·)) n =
      some (s.foldl (fun n c => 10 * n + (c.toNat - 48)) n) := by
  induction s generalizing n with
  | nil => rfl
  | cons c s ih =>
      obtain ⟨hc, hs⟩ := List.forall_mem_cons.mp h
      rw [List.foldlM_cons, digitValue?_digit hc, List.foldl_cons]
      exact ih hs _

theorem decimalValue?_digits (n : Nat) : Text.decimalValue? (Decimal.digits n) = some n := by
  have hvalue : Decimal.ofDigits (Decimal.digits n) = n := Nat.ofDigitChars_toDigits (by decide) (by decide)
  rw [Text.decimalValue?, foldlM_digits (Decimal.digits_isDigits n)]
  exact congrArg some hvalue

theorem allDigits_digits (n : Nat) : Text.allDigits (Decimal.digits n) = true := by
  rw [Text.allDigits, Bool.and_eq_true, List.all_eq_true]
  refine ⟨by simpa using Decimal.digits_ne n, fun c hc => ?_⟩
  rw [Text.isDigit, Text.isDecimal, digitValue?_digit (Decimal.digits_isDigits n c hc)]
  rfl

theorem precision_digits {p : Nat} (hp : p ≤ 999) (default : Nat) :
    precision (Decimal.digits p) default = .ok p := by
  have hlen : (Decimal.digits p).length ≤ 3 := (Nat.length_toDigits_le_iff (by decide) (by decide)).mpr (by omega)
  have hread : readNumeral (Decimal.digits p) = .ok p := by
    rw [readNumeral, if_neg (by rw [longestNumeral, mostDigits]; omega), decimalValue?_digits]
  rw [precision, if_neg (by simpa using Decimal.digits_ne p), hread]
  exact if_pos hp

theorem format_standard {x : Number} (hx : x.isFinite = true) {letter : Char} {kind : FormatKind}
    (hkind : FormatKind.ofLetter? letter = some kind) (p : Nat) (symbols : NumberSymbols) :
    x.format (letter :: Decimal.digits p) symbols = x.standard kind (Decimal.digits p) symbols := by
  rw [format, hx, hkind, allDigits_digits, Bool.or_true]
  rfl

theorem standard_grouped (x : Number) {p : Nat} (hp : p ≤ 999) (symbols : NumberSymbols) :
    x.standard .grouped (Decimal.digits p) symbols =
      (rounded x.toDecimal p).map fun q => symbols.localize q.grouped := by
  rw [standard, precision_digits hp]
  show (do pure (symbols.localize (← rounded x.toDecimal p).grouped)) = _
  cases rounded x.toDecimal p <;> rfl

theorem standard_fixed (x : Number) {p : Nat} (hp : p ≤ 999) (symbols : NumberSymbols) :
    x.standard .fixed (Decimal.digits p) symbols =
      (rounded x.toDecimal p).map fun q => symbols.localize q.positional := by
  rw [standard, precision_digits hp]
  show (do pure (symbols.localize (← rounded x.toDecimal p).positional)) = _
  cases rounded x.toDecimal p <;> rfl

namespace Session

open Library

variable {s : Session} {provider : Value} {symbols : NumberSymbols} {point comma : Char}

theorem exec_format (h : s.symbolsOf provider = .ok symbols) (x : Number) (fmt : List Char) :
    s.exec (Catalogue.call "format_number" [x.toValue, .text fmt, provider]) =
      ((x.format fmt symbols).map .text, s) := by
  have hformat : s.formatNumber x.toValue fmt provider = x.format fmt symbols := by
    rw [formatNumber, h]
    cases x <;> rfl
  have hrun : s.exec (Catalogue.call "format_number" [x.toValue, .text fmt, provider]) =
      s.exec (do pure (.text (← ofExcept (s.formatNumber x.toValue fmt provider)))) := by
    cases fmt <;> rfl
  rw [hrun, hformat]
  cases x.format fmt symbols <;> rfl

/-- The text of a number in groups, read with the separators it was written with, is the number that its
text without groups is in the invariant culture. -/
theorem grouped_parses_as_fixed {x : Number} (hx : x.isFinite = true) {p : Nat} (hp : p ≤ 999)
    (hsymbols : s.symbolsOf provider = .ok symbols) (hseparates : Separates symbols point comma)
    (hcurrent : s.currentSymbols = .ok NumberSymbols.invariant) {t : List Char}
    (ht : s.exec (Catalogue.call "format_number" [x.toValue, .text ('N' :: Decimal.digits p), provider]) =
      (.ok (.text t), s)) :
    ∃ t' v, s.exec (Catalogue.call "format_number" [x.toValue, .text ('F' :: Decimal.digits p)]) =
        (.ok (.text t'), s) ∧
      s.exec (Catalogue.call "NNumber.Parse" [.text t, .flags .numberStyles 111, provider]) = (.ok v, s) ∧
      s.exec (Catalogue.call "NNumber.Parse" [.text t']) = (.ok v, s) := by
  have hnull : s.symbolsOf .null = .ok NumberSymbols.invariant := hcurrent
  rw [exec_format hsymbols, format_standard hx rfl, standard_grouped x hp] at ht
  cases hq : rounded x.toDecimal p with
  | error e =>
      rw [hq] at ht
      cases ht
  | ok q =>
      rw [hq] at ht
      cases ht
      have hfixed := exec_format hnull x ('F' :: Decimal.digits p)
      rw [format_standard hx rfl, standard_fixed x hp, hq] at hfixed
      refine ⟨q.positional, .double (Double.ofDecimal q.numeral.parts.toDecimal), hfixed, ?_, ?_⟩
      · exact exec_parse_ok (.flags .numberStyles 111) hsymbols (read?_grouped hseparates q)
      · exact exec_parse_ok .null hnull (read?_positional q)

/-- A session with a format whose separators are those of the invariant culture, exchanged. -/
def exchanged : Session :=
  (start 0).grow (.symbols { decimalSeparator := ",", groupSeparator := "." })

/-- Exchanged separators are told apart. -/
theorem grouped_parses_as_fixed_exchanged :
    exchanged.exec (Catalogue.call "format_number" [.int 1234567, .text "N1".toList, .ref 13]) =
        (.ok (.text "1.234.567,0".toList), exchanged) ∧
      ∃ t' v, exchanged.exec (Catalogue.call "format_number" [.int 1234567, .text "F1".toList]) =
          (.ok (.text t'), exchanged) ∧
        exchanged.exec (Catalogue.call "NNumber.Parse"
          [.text "1.234.567,0".toList, .flags .numberStyles 111, .ref 13]) = (.ok v, exchanged) ∧
        exchanged.exec (Catalogue.call "NNumber.Parse" [.text t']) = (.ok v, exchanged) := by
  have hsymbols : exchanged.symbolsOf (.ref 13) =
      .ok { decimalSeparator := ",", groupSeparator := "." } := rfl
  have hseparates : Separates { decimalSeparator := ",", groupSeparator := "." } ',' '.' :=
    ⟨rfl, rfl, by decide, ⟨rfl, by decide, by decide⟩, ⟨rfl, by decide, by decide⟩⟩
  have hformat : Number.format (.int 1234567) ('N' :: Decimal.digits 1)
      { decimalSeparator := ",", groupSeparator := "." } = .ok "1.234.567,0".toList := by
    decide +kernel
  have htext := exec_format hsymbols (.int 1234567) ('N' :: Decimal.digits 1)
  rw [hformat] at htext
  exact ⟨htext, grouped_parses_as_fixed (x := .int 1234567) (p := 1) rfl (by decide) hsymbols hseparates rfl htext⟩

end Session

end BaseLib
