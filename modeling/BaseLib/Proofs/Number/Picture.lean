import BaseLib.Proofs.Number.Digits
import BaseLib.Proofs.Number.Scientific
import Mathlib.Data.List.DropRight

namespace BaseLib

open Number Decimal
open Text.Composite (Stops stops_dropWhile)

namespace Decimal

variable {n : Nat} {y z : ℚ}

theorem Fits.signed (h : Fits n y) (neg : Bool) : Fits n (Double.signed neg y) := by
  obtain ⟨k, e, rfl, hk⟩ := h
  cases neg with
  | false => exact ⟨k, e, rfl, hk⟩
  | true => exact ⟨-k, e, by rw [Int.cast_neg, neg_mul]; rfl, by rwa [abs_neg]⟩

theorem Significant.signed {tie : Midpoint} (h : Significant tie n |y| z) (neg : Bool) :
    Significant tie n (Double.signed neg |y|) (Double.signed neg z) := by
  rw [Significant, Double.abs_signed neg (abs_nonneg y)]
  rw [Significant, abs_abs] at h
  exact RoundsTo.signed h neg

end Decimal

namespace Number

/-- A picture: marks for digits, commas and at most one point. -/
structure IsPicture (fmt : List Char) : Prop where
  ne : fmt ≠ []
  marks : ∀ c ∈ fmt, c ∈ ['0', '#', ',', '.']
  point : fmt.count '.' ≤ 1

instance (fmt : List Char) : Decidable (IsPicture fmt) :=
  decidable_of_iff (fmt ≠ [] ∧ fmt.all ['0', '#', ',', '.'].contains = true ∧ fmt.count '.' ≤ 1)
    ⟨fun ⟨ne, marks, point⟩ => ⟨ne, fun c hc => List.contains_iff_mem.mp (List.all_eq_true.mp marks c hc), point⟩,
      fun h => ⟨h.ne, List.all_eq_true.mpr fun c hc => List.contains_iff_mem.mpr (h.marks c hc), h.point⟩⟩

def wholeMarks (fmt : List Char) : List Char := fmt.takeWhile (· != '.')

def fracMarks (fmt : List Char) : List Char := (fmt.dropWhile (· != '.')).tail

/-- Groups, and bounds on the numbers of digits before and behind the point. -/
structure Marks where
  grouped : Bool
  minWhole : Nat
  minFrac : Nat
  maxFrac : Nat

def Marks.of (fmt : List Char) : Marks where
  grouped := (wholeMarks fmt).contains ','
  minWhole := (wholeMarks fmt).count '0'
  minFrac := (fracMarks fmt).count '0'
  maxFrac := (fracMarks fmt).countP fun c => c == '0' || c == '#'

section

variable {fmt : List Char}

theorem point_split (fmt : List Char) :
    '.' ∉ wholeMarks fmt ∧ (fmt = wholeMarks fmt ∧ fracMarks fmt = [] ∨ fmt = wholeMarks fmt ++ '.' :: fracMarks fmt) := by
  have hsplit : wholeMarks fmt ++ fmt.dropWhile (· != '.') = fmt := List.takeWhile_append_dropWhile
  have hstops := stops_dropWhile (· != '.') fmt
  refine ⟨fun hmem => absurd (List.mem_takeWhile_imp hmem) (by decide), ?_⟩
  unfold fracMarks
  cases hdrop : fmt.dropWhile (· != '.') with
  | nil =>
      rw [hdrop, List.append_nil] at hsplit
      exact .inl ⟨hsplit.symm, rfl⟩
  | cons c rest =>
      rw [hdrop] at hsplit hstops
      obtain rfl : c = '.' := by simpa using hstops c rfl
      exact .inr hsplit.symm

theorem breakOn_point (fmt : List Char) :
    ∃ rest, Text.breakOn ['.'] fmt = (wholeMarks fmt, rest) ∧ rest.getD [] = fracMarks fmt := by
  obtain ⟨hpoint, ⟨hfmt, hfrac⟩ | hfmt⟩ := point_split fmt
  · refine ⟨none, ?_, hfrac.symm⟩
    rw [← hfmt] at hpoint ⊢
    exact Text.breakOn_singleton_none hpoint
  · refine ⟨some (fracMarks fmt), ?_, rfl⟩
    conv_lhs => rw [hfmt]
    exact Text.breakOn_singleton hpoint

theorem IsPicture.mem_fracMarks (h : IsPicture fmt) : ∀ c ∈ fracMarks fmt, c ∈ ['0', '#', ','] := by
  intro c hc
  obtain ⟨-, ⟨-, hfrac⟩ | hfmt⟩ := point_split fmt
  · rw [hfrac] at hc
    cases hc
  · have hmem : c ∈ fmt := by
      rw [hfmt]
      exact List.mem_append_right _ (List.mem_cons_of_mem _ hc)
    have hcount := h.point
    rw [hfmt, List.count_append, List.count_cons_self] at hcount
    have hpoint : c ≠ '.' := by
      rintro rfl
      have hpos := List.count_pos_iff.mpr hc
      omega
    simpa [hpoint] using h.marks c hmem

theorem withoutCommas_eq (s : List Char) : withoutCommas s = s.filter (· ≠ ',') := by
  exact List.filter_congr fun c _ => by simp [bne, Bool.beq_eq_decide_eq]

theorem IsPicture.maxFrac_eq (h : IsPicture fmt) :
    (withoutCommas (fracMarks fmt)).length = (Marks.of fmt).maxFrac := by
  rw [withoutCommas_eq, ← List.countP_eq_length_filter]
  refine List.countP_congr fun c hc => ?_
  have hmark := h.mem_fracMarks c hc
  simp only [List.mem_cons, List.not_mem_nil, or_false] at hmark
  rcases hmark with rfl | rfl | rfl <;> decide

theorem Marks.minFrac_le (fmt : List Char) : (Marks.of fmt).minFrac ≤ (Marks.of fmt).maxFrac :=
  List.countP_mono_left fun c _ hc => by rw [hc]; rfl

end

def Marks.decimals (m : Marks) (frac : List Char) : List Char :=
  Text.trimEnd (· == '0') frac ++ zeros (m.minFrac - (Text.trimEnd (· == '0') frac).length)

/-- Digits before the point filled up with zeros, where `written` stands for the digits. A lone zero is left
out if decimals follow and no digit is asked for. -/
def Marks.filled (m : Marks) (digits written decimals : List Char) : List Char :=
  if digits = ['0'] ∧ m.minWhole = 0 ∧ decimals ≠ [] then []
  else zeros (m.minWhole - digits.length) ++ written

def Marks.spaced (m : Marks) (digits : List Char) : List Char :=
  if m.grouped then group digits else digits

def Marks.text (m : Marks) (q : Decimal) : List Char :=
  let (digits, frac) := (magnitude q).positionalParts
  withSign q.isNegative
    (withPoint (m.filled digits (m.spaced digits) (m.decimals frac)) (m.decimals frac))

section

variable {m : Marks} {q : Decimal} {ds frac : List Char} {c : Char}

theorem trimEnd_append_zeros (ds : List Char) : ∃ k, ds = Text.trimEnd (· == '0') ds ++ zeros k := by
  have hsplit : Text.trimEnd (· == '0') ds ++ ds.rtakeWhile (· == '0') = ds := List.rdropWhile_append_rtakeWhile
  refine ⟨(ds.rtakeWhile (· == '0')).length, ?_⟩
  conv_lhs => rw [← hsplit]
  congr 1
  exact List.eq_replicate_of_mem fun c hc => by simpa using List.mem_rtakeWhile_imp hc

theorem Marks.tenths_decimals (m : Marks) (ds : List Char) : tenths (m.decimals ds) = tenths ds := by
  obtain ⟨k, hk⟩ := trimEnd_append_zeros ds
  rw [Marks.decimals, tenths_append_zeros]
  conv_rhs => rw [hk, tenths_append_zeros]

theorem Marks.mem_decimals (hc : c ∈ ds) (hne : c ≠ '0') : c ∈ m.decimals ds := by
  obtain ⟨k, hk⟩ := trimEnd_append_zeros ds
  rw [hk] at hc
  rcases List.mem_append.mp hc with h | h
  · exact List.mem_append_left _ h
  · exact absurd (List.eq_of_mem_replicate h) hne

theorem Marks.isDigits_decimals (m : Marks) (h : Digits ds) : Digits (m.decimals ds) := by
  obtain ⟨k, hk⟩ := trimEnd_append_zeros ds
  refine Digits.append (fun c hc => h c ?_) (zeros_isDigits _)
  rw [hk]
  exact List.mem_append_left _ hc

theorem Marks.filter_spaced (m : Marks) (h : Digits ds) : (m.spaced ds).filter (· ≠ ',') = ds := by
  unfold Marks.spaced
  split
  · exact filter_group h.no_comma
  · exact List.filter_eq_self.mpr fun c hc => decide_eq_true (h.no_comma c hc)

theorem Marks.mem_spaced (m : Marks) (h : Digits ds) (hc : c ∈ ds) : c ∈ m.spaced ds := by
  rw [← m.filter_spaced h] at hc
  exact List.mem_of_mem_filter hc

theorem abs_value_pos (h : q.isNegative = true) : (magnitude q).value ≠ 0 := by
  have hne : q.value ≠ 0 := ((isNegative_iff q).mp h).ne
  intro hzero
  have hle := ((magnitude_spec q).2.2.bounds (abs_ne_zero.mpr hne) (by decide)).1
  rw [hzero, abs_zero] at hle
  exact absurd (ten_zpow_pos _) hle.not_gt

theorem exists_digit (h : q.isNegative = true) :
    ∃ c, c ≠ '0' ∧ (c ∈ (magnitude q).positionalParts.1 ∨ c ∈ (magnitude q).positionalParts.2) := by
  by_contra hall
  push Not at hall
  have hwhole : ofDigits (magnitude q).positionalParts.1 = 0 :=
    ofDigits_eq_zero fun c hc => by_contra fun hne => (hall c hne).1 hc
  have hfrac : ofDigits (magnitude q).positionalParts.2 = 0 :=
    ofDigits_eq_zero fun c hc => by_contra fun hne => (hall c hne).2 hc
  refine abs_value_pos h ?_
  rw [← numeral_value, ← abs_eq_zero, Numeral.abs_value_plain rfl, numeral_places, tenths, hfrac]
  change ((ofDigits (magnitude q).positionalParts.1 : Nat) : ℚ) + _ = 0
  rw [hwhole]
  simp

theorem withoutCommas_spaced (m : Marks) (h : Digits ds) : withoutCommas (m.spaced ds) = ds :=
  (withoutCommas_eq _).trans (m.filter_spaced h)

/-- The digits before the point as they are put together, a lone zero left out before zeros are filled in. -/
def Marks.kept (m : Marks) (digits : List Char) : List Char :=
  if withoutCommas (m.spaced digits) = ['0'] ∧ m.minWhole = 0 then [] else m.spaced digits

def Marks.body (m : Marks) (digits frac : List Char) : List Char :=
  withPoint (zeros (m.minWhole - (withoutCommas (m.kept digits)).length) ++ m.kept digits) (m.decimals frac)

theorem Marks.body_eq (m : Marks) (h : Digits ds) (frac : List Char) :
    m.decimals frac = [] ∧ m.body ds frac = [] ∧ m.filled ds (m.spaced ds) (m.decimals frac) = ['0'] ∨
      m.body ds frac = withPoint (m.filled ds (m.spaced ds) (m.decimals frac)) (m.decimals frac) ∧
        (ds ≠ [] → m.body ds frac ≠ []) := by
  have hspaced := withoutCommas_spaced m h
  rw [Marks.body, Marks.kept, hspaced, Marks.filled]
  generalize m.decimals frac = decimals
  by_cases hlone : ds = ['0'] ∧ m.minWhole = 0
  · obtain ⟨rfl, hmin⟩ := hlone
    rw [if_pos ⟨rfl, hmin⟩, hmin]
    cases decimals with
    | nil =>
        have hzero : m.spaced ['0'] = ['0'] := by
          unfold Marks.spaced
          split <;> rfl
        rw [hzero]
        exact .inl ⟨rfl, rfl, rfl⟩
    | cons d decimals => exact .inr ⟨rfl, fun _ h => (nomatch h)⟩
  · rw [if_neg hlone, if_neg fun h => hlone ⟨h.1, h.2.1⟩, hspaced]
    refine .inr ⟨rfl, fun hne hempty => hne ?_⟩
    unfold withPoint at hempty
    rw [← hspaced]
    split at hempty
    · rw [(List.append_eq_nil_iff.mp hempty).2]
      rfl
    · exact absurd (List.append_eq_nil_iff.mp hempty).2 (List.cons_ne_nil _ _)

theorem mem_withPoint {whole : List Char} (h : c ∈ whole ∨ c ∈ frac) : c ∈ withPoint whole frac := by
  unfold withPoint
  split
  · rename_i hempty
    rw [List.isEmpty_iff.mp hempty] at h
    exact h.resolve_right List.not_mem_nil
  · rcases h with h | h
    · exact List.mem_append_left _ h
    · exact List.mem_append_right _ (List.mem_cons_of_mem _ h)

def isShown (c : Char) : Bool := c != '0' && c != '.' && c != ','

theorem Marks.exists_shown (m : Marks) (h : q.isNegative = true) :
    ∃ c, isShown c = true ∧
      c ∈ withPoint (m.filled (magnitude q).positionalParts.1 (m.spaced (magnitude q).positionalParts.1)
        (m.decimals (magnitude q).positionalParts.2)) (m.decimals (magnitude q).positionalParts.2) := by
  obtain ⟨c, hc, hmem⟩ := exists_digit h
  obtain ⟨-, hwhole, hfrac⟩ := (magnitude q).positionalParts_digits
  refine ⟨c, ?_, mem_withPoint ?_⟩
  · have hdigit : isAsciiDigit c = true := hmem.elim (hwhole c) (hfrac c)
    have hpoint : c ≠ '.' := by
      rintro rfl
      cases hdigit
    have hcomma : c ≠ ',' := by
      rintro rfl
      cases hdigit
    simp [isShown, hc, hpoint, hcomma]
  · refine hmem.imp (fun hmem => ?_) fun hmem => m.mem_decimals hmem hc
    rw [Marks.filled, if_neg]
    · exact List.mem_append_right _ (m.mem_spaced hwhole hmem)
    · rintro ⟨hlone, -⟩
      rw [hlone, List.mem_singleton] at hmem
      exact hc hmem

def Marks.assembled (m : Marks) (q : Decimal) : List Char :=
  let (digits, frac) := (magnitude q).positionalParts
  let body := m.body digits frac
  let out := withSign (q.isNegative && body.any isShown) body
  if out.isEmpty then ['0'] else out

theorem Marks.assembled_eq (m : Marks) (q : Decimal) : m.assembled q = m.text q := by
  obtain ⟨hne, hdigits, -⟩ := (magnitude q).positionalParts_digits
  have hshown := m.exists_shown (q := q)
  unfold Marks.assembled Marks.text
  dsimp only
  rcases m.body_eq hdigits (magnitude q).positionalParts.2 with ⟨hdecimals, hbody, hfilled⟩ | ⟨hbody, hnonempty⟩
  · -- a negative number would show a digit
    have hpos : q.isNegative = false := by
      by_contra hneg
      obtain ⟨c, hc, hmem⟩ := hshown (Bool.not_eq_false _ ▸ hneg)
      rw [hfilled, hdecimals] at hmem
      obtain rfl := List.mem_singleton.mp hmem
      cases hc
    rw [hbody, hfilled, hdecimals, hpos]
    rfl
  · have hsign : (q.isNegative && (m.body (magnitude q).positionalParts.1 (magnitude q).positionalParts.2).any isShown) =
        q.isNegative := by
      cases hneg : q.isNegative with
      | false => rfl
      | true =>
          obtain ⟨c, hc, hmem⟩ := hshown hneg
          rw [Bool.true_and, List.any_eq_true]
          exact ⟨c, hbody ▸ hmem, hc⟩
    rw [hsign, ← hbody, if_neg]
    intro hempty
    have hnone := hnonempty hne
    unfold withSign at hempty
    split at hempty
    · cases hempty
    · exact hnone (List.isEmpty_iff.mp hempty)

theorem format_picture {fmt : List Char} (h : IsPicture fmt) {x : Number} (hx : x.isFinite = true) :
    x.format fmt NumberSymbols.invariant =
      (rounded x.toDecimal (Marks.of fmt).maxFrac).map (Marks.of fmt).text := by
  have hallowed : (fmt.any fun c => !"0#.,".toList.contains c) = false := by
    rw [List.any_eq_false]
    intro c hc
    have hmark := h.marks c hc
    simp only [List.mem_cons, List.not_mem_nil, or_false] at hmark
    rcases hmark with rfl | rfl | rfl | rfl <;> decide
  have hpictured : x.format fmt NumberSymbols.invariant = x.pictured fmt NumberSymbols.invariant := by
    cases fmt with
    | nil => exact absurd rfl h.ne
    | cons letter spec =>
        have hmark := h.marks letter List.mem_cons_self
        simp only [List.mem_cons, List.not_mem_nil, or_false] at hmark
        rw [format, hx]
        rcases hmark with rfl | rfl | rfl | rfl <;> rfl
  obtain ⟨rest, hbreak, hrest⟩ := breakOn_point fmt
  rw [hpictured, pictured, hallowed, hbreak]
  dsimp only
  rw [hrest, h.maxFrac_eq]
  cases rounded x.toDecimal (Marks.of fmt).maxFrac with
  | error e => rfl
  | ok q =>
      refine Eq.trans (b := .ok (NumberSymbols.invariant.localize ((Marks.of fmt).assembled q))) rfl ?_
      rw [localize_invariant, Marks.assembled_eq]
      rfl

theorem Marks.isDigits_filled (m : Marks) (h : Digits ds) (frac : List Char) : Digits (m.filled ds ds frac) := by
  unfold Marks.filled
  split
  · exact List.forall_mem_nil _
  · exact (zeros_isDigits _).append h

theorem Marks.filled_or_decimals (m : Marks) (hne : ds ≠ []) (decimals : List Char) :
    m.filled ds ds decimals ≠ [] ∨ decimals ≠ [] := by
  unfold Marks.filled
  split
  · rename_i hlone
    exact .inr hlone.2.2
  · exact .inl fun h => hne (List.append_eq_nil_iff.mp h).2

def Marks.numeral (m : Marks) (q : Decimal) : Numeral where
  sign := if q.isNegative then some '-' else none
  whole := m.filled (magnitude q).positionalParts.1 (magnitude q).positionalParts.1
    (m.decimals (magnitude q).positionalParts.2)
  fraction := if (m.decimals (magnitude q).positionalParts.2).isEmpty then none
    else some (m.decimals (magnitude q).positionalParts.2)
  exponent := none
  sign_mem := by
    intro c hc
    split at hc
    · cases hc
      rfl
    · cases hc
  whole_digits := m.isDigits_filled (magnitude q).positionalParts_digits.2.1 _
  fraction_digits := by
    intro ds hds
    split at hds
    · cases hds
    · cases hds
      exact m.isDigits_decimals (magnitude q).positionalParts_digits.2.2
  some_digit := by
    have h := m.filled_or_decimals (magnitude q).positionalParts_digits.1
      (m.decimals (magnitude q).positionalParts.2)
    cases hempty : m.decimals (magnitude q).positionalParts.2 with
    | nil =>
        rw [hempty] at h
        exact .inl (h.resolve_right fun h => h rfl)
    | cons d decimals => exact .inr (List.cons_ne_nil d decimals)

theorem Marks.numeral_places (m : Marks) (q : Decimal) :
    (m.numeral q).places = m.decimals (magnitude q).positionalParts.2 := by
  unfold Numeral.places Marks.numeral
  dsimp only
  split
  · rename_i hempty
    exact (List.isEmpty_iff.mp hempty).symm
  · rfl

theorem Marks.numeral_negative (m : Marks) (q : Decimal) : (m.numeral q).negative = q.isNegative := by
  change ((if q.isNegative then some '-' else none) == some '-') = q.isNegative
  cases q.isNegative <;> rfl

theorem ofDigits_filled (m : Marks) (ds decimals : List Char) : ofDigits (m.filled ds ds decimals) = ofDigits ds := by
  unfold Marks.filled
  split
  · rename_i hlone
    rw [hlone.1]
    rfl
  · rw [ofDigits_append, ofDigits_zeros, Nat.zero_mul, Nat.zero_add]

theorem Marks.abs_numeral_value (m : Marks) (q : Decimal) : |(m.numeral q).value| = |(magnitude q).value| := by
  rw [← numeral_value, Numeral.abs_value_plain rfl, Numeral.abs_value_plain rfl, Marks.numeral_places,
    m.tenths_decimals, Decimal.numeral_places]
  change ((ofDigits (m.filled _ _ _) : Nat) : ℚ) + _ = _
  rw [ofDigits_filled]
  rfl

theorem magnitude_value (q : Decimal) : |(magnitude q).value| = (magnitude q).value := by
  rw [abs_value, value, (magnitude_spec q).1]
  rfl

theorem Marks.numeral_value (m : Marks) (q : Decimal) :
    (m.numeral q).value = Double.signed q.isNegative (magnitude q).value := by
  rw [← magnitude_value, ← m.abs_numeral_value, Numeral.abs_value_plain rfl, Numeral.value_plain rfl,
    Marks.numeral_negative]

theorem Marks.text_eq (m : Marks) (q : Decimal) :
    m.text q = (m.numeral q).sign.toList ++ (m.filled (magnitude q).positionalParts.1
      (m.spaced (magnitude q).positionalParts.1) (m.decimals (magnitude q).positionalParts.2) ++
      fractionText (m.numeral q).fraction) := by
  have hparts : withPoint (m.filled (magnitude q).positionalParts.1 (m.spaced (magnitude q).positionalParts.1)
      (m.decimals (magnitude q).positionalParts.2)) (m.decimals (magnitude q).positionalParts.2) =
      m.filled (magnitude q).positionalParts.1 (m.spaced (magnitude q).positionalParts.1)
        (m.decimals (magnitude q).positionalParts.2) ++ fractionText (m.numeral q).fraction := by
    unfold withPoint Marks.numeral
    dsimp only
    split
    · exact (List.append_nil _).symm
    · rfl
  unfold Marks.text
  dsimp only
  rw [hparts]
  unfold withSign Marks.numeral
  dsimp only
  cases q.isNegative <;> rfl

theorem filter_filled (m : Marks) (h : Digits ds) (decimals : List Char) :
    (m.filled ds (m.spaced ds) decimals).filter (· ≠ ',') = m.filled ds ds decimals := by
  unfold Marks.filled
  split
  · rfl
  · rw [List.filter_append, m.filter_spaced h]
    exact congrArg (· ++ ds) (List.filter_eq_self.mpr fun c hc =>
      decide_eq_true ((zeros_isDigits _).no_comma c hc))

theorem Marks.filter_text (m : Marks) (q : Decimal) : (m.text q).filter (· ≠ ',') = (m.numeral q).text := by
  obtain ⟨-, hdigits, -⟩ := (magnitude q).positionalParts_digits
  have hsign : (m.numeral q).sign.toList.filter (· ≠ ',') = (m.numeral q).sign.toList := by
    unfold Marks.numeral
    dsimp only
    cases q.isNegative <;> rfl
  have hfraction : (fractionText (m.numeral q).fraction).filter (· ≠ ',') = fractionText (m.numeral q).fraction := by
    cases hf : (m.numeral q).fraction with
    | none => rfl
    | some ds =>
        refine List.filter_eq_self.mpr fun c hc => decide_eq_true ?_
        rcases List.mem_cons.mp hc with rfl | hc
        · decide
        · exact ((m.numeral q).fraction_digits ds hf).no_comma c hc
  rw [Marks.text_eq, List.filter_append, List.filter_append, hsign, hfraction, filter_filled m hdigits]
  exact (Numeral.text_plain rfl).symm

/-- What a picture makes of a rounded number `y`: enough whole digits, decimals between the two bounds with no
needless zero at the end, a minus sign for a negative number, and the value within the working precision. -/
structure Numeral.Pictures (n : Numeral) (m : Marks) (y : ℚ) : Prop where
  sign : n.sign = if y < 0 then some '-' else none
  le_whole : m.minWhole ≤ n.whole.length
  le_places : m.minFrac ≤ n.places.length
  places_le : n.places.length ≤ m.maxFrac
  trimmed : n.places.getLast? = some '0' → n.places.length = m.minFrac
  plain : n.exponent = none
  nearest : Significant .toEven working y n.value
  exact : n.value = y ↔ Fits working y

theorem Marks.le_filled (m : Marks) (ds decimals : List Char) :
    m.minWhole ≤ (m.filled ds ds decimals).length := by
  unfold Marks.filled
  split
  · rename_i hlone
    exact hlone.2.1.le
  · rw [List.length_append, zeros, List.length_replicate]
    omega

theorem Marks.le_decimals (m : Marks) (ds : List Char) : m.minFrac ≤ (m.decimals ds).length := by
  rw [Marks.decimals, List.length_append, zeros, List.length_replicate]
  omega

theorem Marks.decimals_le (m : Marks) (h : m.minFrac ≤ m.maxFrac) (hds : ds.length ≤ m.maxFrac) :
    (m.decimals ds).length ≤ m.maxFrac := by
  obtain ⟨k, hk⟩ := trimEnd_append_zeros ds
  have hlen := congrArg List.length hk
  rw [List.length_append] at hlen
  rw [Marks.decimals, List.length_append, zeros, List.length_replicate]
  omega

theorem Marks.decimals_trimmed (m : Marks) (h : (m.decimals ds).getLast? = some '0') :
    (m.decimals ds).length = m.minFrac := by
  have hstops := stops_dropWhile (· == '0') ds.reverse
  rw [← List.reverse_reverse (ds.reverse.dropWhile _)] at hstops
  change Stops _ (Text.trimEnd (· == '0') ds).reverse at hstops
  unfold Marks.decimals at h ⊢
  generalize Text.trimEnd (· == '0') ds = kept at h hstops ⊢
  rw [List.length_append, zeros, List.length_replicate]
  rcases Nat.lt_or_ge kept.length m.minFrac with hlt | hge
  · omega
  · rw [Nat.sub_eq_zero_of_le hge, zeros, List.replicate_zero, List.append_nil] at h
    rw [← List.head?_reverse] at h
    exact absurd (hstops '0' h) (by decide)

theorem signed_isNegative (q : Decimal) : q.value = Double.signed q.isNegative |q.value| := by
  have hneg := isNegative_iff q
  unfold Double.signed
  split
  · rename_i h
    rw [abs_of_neg (hneg.mp h), neg_neg]
  · rename_i h
    exact (abs_of_nonneg (not_lt.mp (mt hneg.mpr h))).symm

theorem Marks.numeral_pictures (m : Marks) (hq : q.exp = -m.maxFrac) (hm : m.minFrac ≤ m.maxFrac) :
    (m.numeral q).Pictures m q.value := by
  obtain ⟨-, hdigits, hmagnitude⟩ := magnitude_spec q
  have hnearest : Significant .toEven working q.value (m.numeral q).value := by
    rw [m.numeral_value, signed_isNegative q]
    exact hmagnitude.signed _
  have hplaces := m.numeral_places q
  refine ⟨?_, m.le_filled _ _, ?_, ?_, ?_, rfl, hnearest, fun h => ?_, hnearest.eq_of_fits⟩
  · simp only [← isNegative_iff]
    rfl
  · rw [hplaces]
    exact m.le_decimals _
  · have hle := (magnitude_abridges hq).places_le
    rw [Decimal.numeral_places] at hle
    rw [hplaces]
    exact m.decimals_le hm hle
  · rw [hplaces]
    exact m.decimals_trimmed
  · rw [← h, m.numeral_value]
    exact (fits_of_numDigits hdigits).signed _

theorem Marks.head?_text (m : Marks) (q : Decimal) : (m.text q).head? = some '-' ↔ q.value < 0 := by
  rw [← isNegative_iff]
  constructor
  · intro hhead
    obtain ⟨rest, hrest⟩ := List.head?_eq_some_iff.mp hhead
    have hfilter := m.filter_text q
    rw [hrest, List.filter_cons_of_pos (by decide)] at hfilter
    have hstops := (m.numeral q).stops_sign
    cases hneg : q.isNegative with
    | true => rfl
    | false =>
        have hunsigned : (m.numeral q).sign = none := if_neg (ne_true_of_eq_false hneg)
        rw [Numeral.text, hunsigned] at hfilter
        rw [← List.nil_append (_ ++ _), ← Option.toList_none, ← hfilter] at hstops
        exact absurd (hstops '-' rfl) (by decide)
  · intro hneg
    have hsign : (m.numeral q).sign = some '-' := if_pos hneg
    rw [m.text_eq, hsign]
    rfl

theorem Marks.floor_numeral (m : Marks) (q : Decimal) :
    digits ⌊|(m.numeral q).value|⌋₊ = (magnitude q).positionalParts.1 := by
  have hpositional := numeral_positional (magnitude q)
  have hwhole : ofDigits (m.numeral q).whole = ofDigits (magnitude q).positionalParts.1 := ofDigits_filled _ _ _
  rw [Numeral.floor_value rfl, hwhole]
  exact (eq_digits (magnitude q).positionalParts_digits.2.1 hpositional.whole_ne hpositional.lead).symm

end

end Number

namespace Session

open Library

variable {s : Session} {provider : Value} {x : Number} {fmt : List Char}

/-- The text of a number by a picture in the invariant culture. The number is rounded half away from zero to
as many decimals as the picture allows, and its text denotes that within the working precision: exactly where
that many digits are enough, and always for a double. -/
theorem pictured_formats_spec (hx : x.isFinite = true)
    (hsymbols : s.symbolsOf provider = .ok NumberSymbols.invariant) (hfmt : IsPicture fmt) :
    (widestShift < (Marks.of fmt).maxFrac ∨ Overflows x.toDecimal (Marks.of fmt).maxFrac) ∧
      s.exec (Catalogue.call "format_number" [x.toValue, .text fmt, provider]) = (.error (.misuse .tooWide), s) ∨
    ¬(widestShift < (Marks.of fmt).maxFrac ∨ Overflows x.toDecimal (Marks.of fmt).maxFrac) ∧
      ∃ (y : ℚ) (n : Numeral) (t : List Char),
        RoundsTo .awayFromZero (Marks.of fmt).maxFrac x.toDecimal.value y ∧ n.Pictures (Marks.of fmt) y ∧
        (∀ d, x = .double d → n.value = y) ∧ t.filter (· ≠ ',') = n.text ∧ (t.head? = some '-' ↔ y < 0) ∧
        s.exec (Catalogue.call "format_number" [x.toValue, .text fmt, provider]) = (.ok (.text t), s) := by
  have hrun := exec_format hsymbols x fmt
  rw [format_picture hfmt hx] at hrun
  obtain ⟨hover, hq⟩ | ⟨hover, hq⟩ := rounded_cases x.toDecimal (Marks.of fmt).maxFrac
  · rw [hq] at hrun
    exact .inl ⟨hover, hrun⟩
  · have hrounds := roundsTo_rescale .awayFromZero x.toDecimal (-(Marks.of fmt).maxFrac)
    have hexp := rescale_exp .awayFromZero x.toDecimal (-(Marks.of fmt).maxFrac)
    rw [hq] at hrun
    rw [neg_neg] at hrounds
    have hpictures := (Marks.of fmt).numeral_pictures hexp (Marks.minFrac_le fmt)
    refine .inr ⟨hover, _, _, _, hrounds, hpictures, ?_, Marks.filter_text _ _, Marks.head?_text _ _, hrun⟩
    rintro d rfl
    exact hpictures.exact.mpr (hrounds.fits (d.fits_toDecimal.mono (by decide)) (by decide))

/-- A negative integer with groups and two decimals. -/
theorem pictured_formats_spec_grouped :
    ∃ (y : ℚ) (n : Numeral) (t : List Char),
      RoundsTo .awayFromZero (Marks.of "#,##0.00".toList).maxFrac (Number.int (-1234567)).toDecimal.value y ∧
      n.Pictures (Marks.of "#,##0.00".toList) y ∧ (∀ d, Number.int (-1234567) = .double d → n.value = y) ∧
      t.filter (· ≠ ',') = n.text ∧ (t.head? = some '-' ↔ y < 0) ∧
      (start 0).exec (Catalogue.call "format_number" [.int (-1234567), .text "#,##0.00".toList, .null]) =
        (.ok (.text t), start 0) := by
  have hfmt : IsPicture "#,##0.00".toList := by decide
  have hnarrow : ¬(widestShift < (Marks.of "#,##0.00".toList).maxFrac ∨
      Overflows (Number.int (-1234567)).toDecimal (Marks.of "#,##0.00".toList).maxFrac) := by
    rintro (hfar | hover)
    · exact absurd hfar (by decide)
    · rw [← round?_eq_none_iff] at hover
      exact absurd hover (by decide +kernel)
  have hsymbols : (start 0).symbolsOf .null = .ok NumberSymbols.invariant := rfl
  exact ((pictured_formats_spec (x := .int (-1234567)) rfl hsymbols hfmt).resolve_left fun h => hnarrow h.1).2

/-- An integer of 29 digits loses its last digit with a picture of no decimals, to which it needs no rounding. -/
theorem picture_loses_digit :
    (start 0).exec (Catalogue.call "format_number" [.int 12345678901234567890123456789, .text ['0']]) =
      (.ok (.text "12345678901234567890123456790".toList), start 0) := by
  have hsymbols : (start 0).symbolsOf .null = .ok NumberSymbols.invariant := rfl
  have hformat : Number.format (.int 12345678901234567890123456789) ['0'] NumberSymbols.invariant =
      .ok "12345678901234567890123456790".toList := by
    decide +kernel
  exact (exec_format hsymbols (.int 12345678901234567890123456789) ['0']).trans (by rw [hformat]; rfl)

/-- The whole digits of a number by a picture with a comma before the point. The digits of its whole part are
in groups of three from the right, but the zeros filled in before them are not, so that the whole digits are in
groups exactly if the zeros leave the number of groups as it is. -/
theorem pictured_groups_spec {t : List Char} (hx : x.isFinite = true)
    (hsymbols : s.symbolsOf provider = .ok NumberSymbols.invariant) (hfmt : IsPicture fmt)
    (hcomma : ',' ∈ wholeMarks fmt)
    (hrun : s.exec (Catalogue.call "format_number" [x.toValue, .text fmt, provider]) = (.ok (.text t), s)) :
    ∃ n : Numeral, t.filter (· ≠ ',') = n.text ∧ (n.whole = [] ∧ t = n.text ∨
      ∃ (ds filling g : List Char), ds = digits ⌊|n.value|⌋₊ ∧
        filling = zeros ((wholeMarks fmt).count '0' - ds.length) ∧ n.whole = filling ++ ds ∧ Grouping ds g ∧
        t = n.sign.toList ++ (filling ++ g ++ fractionText n.fraction) ∧
        (n.Grouped t ↔ (n.whole.length - 1) / 3 = (ds.length - 1) / 3)) := by
  rw [exec_format hsymbols x fmt, format_picture hfmt hx] at hrun
  obtain ⟨-, hq⟩ | ⟨-, hq⟩ := rounded_cases x.toDecimal (Marks.of fmt).maxFrac
  · rw [hq] at hrun
    cases hrun
  rw [hq] at hrun
  generalize x.toDecimal.rescale .awayFromZero (-(Marks.of fmt).maxFrac) = q at hrun
  obtain rfl : (Marks.of fmt).text q = t := by
    injection hrun with hresult
    injection hresult with hvalue
    injection hvalue
  refine ⟨(Marks.of fmt).numeral q, Marks.filter_text _ _, ?_⟩
  obtain ⟨hne, hdigits, -⟩ := (magnitude q).positionalParts_digits
  have htext := (Marks.of fmt).text_eq q
  have hfloor := (Marks.of fmt).floor_numeral q
  have hwhole : ((Marks.of fmt).numeral q).whole = (Marks.of fmt).filled (magnitude q).positionalParts.1
    (magnitude q).positionalParts.1 ((Marks.of fmt).decimals (magnitude q).positionalParts.2) := rfl
  have hspaced : (Marks.of fmt).spaced (magnitude q).positionalParts.1 = group (magnitude q).positionalParts.1 :=
    if_pos (List.contains_iff_mem.mpr hcomma)
  rw [hspaced] at htext
  unfold Marks.filled at htext hwhole
  split at htext
  · rename_i hlone
    rw [if_pos hlone] at hwhole
    refine .inl ⟨hwhole, ?_⟩
    rw [htext, Numeral.text_plain rfl, hwhole]
  · rename_i hkept
    rw [if_neg hkept] at hwhole
    rw [← hfloor] at htext hwhole hne hdigits
    have hgrouping := grouping_group hne
    refine .inr ⟨_, _, _, rfl, rfl, hwhole, hgrouping, htext, ?_⟩
    rw [hwhole, ← hgrouping.zeros_iff hdigits, Numeral.Grouped, htext, ← hwhole]
    constructor
    · rintro ⟨text, htext, heq⟩
      rw [List.append_cancel_right (List.append_cancel_left heq)]
      exact htext
    · exact fun h => ⟨_, h, rfl⟩

/-- Seven digits before the point, in three groups. -/
theorem pictured_groups_spec_wide :
    ∃ n : Numeral, "1,234,567.50".toList.filter (· ≠ ',') = n.text ∧ (n.whole = [] ∧ "1,234,567.50".toList = n.text ∨
      ∃ (ds filling g : List Char), ds = digits ⌊|n.value|⌋₊ ∧
        filling = zeros ((wholeMarks "#,##0.00".toList).count '0' - ds.length) ∧ n.whole = filling ++ ds ∧
        Grouping ds g ∧ "1,234,567.50".toList = n.sign.toList ++ (filling ++ g ++ fractionText n.fraction) ∧
        (n.Grouped "1,234,567.50".toList ↔ (n.whole.length - 1) / 3 = (ds.length - 1) / 3)) := by
  have hsymbols : (start 0).symbolsOf .null = .ok NumberSymbols.invariant := rfl
  have hformat : Number.format (.double (.ofRatio false 12345675 10)) "#,##0.00".toList NumberSymbols.invariant =
      .ok "1,234,567.50".toList := by
    decide +kernel
  exact pictured_groups_spec (x := .double (.ofRatio false 12345675 10)) (by decide +kernel) hsymbols
    (by decide) (by decide)
    ((exec_format hsymbols (.double (.ofRatio false 12345675 10)) _).trans (by rw [hformat]; rfl))

/-- Four whole digits, three of them zeros that are filled in, without a comma. -/
theorem filled_zeros_ungrouped :
    (start 0).exec (Catalogue.call "format_number" [.int 7, .text "0,000".toList]) =
        (.ok (.text "0007".toList), start 0) ∧
      ∀ n : Numeral, n.text = "0007".toList → ¬n.Grouped "0007".toList := by
  have hsymbols : (start 0).symbolsOf .null = .ok NumberSymbols.invariant := rfl
  have hformat : Number.format (.int 7) "0,000".toList NumberSymbols.invariant = .ok "0007".toList := by
    decide +kernel
  refine ⟨(exec_format hsymbols (.int 7) _).trans (by rw [hformat]; rfl), ?_⟩
  rintro n htext ⟨whole, hgrouping, hwhole⟩
  have hparts : some n.parts = some ⟨none, "0007".toList, none, none⟩ := by
    rw [← readParts?_text, htext]
    rfl
  injection hparts with hparts
  have hsign : n.sign = none := congrArg Parts.sign hparts
  have hdigits : n.whole = "0007".toList := congrArg Parts.whole hparts
  have hfraction : n.fraction = none := congrArg Parts.fraction hparts
  have hcount := hgrouping.count_comma n.whole_digits
  rw [hsign, hfraction, Option.toList_none, List.nil_append, fractionText, List.append_nil] at hwhole
  rw [← hwhole, hdigits] at hcount
  exact absurd hcount (by decide)

end Session

end BaseLib
