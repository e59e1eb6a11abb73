import BaseLib.Calendar.DateTime
import BaseLib.Proofs.Calendar.Civil
import Mathlib.Data.List.Lex
import Mathlib.Tactic.LinearCombination
import Mathlib.Tactic.Ring
import Mathlib.Tactic.Zify

namespace BaseLib.DateTime

namespace Fields

variable {f g : Fields}

def list (f : Fields) : List Int :=
  [f.year, f.month, f.day, f.hour, f.minute, f.second, f.millisecond]

theorem list_inj (h : f.list = g.list) : f = g := by
  obtain ⟨y, m, d, h', mi, s, ms⟩ := f
  obtain ⟨y', m', d', h'', mi', s', ms'⟩ := g
  simpa [list] using h

/-- A date of the calendar in the years 1 to 9999 with a time of day. -/
def Proper (f : Fields) : Prop := f.Valid ∧ 0 ≤ f.millisecond ∧ f.millisecond < 1000

instance (f : Fields) : Decidable f.Proper := inferInstanceAs (Decidable (_ ∧ _))

def clock (f : Fields) : Int :=
  (f.hour * 3600 + f.minute * 60 + f.second) * 10000000 + f.millisecond * 10000

theorem ticks_eq (f : Fields) : f.ticks = f.civil.toDays * 864000000000 + f.clock := by
  simp only [ticks, clock, TimeSpan.perSecond, TimeSpan.perMillisecond]
  ring

theorem ticks_mod (f : Fields) : f.ticks % 10000 = 0 := by
  simp only [ticks, TimeSpan.perSecond, TimeSpan.perMillisecond]
  omega

namespace Proper

theorem civil (h : f.Proper) : f.civil.Proper := ((Civil.valid_iff _).mp h.1.1.2.2.2).1

theorem inRange (h : f.Proper) : ∀ n ∈ f.list, Word.InRange n := by
  have hday := (Civil.monthLength_bounds f.civil.year h.civil.2.1.1 h.civil.2.1.2).2
  obtain ⟨⟨⟨hy, hm, hd, hyear, hmonth, hd'⟩, hh, hmi, hs⟩, hms⟩ := h
  simp only [list, List.mem_cons, List.not_mem_nil, or_false, forall_eq_or_imp, forall_eq, Word.InRange,
    Word.minValue, Word.maxValue]
  simp only [Fields.civil] at hday hyear hmonth hd'
  omega

theorem clock_bounds (h : f.Proper) : 0 ≤ f.clock ∧ f.clock < 864000000000 := by
  obtain ⟨⟨-, hh, hm, hs⟩, hms⟩ := h
  unfold clock
  omega

theorem toDays_lt (h : f.Proper) : f.civil.toDays < 3652059 :=
  (Civil.toDays_lt_iff_year h.civil).mpr ((Civil.valid_iff _).mp h.1.1.2.2.2).2

theorem ticks_bounds (h : f.Proper) : 0 ≤ f.ticks ∧ f.ticks ≤ maxTicks := by
  have hdays := h.toDays_lt
  have hclock := h.clock_bounds
  rw [ticks_eq, maxTicks]
  omega

theorem before_of_lt (hf : f.Proper) (hg : g.Proper) (h : f.list < g.list) :
    f.civil.Before g.civil ∨ f.civil = g.civil ∧ f.clock < g.clock := by
  obtain ⟨⟨⟨hy, hm, hd, -⟩, hh, hmi, hs⟩, hms⟩ := hf
  obtain ⟨⟨⟨hy', hm', hd', -⟩, hh', hmi', hs'⟩, hms'⟩ := hg
  simp only [list, List.cons_lt_cons_iff, List.not_lt_nil, and_false, or_false] at h
  simp only [Civil.Before, Fields.civil, Civil.mk.injEq, clock]
  omega

theorem ticks_lt (hf : f.Proper) (hg : g.Proper) (h : f.list < g.list) : f.ticks < g.ticks := by
  have hclock := hf.clock_bounds
  have hclock' := hg.clock_bounds
  rw [ticks_eq, ticks_eq]
  obtain hbefore | ⟨heq, hlt⟩ := before_of_lt hf hg h
  · have := Civil.toDays_lt hf.civil hg.civil hbefore
    omega
  · rw [heq]
    omega

theorem ticks_lt_iff (hf : f.Proper) (hg : g.Proper) : f.ticks < g.ticks ↔ f.list < g.list := by
  refine ⟨fun h => ?_, ticks_lt hf hg⟩
  obtain hlt | heq | hlt := lt_trichotomy f.list g.list
  · exact hlt
  · exact absurd h (list_inj heq ▸ Int.lt_irrefl _)
  · exact absurd h (Int.not_lt.mpr (Int.le_of_lt (ticks_lt hg hf hlt)))

theorem ticks_inj (hf : f.Proper) (hg : g.Proper) (h : f.ticks = g.ticks) : f = g := by
  obtain hlt | heq | hlt := lt_trichotomy f.list g.list
  · exact absurd h (Int.ne_of_lt (ticks_lt hf hg hlt))
  · exact list_inj heq
  · exact absurd h (Int.ne_of_gt (ticks_lt hg hf hlt))

end Proper

end Fields

variable {f : Fields} {k : DateTimeKind}

theorem ofTicks_eq {n : Int} (h : 0 ≤ n ∧ n ≤ maxTicks) (k : DateTimeKind) :
    ∃ d, ofTicks n k = .ok d ∧ (d.ticks : Int) = n ∧ d.kind = k :=
  ⟨_, dif_pos h, Int.toNat_of_nonneg h.1, rfl⟩

theorem ofFields_eq (h : f.Proper) (k : DateTimeKind) :
    ∃ d, ofFields f k = .ok d ∧ (d.ticks : Int) = f.ticks ∧ d.kind = k := by
  have hms : ¬ (f.millisecond < 0 ∨ 1000 ≤ f.millisecond) := by
    have := h.2
    omega
  obtain ⟨d, hd, hdticks⟩ := ofTicks_eq h.ticks_bounds k
  refine ⟨d, ?_, hdticks⟩
  rw [ofFields, if_neg hms, if_pos h.1, hd]
  rfl

theorem ofFields_error (h : ¬ f.Proper) (k : DateTimeKind) :
    ∃ e, ofFields f k = .error e ∧ e.kind = .argumentOutOfRange := by
  unfold ofFields
  split
  · exact ⟨_, rfl, rfl⟩
  · rename_i hms
    rw [if_neg fun hv => h ⟨hv, by omega⟩]
    exact ⟨_, rfl, rfl⟩

def fields (d : DateTime) : Fields :=
  ⟨d.civil.year, d.civil.month, d.civil.day, d.hour, d.minute, d.second, d.millisecond⟩

theorem civil_proper (d : DateTime) : d.civil.Proper := (Civil.ofDays_spec _).1

theorem toDays_civil (d : DateTime) : d.civil.toDays = d.ticks / TimeSpan.perDay :=
  (Civil.ofDays_spec _).2

theorem civil_mk (c : Civil) (h m s ms : Int) : (⟨c.year, c.month, c.day, h, m, s, ms⟩ : Fields).civil = c := rfl

theorem civil_fields (d : DateTime) : d.fields.civil = d.civil := civil_mk d.civil _ _ _ _

theorem civil_valid (d : DateTime) : d.civil.Valid := by
  have hdays : d.civil.toDays < 3652059 := by
    rw [toDays_civil]
    exact Nat.div_lt_of_lt_mul (Nat.lt_succ_of_le d.ticks_le)
  rw [Civil.valid_iff, ← Civil.toDays_lt_iff_year d.civil_proper]
  exact ⟨d.civil_proper, hdays⟩

theorem fields_proper (d : DateTime) : d.fields.Proper := by
  have hhour : d.hour < 24 := Nat.div_lt_of_lt_mul (Nat.mod_lt _ (by decide))
  have hminute : d.minute < 60 := Nat.div_lt_of_lt_mul (Nat.mod_lt _ (by decide))
  have hsecond : d.second < 60 := Nat.div_lt_of_lt_mul (Nat.mod_lt _ (by decide))
  have hmillisecond : d.millisecond < 1000 := Nat.div_lt_of_lt_mul (Nat.mod_lt _ (by decide))
  have hvalid : d.fields.civil.Valid := d.civil_fields ▸ d.civil_valid
  refine ⟨⟨⟨?_, ?_, ?_, hvalid⟩, ?_, ?_, ?_⟩, ?_⟩ <;> dsimp only [fields] <;> omega

theorem mod_split (t : Nat) {unit part : Nat} (h : part ∣ unit) :
    part * (t % unit / part) + t % part = t % unit := by
  rw [← Nat.mod_mod_of_dvd t h]
  exact Nat.div_add_mod _ _

theorem ticks_fields (d : DateTime) : d.fields.ticks = d.ticks - d.ticks % 10000 := by
  -- What one unit leaves is split by the next smaller one, so the five equations add up.
  have hday := Nat.div_add_mod d.ticks TimeSpan.perDay
  have hhour := mod_split d.ticks (show TimeSpan.perHour ∣ TimeSpan.perDay by decide)
  have hminute := mod_split d.ticks (show TimeSpan.perMinute ∣ TimeSpan.perHour by decide)
  have hsecond := mod_split d.ticks (show TimeSpan.perSecond ∣ TimeSpan.perMinute by decide)
  have hmillisecond := mod_split d.ticks (show TimeSpan.perMillisecond ∣ TimeSpan.perSecond by decide)
  rw [← toDays_civil] at hday
  rw [← hour] at hhour
  rw [← minute] at hminute
  rw [← second] at hsecond
  rw [← millisecond] at hmillisecond
  zify at hday hhour hminute hsecond hmillisecond
  simp only [TimeSpan.perDay, TimeSpan.perHour, TimeSpan.perMinute, TimeSpan.perSecond,
    TimeSpan.perMillisecond] at hday hhour hminute hsecond hmillisecond
  rw [Fields.ticks_eq, Fields.clock, civil_fields]
  dsimp only [fields]
  linear_combination hday + hhour + hminute + hsecond + hmillisecond

theorem fields_eq {d : DateTime} (h : f.Proper) (hd : (d.ticks : Int) = f.ticks) : d.fields = f := by
  refine d.fields_proper.ticks_inj h ?_
  have := f.ticks_mod
  rw [ticks_fields]
  omega

def newYear (year : Int) : Fields := ⟨year, 1, 1, 0, 0, 0, 0⟩

theorem newYear_proper {year : Nat} (h : 1 ≤ year ∧ year ≤ 9999) : (newYear year).Proper := by
  have hday := (Civil.monthLength_bounds year (Nat.le_refl 1) (by decide)).1
  simpa [Fields.Proper, Fields.Valid, Civil.Valid, Fields.civil, newYear, hday] using h

theorem newYear_ticks (year : Nat) :
    (newYear year).ticks = (Civil.daysBeforeYear year * TimeSpan.perDay : Nat) := by
  have hfirst : Civil.daysBeforeMonth year 1 = 0 := rfl
  simp [Fields.ticks_eq, Fields.clock, Fields.civil, newYear, Civil.toDays, hfirst, TimeSpan.perDay]

theorem dayOfYear_eq (d : DateTime) :
    Civil.daysBeforeYear d.civil.year + d.dayOfYear = d.ticks / TimeSpan.perDay + 1 := by
  have hday := d.civil_proper.2.2.1
  rw [← toDays_civil, dayOfYear, Civil.dayOfYear, Civil.toDays]
  omega

theorem date_ticks (d : DateTime) : d.date.ticks = d.ticks / TimeSpan.perDay * TimeSpan.perDay := by
  have := Nat.div_add_mod' d.ticks TimeSpan.perDay
  dsimp only [date]
  omega

theorem dayOfYear_spec {e : DateTime} (d : DateTime)
    (he : (e.ticks : Int) = (newYear d.civil.year).ticks) :
    d.date.ticks = e.ticks + (d.dayOfYear - 1) * TimeSpan.perDay ∧ 1 ≤ d.dayOfYear := by
  have heq := d.dayOfYear_eq
  have hday : 1 ≤ d.dayOfYear := Nat.le_trans d.civil_proper.2.2.1 (Nat.le_add_left _ _)
  have hticks : e.ticks = Civil.daysBeforeYear d.civil.year * TimeSpan.perDay := by
    rw [newYear_ticks] at he
    exact Int.ofNat.inj he
  refine ⟨?_, hday⟩
  rw [date_ticks, hticks, ← Nat.add_mul]
  congr 1
  omega

end BaseLib.DateTime
