import BaseLib.Calendar.Civil
import Mathlib.Algebra.BigOperators.Group.List.Basic
import Mathlib.Algebra.Order.Group.Nat
import Mathlib.Data.Nat.Init
import Mathlib.Tactic.IntervalCases
import Mathlib.Tactic.Tauto

namespace BaseLib.Civil

def yearLength (year : Nat) : Nat := if isLeap year then 366 else 365

theorem isLeap_iff (year : Nat) :
    isLeap year = true ↔ 4 ∣ year ∧ (¬ 100 ∣ year ∨ 400 ∣ year) := by
  simp [isLeap, Nat.dvd_iff_mod_eq_zero]

theorem daysBeforeYear_succ {year : Nat} (h : 1 ≤ year) :
    daysBeforeYear (year + 1) = daysBeforeYear year + yearLength year := by
  obtain ⟨y, rfl⟩ : ∃ y, year = y + 1 := ⟨year - 1, by omega⟩
  have hundred : 400 ∣ y + 1 → 100 ∣ y + 1 := Nat.dvd_trans (by decide)
  have four : 100 ∣ y + 1 → 4 ∣ y + 1 := Nat.dvd_trans (by decide)
  have hle : y / 100 ≤ y / 4 := Nat.div_le_div_left (by decide) (by decide)
  simp only [daysBeforeYear, yearLength, isLeap_iff, Nat.add_sub_cancel, Nat.succ_div]
  by_cases h4 : 4 ∣ y + 1
  · by_cases h100 : 100 ∣ y + 1
    · by_cases h400 : 400 ∣ y + 1
      · simp only [h4, h100, h400, if_true, not_true, or_true, and_self]
        omega
      · simp only [h4, h100, h400, if_true, if_false, not_true, or_false, and_false]
        omega
    · have h400 := mt hundred h100
      simp only [h4, h100, h400, if_true, if_false, not_false_iff, true_or, and_self]
      omega
  · have h100 := mt four h4
    have h400 := mt hundred h100
    simp only [h4, h100, h400, if_false, false_and]
    omega

theorem daysBeforeYear_le {year later : Nat} (h : 1 ≤ year) (hlt : year < later) :
    daysBeforeYear year + yearLength year ≤ daysBeforeYear later := by
  induction later, hlt using Nat.le_induction with
  | base => exact Nat.le_of_eq (daysBeforeYear_succ h).symm
  | succ later hle ih =>
      rw [daysBeforeYear_succ (by omega)]
      omega

variable {month n : Nat}

theorem length_monthLengths (leap : Bool) : (monthLengths leap).length = 12 := rfl

theorem daysBeforeMonth_eq (year month : Nat) :
    daysBeforeMonth year month = ((monthLengths (isLeap year)).take (month - 1)).sum :=
  List.sum_eq_foldl.symm

theorem sum_monthLengths (year : Nat) : (monthLengths (isLeap year)).sum = yearLength year := by
  unfold yearLength
  cases isLeap year <;> rfl

theorem daysBeforeMonth_succ (year : Nat) (h : 1 ≤ month) (h' : month ≤ 12) :
    daysBeforeMonth year (month + 1) = daysBeforeMonth year month + monthLength year month := by
  have hlt : month - 1 < (monthLengths (isLeap year)).length := by
    rw [length_monthLengths]
    omega
  rw [daysBeforeMonth_eq, daysBeforeMonth_eq, monthLength, List.getD_eq_getElem?_getD,
    List.getElem?_eq_getElem hlt, Option.getD_some, ← List.sum_take_succ _ _ hlt]
  congr 2
  omega

theorem daysBeforeMonth_thirteen (year : Nat) : daysBeforeMonth year 13 = yearLength year := by
  rw [daysBeforeMonth_eq, List.take_of_length_le (Nat.le_of_eq (length_monthLengths _)),
    sum_monthLengths]

theorem daysBeforeMonth_le (year : Nat) {later : Nat} (h : 1 ≤ month) (hlt : month < later) (h' : later ≤ 13) :
    daysBeforeMonth year month + monthLength year month ≤ daysBeforeMonth year later := by
  induction later, hlt using Nat.le_induction with
  | base => exact Nat.le_of_eq (daysBeforeMonth_succ year h (by omega)).symm
  | succ later hle ih =>
      rw [daysBeforeMonth_succ year (by omega) (by omega)]
      have := ih (by omega)
      omega

theorem findMonth_eq {lengths : List Nat} (month : Nat) (h : n < lengths.sum) :
    ∃ k r, findMonth lengths month n = (month + k, r) ∧ k < lengths.length ∧
      (lengths.take k).sum + r = n ∧ r < lengths.getD k 0 := by
  induction lengths generalizing month n with
  | nil => simp at h
  | cons length rest ih =>
      unfold findMonth
      split
      · exact ⟨0, n, rfl, by simp, by simp, by simpa⟩
      · rename_i hn
        rw [List.sum_cons] at h
        obtain ⟨k, r, hfind, hk, hsum, hr⟩ := ih (month + 1) (n := n - length) (by omega)
        refine ⟨k + 1, r, ?_, by simpa using hk, ?_, by simpa using hr⟩
        · rw [hfind, Nat.add_assoc, Nat.add_comm 1 k]
        · rw [List.take_succ_cons, List.sum_cons]
          omega

theorem daysBeforeYear_cycles (q : Nat) {c f o : Nat} (hc : c ≤ 3) (hf : f ≤ 24) (ho : o ≤ 3) :
    daysBeforeYear (q * 400 + c * 100 + f * 4 + o + 1) =
      q * 146097 + c * 36524 + f * 1461 + o * 365 := by
  have h4 : (q * 400 + c * 100 + f * 4 + o) / 4 = q * 100 + c * 25 + f := by omega
  have h100 : (q * 400 + c * 100 + f * 4 + o) / 100 = q * 4 + c := by omega
  have h400 : (q * 400 + c * 100 + f * 4 + o) / 400 = q := by omega
  simp only [daysBeforeYear, Nat.add_sub_cancel, h4, h100, h400]
  omega

theorem isLeap_cycles (q : Nat) {c f : Nat} (hf : f < 24 ∨ f = 24 ∧ c = 3) :
    isLeap (q * 400 + c * 100 + f * 4 + 3 + 1) = true := by
  rw [isLeap_iff]
  refine ⟨by omega, ?_⟩
  rcases hf with hf | ⟨rfl, rfl⟩
  · left
    omega
  · right
    omega

theorem splitYear_eq (days : Nat) :
    ∃ q c f o n, splitYear days = (q * 400 + c * 100 + f * 4 + o + 1, n) ∧
      q * 146097 + c * 36524 + f * 1461 + o * 365 + n = days ∧ c ≤ 3 ∧ f ≤ 24 ∧ o ≤ 3 ∧
      (n < 365 ∨ n = 365 ∧ o = 3 ∧ (f < 24 ∨ f = 24 ∧ c = 3)) := by
  refine ⟨_, _, _, _, _, rfl, ?_⟩
  generalize hq : days / 146097 = q
  generalize hn : days % 146097 = n
  generalize hc : min (n / 36524) 3 = c
  generalize hm : n - c * 36524 = m
  generalize hf : m / 1461 = f
  generalize hk : m % 1461 = k
  generalize ho : min (k / 365) 3 = o
  generalize hr : k - o * 365 = r
  -- One fact for each division; together they are all that is needed of the eight equations.
  have hcycle : q * 146097 + n = days ∧ n < 146097 := by omega
  have hcentury : c ≤ 3 ∧ c * 36524 + m = n ∧ m ≤ 36524 ∧ (m = 36524 → c = 3) := by omega
  have hfour : f ≤ 24 ∧ f * 1461 + k = m ∧ k < 1461 := by omega
  have hone : o ≤ 3 ∧ o * 365 + r = k ∧ (r < 365 ∨ r = 365 ∧ o = 3) := by omega
  clear hq hn hc hm hf hk ho hr
  obtain ⟨ho, hr, hlast⟩ := hone
  refine ⟨?_, hcentury.1, hfour.1, ho, hlast.imp_right fun ⟨hr, ho⟩ => ⟨hr, ho, by omega⟩⟩
  simp only [← hcycle.1, ← hcentury.2.1, ← hfour.2.1, ← hr, Nat.add_assoc]

theorem splitYear_spec (days : Nat) :
    1 ≤ (splitYear days).1 ∧ daysBeforeYear (splitYear days).1 + (splitYear days).2 = days ∧
      (splitYear days).2 < yearLength (splitYear days).1 := by
  obtain ⟨q, c, f, o, n, hsplit, hdays, hc, hf, ho, hn⟩ := splitYear_eq days
  rw [hsplit]
  refine ⟨by omega, by rw [daysBeforeYear_cycles q hc hf ho, hdays], ?_⟩
  obtain hn | ⟨rfl, rfl, hlast⟩ := hn
  · unfold yearLength
    split <;> omega
  · rw [yearLength, if_pos (isLeap_cycles q hlast)]
    exact Nat.lt_succ_self 365

def Proper (c : Civil) : Prop :=
  1 ≤ c.year ∧ (1 ≤ c.month ∧ c.month ≤ 12) ∧ 1 ≤ c.day ∧ c.day ≤ monthLength c.year c.month

instance (c : Civil) : Decidable c.Proper := inferInstanceAs (Decidable (_ ∧ _))

theorem valid_iff (c : Civil) : c.Valid ↔ c.Proper ∧ c.year ≤ 9999 := by
  unfold Valid Proper
  tauto

theorem ofDays_spec (days : Nat) : (ofDays days).Proper ∧ (ofDays days).toDays = days := by
  obtain ⟨hyear, hdays, hlt⟩ := splitYear_spec days
  obtain ⟨year, n, hsplit⟩ : ∃ year n, splitYear days = (year, n) := ⟨_, _, rfl⟩
  rw [hsplit] at hyear hdays hlt
  rw [← sum_monthLengths] at hlt
  dsimp only at hyear hdays hlt
  obtain ⟨k, r, hfind, hk, hsum, hr⟩ := findMonth_eq 1 hlt
  have heq : ofDays days = ⟨year, 1 + k, r + 1⟩ := by
    rw [ofDays, hsplit]
    exact congrArg (fun p : Nat × Nat => (⟨year, p.1, p.2 + 1⟩ : Civil)) hfind
  rw [length_monthLengths] at hk
  have hmonth : 1 ≤ 1 + k ∧ 1 + k ≤ 12 := by omega
  rw [heq]
  refine ⟨⟨hyear, hmonth, Nat.le_add_left 1 r, ?_⟩, ?_⟩
  · rw [monthLength, Nat.add_sub_cancel_left]
    exact hr
  · simp only [toDays, daysBeforeMonth_eq, Nat.add_sub_cancel_left, Nat.add_sub_cancel]
    omega

variable {c d : Civil}

def Before (c d : Civil) : Prop :=
  c.year < d.year ∨ c.year = d.year ∧ (c.month < d.month ∨ c.month = d.month ∧ c.day < d.day)

theorem trichotomy (c d : Civil) : c.Before d ∨ c = d ∨ d.Before c := by
  rcases c with ⟨y, m, k⟩
  rcases d with ⟨y', m', k'⟩
  simp only [Before, mk.injEq]
  omega

theorem toDays_lt (hc : c.Proper) (hd : d.Proper) (h : c.Before d) : c.toDays < d.toDays := by
  obtain ⟨hy, hm, hk⟩ := hc
  obtain ⟨-, hm', hk'⟩ := hd
  have hmonth := daysBeforeMonth_le c.year hm.1 (Nat.lt_succ_of_le hm.2) (Nat.le_refl 13)
  rw [daysBeforeMonth_thirteen] at hmonth
  simp only [toDays]
  obtain h | ⟨hyear, h | ⟨heq, h⟩⟩ := h
  · have := daysBeforeYear_le hy h
    omega
  · rw [← hyear]
    have := daysBeforeMonth_le c.year hm.1 h (by omega)
    omega
  · rw [hyear, heq]
    omega

theorem toDays_lt_iff (hc : c.Proper) (hd : d.Proper) : c.toDays < d.toDays ↔ c.Before d := by
  refine ⟨fun h => ?_, toDays_lt hc hd⟩
  obtain hb | rfl | hb := trichotomy c d
  · exact hb
  · exact absurd h (Nat.lt_irrefl _)
  · exact absurd h (Nat.lt_asymm (toDays_lt hd hc hb))

theorem toDays_inj (hc : c.Proper) (hd : d.Proper) (h : c.toDays = d.toDays) : c = d := by
  obtain hb | rfl | hb := trichotomy c d
  · exact absurd h (Nat.ne_of_lt (toDays_lt hc hd hb))
  · rfl
  · exact absurd h (Nat.ne_of_gt (toDays_lt hd hc hb))

theorem ofDays_toDays (hc : c.Proper) : ofDays c.toDays = c :=
  toDays_inj (ofDays_spec _).1 hc (ofDays_spec _).2

theorem toDays_lt_iff_year (hc : c.Proper) : c.toDays < 3652059 ↔ c.year ≤ 9999 := by
  have hfirst : Proper ⟨10000, 1, 1⟩ := by decide
  have hdays : toDays ⟨10000, 1, 1⟩ = 3652059 := rfl
  rw [← hdays, toDays_lt_iff hc hfirst, Before]
  obtain ⟨-, hm, hk⟩ := hc
  dsimp only
  omega

def next (c : Civil) : Civil :=
  if c.day < monthLength c.year c.month then ⟨c.year, c.month, c.day + 1⟩
  else if c.month < 12 then ⟨c.year, c.month + 1, 1⟩
  else ⟨c.year + 1, 1, 1⟩

theorem monthLength_bounds (year : Nat) (h : 1 ≤ month) (h' : month ≤ 12) :
    1 ≤ monthLength year month ∧ monthLength year month ≤ 31 := by
  unfold monthLength
  cases isLeap year <;> interval_cases month <;> decide

theorem next_spec (hc : c.Proper) : c.next.Proper ∧ c.next.toDays = c.toDays + 1 := by
  obtain ⟨year, month, day⟩ := c
  obtain ⟨hy, hm, hk⟩ := hc
  have hmonth := daysBeforeMonth_succ year hm.1 hm.2
  dsimp only at hy hm hk hmonth
  unfold next
  dsimp only
  by_cases hday : day < monthLength year month
  · rw [if_pos hday]
    refine ⟨⟨hy, hm, Nat.le_add_left 1 day, hday⟩, ?_⟩
    simp only [toDays]
    omega
  rw [if_neg hday]
  by_cases hlt : month < 12
  · rw [if_pos hlt]
    have hpos := (monthLength_bounds year (Nat.le_add_left 1 month) hlt).1
    refine ⟨⟨hy, ⟨Nat.le_add_left 1 month, hlt⟩, Nat.le_refl 1, hpos⟩, ?_⟩
    simp only [toDays, hmonth]
    omega
  · obtain rfl : month = 12 := by omega
    rw [if_neg hlt]
    rw [daysBeforeMonth_thirteen] at hmonth
    have hfirst : daysBeforeMonth (year + 1) 1 = 0 := rfl
    have hpos := (monthLength_bounds (year + 1) (Nat.le_refl 1) (by decide)).1
    refine ⟨⟨Nat.le_add_left 1 year, ⟨Nat.le_refl 1, (by decide : 1 ≤ 12)⟩, Nat.le_refl 1, hpos⟩, ?_⟩
    simp only [toDays, daysBeforeYear_succ hy, hfirst, hmonth]
    omega

theorem ofDays_eq_iterate (days : Nat) : ofDays days = next^[days] ⟨1, 1, 1⟩ := by
  induction days with
  | zero => rfl
  | succ days ih =>
      obtain ⟨hproper, hdays⟩ := ofDays_spec days
      obtain ⟨hnext, hsucc⟩ := next_spec hproper
      rw [Function.iterate_succ_apply', ← ih, ← ofDays_toDays hnext, hsucc, hdays]

end BaseLib.Civil
