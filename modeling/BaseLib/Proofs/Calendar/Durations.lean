import BaseLib.Proofs.Calendar.Times
import BaseLib.Proofs.Number.Digits

namespace BaseLib

theorem Decimal.withSign_inj {a b : Bool} {x y : List Char} (hx : x.head? ≠ some '-') (hy : y.head? ≠ some '-')
    (h : Decimal.withSign a x = Decimal.withSign b y) : a = b ∧ x = y := by
  cases a with
  | false =>
      cases b with
      | false => exact ⟨rfl, h⟩
      | true => exact absurd (congrArg List.head? h) hx
  | true =>
      cases b with
      | false => exact absurd (congrArg List.head? h.symm) hy
      | true => exact ⟨rfl, List.cons_injective h⟩

namespace TimeSpan

open Decimal Number
open Text.Composite (Stops run_inj)

/-- Signed numbers that make up ticks; the rest is below a millisecond. -/
structure Parts where
  days : Int
  hours : Int
  minutes : Int
  seconds : Int
  milliseconds : Int
  rest : Int

namespace Parts

def list (p : Parts) : List Int := [p.days, p.hours, p.minutes, p.seconds, p.milliseconds]

def ticks (p : Parts) : Int :=
  p.days * perDay + p.hours * perHour + p.minutes * perMinute + p.seconds * perSecond +
    p.milliseconds * perMillisecond + p.rest

/-- Parts of so many ticks: none has another sign than the ticks, and none reaches the next greater unit. -/
structure Of (p : Parts) (n : Int) : Prop where
  signs : ∀ x ∈ p.rest :: p.list, x = 0 ∨ x.sign = n.sign
  hours : p.hours.natAbs ≤ 23
  minutes : p.minutes.natAbs ≤ 59
  seconds : p.seconds.natAbs ≤ 59
  milliseconds : p.milliseconds.natAbs ≤ 999
  rest : p.rest.natAbs ≤ 9999
  ticks : p.ticks = n

end Parts

def parts (t : TimeSpan) : Parts :=
  ⟨t.days, t.hours, t.minutes, t.seconds, t.milliseconds, t.ticks.tmod perMillisecond⟩

section

variable (n : Int) (a u : Nat)

theorem signed_tdiv : (n.sign * a).tdiv u = n.sign * (a / u : Nat) := by
  rcases n.sign_trichotomy with h | h | h <;> simp [h, Int.neg_tdiv]

theorem signed_tmod : (n.sign * a).tmod u = n.sign * (a % u : Nat) := by
  rcases n.sign_trichotomy with h | h | h <;> simp [h, Int.neg_tmod, Int.tmod_eq_emod_of_nonneg]

theorem tdiv_eq_signed : n.tdiv u = n.sign * (n.natAbs / u : Nat) := by
  rw [← signed_tdiv, Int.sign_mul_natAbs]

theorem sign_signed : n.sign * a = 0 ∨ (n.sign * a).sign = n.sign := by
  rcases Nat.eq_zero_or_pos a with rfl | ha
  · exact .inl (mul_zero _)
  · right
    rw [Int.sign_mul, Int.sign_sign, Int.sign_natCast_of_ne_zero ha.ne', mul_one]

theorem natAbs_tdiv_tmod (v : Nat) : ((n.tdiv u).tmod v).natAbs = n.natAbs / u % v := by
  rw [Int.natAbs_tmod, Int.natAbs_tdiv]
  rfl

end

theorem parts_eq (t : TimeSpan) :
    t.parts = ⟨t.ticks.sign * (t.ticks.natAbs / perDay : Nat), t.ticks.sign * (t.ticks.natAbs / perHour % 24 : Nat),
      t.ticks.sign * (t.ticks.natAbs / perMinute % 60 : Nat), t.ticks.sign * (t.ticks.natAbs / perSecond % 60 : Nat),
      t.ticks.sign * (t.ticks.natAbs / perMillisecond % 1000 : Nat),
      t.ticks.sign * (t.ticks.natAbs % perMillisecond : Nat)⟩ := by
  have hrest := signed_tmod t.ticks t.ticks.natAbs perMillisecond
  rw [Int.sign_mul_natAbs] at hrest
  rw [parts, hrest]
  simp only [days, hours, minutes, seconds, milliseconds, tdiv_eq_signed]
  congr 1
  all_goals exact signed_tmod _ _ _

theorem Parts.ticks_signed (n : Int) {a days hours minutes seconds milliseconds rest : Nat}
    (h : days * perDay + hours * perHour + minutes * perMinute + seconds * perSecond +
      milliseconds * perMillisecond + rest = a) :
    Parts.ticks ⟨n.sign * days, n.sign * hours, n.sign * minutes, n.sign * seconds, n.sign * milliseconds,
      n.sign * rest⟩ = n.sign * a := by
  subst h
  rw [Parts.ticks]
  push_cast
  ring

theorem natAbs_parts (t : TimeSpan) :
    t.parts.days.natAbs = t.ticks.natAbs / perDay ∧ t.parts.hours.natAbs = t.ticks.natAbs / perHour % 24 ∧
      t.parts.minutes.natAbs = t.ticks.natAbs / perMinute % 60 ∧
      t.parts.seconds.natAbs = t.ticks.natAbs / perSecond % 60 ∧
      t.parts.milliseconds.natAbs = t.ticks.natAbs / perMillisecond % 1000 ∧
      t.parts.rest.natAbs = t.ticks.natAbs % perMillisecond :=
  ⟨Int.natAbs_tdiv _ _, natAbs_tdiv_tmod _ _ _, natAbs_tdiv_tmod _ _ _, natAbs_tdiv_tmod _ _ _,
    natAbs_tdiv_tmod _ _ _, Int.natAbs_tmod _ _⟩

theorem parts_of (t : TimeSpan) : t.parts.Of t.ticks := by
  have hsizes := t.natAbs_parts
  simp only [perMillisecond] at hsizes
  constructor
  case signs =>
    rw [parts_eq]
    simp only [Parts.list, List.forall_mem_cons, sign_signed, true_and]
    exact List.forall_mem_nil _
  case ticks =>
    rw [parts_eq]
    refine (Parts.ticks_signed t.ticks ?_).trans (Int.sign_mul_natAbs _)
    simp only [perDay, perHour, perMinute, perSecond, perMillisecond]
    omega
  all_goals omega

structure Figures (width : Nat) where
  text : List Char
  isDigits : Digits text
  length_text : text.length = width

namespace Figures

variable {width n : Nat} {f g : Figures width}

def value (f : Figures width) : Nat := ofDigits f.text

def of (hwidth : 0 < width) (h : n < 10 ^ width) : Figures width :=
  ⟨padded width n, padded_isDigits width n, length_padded_of_lt hwidth h⟩

theorem eq_of_text (h : f.text = g.text) : f = g := by
  cases f
  cases g
  cases h
  rfl

theorem eq_of_append {x y : List Char} (h : f.text ++ x = g.text ++ y) : f = g ∧ x = y := by
  obtain ⟨htext, hrest⟩ := List.append_inj h (f.length_text.trans g.length_text.symm)
  exact ⟨eq_of_text htext, hrest⟩

end Figures

/-- A duration as it is written: `[-][d.]hh:mm:ss[.fffffff]`. -/
structure Written where
  negative : Bool
  days : Option (List Char)
  hours : Figures 2
  minutes : Figures 2
  seconds : Figures 2
  fraction : Option (Figures 7)
  days_digits : ∀ ds ∈ days, Digits ds ∧ ds ≠ []

def dayText : Option (List Char) → List Char
  | none => []
  | some ds => ds ++ ['.']

namespace Written

variable {v w : Written}

def clock (w : Written) : List Char :=
  w.minutes.text ++ (':' :: (w.seconds.text ++ fractionText (w.fraction.map Figures.text)))

def body (w : Written) : List Char := dayText w.days ++ w.hours.text ++ (':' :: w.clock)

def text (w : Written) : List Char := withSign w.negative w.body

def dayCount (w : Written) : Nat := ofDigits (w.days.getD [])

def fractionCount (w : Written) : Nat := (w.fraction.map Figures.value).getD 0

def size (w : Written) : Nat :=
  w.dayCount * perDay + w.hours.value * perHour + w.minutes.value * perMinute + w.seconds.value * perSecond +
    w.fractionCount

def ticks (w : Written) : Int := if w.negative then -(w.size : Int) else w.size

/-- The parts are written, with no day and no fraction where there is none. -/
structure Of (w : Written) (p : Parts) : Prop where
  days : w.dayCount = p.days.natAbs
  hours : w.hours.value = p.hours.natAbs
  minutes : w.minutes.value = p.minutes.natAbs
  seconds : w.seconds.value = p.seconds.natAbs
  fraction : w.fractionCount = p.milliseconds.natAbs * perMillisecond + p.rest.natAbs
  days_isSome : w.days.isSome ↔ p.days ≠ 0
  fraction_isSome : w.fraction.isSome ↔ w.fractionCount ≠ 0

end Written

theorem dayText_inj {d e : Option (List Char)} (h : dayText d = dayText e) : d = e := by
  cases d with
  | none =>
      cases e with
      | none => rfl
      | some es => exact absurd h.symm (List.append_ne_nil_of_right_ne_nil _ (List.cons_ne_nil _ _))
  | some ds =>
      cases e with
      | none => exact absurd h (List.append_ne_nil_of_right_ne_nil _ (List.cons_ne_nil _ _))
      | some es => exact congrArg some (List.append_cancel_right h)

theorem fractionText_inj {d e : Option (Figures 7)}
    (h : fractionText (d.map Figures.text) = fractionText (e.map Figures.text)) : d = e := by
  cases d with
  | none =>
      cases e with
      | none => rfl
      | some g => cases h
  | some f =>
      cases e with
      | none => cases h
      | some g => exact congrArg some (Figures.eq_of_text (List.cons_injective h))

namespace Written

variable {v w : Written}

theorem no_colon (w : Written) : ∀ c ∈ dayText w.days ++ w.hours.text, (c != ':') = true := by
  have hdigits (ds : List Char) (h : Digits ds) : ∀ c ∈ ds, (c != ':') = true := by
    intro c hc
    rw [bne_iff_ne]
    rintro rfl
    exact absurd (h ':' hc) (by decide)
  have hhours := hdigits _ w.hours.isDigits
  cases hdays : w.days with
  | none => exact hhours
  | some ds =>
      have hds := hdigits ds (w.days_digits ds hdays).1
      have hpoint : ∀ c ∈ ['.'], (c != ':') = true := List.forall_mem_singleton.mpr rfl
      rw [dayText]
      exact List.forall_mem_append.mpr ⟨List.forall_mem_append.mpr ⟨hds, hpoint⟩, hhours⟩

theorem head?_body (w : Written) : w.body.head? ≠ some '-' := by
  have hsign (ds r : List Char) (h : Digits ds) (hne : ds ≠ []) : (ds ++ r).head? ≠ some '-' := by
    intro hhead
    exact absurd (h.stops_sign hne '-' hhead) (by decide)
  rw [body, List.append_assoc]
  cases hdays : w.days with
  | none =>
      refine hsign w.hours.text _ w.hours.isDigits (List.ne_nil_of_length_pos ?_)
      rw [w.hours.length_text]
      exact Nat.two_pos
  | some ds =>
      obtain ⟨hds, hne⟩ := w.days_digits ds hdays
      rw [dayText, List.append_assoc]
      exact hsign ds _ hds hne

theorem clock_inj (h : v.clock = w.clock) :
    v.minutes = w.minutes ∧ v.seconds = w.seconds ∧ v.fraction = w.fraction := by
  obtain ⟨hminutes, hrest⟩ := Figures.eq_of_append h
  obtain ⟨hseconds, hfraction⟩ := Figures.eq_of_append (List.cons_injective hrest)
  exact ⟨hminutes, hseconds, fractionText_inj hfraction⟩

theorem body_inj (h : v.body = w.body) : v.days = w.days ∧ v.hours = w.hours ∧ v.clock = w.clock := by
  have hstops (s : List Char) : Stops (· != ':') (':' :: s) := fun c hc => by
    cases hc
    rfl
  obtain ⟨hfront, hclock⟩ := run_inj v.no_colon (hstops _) w.no_colon (hstops _) h
  have hlen : v.hours.text.length = w.hours.text.length := v.hours.length_text.trans w.hours.length_text.symm
  obtain ⟨hdays, hhours⟩ := List.append_inj' hfront hlen
  exact ⟨dayText_inj hdays, Figures.eq_of_text hhours, List.cons_injective hclock⟩

theorem text_inj (h : v.text = w.text) : v = w := by
  obtain ⟨hnegative, hbody⟩ := withSign_inj v.head?_body w.head?_body h
  obtain ⟨hdays, hhours, hclock⟩ := body_inj hbody
  obtain ⟨hminutes, hseconds, hfraction⟩ := clock_inj hclock
  cases v
  cases w
  simp only [mk.injEq]
  exact ⟨hnegative, hdays, hhours, hminutes, hseconds, hfraction⟩

end Written

theorem clock_lt (n : Nat) :
    n % perDay / perHour < 10 ^ 2 ∧ n % perHour / perMinute < 10 ^ 2 ∧ n % perMinute / perSecond < 10 ^ 2 := by
  simp only [perDay, perHour, perMinute, perSecond]
  omega

def written (t : TimeSpan) : Written where
  negative := t.ticks < 0
  days := if t.ticks.natAbs / perDay = 0 then none else some (digits (t.ticks.natAbs / perDay))
  hours := .of Nat.two_pos (clock_lt t.ticks.natAbs).1
  minutes := .of Nat.two_pos (clock_lt t.ticks.natAbs).2.1
  seconds := .of Nat.two_pos (clock_lt t.ticks.natAbs).2.2
  fraction :=
    if t.ticks.natAbs % perSecond = 0 then none
    else some (.of (Nat.succ_pos 6) (Nat.mod_lt t.ticks.natAbs (show 0 < 10 ^ 7 by decide)))
  days_digits := by
    intro ds hds
    obtain ⟨-, hds⟩ := Option.ite_none_left_eq_some.mp hds
    cases hds
    exact ⟨digits_isDigits _, digits_ne _⟩

theorem toText_eq (t : TimeSpan) : t.toText = t.written.text := by
  have hdays : dayText t.written.days =
      if t.ticks.natAbs / perDay = 0 then [] else digits (t.ticks.natAbs / perDay) ++ ['.'] := by
    rw [written]
    split <;> rfl
  have hfraction : fractionText (t.written.fraction.map Figures.text) =
      if t.ticks.natAbs % perSecond = 0 then [] else '.' :: padded 7 (t.ticks.natAbs % perSecond) := by
    rw [written]
    dsimp only
    split <;> rfl
  rw [Written.text, Written.body, Written.clock, hdays, hfraction, toText]
  simp only [List.append_assoc, List.cons_append]
  rfl

theorem written_values (t : TimeSpan) :
    t.written.dayCount = t.ticks.natAbs / perDay ∧ t.written.hours.value = t.ticks.natAbs % perDay / perHour ∧
      t.written.minutes.value = t.ticks.natAbs % perHour / perMinute ∧
      t.written.seconds.value = t.ticks.natAbs % perMinute / perSecond ∧
      t.written.fractionCount = t.ticks.natAbs % perSecond := by
  refine ⟨?_, ofDigits_padded 2 _, ofDigits_padded 2 _, ofDigits_padded 2 _, ?_⟩
  · rw [Written.dayCount, written]
    dsimp only
    split
    · rename_i hzero
      exact hzero.symm
    · exact ofDigits_digits _
  · rw [Written.fractionCount, written]
    dsimp only
    split
    · rename_i hzero
      exact hzero.symm
    · exact ofDigits_padded 7 _

theorem written_of (t : TimeSpan) : t.written.Of t.parts := by
  have hsizes := t.natAbs_parts
  have hvalues := t.written_values
  have hdays : t.written.days.isSome ↔ t.ticks.natAbs / perDay ≠ 0 := by simp [written]
  have hfraction : t.written.fraction.isSome ↔ t.ticks.natAbs % perSecond ≠ 0 := by simp [written]
  simp only [perDay, perHour, perMinute, perSecond, perMillisecond] at hsizes hvalues hdays hfraction
  constructor
  case days_isSome => exact hdays.trans (by omega)
  case fraction_isSome => exact hfraction.trans (by omega)
  case fraction =>
    rw [perMillisecond]
    omega
  all_goals omega

theorem size_written (t : TimeSpan) : t.written.size = t.ticks.natAbs := by
  have hvalues := t.written_values
  rw [Written.size]
  simp only [perDay, perHour, perMinute, perSecond] at hvalues ⊢
  omega

theorem ticks_written (t : TimeSpan) : t.written.ticks = t.ticks := by
  have hnegative : (t.written.negative = true) = (t.ticks < 0) := decide_eq_true_eq
  rw [Written.ticks, size_written]
  simp only [hnegative]
  omega

end TimeSpan

namespace Session

open Library
open TimeSpan (Parts Written)

variable {s t : Session} {id : Nat} {d : TimeSpan} {n : Int} {p : Parts} {w : Written} {text : List Char}

def ShowsParts (s : Session) (id : Nat) (p : Parts) : Prop :=
  List.Forall₂ (fun name n => s.Shows id name (.int n)) ["Days", "Hours", "Minutes", "Seconds", "Milliseconds"] p.list

def MakesSpan (s : Session) (n : Int) (id : Nat) (t : Session) : Prop :=
  s.exec (Types.construct "TimeSpan" [.int n]) = (.ok (.ref id), t)

def Prints (s : Session) (id : Nat) (text : List Char) : Prop :=
  s.exec (Methods.call (.ref id) "ToString" []) = (.ok (.text text), s)

/-- What a duration of so many ticks shows: parts of them, and a text in which the same numbers are written and that
is read as these ticks in every way. -/
structure ShowsDuration (s : Session) (id : Nat) (n : Int) (p : Parts) (w : Written) : Prop where
  ticks : s.Shows id "Ticks" (.int n)
  parts : s.ShowsParts id p
  of : p.Of n
  prints : s.Prints id w.text
  written : w.Of p
  read : ∀ v : Written, v.text = w.text → v.ticks = n

theorem showsParts (h : s.store[id]? = some (.timeSpan d)) : s.ShowsParts id d.parts :=
  .cons (shows_of h rfl) (.cons (shows_of h rfl) (.cons (shows_of h rfl) (.cons (shows_of h rfl)
    (.cons (shows_of h rfl) .nil))))

theorem prints_span (h : s.store[id]? = some (.timeSpan d)) : s.Prints id d.written.text := by
  have hdisplay : s.display (.ref id) = .ok (Text.codesOf d.toText) := by
    simp only [Session.display, Session.view, Session.depth, viewAt, h]
    rfl
  have htext := exec_textOf h (by simp)
  rw [hdisplay, TimeSpan.toText_eq, Except.map, Value.ofCodes_codesOf] at htext
  refine (exec_call h rfl []).trans ?_
  exact htext

theorem showsDuration (h : s.store[id]? = some (.timeSpan d)) : s.ShowsDuration id d.ticks d.parts d.written where
  ticks := shows_of h rfl
  parts := showsParts h
  of := d.parts_of
  prints := prints_span h
  written := d.written_of
  read v hv := by
    rw [Written.text_inj hv]
    exact d.ticks_written

theorem exec_newSpan (s : Session) (n : Int) :
    s.exec (Types.construct "TimeSpan" [.int n]) = s.exec (newSpan (TimeSpan.ofTicks n)) := rfl

theorem MakesSpan.object (h : s.MakesSpan n id t) : ∃ d, d.ticks = n ∧ t.store[id]? = some (.timeSpan d) := by
  rw [MakesSpan, exec_newSpan, TimeSpan.ofTicks] at h
  split at h
  · cases h
    exact ⟨_, rfl, store_grow s _⟩
  · cases h

theorem makesSpan (s : Session) (h : -2 ^ 63 ≤ n ∧ n < 2 ^ 63) : ∃ id t, s.MakesSpan n id t := by
  have hrange : -9223372036854775808 ≤ n ∧ n ≤ 9223372036854775807 := by omega
  refine ⟨s.store.size, s.grow (.timeSpan ⟨n, hrange.1, hrange.2⟩), ?_⟩
  rw [MakesSpan, exec_newSpan, TimeSpan.ofTicks, dif_pos hrange]
  rfl

theorem Prints.unique {text' : List Char} (h : s.Prints id text) (h' : s.Prints id text') : text = text' := by
  cases h.symm.trans h'
  rfl

/-- Any 64-bit number of ticks makes a duration, which shows its parts and a text of them; durations with one text
have one number of ticks. -/
theorem durations_recompose :
    (∀ (s : Session) (n : Int), -2 ^ 63 ≤ n ∧ n < 2 ^ 63 →
      ∃ id t p w, s.MakesSpan n id t ∧ t.ShowsDuration id n p w) ∧
    ∀ (s s' t t' : Session) (n n' : Int) id id' text, s.MakesSpan n id t → s'.MakesSpan n' id' t' →
      t.Prints id text → t'.Prints id' text → n = n' := by
  constructor
  · intro s n hn
    obtain ⟨id, t, hmakes⟩ := makesSpan s hn
    obtain ⟨d, rfl, hd⟩ := hmakes.object
    exact ⟨id, t, _, _, hmakes, showsDuration hd⟩
  · intro s s' t t' n n' id id' text hmakes hmakes' hprints hprints'
    obtain ⟨d, rfl, hd⟩ := hmakes.object
    obtain ⟨d', rfl, hd'⟩ := hmakes'.object
    have htext : d.written.text = text := (prints_span hd).unique hprints
    have htext' : d'.written.text = text := (prints_span hd').unique hprints'
    rw [← (showsDuration hd).read d'.written (htext'.trans htext.symm), d'.ticks_written]

def minimumText : List Char := "-10675199.02:48:05.4775808".toList

theorem durations_recompose_minimum :
    ∃ id t p w, (start 0).MakesSpan (-2 ^ 63) id t ∧ t.ShowsDuration id (-2 ^ 63) p w ∧ w.text = minimumText ∧
      ∀ (s' t' : Session) (n' : Int) id', s'.MakesSpan n' id' t' → t'.Prints id' minimumText → -2 ^ 63 = n' := by
  obtain ⟨hshows, hone⟩ := durations_recompose
  obtain ⟨id, t, p, w, hmakes, h⟩ := hshows (start 0) (-2 ^ 63) (by decide)
  have hprints : t.Prints id minimumText := by
    obtain ⟨d, hd, hstore⟩ := hmakes.object
    have hminimum : d = TimeSpan.minValue := by
      cases d
      cases hd
      rfl
    rw [hminimum] at hstore
    have htext : TimeSpan.minValue.written.text = minimumText := by decide +kernel
    exact htext ▸ prints_span hstore
  refine ⟨id, t, p, w, hmakes, h, h.prints.unique hprints, ?_⟩
  intro s' t' n' id' hmakes' hprints'
  exact hone _ _ _ _ _ _ _ _ _ hmakes hmakes' hprints hprints'

end Session

end BaseLib
