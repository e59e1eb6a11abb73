import BaseLib.Proofs.Calendar.Order
import BaseLib.Proofs.Number.Digits
import BaseLib.Proofs.Text.Order

namespace BaseLib

namespace Decimal

open Number

def ruled : List (Nat × List Char) → List Nat → List Char
  | (width, mark) :: slots, n :: ns => padded width n ++ (mark ++ ruled slots ns)
  | _, _ => []

def Slotted : List (Nat × List Char) → List Nat → Prop :=
  List.Forall₂ fun slot n => 0 < slot.1 ∧ n < 10 ^ slot.1

variable {α : Type} [LinearOrder α] {a b x y : List α} {slots : List (Nat × List Char)} {ns ms : List Nat}

theorem append_lt_append_iff (h : a.length = b.length) : a ++ x < b ++ y ↔ a < b ∨ a = b ∧ x < y := by
  induction a generalizing b with
  | nil =>
      rw [List.eq_nil_of_length_eq_zero h.symm]
      simp
  | cons c a ih =>
      obtain ⟨d, b, rfl⟩ := List.exists_cons_of_length_eq_add_one h.symm
      rw [List.cons_append, List.cons_append, List.cons_lt_cons_iff, List.cons_lt_cons_iff, ih (by simpa using h),
        List.cons.injEq]
      tauto

theorem ruled_lt_iff (hn : Slotted slots ns) (hm : Slotted slots ms) : ruled slots ns < ruled slots ms ↔ ns < ms := by
  induction hn generalizing ms with
  | nil =>
      cases hm
      simp [ruled]
  | @cons slot n slots ns hslot hrest ih =>
      cases hm with
      | @cons _ m _ ms hslot' hrest' =>
          obtain ⟨width, mark⟩ := slot
          have hlen : (padded width n).length = (padded width m).length := by
            rw [length_padded_of_lt hslot.1 hslot.2, length_padded_of_lt hslot.1 hslot'.2]
          have heq : padded width n = padded width m ↔ n = m := ⟨padded_inj, congrArg _⟩
          rw [ruled, ruled, append_lt_append_iff hlen, append_lt_append_iff rfl, padded_lt_iff hslot.1 hslot.2 hslot'.2,
            heq, ih hrest', List.cons_lt_cons_iff]
          simp

end Decimal

namespace DateTime

open Decimal

variable {a b : DateTime}

def stamp (d : DateTime) : List Nat := [d.civil.year, d.civil.month, d.civil.day, d.hour, d.minute, d.second]

theorem length_stamp (d : DateTime) : d.stamp.length = 6 := rfl

def wholeFields (d : DateTime) : Fields := { d.fields with millisecond := 0 }

theorem wholeFields_proper (d : DateTime) : d.wholeFields.Proper :=
  ⟨d.fields_proper.1, le_rfl, (by decide : (0 : Int) < 1000)⟩

theorem wholeFields_ticks (d : DateTime) : d.wholeFields.ticks = (d.ticks / 10000000 : Nat) * 10000000 := by
  have hticks := d.ticks_fields
  simp only [Fields.ticks_eq, Fields.clock] at hticks ⊢
  have hmillisecond : d.fields.millisecond = (d.ticks % 10000000 / 10000 : Nat) := rfl
  have hcivil : d.wholeFields.civil = d.fields.civil := rfl
  rw [hcivil]
  simp only [wholeFields]
  omega

theorem stamp_lt_iff (a b : DateTime) : a.stamp < b.stamp ↔ a.ticks / 10000000 < b.ticks / 10000000 := by
  have hfields := a.wholeFields_proper.ticks_lt_iff b.wholeFields_proper
  have hlist : a.wholeFields.list < b.wholeFields.list ↔ a.stamp < b.stamp := by
    simp [Fields.list, wholeFields, fields, stamp, List.cons_lt_cons_iff]
  rw [← hlist, ← hfields, wholeFields_ticks, wholeFields_ticks]
  omega

theorem stamp_eq_iff (a b : DateTime) : a.stamp = b.stamp ↔ a.ticks / 10000000 = b.ticks / 10000000 := by
  have hforth := stamp_lt_iff a b
  have hback := stamp_lt_iff b a
  constructor
  · intro h
    rw [h] at hforth hback
    simp only [lt_irrefl, false_iff, not_lt] at hforth hback
    exact le_antisymm hback hforth
  · intro h
    rw [h, iff_false_right (lt_irrefl _)] at hforth
    rw [h, iff_false_right (lt_irrefl _)] at hback
    exact le_antisymm (not_lt.mp hback) (not_lt.mp hforth)

theorem stamp_append_lt_iff (a b : DateTime) :
    a.stamp ++ [a.ticks % 10000000] < b.stamp ++ [b.ticks % 10000000] ↔ a.ticks < b.ticks := by
  have hlast (x y : Nat) : [x] < [y] ↔ x < y := by simp [List.cons_lt_cons_iff]
  rw [append_lt_append_iff (a.length_stamp.trans b.length_stamp.symm), stamp_lt_iff, stamp_eq_iff, hlast]
  omega

def stampSlots (mark : List Char) : List (Nat × List Char) :=
  [(4, ['-']), (2, ['-']), (2, ['T']), (2, [':']), (2, [':']), (2, mark)]

def tickSlots (kind : DateTimeKind) : List (Nat × List Char) :=
  stampSlots ['.'] ++ [(7, if kind = .utc then ['Z'] else [])]

theorem stamp_slotted (mark : List Char) (d : DateTime) : Slotted (stampSlots mark) d.stamp := by
  obtain ⟨⟨-, hhour, hminute, hsecond⟩, -⟩ := d.fields_proper
  obtain ⟨hyear, hmonth, hday⟩ := d.civil_valid
  have hlast := (Civil.monthLength_bounds d.civil.year hmonth.1 hmonth.2).2
  simp only [fields] at hhour hminute hsecond
  simp only [Slotted, stampSlots, stamp, List.forall₂_cons, List.forall₂_nil_left_iff, and_true]
  omega

theorem ticks_slotted (d : DateTime) : Slotted (tickSlots d.kind) (d.stamp ++ [d.ticks % 10000000]) := by
  apply List.rel_append (stamp_slotted ['.'] d)
  exact .cons ⟨Nat.succ_pos 6, Nat.mod_lt _ (by decide)⟩ .nil

theorem format_seconds (d : DateTime) : d.format "s" = .ok (ruled (stampSlots []) d.stamp) := by
  simp [DateTime.format, sortableDate, timeText, clockText, ruled, stampSlots, stamp]

theorem format_ticks (d : DateTime) :
    d.format "o" = .ok (ruled (tickSlots d.kind) (d.stamp ++ [d.ticks % 10000000])) := by
  simp [DateTime.format, sortableDate, timeText, clockText, ruled, tickSlots, stampSlots, stamp, TimeSpan.perSecond]

theorem seconds_sortable (a b : DateTime) :
    (Text.compareOrdinal (ruled (stampSlots []) a.stamp) (ruled (stampSlots []) b.stamp)).sign =
      ((a.ticks / 10000000 : Int) - b.ticks / 10000000).sign := by
  apply Text.sign_compareOrdinal
  · rw [ruled_lt_iff (stamp_slotted [] a) (stamp_slotted [] b), stamp_lt_iff]
    omega
  · rw [ruled_lt_iff (stamp_slotted [] b) (stamp_slotted [] a), stamp_lt_iff]
    omega

theorem ticks_sortable (h : a.kind = b.kind) :
    (Text.compareOrdinal (ruled (tickSlots a.kind) (a.stamp ++ [a.ticks % 10000000]))
      (ruled (tickSlots b.kind) (b.stamp ++ [b.ticks % 10000000]))).sign = ((a.ticks : Int) - b.ticks).sign := by
  have ha := ticks_slotted a
  have hb := ticks_slotted b
  rw [h] at ha ⊢
  apply Text.sign_compareOrdinal
  · rw [ruled_lt_iff ha hb, stamp_append_lt_iff, Int.ofNat_lt]
  · rw [ruled_lt_iff hb ha, stamp_append_lt_iff, Int.ofNat_lt]

end DateTime

namespace Session

open Library
open DateTime (stampSlots tickSlots)
open Decimal (ruled)

variable {s : Session} {i j : Nat} {a b d : DateTime} {text : List Char}

def Formats (s : Session) (id : Nat) (fmt text : List Char) : Prop :=
  s.exec (Methods.call (.ref id) "ToFormattedString" [.text fmt]) = (.ok (.text text), s)

theorem formats_of (h : s.store[i]? = some (.dateTime d)) {fmt : List Char}
    (ht : d.format (String.ofList fmt) = .ok text) : s.Formats i fmt text := by
  refine (exec_call h rfl _).trans ?_
  change s.exec (do
    let t ← needChars (Text.codesOf fmt)
    pure (Value.text (← ofResult (d.format (String.ofList t))))) = _
  rw [needChars_codesOf, pure_bind, ht]
  rfl

theorem formats_seconds (h : s.store[i]? = some (.dateTime d)) :
    s.Formats i ['s'] (ruled (stampSlots []) d.stamp) :=
  formats_of h d.format_seconds

theorem formats_ticks (h : s.store[i]? = some (.dateTime d)) :
    s.Formats i ['o'] (ruled (tickSlots d.kind) (d.stamp ++ [d.ticks % 10000000])) :=
  formats_of h d.format_ticks

/-- Two times of one kind, with their ticks and their texts in the formats `o` and `s`: the first texts are ordered
as the times are, and are the same only for the same ticks; the second ones are ordered as the whole seconds. -/
theorem formats_sortable (ha : s.store[i]? = some (.dateTime a)) (hb : s.store[j]? = some (.dateTime b))
    (hk : a.kind = b.kind) :
    ∃ (n m order exact whole : Int) (o o' w w' : List Char),
      s.Shows i "Ticks" (.int n) ∧ s.Shows j "Ticks" (.int m) ∧
      s.exec (Methods.call (.ref i) "CompareTo" [.ref j]) = (.ok (.int order), s) ∧
      s.Formats i ['o'] o ∧ s.Formats j ['o'] o' ∧ s.Formats i ['s'] w ∧ s.Formats j ['s'] w' ∧
      s.exec (Catalogue.call "NString.CompareOrdinal" [.text o, .text o']) = (.ok (.int exact), s) ∧
      s.exec (Catalogue.call "NString.CompareOrdinal" [.text w, .text w']) = (.ok (.int whole), s) ∧
      exact.sign = order ∧ (o = o' → n = m) ∧ whole.sign = (n / 10000000 - m / 10000000).sign := by
  have hinstants : a.instant s.offset - b.instant s.offset = (a.ticks : Int) - b.ticks := by
    have hkind := DateTime.instant_sub s.offset hk
    omega
  refine ⟨_, _, _, _, _, _, _, _, _, shows_ticks ha, shows_ticks hb, exec_compareTo ha hb, formats_ticks ha,
    formats_ticks hb, formats_seconds ha, formats_seconds hb,
    exec_compareOrdinal s (some _) (some _), exec_compareOrdinal s (some _) (some _), ?_, ?_, ?_⟩
  · exact (DateTime.ticks_sortable hk).trans (congrArg Int.sign hinstants.symm)
  · intro htexts
    have hsign := DateTime.ticks_sortable hk
    rw [htexts, Text.compareOrdinal_self, Int.sign_zero, eq_comm, Int.sign_eq_zero_iff_zero] at hsign
    omega
  · exact DateTime.seconds_sortable a b

/-- The last tick of the first second, and the tick after it. -/
def ticking : Session :=
  { start 0 with store := #[.dateTime ⟨9999999, .utc, by decide⟩, .dateTime ⟨10000000, .utc, by decide⟩] }

theorem formats_sortable_ticking :
    ∃ a b : DateTime, ticking.store[0]? = some (.dateTime a) ∧ ticking.store[1]? = some (.dateTime b) ∧
      a.kind = b.kind ∧
      ∃ (n m order exact whole : Int) (o o' w w' : List Char),
        ticking.Shows 0 "Ticks" (.int n) ∧ ticking.Shows 1 "Ticks" (.int m) ∧
        ticking.exec (Methods.call (.ref 0) "CompareTo" [.ref 1]) = (.ok (.int order), ticking) ∧
        ticking.Formats 0 ['o'] o ∧ ticking.Formats 1 ['o'] o' ∧ ticking.Formats 0 ['s'] w ∧
        ticking.Formats 1 ['s'] w' ∧
        ticking.exec (Catalogue.call "NString.CompareOrdinal" [.text o, .text o']) = (.ok (.int exact), ticking) ∧
        ticking.exec (Catalogue.call "NString.CompareOrdinal" [.text w, .text w']) = (.ok (.int whole), ticking) ∧
        exact.sign = order ∧ (o = o' → n = m) ∧ whole.sign = (n / 10000000 - m / 10000000).sign :=
  ⟨_, _, rfl, rfl, rfl, formats_sortable rfl rfl rfl⟩

end Session

end BaseLib
