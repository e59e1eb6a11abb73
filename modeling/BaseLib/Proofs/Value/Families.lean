import BaseLib.Library.Catalogue
import BaseLib.Proofs.Calendar.Order
import BaseLib.Proofs.Number.Order
import Mathlib.Data.List.Lex

namespace BaseLib

namespace Datum

inductive Family
  | numbers
  | texts
  | spans
  | times (kind : DateTimeKind)
  deriving DecidableEq, Repr

def Family.Has : Family → Datum → Prop
  | numbers, x => ∃ a, x.number? = some a
  | texts, x => ∃ t, x = text t
  | spans, x => ∃ t, x = timeSpan t
  | times kind, x => ∃ d : DateTime, d.kind = kind ∧ x = dateTime d

variable {β : Type} [LinearOrder β] {offset : Int} {place : Datum → WithBot β} {x y z : Datum}
  {a b : Number} {o : Ordering} {n : Int}

def Placed (offset : Int) (place : Datum → WithBot β) (x y : Datum) : Prop :=
  ∃ o : Ordering, x.compare3 offset y = .ok (Ordering.sign o) ∧ o.Compares (place x) (place y)

theorem sign_swap (o : Ordering) : Ordering.sign o.swap = -Ordering.sign o := by
  cases o <;> rfl

theorem sign_eq (o : Ordering) : Ordering.sign o = ((o == .gt).toNat : Int) - (o == .lt).toNat := by
  cases o <;> rfl

theorem Placed.swap (hxy : Placed offset place x y) (hyx : Placed offset place y x) :
    ∃ n : Int, x.compare3 offset y = .ok n ∧ y.compare3 offset x = .ok (-n) := by
  obtain ⟨o, ho, hcompares⟩ := hxy
  obtain ⟨p, hp, hback⟩ := hyx
  obtain rfl : o.swap = p := (Ordering.compares_swap.mpr hcompares).inj hback
  exact ⟨Ordering.sign o, ho, sign_swap o ▸ hp⟩

theorem Placed.nonpos_iff (h : Placed offset place x y) (hn : x.compare3 offset y = .ok n) :
    n ≤ 0 ↔ place x ≤ place y := by
  obtain ⟨o, ho, hcompares⟩ := h
  cases hn.symm.trans ho
  rw [← hcompares.ne_gt]
  cases o <;> decide

theorem compare3_null (offset : Int) (hy : y ≠ null) : null.compare3 offset y = .ok (-1) := by
  cases y <;> first | rfl | exact absurd rfl hy

theorem compare3_to_null (offset : Int) (hx : x ≠ null) : x.compare3 offset null = .ok 1 := by
  cases x <;> first | rfl | exact absurd rfl hx

theorem placed_of_family {Has : Datum → Prop} (hnull : place null = ⊥) (hne : ∀ x, Has x → x ≠ null ∧ place x ≠ ⊥)
    (h : ∀ x y, Has x → Has y → Placed offset place x y) (hx : x = null ∨ Has x) (hy : y = null ∨ Has y) :
    Placed offset place x y := by
  rcases hx with rfl | hx
  · rcases hy with rfl | hy
    · exact ⟨.eq, rfl, rfl⟩
    · obtain ⟨hy, hplace⟩ := hne y hy
      refine ⟨.lt, compare3_null offset hy, ?_⟩
      rw [hnull]
      exact bot_lt_iff_ne_bot.mpr hplace
  · rcases hy with rfl | hy
    · obtain ⟨hx, hplace⟩ := hne x hx
      refine ⟨.gt, compare3_to_null offset hx, ?_⟩
      rw [hnull]
      exact bot_lt_iff_ne_bot.mpr hplace
    · exact h x y hx hy

theorem compares_coe {p q : β} (h : o.Compares p q) : o.Compares (p : WithBot β) q := by
  cases o with
  | lt => exact WithBot.coe_lt_coe.mpr h
  | eq => exact congrArg _ h
  | gt => exact WithBot.coe_lt_coe.mpr h

def textPlace : Datum → WithBot (List Nat)
  | text t => t
  | _ => ⊥

def spanPlace : Datum → WithBot Int
  | timeSpan t => t.ticks
  | _ => ⊥

def timePlace : Datum → WithBot Int
  | dateTime d => (d.ticks : Int)
  | _ => ⊥

def numberPlace (x : Datum) : WithBot (ℤ ×ₗ ℤ) := x.number?.bind Number.place?

theorem placed_texts {s t : List Nat} : Placed offset textPlace (text s) (text t) := by
  refine ⟨compareOfLessAndEq s t, ?_, compares_coe Double.compares_compareOfLessAndEq⟩
  rw [sign_eq]
  rfl

theorem placed_spans {s t : TimeSpan} : Placed offset spanPlace (timeSpan s) (timeSpan t) :=
  ⟨compare s.ticks t.ticks, rfl, compares_coe Double.compares_compareOfLessAndEq⟩

theorem placed_times {d e : DateTime} (h : d.kind = e.kind) :
    Placed offset timePlace (dateTime d) (dateTime e) := by
  refine ⟨compare (d.ticks : Int) e.ticks, ?_, compares_coe Double.compares_compareOfLessAndEq⟩
  have hcmp : d.cmp offset e = compare (d.ticks : Int) e.ticks := by
    rw [DateTime.cmp, DateTime.pair, if_pos h]
  rw [← hcmp]
  rfl

theorem compare3_numbers (offset : Int) (hx : x.number? = some a) (hy : y.number? = some b) :
    x.compare3 offset y = .ok (((a.compare? b).map Ordering.sign).getD 0) := by
  have hsign : ((a.compare? b).map Ordering.sign).getD 0 =
      (((a.compare? b).any OrderOp.gt.holds).toNat : Int) - ((a.compare? b).any OrderOp.lt.holds).toNat := by
    cases a.compare? b with
    | none => rfl
    | some o => exact sign_eq o
  rw [hsign]
  cases x <;> cases hx <;> cases y <;> cases hy <;> rfl

def HasPlace (x : Datum) : Prop := ∃ a p, x.number? = some a ∧ a.place? = some p

theorem not_null_of_number (hx : Family.numbers.Has x) : x ≠ null := by
  rintro rfl
  obtain ⟨a, ha⟩ := hx
  cases ha

theorem hasPlace_iff (hx : Family.numbers.Has x) : HasPlace x ↔ x.isNaN = false := by
  obtain ⟨a, hx⟩ := hx
  cases x with
  | number b =>
      cases hx
      cases a with
      | int n => exact iff_of_true ⟨_, _, rfl, rfl⟩ rfl
      | double d =>
          constructor
          · rintro ⟨_, p, hd, hp⟩
            cases hd
            exact (Number.place?_double hp).1
          · intro hd
            exact ⟨_, d.place, rfl, if_neg (Bool.eq_false_iff.mp hd)⟩
  | _ => first | exact iff_of_true ⟨_, _, rfl, rfl⟩ rfl | cases hx

theorem placed_numbers (hx : x = null ∨ Family.numbers.Has x) (hxn : x.isNaN = false)
    (hy : y = null ∨ Family.numbers.Has y) (hyn : y.isNaN = false) : Placed offset numberPlace x y := by
  have hplace {x : Datum} (hx : x = null ∨ Family.numbers.Has x) (hxn : x.isNaN = false) :
      x = null ∨ HasPlace x :=
    hx.imp_right fun hx => (hasPlace_iff hx).mpr hxn
  refine placed_of_family rfl ?_ ?_ (hplace hx hxn) (hplace hy hyn)
  · rintro x ⟨a, p, hx, hp⟩
    refine ⟨not_null_of_number ⟨a, hx⟩, ?_⟩
    rw [numberPlace, hx, Option.bind_some, hp]
    exact WithBot.coe_ne_bot
  · rintro x y ⟨a, p, hx, hp⟩ ⟨b, q, hy, hq⟩
    obtain ⟨o, ho, hcompares⟩ := Number.compare?_compares hp hq
    refine ⟨o, ?_, ?_⟩
    · rw [compare3_numbers offset hx hy, ho]
      rfl
    · rw [numberPlace, numberPlace, hx, hy, Option.bind_some, Option.bind_some, hp, hq]
      exact compares_coe hcompares

theorem compare3_nan (offset : Int) (hx : Family.numbers.Has x) (hy : Family.numbers.Has y)
    (h : ¬(x.isNaN = false ∧ y.isNaN = false)) : x.compare3 offset y = .ok 0 := by
  rw [← hasPlace_iff hx, ← hasPlace_iff hy] at h
  obtain ⟨a, hx⟩ := hx
  obtain ⟨b, hy⟩ := hy
  have hnone : a.place? = none ∨ b.place? = none := by
    by_contra hsome
    simp only [not_or, Option.ne_none_iff_exists'] at hsome
    obtain ⟨⟨p, hp⟩, q, hq⟩ := hsome
    exact h ⟨⟨a, p, hx, hp⟩, b, q, hy, hq⟩
  rw [compare3_numbers offset hx hy, Number.compare?_none hnone]
  rfl

theorem numbers_swap (hx : x = null ∨ Family.numbers.Has x) (hy : y = null ∨ Family.numbers.Has y) :
    ∃ n : Int, x.compare3 offset y = .ok n ∧ y.compare3 offset x = .ok (-n) := by
  by_cases h : x.isNaN = false ∧ y.isNaN = false
  · exact (placed_numbers hx h.1 hy h.2).swap (placed_numbers hy h.2 hx h.1)
  · rcases hx with rfl | hx <;> rcases hy with rfl | hy
    · exact ⟨0, rfl, rfl⟩
    · exact ⟨-1, compare3_null offset (not_null_of_number hy), compare3_to_null offset (not_null_of_number hy)⟩
    · exact ⟨1, compare3_to_null offset (not_null_of_number hx), compare3_null offset (not_null_of_number hx)⟩
    · exact ⟨0, compare3_nan offset hx hy h, compare3_nan offset hy hx fun h' => h h'.symm⟩

theorem numbers_trans (hx : x = null ∨ Family.numbers.Has x) (hy : y = null ∨ Family.numbers.Has y)
    (hz : z = null ∨ Family.numbers.Has z) {xy yz xz : Int} (hxy : x.compare3 offset y = .ok xy)
    (hyz : y.compare3 offset z = .ok yz) (hxz : x.compare3 offset z = .ok xz) (hyn : y.isNaN = false)
    (hle : xy ≤ 0) (hle' : yz ≤ 0) : xz ≤ 0 := by
  by_cases h : x.isNaN = false ∧ z.isNaN = false
  · obtain ⟨hxn, hzn⟩ := h
    rw [(placed_numbers hx hxn hy hyn).nonpos_iff hxy] at hle
    rw [(placed_numbers hy hyn hz hzn).nonpos_iff hyz] at hle'
    exact ((placed_numbers hx hxn hz hzn).nonpos_iff hxz).mpr (hle.trans hle')
  · rcases hz with rfl | hz
    · -- what is not after null is null, so `x` would be null as well
      have hnull {u : Datum} {n : Int} (hu : u = null ∨ Family.numbers.Has u)
          (hn : u.compare3 offset null = .ok n) (hle : n ≤ 0) : u = null := by
        refine hu.resolve_right fun hu => ?_
        cases hn.symm.trans (compare3_to_null offset (not_null_of_number hu))
        exact absurd hle (by decide)
      obtain rfl := hnull hy hyz hle'
      obtain rfl := hnull hx hxy hle
      exact absurd ⟨rfl, rfl⟩ h
    · rcases hx with rfl | hx
      · cases hxz.symm.trans (compare3_null offset (not_null_of_number hz))
        decide
      · cases hxz.symm.trans (compare3_nan offset hx hz h)
        exact le_rfl

/-- Three values compare as in an order: the pair turned round has the opposite sign, and the order is transitive
unless NaN stands in the middle. -/
def Ordered (offset : Int) (x y z : Datum) : Prop :=
  ∃ xy yz xz : Int, x.compare3 offset y = .ok xy ∧ y.compare3 offset x = .ok (-xy) ∧
    y.compare3 offset z = .ok yz ∧ x.compare3 offset z = .ok xz ∧
    (y.isNaN = false → xy ≤ 0 → yz ≤ 0 → xz ≤ 0)

theorem ordered_of_placed (place : Datum → WithBot β) {Has : Datum → Prop} (hnull : place null = ⊥)
    (hne : ∀ x, Has x → x ≠ null ∧ place x ≠ ⊥) (h : ∀ x y, Has x → Has y → Placed offset place x y)
    (hx : x = null ∨ Has x) (hy : y = null ∨ Has y) (hz : z = null ∨ Has z) : Ordered offset x y z := by
  have hxy := placed_of_family hnull hne h hx hy
  have hyz := placed_of_family hnull hne h hy hz
  have hxz := placed_of_family hnull hne h hx hz
  obtain ⟨xy, hc, hback⟩ := hxy.swap (placed_of_family hnull hne h hy hx)
  obtain ⟨yz, hc', -⟩ := hyz.swap (placed_of_family hnull hne h hz hy)
  obtain ⟨xz, hc'', -⟩ := hxz.swap (placed_of_family hnull hne h hz hx)
  refine ⟨xy, yz, xz, hc, hback, hc', hc'', fun _ hle hle' => (hxz.nonpos_iff hc'').mpr ?_⟩
  exact ((hxy.nonpos_iff hc).mp hle).trans ((hyz.nonpos_iff hc').mp hle')

theorem compare3_family (offset : Int) (f : Family) (hx : x = null ∨ f.Has x) (hy : y = null ∨ f.Has y)
    (hz : z = null ∨ f.Has z) : Ordered offset x y z := by
  cases f with
  | numbers =>
      obtain ⟨xy, hxy, hback⟩ := numbers_swap hx hy
      obtain ⟨yz, hyz, -⟩ := numbers_swap hy hz
      obtain ⟨xz, hxz, -⟩ := numbers_swap hx hz
      exact ⟨xy, yz, xz, hxy, hback, hyz, hxz, numbers_trans hx hy hz hxy hyz hxz⟩
  | texts =>
      refine ordered_of_placed textPlace rfl ?_ ?_ hx hy hz
      · rintro _ ⟨t, rfl⟩
        exact ⟨nofun, WithBot.coe_ne_bot⟩
      · rintro _ _ ⟨s, rfl⟩ ⟨t, rfl⟩
        exact placed_texts
  | spans =>
      refine ordered_of_placed spanPlace rfl ?_ ?_ hx hy hz
      · rintro _ ⟨t, rfl⟩
        exact ⟨nofun, WithBot.coe_ne_bot⟩
      · rintro _ _ ⟨s, rfl⟩ ⟨t, rfl⟩
        exact placed_spans
  | times kind =>
      refine ordered_of_placed timePlace rfl ?_ ?_ hx hy hz
      · rintro _ ⟨d, -, rfl⟩
        exact ⟨nofun, WithBot.coe_ne_bot⟩
      · rintro _ _ ⟨d, hd, rfl⟩ ⟨e, he, rfl⟩
        exact placed_times (hd.trans he.symm)

theorem compare3_incomparable (offset : Int) (hx : Family.numbers.Has x) (hy : Family.texts.Has y) :
    x.compare3 offset y = .error (.failure .incomparable) ∧
      y.compare3 offset x = .error (.failure .incomparable) := by
  obtain ⟨a, hx⟩ := hx
  obtain ⟨t, rfl⟩ := hy
  cases x <;> cases hx <;> exact ⟨rfl, rfl⟩

end Datum

namespace Session

open Library
open Datum (Family)

/-- The default comparison of two values gives an integer. -/
def Compares (s : Session) (x y : Value) (n : Int) : Prop :=
  s.exec (Catalogue.call "default_compare" [x, y]) = (.ok (.int n), s)

/-- Two values are refused as incomparable. -/
def Refuses (s : Session) (x y : Value) : Prop :=
  s.exec (Catalogue.call "default_compare" [x, y]) = (.error (.failure .incomparable), s)

theorem exec_defaultCompare (s : Session) (x y : Value) :
    s.exec (Catalogue.call "default_compare" [x, y]) = ((s.compare3 x y).map .int, s) := by
  have hcall : s.exec (Catalogue.call "default_compare" [x, y]) =
      s.exec (do pure (Value.int (← ofExcept (s.compare3 x y)))) := rfl
  rw [hcall]
  cases s.compare3 x y <;> rfl

theorem compares_of_eq {s : Session} {x y : Value} {n : Int} (h : s.compare3 x y = .ok n) : s.Compares x y n := by
  rw [Compares, exec_defaultCompare, h]
  rfl

theorem refuses_of_eq {s : Session} {x y : Value} (h : s.compare3 x y = .error (.failure .incomparable)) :
    s.Refuses x y := by
  rw [Refuses, exec_defaultCompare, h]
  rfl

/-- Numbers, texts, durations and times of one kind have each a common order with null: comparisons give opposite signs for
a pair and the pair turned round, and are transitive through every value but NaN, which compares as equal to each
number. Numbers and texts are refused together. -/
theorem defaultCompare_families (s : Session) :
    (∀ (f : Family) (x y z : Value), (∀ v ∈ [x, y, z], s.view v = .null ∨ f.Has (s.view v)) →
      ∃ xy yz xz : Int, s.Compares x y xy ∧ s.Compares y x (-xy) ∧ s.Compares y z yz ∧ s.Compares x z xz ∧
        ((s.view y).isNaN = false → xy ≤ 0 → yz ≤ 0 → xz ≤ 0)) ∧
    (∀ x y : Value, Family.numbers.Has (s.view x) → Family.numbers.Has (s.view y) →
      ¬((s.view x).isNaN = false ∧ (s.view y).isNaN = false) → s.Compares x y 0) ∧
    (∀ x y : Value, Family.numbers.Has (s.view x) → Family.texts.Has (s.view y) →
      s.Refuses x y ∧ s.Refuses y x) := by
  refine ⟨fun f x y z h => ?_, fun x y hx hy h => ?_, fun x y hx hy => ?_⟩
  · obtain ⟨xy, yz, xz, hxy, hback, hyz, hxz, htrans⟩ :=
      Datum.compare3_family s.offset f (h x (by simp)) (h y (by simp)) (h z (by simp))
    exact ⟨xy, yz, xz, compares_of_eq hxy, compares_of_eq hback, compares_of_eq hyz, compares_of_eq hxz, htrans⟩
  · exact compares_of_eq (Datum.compare3_nan s.offset hx hy h)
  · obtain ⟨hforth, hback⟩ := Datum.compare3_incomparable s.offset hx hy
    exact ⟨refuses_of_eq hforth, refuses_of_eq hback⟩

def threeHalves : Double := ⟨0x3FF8000000000000⟩

theorem defaultCompare_families_mixed :
    (∀ v ∈ [Value.int 1, .double threeHalves, .int 2],
      (start 0).view v = .null ∨ Family.numbers.Has ((start 0).view v)) ∧
    (∃ xy yz xz : Int, (start 0).Compares (.int 1) (.double threeHalves) xy ∧
      (start 0).Compares (.double threeHalves) (.int 1) (-xy) ∧
      (start 0).Compares (.double threeHalves) (.int 2) yz ∧ (start 0).Compares (.int 1) (.int 2) xz ∧
      (((start 0).view (.double threeHalves)).isNaN = false → xy ≤ 0 → yz ≤ 0 → xz ≤ 0)) ∧
    (start 0).Compares (.double .nan) (.int 1) 0 ∧
    (start 0).Refuses (.int 1) (.text ['1']) ∧ (start 0).Refuses (.text ['1']) (.int 1) := by
  obtain ⟨hordered, hnan, hrefused⟩ := defaultCompare_families (start 0)
  have hone : Family.numbers.Has ((start 0).view (.int 1)) := ⟨_, rfl⟩
  have hnumbers : ∀ v ∈ [Value.int 1, .double threeHalves, .int 2],
      (start 0).view v = .null ∨ Family.numbers.Has ((start 0).view v) := by
    simp only [List.forall_mem_cons, List.not_mem_nil, false_imp_iff, implies_true, and_true]
    exact ⟨.inr hone, .inr ⟨_, rfl⟩, .inr ⟨_, rfl⟩⟩
  exact ⟨hnumbers, hordered _ _ _ _ hnumbers, hnan _ _ ⟨_, rfl⟩ hone (by decide +kernel),
    hrefused _ _ hone ⟨_, rfl⟩⟩

def duration : Session := { start 0 with store := #[.timeSpan ⟨5, by decide, by decide⟩] }

/-- NaN is as great as two and as one; a duration and a number are not refused as incomparable. -/
theorem nan_between :
    duration.Compares (.int 2) (.double .nan) 0 ∧ duration.Compares (.double .nan) (.int 1) 0 ∧
      duration.Compares (.int 2) (.int 1) 1 ∧
      duration.exec (Catalogue.call "default_compare" [.ref 0, .int 1]) =
        (.error (.misuse .noSuchMember), duration) :=
  ⟨rfl, rfl, rfl, rfl⟩

end Session

end BaseLib
