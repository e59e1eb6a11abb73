import BaseLib.Proofs.Calendar.Times
import BaseLib.Proofs.Session.Equality

namespace BaseLib

open Library

namespace DateTime

variable {offset : Int} {a b d : DateTime}

theorem pair_sub (offset : Int) (a b : DateTime) :
    (pair offset a b).1 - (pair offset a b).2 = a.instant offset - b.instant offset := by
  unfold pair
  split
  · rename_i hk
    unfold instant
    rw [hk]
    cases b.kind <;> simp
  · rfl

theorem sign_compare (x y : Int) : Ordering.sign (compare x y) = (x - y).sign := by
  rcases lt_trichotomy x y with h | rfl | h
  · rw [compare_lt_iff_lt.mpr h, Int.sign_eq_neg_one_of_neg (by omega)]
    rfl
  · rw [compare_eq_iff_eq.mpr rfl, Int.sub_self]
    rfl
  · rw [compare_gt_iff_gt.mpr h, Int.sign_eq_one_of_pos (by omega)]
    rfl

theorem sign_cmp (offset : Int) (a b : DateTime) :
    Ordering.sign (cmp offset a b) = (a.instant offset - b.instant offset).sign := by
  rw [cmp, sign_compare, pair_sub]

/-- The clock of the host runs less than a day ahead of UTC or behind it. -/
def Host (offset : Int) : Prop := -1440 < offset ∧ offset < 1440

instance (offset : Int) : Decidable (Host offset) := inferInstanceAs (Decidable (_ ∧ _))

theorem instant_bounds (ho : Host offset) (d : DateTime) :
    d.ticks - 864000000000 < d.instant offset ∧ d.instant offset < d.ticks + 864000000000 := by
  obtain ⟨hlo, hhi⟩ := ho
  simp only [instant, TimeSpan.perMinute]
  split <;> omega

theorem subtract_eq (ho : Host offset) (a b : DateTime) :
    ∃ t, a.subtract offset b = .ok t ∧ t.ticks = a.instant offset - b.instant offset := by
  have ha := instant_bounds ho a
  have hb := instant_bounds ho b
  have hat := a.ticks_le
  have hbt := b.ticks_le
  rw [subtract, pair_sub, TimeSpan.ofTicks, dif_pos (by omega)]
  exact ⟨_, rfl, rfl⟩

theorem instant_sub (offset : Int) (h : a.kind = b.kind) :
    a.instant offset - a.ticks = b.instant offset - b.ticks := by
  unfold instant
  rw [h]
  cases b.kind <;> simp

theorem add_eq {t : TimeSpan} (h : 0 ≤ b.ticks + t.ticks ∧ b.ticks + t.ticks ≤ maxTicks) (offset : Int) :
    ∃ d, b.add t = .ok d ∧ d.instant offset = b.instant offset + t.ticks := by
  obtain ⟨d, hd, hticks, hkind⟩ := ofTicks_eq h b.kind
  have := instant_sub offset hkind
  exact ⟨d, hd, by omega⟩

end DateTime

namespace Session

open DateTime (Host)

/-- What the members of two times say about their order, when the first one compares as `n`. -/
structure Ordered (s : Session) (i j : Nat) (n : Int) : Prop where
  compareTo : s.exec (Methods.call (.ref i) "CompareTo" [.ref j]) = (.ok (.int n), s)
  equals : s.exec (Methods.call (.ref i) "Equals" [.ref j]) = (.ok (.bool (n == 0)), s)
  equality : s.exec (Catalogue.call "DateTime.op_Equality" [.ref i, .ref j]) = (.ok (.bool (n == 0)), s)
  inequality : s.exec (Catalogue.call "DateTime.op_Inequality" [.ref i, .ref j]) =
    (.ok (.bool (n != 0)), s)
  lessThan : s.exec (Catalogue.call "DateTime.op_LessThan" [.ref i, .ref j]) =
    (.ok (.bool (n < 0)), s)
  lessThanOrEqual : s.exec (Catalogue.call "DateTime.op_LessThanOrEqual" [.ref i, .ref j]) =
    (.ok (.bool (n ≤ 0)), s)
  greaterThan : s.exec (Catalogue.call "DateTime.op_GreaterThan" [.ref i, .ref j]) =
    (.ok (.bool (0 < n)), s)
  greaterThanOrEqual : s.exec (Catalogue.call "DateTime.op_GreaterThanOrEqual" [.ref i, .ref j]) =
    (.ok (.bool (0 ≤ n)), s)
  hash : ∃ h h', s.exec (Methods.call (.ref i) "GetHashCode" []) = (.ok (.int h), s) ∧
    s.exec (Methods.call (.ref j) "GetHashCode" []) = (.ok (.int h'), s) ∧ (n = 0 → h = h')
  subtraction : ∃ id t m, s.exec (Catalogue.call "DateTime.op_Subtraction" [.ref i, .ref j]) =
      (.ok (.ref id), t) ∧ t.Shows id "Ticks" (.int m) ∧ m.sign = n ∧
    ∃ k, s.Shows j "Ticks" (.int k) ∧
      (0 ≤ k + m ∧ k + m ≤ DateTime.maxTicks →
        ∃ r u, t.exec (Methods.call (.ref j) "Add" [.ref id]) = (.ok (.ref r), u) ∧
          u.exec (Methods.call (.ref r) "Equals" [.ref i]) = (.ok (.bool true), u))

variable {s : Session} {i j : Nat} {a b : DateTime} {x y : Value}

theorem view_time (h : s.store[i]? = some (.dateTime a)) : s.view (.ref i) = .dateTime a := by
  simp only [view, depth, viewAt, h]

theorem exec_compareOwn (ha : s.store[i]? = some (.dateTime a)) (hb : s.store[j]? = some (.dateTime b)) :
    s.exec (Times.compareOwn (.ref i) (.ref j)) = (.ok (a.cmp s.offset b), s) := by
  rw [Times.compareOwn, exec_get_bind]
  simp only [view_time ha, view_time hb]
  rfl

theorem equals_time (ha : s.store[i]? = some (.dateTime a)) (hb : s.store[j]? = some (.dateTime b)) :
    s.equals (.ref i) (.ref j) = (a.instant s.offset == b.instant s.offset) := by
  have heq : s.equals (.ref i) (.ref j) = a.equals s.offset b := by
    simp only [equals, view_time ha, view_time hb]
    rfl
  rw [heq, Bool.eq_iff_iff, DateTime.equals_iff, beq_iff_eq]

theorem exec_equals (ha : s.store[i]? = some (.dateTime a)) (hb : s.store[j]? = some (.dateTime b)) :
    s.exec (Methods.call (.ref i) "Equals" [.ref j]) =
      (.ok (.bool (a.instant s.offset == b.instant s.offset)), s) := by
  rw [← equals_time ha hb]
  exact (exec_call ha rfl _).trans rfl

theorem exec_compareTo (ha : s.store[i]? = some (.dateTime a)) (hb : s.store[j]? = some (.dateTime b)) :
    s.exec (Methods.call (.ref i) "CompareTo" [.ref j]) =
      (.ok (.int (a.instant s.offset - b.instant s.offset).sign), s) := by
  rw [← DateTime.sign_cmp]
  refine (exec_call ha rfl _).trans ?_
  exact (exec_bind_ok (exec_compareOwn ha hb) _).trans rfl

theorem exec_orderTest {test : Ordering → Bool} {p : Int → Bool} (h : ∀ o, test o = p (Ordering.sign o))
    (ha : s.store[i]? = some (.dateTime a)) (hb : s.store[j]? = some (.dateTime b)) :
    s.exec ((Times.orderTest test).call [.ref i, .ref j]) =
      (.ok (.bool (p (a.instant s.offset - b.instant s.offset).sign)), s) := by
  rw [← DateTime.sign_cmp, ← h]
  exact (exec_bind_ok (exec_compareOwn ha hb) _).trans rfl

theorem exec_hashCode (ha : s.store[i]? = some (.dateTime a)) :
    s.exec (Methods.call (.ref i) "GetHashCode" []) = (.ok (.int (a.hash s.offset)), s) := by
  have hcontent : (s.content (.ref i)).hash = a.hash s.offset := by
    simp only [content, view_time ha]
    rfl
  have hbuilt : Built s true 1 (.ref i) := .whole ha rfl
  rw [← hcontent, ← hashOf_eq hbuilt]
  exact (exec_call ha rfl _).trans rfl

theorem exec_subtraction (ha : s.store[i]? = some (.dateTime a)) (hb : s.store[j]? = some (.dateTime b))
    {t : TimeSpan} (ht : a.subtract s.offset b = .ok t) :
    s.exec (Catalogue.call "DateTime.op_Subtraction" [.ref i, .ref j]) =
      (.ok (.ref s.store.size), s.grow (.timeSpan t)) := by
  have hrun : s.exec (Times.timeSubtraction (.ref i) (.ref j)) =
      s.exec (newSpan (a.subtract s.offset b)) := by
    rw [Times.timeSubtraction, exec_get_bind]
    simp only [object?, ha]
    rw [Times.subtractFromTime, exec_get_bind]
    simp only [object?, hb]
    rfl
  rw [ht] at hrun
  exact hrun

theorem exec_add {t : TimeSpan} {d : DateTime} (hb : s.store[j]? = some (.dateTime b))
    (ht : s.store[i]? = some (.timeSpan t)) (hd : b.add t = .ok d) :
    s.exec (Methods.call (.ref j) "Add" [.ref i]) =
      (.ok (.ref s.store.size), s.grow (.dateTime d)) := by
  have hview : s.view (.ref i) = .timeSpan t := by simp only [view, depth, viewAt, ht]
  have hticks : s.exec (Times.ticksOf (.ref i)) = (.ok t.ticks, s) := by
    rw [Times.ticksOf, exec_get_bind, hview]
    rfl
  have hrun : s.exec (Times.addToTime b (.ref i)) = s.exec (newTime (b.add t)) := by
    rw [Times.addToTime, exec_bind_ok hticks]
    rfl
  rw [hd] at hrun
  refine (exec_call hb rfl _).trans ?_
  exact hrun

/-- The difference of two times, added to the second one, gives a time that is equal to the first. -/
theorem exec_subtraction_add (ho : Host s.offset) (ha : s.store[i]? = some (.dateTime a))
    (hb : s.store[j]? = some (.dateTime b)) :
    ∃ id t m, s.exec (Catalogue.call "DateTime.op_Subtraction" [.ref i, .ref j]) = (.ok (.ref id), t) ∧
      t.Shows id "Ticks" (.int m) ∧ m = a.instant s.offset - b.instant s.offset ∧
      (0 ≤ b.ticks + m ∧ b.ticks + m ≤ DateTime.maxTicks →
        ∃ r u, t.exec (Methods.call (.ref j) "Add" [.ref id]) = (.ok (.ref r), u) ∧
          u.exec (Methods.call (.ref r) "Equals" [.ref i]) = (.ok (.bool true), u)) := by
  obtain ⟨t, ht, hticks⟩ := DateTime.subtract_eq ho a b
  have hspan := store_grow s (.timeSpan t)
  refine ⟨_, _, t.ticks, exec_subtraction ha hb ht, ?_, hticks, fun hrange => ?_⟩
  · rw [Shows, Properties.read, exec_get_bind]
    simp only [object?, hspan]
    rfl
  · obtain ⟨d, hd, hinstant⟩ := DateTime.add_eq hrange s.offset
    have hadd := exec_add (store_grow_of_some hb (.timeSpan t)) hspan hd
    have ha' := store_grow_of_some (store_grow_of_some ha (.timeSpan t)) (.dateTime d)
    refine ⟨_, _, hadd, (exec_equals (store_grow _ (.dateTime d)) ha').trans ?_⟩
    have heq : (d.instant s.offset == a.instant s.offset) = true := by
      rw [beq_iff_eq]
      omega
    rw [← heq]
    rfl

theorem ordered (ho : Host s.offset) (ha : s.store[i]? = some (.dateTime a))
    (hb : s.store[j]? = some (.dateTime b)) :
    s.Ordered i j (a.instant s.offset - b.instant s.offset).sign where
  compareTo := exec_compareTo ha hb
  equals := by
    have hzero : (a.instant s.offset == b.instant s.offset) =
        ((a.instant s.offset - b.instant s.offset).sign == 0) := by
      rw [Bool.eq_iff_iff, beq_iff_eq, beq_iff_eq, Int.sign_eq_zero_iff_zero, Int.sub_eq_zero]
    exact hzero ▸ exec_equals ha hb
  equality := exec_orderTest (p := (· == 0)) (fun o => by cases o <;> rfl) ha hb
  inequality := exec_orderTest (p := (· != 0)) (fun o => by cases o <;> rfl) ha hb
  lessThan := exec_orderTest (p := (· < 0)) (fun o => by cases o <;> rfl) ha hb
  lessThanOrEqual := exec_orderTest (p := (· ≤ 0)) (fun o => by cases o <;> rfl) ha hb
  greaterThan := exec_orderTest (p := (0 < ·)) (fun o => by cases o <;> rfl) ha hb
  greaterThanOrEqual := exec_orderTest (p := (0 ≤ ·)) (fun o => by cases o <;> rfl) ha hb
  hash := by
    refine ⟨_, _, exec_hashCode ha, exec_hashCode hb, fun h => ?_⟩
    rw [DateTime.hash, DateTime.hash, Int.sub_eq_zero.mp (Int.sign_eq_zero_iff_zero.mp h)]
  subtraction := by
    obtain ⟨id, t, m, hsub, hm, rfl, hadd⟩ := exec_subtraction_add ho ha hb
    exact ⟨id, t, _, hsub, hm, rfl, b.ticks, shows_ticks hb, hadd⟩

/-- Times of all kinds are ordered by `CompareTo`, under every offset of the host: it is total,
antisymmetric and transitive, and all else follows it. -/
theorem times_ordered {k : Nat} {c : DateTime} (ho : Host s.offset)
    (ha : s.store[i]? = some (.dateTime a)) (hb : s.store[j]? = some (.dateTime b))
    (hc : s.store[k]? = some (.dateTime c)) :
    ∃ ab ba bc ac, s.Ordered i j ab ∧ s.Ordered j i ba ∧ s.Ordered j k bc ∧ s.Ordered i k ac ∧
      ba = -ab ∧ (ab ≤ 0 ∨ ba ≤ 0) ∧ (ab ≤ 0 → ba ≤ 0 → ab = 0) ∧ (ab ≤ 0 → bc ≤ 0 → ac ≤ 0) := by
  refine ⟨_, _, _, _, ordered ho ha hb, ordered ho hb ha, ordered ho hb hc, ordered ho ha hc, ?_, ?_⟩
  · rw [← Int.sign_neg, Int.neg_sub]
  · simp only [Int.sign_nonpos_iff, Int.sign_eq_zero_iff_zero]
    omega

/-- A local time, an unspecified one and one of UTC, an hour east of Greenwich. -/
def kinds : Session :=
  { start 60 with
    store := #[.dateTime ⟨600000000, .localTime, by decide⟩, .dateTime .minValue,
      .dateTime { DateTime.minValue with kind := .utc }] }

/-- The local time and the unspecified one are before the one of UTC, which is the first of all times. -/
theorem times_ordered_kinds :
    ∃ ab ba bc ac, kinds.Ordered 0 1 ab ∧ kinds.Ordered 1 0 ba ∧ kinds.Ordered 1 2 bc ∧
      kinds.Ordered 0 2 ac ∧
      ba = -ab ∧ (ab ≤ 0 ∨ ba ≤ 0) ∧ (ab ≤ 0 → ba ≤ 0 → ab = 0) ∧ (ab ≤ 0 → bc ≤ 0 → ac ≤ 0) :=
  times_ordered (by decide) rfl rfl rfl

end Session

end BaseLib
