import Mathlib.Data.List.Basic
import Mathlib.Tactic.Common

namespace BaseLib.Feedback

variable {D : Type}

/-- How far a query has come: its place in the list, or what is left of another collection, and how the
queries around it go on. -/
inductive Reader (D : Type)
  | own (next : Nat)
  | rest (ds : List D)
  | guarded (r : Reader D)
  | select (g : D → D) (r : Reader D)
  | filter (p : D → Bool) (r : Reader D)
  | chain (first second : Reader D)
  | take (count : Nat) (r : Reader D)
  | skip (count : Nat) (r : Reader D)

@[simp] def remaining (c : List D) : Reader D → List D
  | .own next => c.drop next
  | .rest ds => ds
  | .guarded r => remaining c r
  | .select g r => (remaining c r).map g
  | .filter p r => (remaining c r).filter p
  | .chain first second => remaining c first ++ remaining c second
  | .take count r => (remaining c r).take count
  | .skip count r => (remaining c r).drop count

def passed (p : D → Bool) : List D → Nat → Nat
  | [], _ => 0
  | _ :: _, 0 => 0
  | d :: ds, k + 1 => passed p ds (if p d then k else k + 1) + 1

/-- How far a query has come when it has given `k` more elements. A first part that is at its end is left
for good. -/
@[simp] def after (c : List D) : Reader D → Nat → Reader D
  | .own next, k => .own (next + k)
  | .rest ds, k => .rest (ds.drop k)
  | .guarded r, k => .guarded (after c r k)
  | .select g r, k => .select g (after c r k)
  | .filter p r, k => .filter p (after c r (passed p (remaining c r) k))
  | .chain first second, k =>
    if k ≤ (remaining c first).length then .chain (after c first k) second
    else after c second (k - (remaining c first).length)
  | .take count r, k => .take (count - k) (after c r k)
  | .skip count r, 0 => .skip count r
  | .skip count r, k + 1 => .skip 0 (after c r (count + (k + 1)))

@[simp] def need (c : List D) : Reader D → Nat
  | .own _ | .rest _ => 1
  | .guarded r => need c r + 2
  | .select _ r | .take _ r => need c r + 1
  | .filter _ r | .skip _ r => need c r + (remaining c r).length + 1
  | .chain first second => max (need c first) (need c second) + 1

/-- What a query over a list of data in `B` may ever give. -/
def Range (B : D → Prop) : Reader D → D → Prop
  | .own _, d => B d
  | .rest ds, d => d ∈ ds
  | .guarded r, d | .take _ r, d | .skip _ r, d => Range B r d
  | .select g r, d => ∃ e, Range B r e ∧ g e = d
  | .filter p r, d => Range B r d ∧ p d = true
  | .chain first second, d => Range B first d ∨ Range B second d

variable {B : D → Prop} {c : List D} {p : D → Bool} {r : Reader D} {d : D} {ds out : List D}

theorem passed_zero (p : D → Bool) (ds : List D) : passed p ds 0 = 0 := by
  cases ds <;> rfl

theorem filter_drop_passed (p : D → Bool) (ds : List D) (k : Nat) :
    (ds.drop (passed p ds k)).filter p = (ds.filter p).drop k := by
  induction ds generalizing k with
  | nil => simp
  | cons d ds ih =>
      cases k with
      | zero => rfl
      | succ k =>
          rw [passed, List.drop_succ_cons, ih]
          cases hd : p d <;> simp [hd]

theorem passed_add (p : D → Bool) (ds : List D) (i j : Nat) :
    passed p ds (i + j) = passed p ds i + passed p (ds.drop (passed p ds i)) j := by
  induction ds generalizing i with
  | nil => rfl
  | cons d ds ih =>
      cases i with
      | zero => rw [passed_zero, Nat.zero_add, Nat.zero_add, List.drop_zero]
      | succ i =>
          rw [Nat.succ_add, passed, passed, List.drop_succ_cons]
          cases hd : p d
          · have hrest := ih (i + 1)
            rw [Nat.add_right_comm] at hrest
            simp only [Bool.false_eq_true, if_false]
            omega
          · have hrest := ih i
            simp only [if_true]
            omega

theorem remaining_after (c : List D) (r : Reader D) (k : Nat) :
    remaining c (after c r k) = (remaining c r).drop k := by
  induction r generalizing k with
  | own next => simp [List.drop_drop]
  | rest ds => rfl
  | guarded r ih => exact ih k
  | select g r ih => simp [ih]
  | filter p r ih => rw [after, remaining, ih, filter_drop_passed, remaining]
  | chain first second ih ih' =>
      rw [after]
      split
      · rename_i hle
        rw [remaining, ih, remaining, List.drop_append_of_le_length hle]
      · rename_i hlt
        rw [ih', remaining, List.drop_append, List.drop_eq_nil_of_le (Nat.le_of_not_le hlt), List.nil_append]
  | take count r ih => rw [after, remaining, ih, remaining, List.drop_take]
  | skip count r ih =>
      cases k with
      | zero => rfl
      | succ k => rw [after, remaining, ih, remaining, List.drop_zero, List.drop_drop]

theorem after_after (c : List D) (r : Reader D) (i j : Nat) :
    after c (after c r i) j = after c r (i + j) := by
  induction r generalizing i j with
  | own next => simp [Nat.add_assoc]
  | rest ds => simp [List.drop_drop]
  | guarded r ih => simp [ih]
  | select g r ih => simp [ih]
  | filter p r ih => rw [after, after, remaining_after, ih, after, passed_add]
  | chain first second ih ih' =>
      rw [after, after]
      by_cases hi : i ≤ (remaining c first).length
      · rw [if_pos hi, after, remaining_after, List.length_drop]
        by_cases hj : i + j ≤ (remaining c first).length
        · rw [if_pos (by omega), if_pos hj, ih]
        · rw [if_neg (by omega), if_neg hj]
          congr 1
          omega
      · rw [if_neg hi, if_neg (by omega), ih']
        congr 1
        omega
  | take count r ih => rw [after, after, ih, after, Nat.sub_sub]
  | skip count r ih =>
      cases i with
      | zero => rw [after, Nat.zero_add]
      | succ i =>
          cases j with
          | zero => rfl
          | succ j =>
              rw [after, after, ih, ← Nat.add_assoc (i + 1), after]
              congr 2
              omega

theorem need_pos (c : List D) (r : Reader D) : 0 < need c r := by
  cases r <;> simp only [need] <;> omega

theorem need_after (c : List D) (r : Reader D) (k : Nat) : need c (after c r k) ≤ need c r := by
  induction r generalizing k with
  | own next => exact Nat.le_refl _
  | rest ds => exact Nat.le_refl _
  | guarded r ih | select g r ih | take count r ih =>
      have hr := ih k
      simp only [after, need]
      omega
  | filter p r ih =>
      have hr := ih (passed p (remaining c r) k)
      simp only [after, need, remaining_after, List.length_drop]
      omega
  | chain first second ih ih' =>
      have hfirst := ih k
      have hsecond := ih' (k - (remaining c first).length)
      rw [after]
      split
      · simp only [need]
        omega
      · simp only [need]
        omega
  | skip count r ih =>
      cases k with
      | zero => exact Nat.le_refl _
      | succ k =>
          have hr := ih (count + (k + 1))
          simp only [after, need, remaining_after, List.length_drop]
          omega

theorem after_filter_of_pos (h : remaining c r = d :: ds) (hd : p d = true) :
    after c (.filter p r) 1 = .filter p (after c r 1) := by
  rw [after, h, passed, if_pos hd, passed_zero]

theorem after_filter_of_neg (h : remaining c r = d :: ds) (hd : p d = false) :
    after c (.filter p r) 1 = after c (.filter p (after c r 1)) 1 := by
  rw [after, after, remaining_after, h, after_after, passed, hd, if_neg Bool.false_ne_true, Nat.add_comm 1]
  rfl

theorem after_skip (c : List D) (r : Reader D) (count : Nat) :
    after c (.skip (count + 1) r) 1 = after c (.skip count (after c r 1)) 1 := by
  rw [after, after, after_after, Nat.add_right_comm, Nat.add_comm 1]

theorem need_filter (h : remaining c r = d :: ds) :
    need c (.filter p (after c r 1)) < need c (.filter p r) := by
  have hr := need_after c r 1
  simp only [need, remaining_after, h, List.drop_succ_cons, List.drop_zero, List.length_cons]
  omega

theorem need_skip (h : remaining c r = d :: ds) (i j : Nat) :
    need c (.skip i (after c r 1)) < need c (.skip j r) := by
  have hr := need_after c r 1
  simp only [need, remaining_after, h, List.drop_succ_cons, List.drop_zero, List.length_cons]
  omega

theorem range_of_mem (hB : ∀ d ∈ c, B d) (h : d ∈ remaining c r) : Range B r d := by
  induction r generalizing d with
  | own next => exact hB d (List.mem_of_mem_drop h)
  | rest ds => exact h
  | guarded r ih => exact ih h
  | select g r ih =>
      obtain ⟨e, he, hd⟩ := List.mem_map.mp h
      exact ⟨e, ih he, hd⟩
  | filter p r ih =>
      obtain ⟨hd, hp⟩ := List.mem_filter.mp h
      exact ⟨ih hd, hp⟩
  | chain first second ih ih' => exact (List.mem_append.mp h).imp ih ih'
  | take count r ih => exact ih (List.mem_of_mem_take h)
  | skip count r ih => exact ih (List.mem_of_mem_drop h)

theorem range_after {k : Nat} (h : Range B (after c r k) d) : Range B r d := by
  induction r generalizing d k with
  | own next => exact h
  | rest ds => exact List.mem_of_mem_drop h
  | guarded r ih => exact ih h
  | select g r ih =>
      obtain ⟨e, he, hd⟩ := h
      exact ⟨e, ih he, hd⟩
  | filter p r ih => exact ⟨ih h.1, h.2⟩
  | chain first second ih ih' =>
      rw [after] at h
      split at h
      · exact h.imp_left ih
      · exact .inr (ih' h)
  | take count r ih => exact ih h
  | skip count r ih =>
      cases k with
      | zero => exact h
      | succ k => exact ih (k := count + (k + 1)) h

/-- What a query gives in all, when each element is added to its list before the next one is taken. -/
inductive Grows : List D → Reader D → List D → Prop
  | done {c : List D} {r : Reader D} (h : remaining c r = []) : Grows c r []
  | more {c : List D} {r : Reader D} {d : D} {ds out : List D} (h : remaining c r = d :: ds)
    (hrest : Grows (c ++ [d]) (after c r 1) out) : Grows c r (d :: out)

/-- Steps that are enough for a query that gives the elements. -/
def cost : List D → Reader D → List D → Nat
  | c, r, [] => need c r + 1
  | c, r, d :: out => max (need c r) (cost (c ++ [d]) (after c r 1) out) + 1

theorem need_lt_cost (c : List D) (r : Reader D) (out : List D) : need c r < cost c r out := by
  cases out <;> simp only [cost] <;> omega

theorem Grows.unique {out' : List D} (h : Grows c r out) (h' : Grows c r out') : out = out' := by
  induction h generalizing out' with
  | done h =>
      cases h' with
      | done _ => rfl
      | more h' _ => cases h.symm.trans h'
  | more h _ ih =>
      cases h' with
      | done h' => cases h'.symm.trans h
      | more h' hrest =>
          cases h.symm.trans h'
          rw [ih hrest]

def Streams (c : List D) : Reader D → Prop
  | .own next => next ≤ c.length
  | .rest _ => True
  | .guarded r | .select _ r | .filter _ r | .take _ r | .skip _ r => Streams c r
  | .chain _ _ => False

theorem streams_append (h : Streams c r) (e : List D) : Streams (c ++ e) r := by
  induction r with
  | own next => exact Nat.le_trans h (by simp)
  | rest ds => trivial
  | guarded r ih | select _ r ih | filter _ r ih | take _ r ih | skip _ r ih => exact ih h
  | chain _ _ => exact h

theorem passed_le (p : D → Bool) (ds : List D) (k : Nat) : passed p ds k ≤ ds.length := by
  induction ds generalizing k with
  | nil => exact Nat.le_refl 0
  | cons d ds ih =>
      cases k with
      | zero => exact Nat.zero_le _
      | succ k => exact Nat.succ_le_succ (ih _)

theorem passed_append {k : Nat} (h : k ≤ (ds.filter p).length) (e : List D) :
    passed p (ds ++ e) k = passed p ds k := by
  induction ds generalizing k with
  | nil =>
      obtain rfl : k = 0 := Nat.le_zero.mp h
      exact passed_zero p e
  | cons d ds ih =>
      cases k with
      | zero => rfl
      | succ k =>
          rw [List.cons_append, passed, passed]
          cases hd : p d with
          | true =>
              rw [List.filter_cons_of_pos hd] at h
              exact congrArg (· + 1) (ih (Nat.le_of_succ_le_succ h))
          | false =>
              rw [List.filter_cons_of_neg (by simp [hd])] at h
              exact congrArg (· + 1) (ih h)

theorem remaining_append (h : Streams c r) (e : List D) :
    ∃ e', remaining (c ++ e) r = remaining c r ++ e' := by
  induction r with
  | own next => exact ⟨e, List.drop_append_of_le_length h⟩
  | rest ds => exact ⟨[], (List.append_nil ds).symm⟩
  | guarded r ih => exact ih h
  | select g r ih =>
      obtain ⟨e', he⟩ := ih h
      exact ⟨e'.map g, by rw [remaining, he, List.map_append, remaining]⟩
  | filter p r ih =>
      obtain ⟨e', he⟩ := ih h
      exact ⟨e'.filter p, by rw [remaining, he, List.filter_append, remaining]⟩
  | take count r ih =>
      obtain ⟨e', he⟩ := ih h
      exact ⟨e'.take (count - (remaining c r).length), by rw [remaining, he, List.take_append, remaining]⟩
  | skip count r ih =>
      obtain ⟨e', he⟩ := ih h
      exact ⟨e'.drop (count - (remaining c r).length), by rw [remaining, he, List.drop_append, remaining]⟩
  | chain _ _ => exact h.elim

theorem after_append (h : Streams c r) (e : List D) {k : Nat} (hk : k ≤ (remaining c r).length) :
    after (c ++ e) r k = after c r k := by
  induction r generalizing k with
  | own next => rfl
  | rest ds => rfl
  | guarded r ih => exact congrArg Reader.guarded (ih h hk)
  | select g r ih => exact congrArg (Reader.select g) (ih h (by rwa [remaining, List.length_map] at hk))
  | filter p r ih =>
      obtain ⟨e', he⟩ := remaining_append (r := r) h e
      rw [after, after, he, passed_append hk, ih h (passed_le _ _ _)]
  | take count r ih =>
      rw [remaining, List.length_take] at hk
      exact congrArg (Reader.take _) (ih h (by omega))
  | skip count r ih =>
      cases k with
      | zero => rfl
      | succ k =>
          rw [remaining, List.length_drop] at hk
          exact congrArg (Reader.skip 0) (ih h (by omega))
  | chain _ _ => exact h.elim

theorem streams_after (h : Streams c r) {k : Nat} (hk : k ≤ (remaining c r).length) :
    Streams c (after c r k) := by
  induction r generalizing k with
  | own next =>
      change next ≤ c.length at h
      rw [remaining, List.length_drop] at hk
      show next + k ≤ c.length
      omega
  | rest ds => trivial
  | guarded r ih => exact ih h hk
  | select g r ih => exact ih h (by rwa [remaining, List.length_map] at hk)
  | filter p r ih => exact ih h (passed_le _ _ _)
  | take count r ih =>
      rw [remaining, List.length_take] at hk
      exact ih h (by omega)
  | skip count r ih =>
      cases k with
      | zero => exact h
      | succ k =>
          rw [remaining, List.length_drop] at hk
          exact ih h (k := count + (k + 1)) (by omega)
  | chain _ _ => exact h.elim

theorem Grows.fixed (h : Grows c r out) (hs : Streams c r) : remaining (c ++ out) r = out := by
  induction h with
  | done h => rwa [List.append_nil]
  | @more c r d ds out h _ ih =>
      have hk : 1 ≤ (remaining c r).length := by
        rw [h]
        exact Nat.succ_pos _
      obtain ⟨e', he⟩ := remaining_append hs (d :: out)
      have hrest := ih (streams_append (streams_after hs hk) [d])
      rw [← List.append_cons, ← after_append hs (d :: out) hk, remaining_after, he, h] at hrest
      rw [he, h]
      exact congrArg (List.cons d) hrest

/-- A query gives in all what it gave on the list as it was exactly if it gives the same on the longer
list. -/
theorem grows_remaining_iff (hs : Streams c r) :
    Grows c r (remaining c r) ↔ remaining (c ++ remaining c r) r = remaining c r := by
  refine ⟨fun h => h.fixed hs, fun h => ?_⟩
  generalize hds : remaining c r = ds at h
  induction ds generalizing c r with
  | nil => exact .done hds
  | cons d ds ih =>
      have hk : 1 ≤ (remaining c r).length := by
        rw [hds]
        exact Nat.succ_pos _
      have hs' := streams_after hs hk
      have hlong : remaining (c ++ [d] ++ ds) (after c r 1) = ds := by
        rw [← List.append_cons, ← after_append hs (d :: ds) hk, remaining_after, h]
        rfl
      obtain ⟨e, he⟩ := remaining_append hs' [d]
      obtain ⟨e', he'⟩ := remaining_append (streams_append hs' [d]) ds
      rw [remaining_after, hds] at he
      rw [hlong, he, List.append_assoc] at he'
      -- Nothing has come between: the longer list gives what the shorter one did.
      have hnil : e ++ e' = [] := List.append_right_eq_self.mp he'.symm
      rw [(List.append_eq_nil_iff.mp hnil).1, List.append_nil] at he
      exact .more hds (ih (streams_append hs' [d]) he hlong)

end BaseLib.Feedback
