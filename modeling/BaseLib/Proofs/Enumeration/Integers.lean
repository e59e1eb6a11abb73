import BaseLib.Proofs.Enumeration.Plan

namespace BaseLib.Enumeration

open Session

def integers : Meaning Int where
  rel _ v n := v = .int n
  stable _ h := h
  same a b := a == b

variable {s : Session} {f : Value} {k : Int}

theorem exec_apply {g : Function} (h : s.object? f = some (.function g)) (hs : 0 < s.steps)
    (args : List Value) : s.exec (apply f args) = s.exec (callFunction g args) := by
  obtain ⟨n, hn⟩ : ∃ n, s.steps = n + 1 := ⟨s.steps - 1, by omega⟩
  rw [apply, exec_get_bind, hn, applyAt, callWith, exec_get_bind]
  simp only [h]

theorem maps_add (h : s.object? f = some (.function ⟨.add, .int k, false⟩)) (hs : 0 < s.steps)
    (n : Int) : integers.Maps s f [n] (n + k) := by
  rintro t _ ht (_ | ⟨rfl, _ | _⟩)
  refine ⟨.int (n + k), t, ?_, .refl t, rfl⟩
  rw [exec_apply (ht.object?_of_still h rfl) (by rw [ht.steps]; exact hs)]
  rfl

theorem tests_gt (h : s.object? f = some (.function ⟨.gt, .int k, false⟩)) (hs : 0 < s.steps)
    (n : Int) : integers.Tests s f n (decide (k < n)) := by
  rintro t _ ht rfl
  have happly : t.exec (apply f [.int n]) = (.ok (.bool (decide (k < n))), t) := by
    rw [exec_apply (ht.object?_of_still h rfl) (by rw [ht.steps]; exact hs)]
    have hcall : t.exec (callFunction ⟨.gt, .int k, false⟩ [.int n]) =
        t.exec (do pure (Value.bool (← ofExcept (t.order .gt (.int n) (.int k))))) := rfl
    rw [hcall, order_gt_int]
    rfl
  exact ⟨t, (exec_bind_ok happly _).trans rfl, .refl t⟩

theorem exec_dup {v : Value} (h : s.object? f = some (.function ⟨.dup, v, false⟩)) (hs : 0 < s.steps)
    (x : Value) : ∃ y t, s.exec (apply f [x]) = (.ok y, t) ∧ Extends s t ∧ t.Holds y [x, x] := by
  refine ⟨.ref s.store.size, _, ?_, extends_grow s _, .array (store_grow s (.array [x, x]))⟩
  rw [exec_apply h hs]
  rfl

theorem compare3_int (s : Session) (a b : Int) :
    s.compare3 (.int a) (.int b) = .ok (a - b).sign := by
  show Except.ok (((compare a b == .gt).toNat : Int) - (compare a b == .lt).toNat) = _
  refine congrArg _ ?_
  rcases Int.lt_trichotomy a b with h | rfl | h
  · simp [compare_lt_iff_lt.mpr h, Int.sign_eq_neg_one_of_neg (Int.sub_neg_of_lt h)]
  · simp
  · simp [compare_gt_iff_gt.mpr h, Int.sign_eq_one_of_pos (Int.sub_pos_of_lt h)]

theorem compares_id {v : Value} (h : s.object? f = some (.function ⟨.id, v, false⟩)) (hs : 0 < s.steps)
    (a b : Int) : integers.Compares s f (fun a b => (a - b).sign) a b := by
  rintro t _ _ ht rfl rfl
  have happly (n : Int) : t.exec (apply f [.int n]) = (.ok (.int n), t) := by
    rw [exec_apply (ht.object?_of_still h rfl) (by rw [ht.steps]; exact hs)]
    rfl
  exact ⟨_, _, t, t, happly a, .refl t, happly b, .refl t, compare3_int t a b⟩

theorem compares_program {v : Value} {body : List Value → Program} {key : Int → Value} {cmp : Int → Int → Int}
    (h : s.object? f = some (.function ⟨.program 1 body, v, false⟩)) (hs : 0 < s.steps)
    (hbody : ∀ t n, exec t (body [.int n]).run = (.ok (key n), t))
    (hcmp : ∀ t a b, compare3 t (key a) (key b) = .ok (cmp a b)) (a b : Int) : integers.Compares s f cmp a b := by
  rintro t _ _ ht rfl rfl
  have happly (n : Int) : t.exec (apply f [.int n]) = (.ok (key n), t) := by
    rw [exec_apply (ht.object?_of_still h rfl) (by rw [ht.steps]; exact hs)]
    exact hbody t n
  exact ⟨_, _, t, t, happly a, .refl t, happly b, .refl t, hcmp t a b⟩

theorem tells_integers (s : Session) (ns : List Int) : integers.Tells s ns := by
  rintro a - b - t u _ _ ht hu rfl rfl
  have hkey (n : Int) (s : Session) : s.IsKey (.int n) := ⟨1, .plain rfl⟩
  rw [token_of_content (t := u) (hkey a t) (hkey a u) rfl]
  refine Bool.eq_iff_iff.mpr ((sameKey_iff_content (hkey a u) (hkey b u)).trans ?_)
  show Content.number (.int a) = Content.number (.int b) ↔ (a == b) = true
  simp

end BaseLib.Enumeration
