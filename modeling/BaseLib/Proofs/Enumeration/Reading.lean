import BaseLib.Proofs.Collection.SelfAppend
import BaseLib.Proofs.Enumeration.Calls
import BaseLib.Proofs.Enumeration.Sources

namespace BaseLib.Enumeration

open Session Library

variable {s : Session} {v : Value} {xs : List Value} {n : Nat} {w : Walk}

/-- Pulled with `n` steps or more, the walk gives the elements one after the other, then ends, and leaves the
session alone. -/
def Scans (n : Nat) (s : Session) : Walk → List Value → Prop
  | w, [] => ∀ k, n ≤ k → s.exec (pull k w) = (.ok .finish, s)
  | w, x :: xs => ∀ k, n ≤ k →
      ∃ w', s.exec (pull k w) = (.ok (.give x w'), s) ∧ Quiet w' ∧ Scans n s w' xs

theorem Scans.mono {m : Nat} (h : Scans n s w xs) (hm : n ≤ m) : Scans m s w xs := by
  induction xs generalizing w with
  | nil => exact fun k hk => h k (hm.trans hk)
  | cons x xs ih =>
      intro k hk
      obtain ⟨w', hrun, hq, hw'⟩ := h k (hm.trans hk)
      exact ⟨w', hrun, hq, ih hw'⟩

theorem scans_items (s : Session) (xs : List Value) : Scans 1 s (.items xs) xs := by
  induction xs with
  | nil =>
      intro k hk
      obtain ⟨k, rfl⟩ := Nat.exists_eq_add_of_le' hk
      rfl
  | cons x xs ih =>
      intro k hk
      obtain ⟨k, rfl⟩ := Nat.exists_eq_add_of_le' hk
      exact ⟨.items xs, rfl, fun _ => rfl, ih⟩

theorem scans_live {array : Nat} {ys : List Value} (h : s.store[array]? = some (.array ys)) (next : Nat) :
    Scans 1 s (.live array next) (ys.drop next) := by
  generalize hxs : ys.drop next = xs
  induction xs generalizing next with
  | nil =>
      intro k hk
      obtain ⟨k, rfl⟩ := Nat.exists_eq_add_of_le' hk
      rw [exec_pull_live, items_eq h, List.getElem?_eq_none (List.drop_eq_nil_iff.mp hxs)]
  | cons x xs ih =>
      intro k hk
      obtain ⟨k, rfl⟩ := Nat.exists_eq_add_of_le' hk
      have hx : ys[next]? = some x := by rw [← List.head?_drop, hxs, List.head?_cons]
      have hrest : ys.drop (next + 1) = xs := by rw [← List.tail_drop, hxs, List.tail_cons]
      refine ⟨.live array (next + 1), ?_, fun _ => rfl, ih (next + 1) hrest⟩
      rw [exec_pull_live, items_eq h, hx]

theorem scans_guarded (h : Scans n s w xs) : Scans (n + 1) s (.guarded w) xs := by
  induction xs generalizing w with
  | nil =>
      intro k hk
      obtain ⟨k, rfl⟩ : ∃ i, k = i + 1 := ⟨k - 1, by omega⟩
      exact (exec_bind_ok (h k (by omega)) _).trans rfl
  | cons x xs ih =>
      intro k hk
      obtain ⟨k, rfl⟩ : ∃ i, k = i + 1 := ⟨k - 1, by omega⟩
      obtain ⟨w', hrun, hq, hw'⟩ := h k (by omega)
      exact ⟨.guarded w', (exec_bind_ok hrun _).trans rfl, hq, ih hw'⟩

theorem scans_pending
    (hopen : ∀ k, ∃ w, s.exec (openWalk (k + 2) v) = (.ok w, s) ∧ Scans 1 s w xs) :
    Scans 3 s (.pending v) xs := by
  have hpull (k : Nat) : ∃ w, s.exec (pull (k + 3) (.pending v)) = s.exec (pull (k + 2) (.guarded w)) ∧
      Scans 2 s (.guarded w) xs := by
    obtain ⟨w, hw, hscans⟩ := hopen k
    exact ⟨w, exec_pull_pending hw, scans_guarded hscans⟩
  cases xs with
  | nil =>
      intro k hk
      obtain ⟨k, rfl⟩ : ∃ i, k = i + 3 := ⟨k - 3, by omega⟩
      obtain ⟨w, hrun, hw⟩ := hpull k
      exact hrun.trans (hw _ (by omega))
  | cons x xs =>
      intro k hk
      obtain ⟨k, rfl⟩ : ∃ i, k = i + 3 := ⟨k - 3, by omega⟩
      obtain ⟨w, hrun, hw⟩ := hpull k
      obtain ⟨w', hgive, hq, hw'⟩ := hw (k + 2) (by omega)
      exact ⟨w', hrun.trans hgive, hq, hw'.mono (by omega)⟩

theorem apart_of_object {t : Session} {id a : Nat} {o : Object} (h : t.store[id]? = some o) (hid : id ≠ a)
    (ho : ∀ b, (∃ kind, o = .list kind b) ∨ o = .arrayView (.ref b) → b ≠ a) : Feedback.Apart a t (.ref id) := by
  refine ⟨fun heq => hid (Value.ref.inj heq), fun b hb => ho b ?_⟩
  obtain ⟨kind, hb⟩ | hb := hb
  · exact .inl ⟨kind, Option.some.inj (h.symm.trans hb)⟩
  · exact .inr (Option.some.inj (h.symm.trans hb))

/-- A source and its elements lie in the store, where they stay when events change and objects are added. -/
theorem holds_aside {t : Session} (hv : s.Holds v xs) (hst : Aside s.store.size s t) :
    t.Holds v xs ∧ ∀ a, s.store.size ≤ a → Feedback.Apart a t v := by
  have hlt {id : Nat} {o : Object} (h : s.store[id]? = some o) : id < s.store.size :=
    (Array.getElem?_eq_some_iff.mp h).1
  have hne {id a : Nat} {o : Object} (h : s.store[id]? = some o) (ha : s.store.size ≤ a) : id ≠ a :=
    Nat.ne_of_lt (Nat.lt_of_lt_of_le (hlt h) ha)
  have hkept {id : Nat} {o : Object} (h : s.store[id]? = some o) (he : o.isEvent = false) :
      t.store[id]? = some o := hst.kept (hlt h) h he
  cases hv with
  | array h => exact ⟨.array (hkept h rfl), fun a ha => apart_of_object (hkept h rfl) (hne h ha) (by simp)⟩
  | tuple h => exact ⟨.tuple (hkept h rfl), fun a ha => apart_of_object (hkept h rfl) (hne h ha) (by simp)⟩
  | hashSet h => exact ⟨.hashSet (hkept h rfl), fun a ha => apart_of_object (hkept h rfl) (hne h ha) (by simp)⟩
  | list h hxs =>
      refine ⟨.list (hkept h rfl) (hkept hxs rfl), fun a ha => apart_of_object (hkept h rfl) (hne h ha) ?_⟩
      rintro b (⟨kind, hb⟩ | hb) <;> cases hb
      exact hne hxs ha
  | view h hxs =>
      refine ⟨.view (hkept h rfl) (hkept hxs rfl), fun a ha => apart_of_object (hkept h rfl) (hne h ha) ?_⟩
      rintro b (⟨kind, hb⟩ | hb) <;> cases hb
      exact hne hxs ha
  | text c =>
      refine ⟨.text c, fun a _ => ⟨Value.noConfusion, ?_⟩⟩
      rintro b (⟨kind, hb⟩ | hb) <;> cases hb

theorem scans_source (hv : s.Holds v xs) : Scans 3 s (.pending v) xs := by
  refine scans_pending fun k => ?_
  have hapart := (holds_aside hv (.refl _ s)).2 _ (Nat.le_refl _)
  obtain ⟨w, hw, rfl | ⟨b, -, rfl, hb⟩⟩ | ⟨hk, -⟩ := Feedback.exec_openWalk_holds hv hapart (k + 1)
  · exact ⟨_, hw, scans_items s xs⟩
  · exact ⟨_, hw, scans_live hb 0⟩
  · cases hk

theorem Scans.drain (h : Scans n s w xs) {k : Nat} (hk : n + xs.length + 1 ≤ k) :
    s.exec (BaseLib.drain k w) = (.ok xs, s) := by
  induction xs generalizing w k with
  | nil =>
      obtain ⟨k, rfl⟩ : ∃ i, k = i + 1 := ⟨k - 1, by omega⟩
      exact exec_drain_finish (h k (by simp at hk; omega))
  | cons x xs ih =>
      rw [List.length_cons] at hk
      obtain ⟨k, rfl⟩ : ∃ i, k = i + 1 := ⟨k - 1, by omega⟩
      obtain ⟨w', hrun, -, hw'⟩ := h k (by omega)
      exact exec_drain_give hrun (ih hw' (by omega))

def foldUntil {σ : Type} (next : σ → Value → Bool × σ) (state : σ) : List Value → σ
  | [] => state
  | x :: xs => if (next state x).1 then foldUntil next (next state x).2 xs else (next state x).2

theorem Scans.fold {σ : Type} {step : σ → Value → Action (Bool × σ)} {next : σ → Value → Bool × σ}
    (h : Scans n s w xs) {k : Nat} (hk : n + xs.length + 1 ≤ k)
    (hstep : ∀ state, ∀ x ∈ xs, s.exec (step state x) = (.ok (next state x), s)) (state : σ) :
    s.exec (foldWalk step k state w) = (.ok (foldUntil next state xs), s) := by
  induction xs generalizing w k state with
  | nil =>
      obtain ⟨k, rfl⟩ : ∃ i, k = i + 1 := ⟨k - 1, by omega⟩
      exact exec_foldWalk_finish (h k (by simp at hk; omega))
  | cons x xs ih =>
      rw [List.length_cons] at hk
      obtain ⟨k, rfl⟩ : ∃ i, k = i + 1 := ⟨k - 1, by omega⟩
      obtain ⟨w', hrun, hq, hw'⟩ := h k (by omega)
      have hx := hstep state x (by simp)
      rw [foldUntil]
      cases hnext : next state x with
      | mk more state' =>
          rw [hnext] at hx
          cases more with
          | true =>
              rw [exec_foldWalk_go hrun hx]
              exact ih hw' (by omega) (fun state y hy => hstep state y (by simp [hy])) state'
          | false => exact exec_foldWalk_stop hrun hx hq

theorem exec_foldSource {σ : Type} {step : σ → Value → Action (Bool × σ)} {next : σ → Value → Bool × σ}
    (hv : s.Holds v xs) (hsteps : xs.length + 4 ≤ s.steps)
    (hstep : ∀ state, ∀ x ∈ xs, s.exec (step state x) = (.ok (next state x), s)) (state : σ) :
    s.exec (foldSource v state step) = (.ok (foldUntil next state xs), s) := by
  rw [foldSource, exec_get_bind]
  exact (scans_source hv).fold (by omega) hstep state

end BaseLib.Enumeration
