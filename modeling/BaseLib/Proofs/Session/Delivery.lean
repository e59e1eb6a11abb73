import BaseLib.Proofs.Session.Exec

namespace BaseLib.Session

open Library

/-- The cursor gives these elements, each when it has moved to it, and no more. -/
inductive Delivers (id : Nat) : Session → List Value → Session → Prop
  | ended {s t : Session}
      (h : s.exec (Methods.call (.ref id) "MoveNext" []) = (.ok (.bool false), t)) :
      Delivers id s [] t
  | next {s t u : Session} {x : Value} {xs : List Value}
      (h : s.exec (Methods.call (.ref id) "MoveNext" []) = (.ok (.bool true), t))
      (hx : t.exec (Properties.read (.ref id) "Current") = (.ok x, t)) (hxs : Delivers id t xs u) :
      Delivers id s (x :: xs) u

variable {s t : Session} {id : Nat} {c : Cursor} {x : Value} {xs : List Value}

theorem exec_advance_cons (h : s.store[id]? = some (.cursor c)) (hc : c.state ≠ .exhausted)
    (hw : c.walk = .items (x :: xs)) (n : Nat) :
    s.exec (advance (n + 2) id) = (.ok (some x),
      s.put id (.cursor { c with state := .positioned, current := x, walk := .items xs })) := by
  have hp (t : Session) :
      t.exec (pull (n + 1) (.items (x :: xs))) = (.ok (.give x (.items xs)), t) := rfl
  rw [advance, exec_get_bind]
  simp only [h]
  rw [if_neg (by simpa using hc), exec_bind_ok (exec_assign _ _ _), hw, exec_bind_ok (hp _),
    Pulled.give, exec_bind_ok (exec_assign _ _ _), put_put, exec_pure]

theorem exec_advance_nil (h : s.store[id]? = some (.cursor c)) (hc : c.state ≠ .exhausted)
    (hw : c.walk = .items []) (n : Nat) :
    s.exec (advance (n + 2) id) = (.ok none,
      s.put id (.cursor { c with state := .exhausted, current := .null, walk := .ended })) := by
  have hp (t : Session) : t.exec (pull (n + 1) (.items [])) = (.ok .finish, t) := rfl
  rw [advance, exec_get_bind]
  simp only [h]
  rw [if_neg (by simpa using hc), exec_bind_ok (exec_assign _ _ _), hw, exec_bind_ok (hp _),
    Pulled.finish, exec_bind_ok (exec_assign _ _ _), put_put]
  rfl

theorem lookup_moveNext (id : Nat) (c : Cursor) : (Methods.of id (.cursor c)).lookup "MoveNext" =
    some (.nullary do yes (← moveNext id)) := rfl

theorem exec_moveNext {r : Option Value} (h : s.store[id]? = some (.cursor c))
    (ha : s.exec (advance s.steps id) = (.ok r, t)) :
    s.exec (Methods.call (.ref id) "MoveNext" []) = (.ok (.bool r.isSome), t) := by
  rw [exec_call h (lookup_moveNext id c)]
  show s.exec (do yes (← moveNext id)) = _
  rw [exec_bind_ok (s := s) (t := t) (x := r.isSome)]
  · rfl
  · rw [moveNext, exec_get_bind, exec_bind_ok ha, exec_pure]

theorem exec_moveNext_error {e : Fault} (h : s.store[id]? = some (.cursor c))
    (ha : s.exec (advance s.steps id) = (.error e, t)) :
    s.exec (Methods.call (.ref id) "MoveNext" []) = (.error e, t) := by
  have hmove : s.exec (moveNext id) = (.error e, t) := by
    rw [moveNext, exec_get_bind, exec_bind_error ha]
  rw [exec_call h (lookup_moveNext id c)]
  exact exec_bind_error hmove _

theorem exec_currentOf (h : s.store[id]? = some (.cursor c)) :
    s.exec (Properties.read (.ref id) "Current") = ((currentOf c).mapError Fault.failure, s) := by
  rw [Properties.read, exec_get_bind]
  simp only [object?, h, Properties.known?]
  cases currentOf c <;> rfl

theorem exec_current (h : s.store[id]? = some (.cursor c)) (hc : c.state = .positioned) :
    s.exec (Properties.read (.ref id) "Current") = (.ok c.current, s) := by
  rw [exec_currentOf h, currentOf, hc]
  rfl

theorem delivers_items (h : s.store[id]? = some (.cursor c)) (hc : c.state ≠ .exhausted)
    (hw : c.walk = .items xs) (hs : 2 ≤ s.steps) :
    ∃ t, Delivers id s xs t ∧ ∀ i, i ≠ id → t.store[i]? = s.store[i]? := by
  obtain ⟨n, hn⟩ : ∃ n, s.steps = n + 2 := ⟨s.steps - 2, by omega⟩
  induction xs generalizing s c with
  | nil =>
      have ha := hn ▸ exec_advance_nil h hc hw n
      exact ⟨_, .ended (exec_moveNext h ha), fun i hi => store_put_ne hi _⟩
  | cons x xs ih =>
      have ha := hn ▸ exec_advance_cons h hc hw n
      have hput := store_put h
        (.cursor { c with state := .positioned, current := x, walk := .items xs })
      obtain ⟨t, ht, hkeep⟩ := ih hput (by simp) rfl hs hn
      refine ⟨t, .next (exec_moveNext h ha) (exec_current hput rfl) ht, fun i hi => ?_⟩
      rw [hkeep i hi, store_put_ne hi]

end BaseLib.Session
