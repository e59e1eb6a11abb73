import BaseLib.Proofs.Session.Delivery

namespace BaseLib

namespace Cursor

def moving (c : Cursor) : Cursor := { c with walk := .busy }

def positioned (c : Cursor) (x : Value) (w : Walk) : Cursor :=
  { c with state := .positioned, current := x, walk := w }

def finished (c : Cursor) : Cursor := { c with state := .exhausted, current := .null, walk := .ended }

def resumed (c : Cursor) : Pulled → Cursor
  | (.ok (some x), w) => c.positioned x w
  | (.ok none, _) => c.finished
  | (.error _, w) => { c with walk := w }

end Cursor

namespace Session

variable {α β : Type} {s t u : Session} {id n : Nat} {c : Cursor} {w : Walk}

def Answers (a : Action α) : Prop := ∀ s : Session, ∃ x t, s.exec a = (.ok x, t)

@[grind .]
theorem answers_pure (x : α) : Answers (pure x) := fun s => ⟨x, s, rfl⟩

@[grind .]
theorem answers_get : Answers (get : Action Session) := fun s => ⟨s, s, rfl⟩

@[grind .]
theorem answers_assign (id : Nat) (o : Object) : Answers (assign id o) := fun s => ⟨(), s.put id o, rfl⟩

@[grind .]
theorem answers_outcome (a : Action α) : Answers (outcome a) :=
  fun s => ⟨(s.exec a).1, (s.exec a).2, exec_outcome rfl⟩

@[grind ←]
theorem Answers.bind {a : Action α} {f : α → Action β} (ha : Answers a) (hf : ∀ x, Answers (f x)) :
    Answers (a >>= f) := by
  intro s
  obtain ⟨x, t, ht⟩ := ha s
  rw [exec_bind_ok ht]
  exact hf x t

@[grind .]
theorem answers_close (w : Walk) : Answers w.close := by
  fun_induction Walk.close w <;> grind [closeGenerator]

@[grind .]
theorem answers_failWith (e : Fault) (w : Walk) : Answers (Pulled.failWith e w) :=
  .bind (answers_close w) fun _ => answers_pure _

@[grind .]
theorem answers_leafStep (w : Walk) : Answers (leafStep w) := by
  unfold leafStep
  grind

theorem answers_pull (n : Nat) (w : Walk) : Answers (pull n w) := by
  induction n generalizing w with
  | zero => exact answers_pure _
  | succ n ih =>
      unfold pull
      cases w with
      | flatten f indexed combine index item inner outer =>
          refine .bind (ih inner) fun r => ?_
          split
          · grind
          · grind
          · refine .bind (ih outer) fun r => ?_
            grind
      | _ => grind

theorem exec_closeGenerator {g closings : Nat} {rest : List Value}
    (h : s.store[g]? = some (.generator rest closings)) :
    s.exec (closeGenerator g) = (.ok (), s.put g (.generator [] (closings + 1))) := by
  rw [closeGenerator, exec_get_bind]
  simp only [h]
  rfl

theorem exec_close (w : Walk) (h : s.store[id]? = some (.cursor c)) :
    ∃ t, s.exec w.close = (.ok (), t) ∧ t.store[id]? = some (.cursor c) := by
  induction w generalizing s with
  | generator g =>
      rw [Walk.close, closeGenerator, exec_get_bind]
      split
      · rename_i hg
        refine ⟨_, exec_assign _ _ _, ?_⟩
        rwa [store_put_ne]
        rintro rfl
        simp [h] at hg
      · exact ⟨s, rfl, h⟩
  | guarded w ih | select _ w ih | filter _ w ih | take _ w ih | skip _ w ih | distinct _ w ih =>
      exact ih h
  | flatten _ _ _ _ _ inner outer ih ih' | chain inner outer ih ih' =>
      obtain ⟨t, ht, h⟩ := ih h
      obtain ⟨u, hu, h⟩ := ih' h
      exact ⟨u, (exec_bind_ok ht _).trans hu, h⟩
  | _ => exact ⟨s, rfl, h⟩

theorem items_eq {a : Nat} {xs : List Value} (h : s.store[a]? = some (.array xs)) : s.items a = xs := by
  simp only [items, h]

theorem exec_pull_live (s : Session) (n a i : Nat) :
    s.exec (pull (n + 1) (.live a i)) =
      (.ok (match (s.items a)[i]? with
        | some x => .give x (.live a (i + 1))
        | none => .finish), s) := by
  show s.exec (leafStep (.live a i)) = _
  rw [leafStep, exec_get_bind]
  cases h : (s.items a)[i]? <;> simp only [h] <;> rfl

theorem exec_advance_exhausted (h : s.store[id]? = some (.cursor c)) (hc : c.state = .exhausted)
    (n : Nat) : s.exec (advance (n + 1) id) = (.ok none, s) := by
  rw [advance, exec_get_bind]
  simp only [h, hc]
  rfl

theorem exec_advance_give {x : Value} (h : s.store[id]? = some (.cursor c)) (hc : c.state ≠ .exhausted)
    (hp : (s.put id (.cursor c.moving)).exec (pull n c.walk) = (.ok (.give x w), t)) :
    s.exec (advance (n + 1) id) = (.ok (some x), t.put id (.cursor (c.positioned x w))) := by
  rw [advance, exec_get_bind]
  simp only [h]
  rw [if_neg (by simpa using hc), exec_bind_ok (exec_assign _ _ _)]
  exact (exec_bind_ok hp _).trans rfl

theorem exec_advance_finish (h : s.store[id]? = some (.cursor c)) (hc : c.state ≠ .exhausted)
    (hp : (s.put id (.cursor c.moving)).exec (pull n c.walk) = (.ok (.ok none, w), t))
    (hw : (t.put id (.cursor c.finished)).exec w.close = (.ok (), u)) :
    s.exec (advance (n + 1) id) = (.ok none, u) := by
  rw [advance, exec_get_bind]
  simp only [h]
  rw [if_neg (by simpa using hc), exec_bind_ok (exec_assign _ _ _)]
  exact (exec_bind_ok hp _).trans (exec_bind_ok hw _)

theorem exec_advance_error {e : Fault} (h : s.store[id]? = some (.cursor c)) (hc : c.state ≠ .exhausted)
    (hp : (s.put id (.cursor c.moving)).exec (pull n c.walk) = (.ok (.error e, w), t)) :
    s.exec (advance (n + 1) id) = (.error e, t.put id (.cursor { c with walk := w })) := by
  rw [advance, exec_get_bind]
  simp only [h]
  rw [if_neg (by simpa using hc), exec_bind_ok (exec_assign _ _ _)]
  exact (exec_bind_ok hp _).trans rfl

theorem exec_advance_snd (n id : Nat) (s : Session) :
    (s.exec (advance (n + 1) id)).2 = s ∨
      ∃ c p t, s.store[id]? = some (.cursor c) ∧ c.state ≠ .exhausted ∧
        (s.put id (.cursor c.moving)).exec (pull n c.walk) = (.ok p, t) ∧
        ((s.exec (advance (n + 1) id)).2 = t.put id (.cursor (c.resumed p)) ∨
          (s.exec (advance (n + 1) id)).2 = ((t.put id (.cursor (c.resumed p))).exec p.2.close).2) := by
  by_cases h : ∃ c, s.store[id]? = some (.cursor c)
  · obtain ⟨c, h⟩ := h
    by_cases hc : c.state = .exhausted
    · exact .inl (by rw [exec_advance_exhausted h hc])
    obtain ⟨⟨r, w⟩, t, hp⟩ := answers_pull n c.walk (s.put id (.cursor c.moving))
    refine .inr ⟨c, _, t, h, hc, hp, ?_⟩
    rcases r with e | _ | x
    · exact .inl (by rw [exec_advance_error h hc hp, Cursor.resumed])
    · obtain ⟨_, u, hu⟩ := answers_close w (t.put id (.cursor c.finished))
      exact .inr (by rw [exec_advance_finish h hc hp hu, Cursor.resumed, hu])
    · exact .inl (by rw [exec_advance_give h hc hp, Cursor.resumed])
  · left
    rw [advance, exec_get_bind]
    split
    · rename_i c hc
      exact absurd ⟨c, hc⟩ h
    · rfl

end Session

end BaseLib
