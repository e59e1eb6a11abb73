import BaseLib.Library.Methods
import Mathlib.Data.List.Forall2

namespace BaseLib.Session

variable {α β : Type}

def exec (s : Session) (a : Action α) : Except Fault α × Session := a.run s

@[simp]
theorem exec_pure (s : Session) (x : α) : s.exec (pure x) = (.ok x, s) := rfl

theorem exec_bind (s : Session) (a : Action α) (f : α → Action β) :
    s.exec (a >>= f) =
      match s.exec a with
      | (.ok x, t) => t.exec (f x)
      | (.error e, t) => (.error e, t) := by
  show (ExceptT.bindCont f (a s).1) (a s).2 = _
  rw [exec, ExceptT.run]
  rcases a s with ⟨r, t⟩
  cases r <;> rfl

theorem exec_bind_ok {s t : Session} {a : Action α} {x : α} (h : s.exec a = (.ok x, t))
    (f : α → Action β) : s.exec (a >>= f) = t.exec (f x) := by
  rw [exec_bind, h]

theorem exec_bind_error {s t : Session} {a : Action α} {e : Fault} (h : s.exec a = (.error e, t))
    (f : α → Action β) : s.exec (a >>= f) = (.error e, t) := by
  rw [exec_bind, h]

@[simp]
theorem exec_get_bind (s : Session) (f : Session → Action β) :
    s.exec (get >>= f) = s.exec (f s) := rfl

theorem exec_ofExcept (s : Session) (r : Except Fault α) : s.exec (ofExcept r) = (r, s) := by
  cases r <;> rfl

theorem exec_ofResult (s : Session) (r : Except Failure α) :
    s.exec (ofResult r) = (r.mapError .failure, s) := by
  cases r <;> rfl

theorem exec_outcome {s t : Session} {a : Action α} {r : Except Fault α} (h : s.exec a = (r, t)) :
    s.exec (outcome a) = (.ok r, t) := by
  show ((Except.ok (s.exec a).1, (s.exec a).2) : Except Fault (Except Fault α) × Session) = _
  rw [h]

theorem exec_tryCatch (s : Session) (a : Action α) (handle : Fault → Action α) :
    s.exec (tryCatch a handle) =
      match s.exec a with
      | (.ok x, t) => (.ok x, t)
      | (.error fault, t) => t.exec (handle fault) := by
  show ExceptT.tryCatch (m := StateM Session) a handle s = _
  rw [ExceptT.tryCatch, ExceptT.mk]
  show StateT.bind _ _ _ = _
  rw [StateT.bind, exec, ExceptT.run]
  rcases a s with ⟨r, t⟩
  cases r <;> rfl

theorem exec_observing (s : Session) (a : Action α) :
    s.exec (observing a) = (.ok (s.exec a).1, (s.exec a).2) := by
  rw [observing, exec_tryCatch]
  rcases ha : s.exec a with ⟨⟨fault⟩ | ⟨x⟩, t⟩
  · rw [exec_bind_error ha]
    rfl
  · rw [exec_bind_ok ha]
    rfl

theorem exec_notNull {v : Value} (h : v ≠ .null) (s : Session) (param : String) :
    s.exec (notNull v param) = (.ok (), s) := by
  rw [notNull, if_neg (by simpa using h)]
  rfl

theorem exists_ref {s : Session} {v : Value} {o : Object} (h : s.object? v = some o) :
    ∃ id, v = .ref id ∧ s.store[id]? = some o := by
  cases v with
  | ref id => exact ⟨id, rfl, h⟩
  | _ => cases h

/-- The session with another object in a place. -/
def put (s : Session) (id : Nat) (o : Object) : Session :=
  { s with store := s.store.setIfInBounds id o }

def grow (s : Session) (o : Object) : Session := { s with store := s.store.push o }

@[simp]
theorem exec_alloc (s : Session) (o : Object) :
    s.exec (alloc o) = (.ok (.ref s.store.size), s.grow o) := rfl

theorem store_put_of_lt {s : Session} {id : Nat} (h : id < s.store.size) (o : Object) :
    (s.put id o).store[id]? = some o := by
  simp [put, h]

theorem store_put {s : Session} {id : Nat} {o : Object} (h : s.store[id]? = some o) (o' : Object) :
    (s.put id o').store[id]? = some o' :=
  store_put_of_lt (Array.getElem?_eq_some_iff.mp h).1 o'

theorem store_put_ne {s : Session} {id i : Nat} (hi : i ≠ id) (o : Object) :
    (s.put id o).store[i]? = s.store[i]? :=
  Array.getElem?_setIfInBounds_ne (Ne.symm hi)

@[simp]
theorem put_put (s : Session) (id : Nat) (o o' : Object) : (s.put id o).put id o' = s.put id o' := by
  simp [put]

@[simp]
theorem exec_assign (s : Session) (id : Nat) (o : Object) :
    s.exec (assign id o) = (.ok (), s.put id o) := rfl

theorem store_grow (s : Session) (o : Object) : (s.grow o).store[s.store.size]? = some o := by
  simp [grow]

theorem object?_grow (s : Session) (o : Object) : (s.grow o).object? (.ref s.store.size) = some o :=
  store_grow s o

theorem store_grow_of_some {s : Session} {id : Nat} {o : Object} (h : s.store[id]? = some o)
    (o' : Object) : (s.grow o').store[id]? = some o := by
  have hlt := (Array.getElem?_eq_some_iff.mp h).1
  simpa [grow, Array.getElem?_push, Nat.ne_of_lt hlt] using h

/-- A later session that has all objects as they were. -/
structure Extends (s t : Session) : Prop where
  offset : t.offset = s.offset
  steps : t.steps = s.steps
  kept : ∀ {id : Nat} {o : Object}, s.store[id]? = some o → t.store[id]? = some o

theorem Extends.refl (s : Session) : Extends s s := ⟨rfl, rfl, id⟩

theorem Extends.trans {s t u : Session} (h : Extends s t) (h' : Extends t u) : Extends s u :=
  ⟨h'.offset.trans h.offset, h'.steps.trans h.steps, fun ho => h'.kept (h.kept ho)⟩

theorem extends_grow (s : Session) (o : Object) : Extends s (s.grow o) :=
  ⟨rfl, rfl, fun h => store_grow_of_some h o⟩

open Library in
theorem exec_call {s : Session} {id : Nat} {o : Object} {name : String} {member : Member}
    (h : s.store[id]? = some o) (hm : (Methods.of id o).lookup name = some member)
    (args : List Value) : s.exec (Methods.call (.ref id) name args) = s.exec (member.call args) := by
  rw [Methods.call, exec_get_bind]
  simp only [object?, h, hm]

theorem exec_displayOf (s : Session) (v : Value) : s.exec (displayOf v) = (s.display v, s) := by
  rw [displayOf, exec_get_bind, exec_ofExcept]

open Library in
theorem exec_textOf {s : Session} {id : Nat} {o : Object} (h : s.store[id]? = some o)
    (hculture : ∀ name format, o ≠ .culture name format) :
    s.exec (Objects.textOf (.ref id)) = ((s.display (.ref id)).map Value.ofCodes, s) := by
  have hobject : s.object? (.ref id) = some o := h
  have hshown : s.exec (do pure (Value.ofCodes (← displayOf (.ref id)))) =
      ((s.display (.ref id)).map Value.ofCodes, s) := by
    rw [displayOf, exec_bind, exec_get_bind]
    cases s.display (.ref id) <;> rfl
  rw [Objects.textOf, exec_get_bind, hobject]
  cases o with
  | culture name format => exact absurd rfl (hculture name format)
  | _ => exact hshown

theorem place?_zero (n : Nat) : place? (n + 1) 0 = some 0 := by
  simp [place?]

theorem exec_readHolder {s : Session} {id : Nat} {x : Value} {xs : List Value}
    (h : s.store[id]? = some (.array (x :: xs))) : s.exec (readHolder (.ref id)) = (.ok x, s) := by
  have hint : s.exec (needInt (.int 0)) = (.ok 0, s) := rfl
  rw [readHolder, itemOf, exec_get_bind]
  simp only [object?, h]
  rw [elementAt, exec_bind_ok hint, List.length_cons, place?_zero]
  rfl

theorem exec_writeHolder {s : Session} {id : Nat} {x : Value} {xs : List Value}
    (h : s.store[id]? = some (.array (x :: xs))) (y : Value) :
    s.exec (writeHolder (.ref id) y) = (.ok (), s.put id (.array (y :: xs))) := by
  have hint : s.exec (needInt (.int 0)) = (.ok 0, s) := rfl
  rw [writeHolder, setItemOf, exec_get_bind]
  simp only [h]
  rw [exec_bind_ok hint, List.length_cons, place?_zero]
  rfl

theorem exec_newListOf (s : Session) (kind : ListKind) (xs : List Value) :
    ∃ id storage t, s.exec (newListOf kind xs) = (.ok (.ref id), t) ∧ Extends s t ∧
      t.store[id]? = some (.list kind storage) ∧ t.items storage = xs := by
  have hrun : s.exec (newListOf kind xs) = (.ok (.ref (s.grow (.array xs)).store.size),
      (s.grow (.array xs)).grow (.list kind s.store.size)) := rfl
  have harray := store_grow_of_some (store_grow s (.array xs)) (.list kind s.store.size)
  refine ⟨_, _, _, hrun, (extends_grow s _).trans (extends_grow _ _), store_grow _ _, ?_⟩
  simp only [Session.items, harray]

theorem exec_newPairs (s : Session) (l : List (Value × Value)) :
    ∃ ps t, s.exec (newPairs l) = (.ok ps, t) ∧ Extends s t ∧
      List.Forall₂ (fun p b => t.object? p = some (.pair b.1 b.2)) ps l := by
  induction l generalizing s with
  | nil => exact ⟨[], s, rfl, Extends.refl s, .nil⟩
  | cons b l ih =>
      obtain ⟨ps, t, ht, hext, hps⟩ := ih (s.grow (.pair b.1 b.2))
      refine ⟨.ref s.store.size :: ps, t, ?_, (extends_grow s _).trans hext, .cons ?_ hps⟩
      · rw [newPairs, exec_bind_ok (exec_alloc s _), exec_bind_ok ht, exec_pure]
      · exact hext.kept (store_grow s (.pair b.1 b.2))

end BaseLib.Session
