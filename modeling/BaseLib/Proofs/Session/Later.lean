import BaseLib.Proofs.Session.Keys

namespace BaseLib

/-- The object as it was, or, if it has a place in an enumeration, at another place. -/
inductive Object.Onward : Object → Object → Prop
  | same (o : Object) : Onward o o
  | cursor (c c' : Cursor) : Onward (.cursor c) (.cursor c')
  | generator (xs ys : List Value) (n k : Nat) : Onward (.generator xs n) (.generator ys k)

def Object.isStill : Object → Bool
  | .cursor _ | .generator _ _ => false
  | _ => true

theorem Object.Onward.trans {o p q : Object} (h : o.Onward p) (h' : p.Onward q) : o.Onward q := by
  cases h with
  | same => exact h'
  | cursor c _ =>
      cases h' with
      | same => exact .cursor c _
      | cursor _ c' => exact .cursor c c'
  | generator xs _ n _ =>
      cases h' with
      | same => exact .generator xs _ n _
      | generator _ ys _ k => exact .generator xs ys n k

namespace Session

variable {s t u : Session} {id : Nat} {o : Object}

/-- A later session with all objects as they were, except that enumerations may have gone on. -/
structure Later (s t : Session) : Prop where
  offset : t.offset = s.offset
  steps : t.steps = s.steps
  kept : ∀ {id : Nat} {o : Object}, s.store[id]? = some o → ∃ o', t.store[id]? = some o' ∧ o.Onward o'

theorem Extends.later (h : Extends s t) : Later s t :=
  ⟨h.offset, h.steps, fun ho => ⟨_, h.kept ho, .same _⟩⟩

theorem Later.refl (s : Session) : Later s s := (Extends.refl s).later

theorem Later.trans (h : Later s t) (h' : Later t u) : Later s u := by
  refine ⟨h'.offset.trans h.offset, h'.steps.trans h.steps, fun {id o} ho => ?_⟩
  obtain ⟨p, hp, hop⟩ := h.kept ho
  obtain ⟨q, hq, hpq⟩ := h'.kept hp
  exact ⟨q, hq, hop.trans hpq⟩

theorem Later.kept_of_still (h : Later s t) (ho : s.store[id]? = some o) (hs : o.isStill = true) :
    t.store[id]? = some o := by
  obtain ⟨p, hp, hop⟩ := h.kept ho
  cases hop with
  | same => exact hp
  | cursor | generator => cases hs

theorem Later.object?_of_still {v : Value} (h : Later s t) (ho : s.object? v = some o)
    (hs : o.isStill = true) : t.object? v = some o := by
  cases v with
  | ref id => exact h.kept_of_still ho hs
  | _ => cases ho

theorem later_put {o' : Object} (h : s.store[id]? = some o) (ho : o.Onward o') :
    Later s (s.put id o') := by
  refine ⟨rfl, rfl, fun {i p} hp => ?_⟩
  by_cases hi : i = id
  · subst hi
    obtain rfl : o = p := Option.some_inj.mp (h.symm.trans hp)
    exact ⟨o', store_put h o', ho⟩
  · exact ⟨p, (store_put_ne hi o').trans hp, .same p⟩

theorem Later.similar (h : Later s t) : Similar s t := by
  refine ⟨h.offset, fun {id o} ho => ?_⟩
  obtain ⟨p, hp, hop⟩ := h.kept ho
  refine ⟨p, hp, ?_⟩
  cases hop with
  | same => exact ⟨rfl, fun _ => rfl⟩
  | cursor | generator => exact ⟨rfl, fun hn => by cases hn⟩

end Session

end BaseLib
