import BaseLib.Proofs.Session.Within

namespace BaseLib

/-- A cursor and what becomes of it: nothing once it is exhausted, and over an array it stays, goes on or
comes to the end. -/
structure Cursor.Onward (c d : Cursor) : Prop where
  exhausted : c.state = .exhausted → d = c
  live : c.state ≠ .exhausted → ∀ a n, c.walk = .live a n →
    d = c ∨ (d.state = .positioned ∧ ∃ k, d.walk = .live a (n + k + 1)) ∨ d.state = .exhausted

namespace Cursor

variable {c d e : Cursor}

theorem Onward.trans (h : c.Onward d) (h' : d.Onward e) : c.Onward e := by
  refine ⟨fun hc => ?_, fun hc a n hw => ?_⟩
  · obtain rfl := h.exhausted hc
    exact h'.exhausted hc
  · obtain rfl | ⟨hd, k, hk⟩ | hd := h.live hc a n hw
    · exact h'.live hc a n hw
    · obtain rfl | ⟨he, j, hj⟩ | he := h'.live (by simp [hd]) a _ hk
      · exact .inr (.inl ⟨hd, k, hk⟩)
      · exact .inr (.inl ⟨he, k + 1 + j, by rw [hj]; congr 1; omega⟩)
      · exact .inr (.inr he)
    · obtain rfl := h'.exhausted hd
      exact .inr (.inr hd)

end Cursor

/-- What becomes of an object, when cursors move and when the object may become another array. -/
inductive Object.Drift (moves free : Bool) : Object → Object → Prop
  | same (o : Object) : Drift moves free o o
  | event (xs ys : List Value) : Drift moves free (.event xs) (.event ys)
  | generator (xs ys : List Value) (n k : Nat) : Drift moves free (.generator xs n) (.generator ys k)
  | cursor {c d : Cursor} (hm : moves = true) (h : c.Onward d) : Drift moves free (.cursor c) (.cursor d)
  | array (hf : free = true) (o : Object) (xs : List Value) : Drift moves free o (.array xs)

theorem Object.Drift.trans {moves free : Bool} {o p q : Object} (h : o.Drift moves free p)
    (h' : p.Drift moves free q) : o.Drift moves free q := by
  cases h' with
  | same => exact h
  | array hf _ xs => exact .array hf o xs
  | event _ ys =>
      cases h with
      | same | event => exact .event _ ys
  | generator _ ys _ k =>
      cases h with
      | same | generator => exact .generator _ ys _ k
  | cursor hm hd =>
      cases h with
      | same => exact .cursor hm hd
      | cursor _ hc => exact .cursor hm (hc.trans hd)

theorem Object.Drift.freed {moves free : Bool} {o p : Object} (h : o.Drift moves false p) :
    o.Drift moves free p := by
  cases h with
  | same => exact .same _
  | event xs ys => exact .event xs ys
  | generator xs ys n k => exact .generator xs ys n k
  | cursor hm h => exact .cursor hm h
  | array hf => cases hf

namespace Session

variable {s t u : Session} {id a : Nat} {o : Object} {c d : Cursor} {moves : Bool} {array : Option Nat}

/-- A later session, in which objects have become what they may; `array` is set free to change. -/
structure Drift (moves : Bool) (array : Option Nat) (s t : Session) : Prop where
  steps : t.steps = s.steps
  kept : ∀ {id : Nat} {o : Object}, s.store[id]? = some o →
    ∃ o', t.store[id]? = some o' ∧ o.Drift moves (array == some id) o'

theorem Drift.refl (s : Session) : Drift moves array s s := ⟨rfl, fun h => ⟨_, h, .same _⟩⟩

theorem Drift.trans (h : Drift moves array s t) (h' : Drift moves array t u) : Drift moves array s u := by
  refine ⟨h'.steps.trans h.steps, fun ho => ?_⟩
  obtain ⟨p, hp, hop⟩ := h.kept ho
  obtain ⟨q, hq, hpq⟩ := h'.kept hp
  exact ⟨q, hq, hop.trans hpq⟩

theorem Drift.freed (h : Drift moves none s t) : Drift moves array s t :=
  ⟨h.steps, fun ho => (h.kept ho).imp fun _ h' => ⟨h'.1, h'.2.freed⟩⟩

theorem Drift.array_kept {xs : List Value} (h : Drift moves array s t) (ha : s.store[a]? = some (.array xs)) :
    ∃ ys, t.store[a]? = some (.array ys) ∧ (array ≠ some a → ys = xs) := by
  obtain ⟨o, ho, hdrift⟩ := h.kept ha
  cases hdrift with
  | same => exact ⟨xs, ho, fun _ => rfl⟩
  | array hf _ ys => exact ⟨ys, ho, fun hne => absurd (by simpa using hf) hne⟩

theorem drift_put {o' : Object} (h : s.store[id]? = some o)
    (ho : o.Drift moves (array == some id) o') : Drift moves array s (s.put id o') := by
  refine ⟨rfl, fun {i p} hp => ?_⟩
  by_cases hi : i = id
  · subst hi
    cases h.symm.trans hp
    exact ⟨o', store_put h o', ho⟩
  · exact ⟨p, (store_put_ne hi o').trans hp, .same p⟩

theorem drift_grow (s : Session) (o : Object) : Drift moves array s (s.grow o) :=
  ⟨rfl, fun h => ⟨_, store_grow_of_some h o, .same _⟩⟩

theorem drift_put_array (s : Session) (xs : List Value) : Drift moves (some a) s (s.put a (.array xs)) := by
  refine ⟨rfl, fun {i p} hp => ?_⟩
  by_cases hi : i = a
  · subst hi
    exact ⟨_, store_put hp _, .array (by simp) p xs⟩
  · exact ⟨p, (store_put_ne hi _).trans hp, .same p⟩

instance : Covers (Drift moves array) where
  refl := Drift.refl
  trans := Drift.trans
  grow := drift_grow
  record _ _ := ⟨rfl, fun h => ⟨_, h, .same _⟩⟩
  event h ys := drift_put h (.event _ ys)
  generator h ys k := drift_put h (.generator _ ys _ k)

theorem Drift.cursor_back {o' : Object} (h : s.store[id]? = some (.cursor c))
    (hst : Drift true array (s.put id o') t) (hc : c.Onward d) :
    Drift true array s (t.put id (.cursor d)) := by
  refine ⟨hst.steps, fun {i p} hp => ?_⟩
  by_cases hi : i = id
  · subst hi
    cases h.symm.trans hp
    obtain ⟨q, hq, -⟩ := hst.kept (store_put h o')
    exact ⟨_, store_put hq _, .cursor rfl hc⟩
  · obtain ⟨q, hq, hpq⟩ := hst.kept ((store_put_ne hi o').trans hp)
    exact ⟨q, (store_put_ne hi _).trans hq, hpq⟩

theorem onward_resumed {n : Nat} {p : Pulled} (hc : c.state ≠ .exhausted)
    (hp : s.exec (pull n c.walk) = (.ok p, t)) : c.Onward (c.resumed p) := by
  refine ⟨fun h => absurd h hc, fun _ a i hw => ?_⟩
  cases n with
  | zero =>
      cases hp
      exact .inl rfl
  | succ n =>
      rw [hw, exec_pull_live] at hp
      cases hx : (s.items a)[i]? with
      | some x =>
          simp only [hx] at hp
          cases hp
          exact .inr (.inl ⟨rfl, 0, rfl⟩)
      | none =>
          simp only [hx] at hp
          cases hp
          exact .inr (.inr rfl)

instance : CoversMoves (Drift true array) where
  advance n hpull id s := by
    obtain heq | ⟨c, p, t, h, hc, hp, heq⟩ := exec_advance_snd n id s
    · rw [heq]
      exact Drift.refl s
    have hst : Drift true array (s.put id (.cursor c.moving)) t := by
      have ht := hpull c.walk (s.put id (.cursor c.moving))
      rwa [hp] at ht
    have hback := hst.cursor_back h (onward_resumed hc hp)
    rcases heq with heq | heq
    · rwa [heq]
    · rw [heq]
      have hclose : Within (Drift true array) p.2.close := within_close p.2
      exact hback.trans (hclose _)

end Session

end BaseLib
