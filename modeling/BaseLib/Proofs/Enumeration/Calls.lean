import BaseLib.Proofs.Enumeration.Integers
import BaseLib.Proofs.Session.Drift

namespace BaseLib

def Object.isEvent : Object → Bool
  | .event _ => true
  | _ => false

namespace Session

variable {s t u : Session} {base id : Nat} {f x : Value} {g : Function}

/-- A later session in which, of the objects before a place, only events have changed. -/
structure Aside (base : Nat) (s t : Session) : Prop where
  steps : t.steps = s.steps
  kept : ∀ {id : Nat} {o : Object}, id < base → s.store[id]? = some o → o.isEvent = false →
    t.store[id]? = some o

theorem Aside.refl (base : Nat) (s : Session) : Aside base s s := ⟨rfl, fun _ ho _ => ho⟩

theorem Aside.trans (h : Aside base s t) (h' : Aside base t u) : Aside base s u :=
  ⟨h'.steps.trans h.steps, fun hid ho he => h'.kept hid (h.kept hid ho he) he⟩

theorem Aside.mono {n : Nat} (h : Aside n s t) (hn : base ≤ n) : Aside base s t :=
  ⟨h.steps, fun hid => h.kept (Nat.lt_of_lt_of_le hid hn)⟩

theorem aside_of_extends (base : Nat) (h : Extends s t) : Aside base s t :=
  ⟨h.steps, fun _ ho _ => h.kept ho⟩

theorem aside_put (s : Session) (h : base ≤ id) (o : Object) : Aside base s (s.put id o) :=
  ⟨rfl, fun hid ho _ => (store_put_ne (Nat.ne_of_lt (Nat.lt_of_lt_of_le hid h)) o).trans ho⟩

instance : CoversCalls (Aside base) where
  refl := Aside.refl base
  trans := Aside.trans
  grow s o := aside_of_extends base (extends_grow s o)
  record _ _ := ⟨rfl, fun _ ho _ => ho⟩
  event {s id listeners} h listeners' := by
    refine ⟨rfl, fun {i o} _ ho he => ?_⟩
    by_cases hi : i = id
    · subst hi
      cases h.symm.trans ho
      cases he
    · exact (store_put_ne hi _).trans ho

def Untold (s t : Session) : Prop := t.trace = s.trace

instance : CoversNew Untold where
  refl _ := rfl
  trans h h' := Eq.trans h' h
  grow _ _ := rfl

theorem untold_close (w : Walk) (s : Session) : Untold s (s.exec w.close).2 := by
  induction w generalizing s with
  | generator id =>
      rw [Walk.close, closeGenerator, exec_get_bind]
      split <;> rfl
  | guarded w ih | select _ w ih | filter _ w ih | take _ w ih | skip _ w ih | distinct _ w ih => exact ih s
  | flatten _ _ _ _ _ inner outer ih ih' | chain inner outer ih ih' =>
      obtain ⟨_, t, ht⟩ := answers_close inner s
      have hinner := ih s
      rw [Walk.close, exec_bind_ok ht]
      rw [ht] at hinner
      exact (ih' t).trans hinner
  | _ => rfl

/-- The value is a function of one argument. -/
def Unary (s : Session) (f : Value) : Prop :=
  ∃ g, s.object? f = some (.function g) ∧ g.builtin.required = 1

def told (s : Session) (f x : Value) : List Report :=
  match s.object? f with
  | some (.function g) => if g.logs then [s.report x] else []
  | _ => []

def telling (s : Session) (g : Function) (x : Value) : Session :=
  if g.logs then { s with trace := s.trace ++ [s.report x] } else s

theorem exec_callFunction (hg : g.builtin.required = 1) (s : Session) (x : Value) :
    s.exec (callFunction g [x]) = (s.telling g x).exec (callUnary g.builtin g.operand x) := by
  obtain ⟨builtin, operand, logs⟩ := g
  cases builtin with
  | program arity body =>
      obtain rfl : arity = 1 := hg
      cases logs <;> rfl
  | _ => cases logs <;> first | rfl | cases hg

theorem trace_apply (hf : s.Unary f) (hs : 0 < s.steps) (x : Value) :
    (s.exec (apply f [x])).2.trace = s.trace ++ s.told f x := by
  obtain ⟨g, hg, hunary⟩ := hf
  have hcall : Within Untold (callUnary g.builtin g.operand x) := within_callUnary x g.operand g.builtin
  rw [Enumeration.exec_apply hg hs, exec_callFunction hunary, hcall, told, hg, telling]
  cases hlogs : g.logs <;> simp [hlogs]

structure Stays (s t : Session) : Prop where
  steps : t.steps = s.steps
  function : ∀ {id : Nat} {g : Function}, s.store[id]? = some (.function g) → t.store[id]? = some (.function g)
  sequence : ∀ {id : Nat} {q : Query}, s.store[id]? = some (.sequence q) → t.store[id]? = some (.sequence q)

theorem Stays.refl (s : Session) : Stays s s := ⟨rfl, id, id⟩

theorem Stays.trans (h : Stays s t) (h' : Stays t u) : Stays s u :=
  ⟨h'.steps.trans h.steps, fun ho => h'.function (h.function ho), fun ho => h'.sequence (h.sequence ho)⟩

theorem Extends.stays (h : Extends s t) : Stays s t := ⟨h.steps, h.kept, h.kept⟩

theorem Drift.stays (h : Drift true none s t) : Stays s t := by
  refine ⟨h.steps, fun ho => ?_, fun ho => ?_⟩ <;> obtain ⟨_, ho', hdrift⟩ := h.kept ho <;> cases hdrift with
  | same => exact ho'
  | array hfree => cases hfree

theorem Unary.stays (hf : s.Unary f) (h : Stays s t) : t.Unary f := by
  obtain ⟨g, hg, hunary⟩ := hf
  obtain ⟨id, rfl, hid⟩ := exists_ref hg
  exact ⟨g, h.function hid, hunary⟩

end Session

end BaseLib
