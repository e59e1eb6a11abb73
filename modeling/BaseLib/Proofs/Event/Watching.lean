import BaseLib.Proofs.Session.Within

namespace BaseLib.Event

open Library Session

variable {e : Nat}

structure Leaves (e : Nat) (s t : Session) : Prop where
  event : ∀ {listeners : List Value},
    s.store[e]? = some (.event listeners) → t.store[e]? = some (.event listeners)
  function : ∀ {id : Nat}, s.store[id]? = some (.multicast e) → t.store[id]? = some (.multicast e)

structure Aside (e : Nat) where
  act : Action Value
  leaves : Within (Leaves e) act

/-- What a program can do: something with the event, a call of any value, or something else. -/
inductive Act (e : Nat)
  | add (f : Value)
  | remove (f : Value)
  | ask
  | call (f : Value) (args : List Value)
  | aside (a : Aside e)

/-- A program. It goes on by the outcome of what it did, also a failure, and by all that it sees then. -/
inductive Reaction (e : Nat)
  | ends (r : Except Fault Value)
  | acts (a : Act e) (next : Except Fault Value → Session → Reaction e)

/-- What is written down of a run. A removal has the session of its moment, and a call all that happened
before it returned. -/
inductive Occurrence
  | added (f : Value) (r : Except Fault Value)
  | removed (f : Value) (moment : Session) (r : Except Fault Value)
  | asked (r : Except Fault Value)
  | called (f : Value) (args : List Value) (inner : List Occurrence) (r : Except Fault Value)

structure Watcher (m : Type → Type) where
  /-- An action of a program, with what is to be written down of it. -/
  note : (Session → Except Fault Value → List Occurrence) → Action Value → m Value
  around : Value → List Value → m Value → m Value

section

variable {m : Type → Type} [Monad m] [MonadState Session m] [MonadExcept Fault m]

def Act.perform (w : Watcher m) (invoke : Value → List Value → m Value) : Act e → m Value
  | add f => w.note (fun _ r => [.added f r]) (Methods.call (.ref e) "Add" [f])
  | remove f => w.note (fun s r => [.removed f s r]) (Methods.call (.ref e) "Remove" [f])
  | ask => w.note (fun _ r => [.asked r]) (Methods.call (.ref e) "ToMulticastFunction" [])
  | call f args => invoke f args
  | aside a => w.note (fun _ _ => []) a.act

def Reaction.run (perform : Act e → m Value) : Reaction e → m Value
  | ends r => MonadExcept.ofExcept r
  | acts a next => do
    let r ← observing (perform a)
    (next r (← get)).run perform

/-- Calls of values where each function is a program; `n` bounds how deep calls are inside each other. -/
def Watcher.calls (w : Watcher m) (body : Function → List Value → Reaction e) :
    Nat → Value → List Value → m Value
  | 0, f, args => w.around f args (throw (.misuse .tooDeep))
  | n + 1, f, args =>
    w.around f args
      (callWith (fun g xs => (body g xs).run (Act.perform w (w.calls body n))) (w.calls body n) f args)

def Watcher.run (w : Watcher m) (body : Function → List Value → Reaction e) (n : Nat)
    (main : Reaction e) : m Value :=
  main.run (Act.perform w (w.calls body n))

end

def Watcher.none : Watcher Action := ⟨fun _ a => a, fun _ _ a => a⟩

/-- An action beside which occurrences are written down. -/
def Watched (α : Type) : Type :=
  Session → List Occurrence → Except Fault α × Session × List Occurrence

namespace Watched

variable {α β : Type}

instance : Monad Watched where
  pure x s log := (.ok x, s, log)
  bind a f s log :=
    match a s log with
    | (.ok x, s, log) => f x s log
    | (.error fault, s, log) => (.error fault, s, log)

instance : MonadState Session Watched where
  get s log := (.ok s, s, log)
  set s _ log := (.ok (), s, log)
  modifyGet f s log := (.ok (f s).1, (f s).2, log)

instance : MonadExcept Fault Watched where
  throw fault s log := (.error fault, s, log)
  tryCatch a handle s log :=
    match a s log with
    | (.ok x, s, log) => (.ok x, s, log)
    | (.error fault, s, log) => handle fault s log

variable {s t : Session} {log log' : List Occurrence} {a : Watched α}

theorem bind_eq (a : Watched α) (f : α → Watched β) (s : Session) (log : List Occurrence) :
    (a >>= f) s log =
      match a s log with
      | (.ok x, s, log) => f x s log
      | (.error fault, s, log) => (.error fault, s, log) := rfl

theorem get_bind (f : Session → Watched β) (s : Session) (log : List Occurrence) :
    (get >>= f) s log = f s s log := rfl

theorem bind_ok {x : α} (h : a s log = (.ok x, t, log')) (f : α → Watched β) :
    (a >>= f) s log = f x t log' := by
  rw [bind_eq, h]

theorem bind_error {fault : Fault} (h : a s log = (.error fault, t, log')) (f : α → Watched β) :
    (a >>= f) s log = (.error fault, t, log') := by
  rw [bind_eq, h]

theorem tryCatch_eq (a : Watched α) (handle : Fault → Watched α) (s : Session) (log : List Occurrence) :
    tryCatch a handle s log =
      match a s log with
      | (.ok x, s, log) => (.ok x, s, log)
      | (.error fault, s, log) => handle fault s log := rfl

theorem observing_eq {r : Except Fault α} (h : a s log = (r, t, log')) :
    observing a s log = (.ok r, t, log') := by
  rw [observing, tryCatch_eq]
  cases r with
  | ok x =>
      rw [bind_ok h]
      rfl
  | error fault =>
      rw [bind_error h]
      rfl

theorem ofExcept_eq (r : Except Fault α) (s : Session) (log : List Occurrence) :
    (MonadExcept.ofExcept r : Watched α) s log = (r, s, log) := by
  cases r <;> rfl

end Watched

def Watcher.all : Watcher Watched where
  note entries a := fun s log =>
    let (r, t) := s.exec a
    (r, t, log ++ entries s r)
  around f args a := fun s log =>
    let (r, t, inner) := a s []
    (r, t, log ++ [.called f args inner r])

theorem note_eq {s t : Session} {a : Action Value} {r : Except Fault Value} (h : s.exec a = (r, t))
    (entries : Session → Except Fault Value → List Occurrence) (log : List Occurrence) :
    Watcher.all.note entries a s log = (r, t, log ++ entries s r) := by
  show ((s.exec a).1, (s.exec a).2, log ++ entries s (s.exec a).1) = _
  rw [h]

theorem around_eq {s t : Session} {a : Watched Value} {inner : List Occurrence} {r : Except Fault Value}
    (h : a s [] = (r, t, inner)) (f : Value) (args : List Value) (log : List Occurrence) :
    Watcher.all.around f args a s log = (r, t, log ++ [.called f args inner r]) := by
  show ((a s []).1, (a s []).2.1, log ++ [.called f args (a s []).2.2 (a s []).1]) = _
  rw [h]

def Erases {α : Type} (a : Watched α) (b : Action α) : Prop :=
  ∀ s log, s.exec b = ((a s log).1, (a s log).2.1)

section

variable {α β : Type}

theorem erases_pure (x : α) : Erases (pure x) (pure x) := fun _ _ => rfl

theorem erases_throw (fault : Fault) : Erases (throw fault : Watched α) (throw fault) := fun _ _ => rfl

theorem erases_get : Erases (get : Watched Session) get := fun _ _ => rfl

theorem Erases.bind {a : Watched α} {b : Action α} {f : α → Watched β} {g : α → Action β}
    (h : Erases a b) (hf : ∀ x, Erases (f x) (g x)) : Erases (a >>= f) (b >>= g) := by
  intro s log
  have hb := h s log
  rcases ha : a s log with ⟨⟨fault⟩ | ⟨x⟩, t, log'⟩
  · rw [ha] at hb
    rw [exec_bind_error hb, Watched.bind_error ha]
  · rw [ha] at hb
    rw [exec_bind_ok hb, Watched.bind_ok ha]
    exact hf x t log'

theorem Erases.observing {a : Watched α} {b : Action α} (h : Erases a b) :
    Erases (observing a) (observing b) := by
  intro s log
  rw [exec_observing, h s log, Watched.observing_eq rfl]

theorem erases_ofExcept (r : Except Fault α) :
    Erases (MonadExcept.ofExcept r : Watched α) (MonadExcept.ofExcept r) := by
  cases r <;> exact fun _ _ => rfl

theorem erases_note (entries : Session → Except Fault Value → List Occurrence) (a : Action Value) :
    Erases (Watcher.all.note entries a) a := fun _ _ => rfl

theorem Erases.around {a : Watched Value} {b : Action Value} (h : Erases a b) (f : Value)
    (args : List Value) : Erases (Watcher.all.around f args a) b := fun s _ => h s []

theorem Erases.forM {f : Value → Watched Unit} {g : Value → Action Unit} (h : ∀ x, Erases (f x) (g x))
    (xs : List Value) : Erases (xs.forM f) (xs.forM g) := by
  induction xs with
  | nil => exact erases_pure _
  | cons x xs ih => exact (h x).bind fun _ => ih

theorem Erases.callWith {conduct : Function → List Value → Watched Value}
    {conduct' : Function → List Value → Action Value} {call : Value → List Value → Watched Value}
    {call' : Value → List Value → Action Value}
    (hconduct : ∀ g xs, Erases (conduct g xs) (conduct' g xs))
    (hcall : ∀ l xs, Erases (call l xs) (call' l xs)) (f : Value) (args : List Value) :
    Erases (callWith conduct call f args) (callWith conduct' call' f args) := by
  unfold BaseLib.callWith
  refine erases_get.bind fun s => ?_
  split
  · exact hconduct _ _
  · refine erases_get.bind fun t => .bind (.forM (fun l => ?_) _) fun _ => erases_pure _
    exact (hcall l args).bind fun _ => erases_pure _
  · exact erases_throw _

theorem Erases.perform {call : Value → List Value → Watched Value}
    {call' : Value → List Value → Action Value} (hcall : ∀ f args, Erases (call f args) (call' f args))
    (a : Act e) : Erases (a.perform .all call) (a.perform .none call') := by
  cases a with
  | call f args => exact hcall f args
  | _ => exact erases_note _ _

theorem Erases.run {perform : Act e → Watched Value} {perform' : Act e → Action Value}
    (h : ∀ a, Erases (perform a) (perform' a)) (main : Reaction e) :
    Erases (main.run perform) (main.run perform') := by
  induction main with
  | ends r => exact erases_ofExcept r
  | acts a next ih => exact (h a).observing.bind fun r => erases_get.bind fun s => ih r s

end

theorem erases_calls (body : Function → List Value → Reaction e) (n : Nat) (f : Value)
    (args : List Value) : Erases (Watcher.all.calls body n f args) (Watcher.none.calls body n f args) := by
  induction n generalizing f args with
  | zero => exact (erases_throw _).around f args
  | succ n ih => exact .around (.callWith (fun g xs => .run (.perform ih) (body g xs)) ih f args) f args

theorem erases_run (body : Function → List Value → Reaction e) (n : Nat) (main : Reaction e) :
    Erases (Watcher.all.run body n main) (Watcher.none.run body n main) :=
  .run (.perform (erases_calls body n)) main

end BaseLib.Event
