import BaseLib.Proofs.Session.Exec

namespace BaseLib.Session

/-- An operation with the sessions before and after it and with what it answers. -/
structure Invocation (ω : Type) where
  before : Session
  op : ω
  outcome : Except Fault Value
  after : Session

/-- Operations: what they run, when they are asked for, and what is left alone between them. -/
structure Protocol (ω : Type) where
  run : ω → Action Value
  allowed : Session → ω → Prop
  quiet : Session → Session → Prop

namespace Protocol

variable {ω σ : Type} {p : Protocol ω} {s t : Session} {m : σ} {calls : List (Invocation ω)}

inductive Runs (p : Protocol ω) : Session → List (Invocation ω) → Session → Prop
  | nil {s t : Session} (h : p.quiet s t) : Runs p s [] t
  | cons {s t : Session} {e : Invocation ω} {calls : List (Invocation ω)} (h : p.quiet s e.before)
      (ha : p.allowed e.before e.op) (he : e.before.exec (p.run e.op) = (e.outcome, e.after))
      (hr : Runs p e.after calls t) : Runs p s (e :: calls) t

/-- The operation as it runs in a session. -/
def call (p : Protocol ω) (s : Session) (op : ω) : Invocation ω :=
  ⟨s, op, (s.exec (p.run op)).1, (s.exec (p.run op)).2⟩

theorem call_eq {e : Invocation ω} (h : e.before.exec (p.run e.op) = (e.outcome, e.after)) :
    p.call e.before e.op = e := by
  rw [call, h]

theorem call_of {op : ω} {r : Except Fault Value} (h : s.exec (p.run op) = (r, t)) :
    p.call s op = ⟨s, op, r, t⟩ := by
  rw [call, h]

theorem Runs.call {u : Session} {op : ω} (h : p.quiet s t) (ha : p.allowed t op)
    (hr : p.Runs (p.call t op).after calls u) : p.Runs s (p.call t op :: calls) u :=
  .cons h ha rfl hr

end Protocol

/-- The steps lead from one state of a view to another, one after the other. -/
inductive Follows {ω σ : Type} (step : σ → Invocation ω → σ → Prop) : σ → List (Invocation ω) → σ → Prop
  | nil (m : σ) : Follows step m [] m
  | cons {m m' m'' : σ} {e : Invocation ω} {calls : List (Invocation ω)} (h : step m e m')
      (hr : Follows step m' calls m'') : Follows step m (e :: calls) m''

namespace Protocol

variable {ω σ : Type} {p : Protocol ω} {s t : Session} {m : σ} {calls : List (Invocation ω)}

/-- A view that every operation takes one step further, and that nothing in between changes, follows a run. -/
theorem Runs.follows {view : Session → σ → Prop} {step : σ → Invocation ω → σ → Prop}
    (hquiet : ∀ {s t : Session} {m : σ}, p.quiet s t → view s m → view t m)
    (hstep : ∀ {s : Session} {m : σ} {op : ω}, p.allowed s op → view s m →
      ∃ m', step m (p.call s op) m' ∧ view (p.call s op).after m')
    (hr : p.Runs s calls t) (h : view s m) : ∃ m', Follows step m calls m' ∧ view t m' := by
  induction hr generalizing m with
  | nil hst => exact ⟨m, .nil m, hquiet hst h⟩
  | @cons s t e calls hst ha he hr ih =>
      obtain ⟨m', hm, hafter⟩ := hstep ha (hquiet hst h)
      rw [call_eq he] at hm hafter
      obtain ⟨m'', hfollows, ht⟩ := ih hafter
      exact ⟨m'', .cons hm hfollows, ht⟩

end Protocol

end BaseLib.Session
