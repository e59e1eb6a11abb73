import BaseLib.Proofs.Session.Within
import Mathlib.Algebra.Ring.Int.Defs

namespace BaseLib

open Library Session

inductive Phase
  | notStarted
  | positioned (x : Value)
  | exhausted
  deriving DecidableEq

namespace Cursor

inductive Op
  | moveNext
  | current
  | dispose
  deriving DecidableEq

def Op.run (id : Nat) : Op → Action Value
  | moveNext => Methods.call (.ref id) "MoveNext" []
  | current => Properties.read (.ref id) "Current"
  | dispose => Methods.call (.ref id) "Dispose" []

end Cursor

open Cursor (Op)

namespace Phase

def state : Phase → CursorState
  | notStarted => .notStarted
  | positioned _ => .positioned
  | exhausted => .exhausted

def current : Phase → Except Fault Value
  | notStarted => .error (.failure .notStarted)
  | positioned x => .ok x
  | exhausted => .error (.failure .alreadyFinished)

/-- The phase after a move of a cursor that is not exhausted. A failure changes nothing. -/
def moved (p : Phase) : Except Fault (Option Value) → Phase
  | .ok (some x) => positioned x
  | .ok none => exhausted
  | .error _ => p

/-- The phase after an operation, when the source has `r` to give. -/
def next (p : Phase) (r : Except Fault (Option Value)) : Op → Phase
  | .moveNext => if p = exhausted then exhausted else p.moved r
  | .current => p
  | .dispose => exhausted

def ended (p : Phase) : Nat := if p = exhausted then 1 else 0

theorem exhausted_next (r : Except Fault (Option Value)) (op : Op) : exhausted.next r op = exhausted := by
  cases op <;> rfl

def answer (p : Phase) (r : Except Fault (Option Value)) : Op → Except Fault Value
  | .moveNext => if p = exhausted then .ok (.bool false) else r.map fun x => .bool x.isSome
  | .current => p.current
  | .dispose => .ok .null

theorem exhausted_answer (r r' : Except Fault (Option Value)) (op : Op) :
    exhausted.answer r op = exhausted.answer r' op := by
  cases op <;> rfl

end Phase

namespace Cursor

variable {s t u : Session} {id g : Nat} {c d : Cursor}

def phase (c : Cursor) : Phase :=
  match c.state with
  | .notStarted => .notStarted
  | .positioned => .positioned c.current
  | .exhausted => .exhausted

theorem state_phase (c : Cursor) : c.phase.state = c.state := by
  rw [phase]
  cases c.state <;> rfl

theorem phase_eq_exhausted : c.phase = .exhausted ↔ c.state = .exhausted := by
  rw [phase]
  cases c.state <;> simp

theorem currentOf_phase (c : Cursor) : (currentOf c).mapError Fault.failure = c.phase.current := by
  rw [phase, currentOf]
  cases c.state <;> rfl

/-- The pull of the walk of a cursor that is on the move, and the session after it. -/
def pulled (s : Session) (id : Nat) (c : Cursor) : Except Fault Pulled × Session :=
  (s.put id (.cursor c.moving)).exec (pull (s.steps - 1) c.walk)

/-- What the source of a cursor has to give: an element, its end or a failure. -/
def given (s : Session) (id : Nat) : Except Fault (Option Value) :=
  match s.store[id]? with
  | some (.cursor c) => (pulled s id c).1 >>= Prod.fst
  | _ => .ok none

theorem given_eq {r : Except Fault (Option Value)} {w : Walk} (h : s.store[id]? = some (.cursor c))
    (hp : pulled s id c = (.ok (r, w), t)) : given s id = r := by
  simp only [given, h, hp]
  rfl

structure Event where
  before : Session
  op : Op
  answer : Except Fault Value
  after : Session

/-- What an operation can do to a cursor, and the walk that it closes: what is left of the enumeration
where it ends and where it is broken off, and nothing otherwise. -/
inductive Step (id : Nat) : Cursor → Event → Option Walk → Cursor → Prop
  | gives {s t : Session} {c : Cursor} {x : Value} {w : Walk} (hc : c.state ≠ .exhausted)
      (hp : pulled s id c = (.ok (.give x w), t)) :
      Step id c ⟨s, .moveNext, .ok (.bool true), t.put id (.cursor (c.positioned x w))⟩ none
        (c.positioned x w)
  | ends {s t u : Session} {c : Cursor} {w : Walk} (hc : c.state ≠ .exhausted)
      (hp : pulled s id c = (.ok (.ok none, w), t))
      (hw : (t.put id (.cursor c.finished)).exec w.close = (.ok (), u)) :
      Step id c ⟨s, .moveNext, .ok (.bool false), u⟩ (some w) c.finished
  | fails {s t : Session} {c : Cursor} {e : Fault} {w : Walk} (hc : c.state ≠ .exhausted)
      (hp : pulled s id c = (.ok (.error e, w), t)) :
      Step id c ⟨s, .moveNext, .error e, t.put id (.cursor { c with walk := w })⟩ none
        { c with walk := w }
  | reads {s : Session} {c : Cursor} : Step id c ⟨s, .current, c.phase.current, s⟩ none c
  | breaks {s t : Session} {c : Cursor} (hc : c.state ≠ .exhausted)
      (hw : (s.put id (.cursor c.finished)).exec c.walk.close = (.ok (), t)) :
      Step id c ⟨s, .dispose, .ok .null, t⟩ (some c.walk) c.finished
  | stays {s : Session} {c : Cursor} (hc : c.state = .exhausted) (op : Op) :
      Step id c ⟨s, op, Phase.exhausted.answer (.ok none) op, s⟩ none c

theorem exec_read (h : s.store[id]? = some (.cursor c)) :
    s.exec (Op.current.run id) = (c.phase.current, s) := by
  rw [Op.run, exec_currentOf h, currentOf_phase]

theorem exec_state (h : s.store[id]? = some (.cursor c)) :
    s.exec (Properties.read (.ref id) "State") = (.ok (.symbol (.cursorState c.state)), s) := by
  rw [Properties.read, exec_get_bind]
  simp only [object?, h, Properties.known?]
  rfl

theorem exec_dispose (h : s.store[id]? = some (.cursor c)) (hd : s.exec (disposeCursor id) = (.ok (), t)) :
    s.exec (Op.dispose.run id) = (.ok .null, t) := by
  have hm : (Methods.of id (.cursor c)).lookup "Dispose" =
      some (.nullary do disposeCursor id; done) := rfl
  rw [Op.run, exec_call h hm]
  exact (exec_bind_ok hd _).trans rfl

theorem exec_disposeCursor (h : s.store[id]? = some (.cursor c)) (hc : c.state ≠ .exhausted)
    (hw : (s.put id (.cursor c.finished)).exec c.walk.close = (.ok (), t)) :
    s.exec (disposeCursor id) = (.ok (), t) := by
  rw [disposeCursor, exec_get_bind]
  simp only [h]
  rw [if_pos (by simpa using hc)]
  exact (exec_bind_ok (exec_assign _ _ _) _).trans hw

theorem exec_disposeCursor_exhausted (h : s.store[id]? = some (.cursor c)) (hc : c.state = .exhausted) :
    s.exec (disposeCursor id) = (.ok (), s) := by
  rw [disposeCursor, exec_get_bind]
  simp only [h, hc]
  rfl

theorem exec_exhausted (h : s.store[id]? = some (.cursor c)) (hc : c.state = .exhausted)
    (hs : 0 < s.steps) (op : Op) :
    s.exec (op.run id) = (Phase.exhausted.answer (.ok none) op, s) := by
  obtain ⟨n, hn⟩ : ∃ n, s.steps = n + 1 := ⟨s.steps - 1, by omega⟩
  cases op with
  | moveNext => exact exec_moveNext h (hn ▸ exec_advance_exhausted h hc n)
  | current =>
      rw [exec_read h, phase_eq_exhausted.mpr hc]
      rfl
  | dispose => exact exec_dispose h (exec_disposeCursor_exhausted h hc)

theorem step_moveNext {r : Except Fault Value} (h : s.store[id]? = some (.cursor c))
    (hc : c.state ≠ .exhausted) (hs : 0 < s.steps) (he : s.exec (Op.moveNext.run id) = (r, t)) :
    ∃ k d, Step id c ⟨s, .moveNext, r, t⟩ k d ∧ t.store[id]? = some (.cursor d) := by
  obtain ⟨n, hn⟩ : ∃ n, s.steps = n + 1 := ⟨s.steps - 1, by omega⟩
  obtain ⟨⟨x, w⟩, u, hp⟩ := answers_pull n c.walk (s.put id (.cursor c.moving))
  have hpulled : pulled s id c = (.ok (x, w), u) := by
    rw [pulled, hn]
    exact hp
  -- whatever the pull has done to the cursor, its place is still there
  have hlt : id < u.store.size := by
    have hgrow : Grows (s.put id (.cursor c.moving)) u := by
      have hpull : Within Grows (pull n c.walk) := (enumerationWithin n).pull c.walk
      have hu := hpull (s.put id (.cursor c.moving))
      rwa [hp] at hu
    have hid := (Array.getElem?_eq_some_iff.mp (store_put h (.cursor c.moving))).1
    exact Nat.lt_of_lt_of_le hid hgrow
  rcases x with e | _ | x
  · cases he.symm.trans (exec_moveNext_error h (hn ▸ exec_advance_error h hc hp))
    exact ⟨_, _, .fails hc hpulled, store_put_of_lt hlt _⟩
  · obtain ⟨v, hv, hid⟩ := exec_close w (store_put_of_lt hlt (.cursor c.finished))
    cases he.symm.trans (exec_moveNext h (hn ▸ exec_advance_finish h hc hp hv))
    exact ⟨_, _, .ends hc hpulled hv, hid⟩
  · cases he.symm.trans (exec_moveNext h (hn ▸ exec_advance_give h hc hp))
    exact ⟨_, _, .gives hc hpulled, store_put_of_lt hlt _⟩

theorem step_of_exec {e : Event} (h : e.before.store[id]? = some (.cursor c)) (hs : 0 < e.before.steps)
    (he : e.before.exec (e.op.run id) = (e.answer, e.after)) :
    ∃ k d, Step id c e k d ∧ e.after.store[id]? = some (.cursor d) := by
  obtain ⟨s, op, r, t⟩ := e
  dsimp only at h hs he
  by_cases hc : c.state = .exhausted
  · cases he.symm.trans (exec_exhausted h hc hs op)
    exact ⟨_, c, .stays hc op, h⟩
  cases op with
  | moveNext => exact step_moveNext h hc hs he
  | current =>
      cases he.symm.trans (exec_read h)
      exact ⟨_, c, .reads, h⟩
  | dispose =>
      obtain ⟨v, hv, hid⟩ := exec_close c.walk (store_put h (.cursor c.finished))
      cases he.symm.trans (exec_dispose h (exec_disposeCursor h hc hv))
      exact ⟨_, _, .breaks hc hv, hid⟩

variable {e : Event} {k : Option Walk}

/-- An operation answers what the phase and the source say, and leads to the phase that they say. A
reading changes nothing, and nothing changes once the enumeration is over. -/
structure Event.Follows (id : Nat) (p : Phase) (e : Event) : Prop where
  answer : e.answer = p.answer (given e.before id) e.op
  state : e.after.exec (Properties.read (.ref id) "State") =
    (.ok (.symbol (.cursorState (p.next (given e.before id) e.op).state)), e.after)
  untouched : e.op = .current ∨ p = .exhausted → e.after = e.before

theorem Step.answer (h : Step id c e k d) (hid : e.before.store[id]? = some (.cursor c)) :
    e.answer = c.phase.answer (given e.before id) e.op := by
  cases h with
  | gives hc hp | ends hc hp _ | fails hc hp =>
      simp [Phase.answer, phase_eq_exhausted, hc, given_eq hid hp, Except.map]
  | reads | breaks => rfl
  | stays hc op =>
      rw [phase_eq_exhausted.mpr hc]
      exact Phase.exhausted_answer _ _ op

theorem Step.phase (h : Step id c e k d) (hid : e.before.store[id]? = some (.cursor c)) :
    d.phase = c.phase.next (given e.before id) e.op := by
  cases h with
  | gives hc hp | ends hc hp _ =>
      simp only [Phase.next, phase_eq_exhausted, if_neg hc, given_eq hid hp]
      rfl
  | fails hc hp =>
      simp only [Phase.next, phase_eq_exhausted, if_neg hc, given_eq hid hp]
      rfl
  | reads | breaks => rfl
  | stays hc op =>
      rw [phase_eq_exhausted.mpr hc, Phase.exhausted_next]

theorem Step.untouched (h : Step id c e k d) (ho : e.op = .current ∨ c.phase = .exhausted) :
    e.after = e.before := by
  cases h with
  | gives hc _ | ends hc _ _ | fails hc _ | breaks hc _ =>
      simp [phase_eq_exhausted, hc] at ho
  | reads | stays => rfl

theorem Step.follows (h : Step id c e k d) (hid : e.before.store[id]? = some (.cursor c))
    (hid' : e.after.store[id]? = some (.cursor d)) : e.Follows id c.phase where
  answer := h.answer hid
  state := by rw [← h.phase hid, state_phase, exec_state hid']
  untouched := h.untouched

theorem Step.length_closed (h : Step id c e k d) : k.toList.length + c.phase.ended = d.phase.ended := by
  simp only [Phase.ended, phase_eq_exhausted]
  cases h with
  | gives hc | fails hc | ends hc | breaks hc => simp [hc, positioned, finished]
  | reads | stays => simp

/-- How often a sequence that comes once has been closed. -/
def closings (s : Session) (g : Nat) : Nat :=
  match s.store[g]? with
  | some (.generator _ n) => n
  | _ => 0

theorem closings_eq {rest : List Value} {n : Nat} (h : s.store[g]? = some (.generator rest n)) :
    closings s g = n := by
  simp only [closings, h]

theorem exec_leafStep_generator {rest : List Value} {n : Nat}
    (h : s.store[g]? = some (.generator rest n)) :
    ∃ x rest' t, s.exec (leafStep (.generator g)) = (.ok (.ok x, .generator g), t) ∧
      t.store[g]? = some (.generator rest' n) := by
  rw [leafStep, exec_get_bind]
  cases rest with
  | nil =>
      simp only [h]
      exact ⟨none, [], s, rfl, h⟩
  | cons x rest =>
      simp only [h]
      exact ⟨some x, rest, s.put g (.generator rest n), rfl, store_put h _⟩

section

variable {rest : List Value} {n : Nat}

theorem pulled_generator (hw : c.walk = .generator g) (hs : 2 ≤ s.steps) (hg : g ≠ id)
    (h : s.store[g]? = some (.generator rest n)) :
    ∃ x rest' t, pulled s id c = (.ok (.ok x, .generator g), t) ∧
      t.store[g]? = some (.generator rest' n) := by
  obtain ⟨m, hm⟩ : ∃ m, s.steps - 1 = m + 1 := ⟨s.steps - 2, by omega⟩
  rw [pulled, hm, hw]
  exact exec_leafStep_generator (by rwa [store_put_ne hg])

theorem closings_close {o : Object} (hg : g ≠ id) (h : s.store[g]? = some (.generator rest n))
    (hu : (s.put id o).exec (Walk.close (.generator g)) = (.ok (), u)) : closings u g = n + 1 := by
  have hput : (s.put id o).store[g]? = some (.generator rest n) := by rwa [store_put_ne hg]
  cases hu.symm.trans (exec_closeGenerator hput)
  exact closings_eq (store_put hput _)

/-- A cursor over a sequence that comes once closes it when it closes its walk, and keeps to it until
then. -/
theorem Step.closings (hstep : Step id c e k d) (hid : e.before.store[id]? = some (.cursor c))
    (hw : c.walk = .generator g ∨ c.phase = .exhausted) (hs : 2 ≤ e.before.steps)
    (h : e.before.store[g]? = some (.generator rest n)) :
    Cursor.closings e.after g = n + k.toList.length ∧ (d.walk = .generator g ∨ d.phase = .exhausted) := by
  have hg : g ≠ id := by
    rintro rfl
    cases h.symm.trans hid
  have hwalk (hc : c.state ≠ .exhausted) : c.walk = .generator g :=
    hw.resolve_right fun hp => hc (phase_eq_exhausted.mp hp)
  cases hstep with
  | gives hc hp =>
      obtain ⟨x, rest', t, hp', ht⟩ := pulled_generator (hwalk hc) hs hg h
      cases hp.symm.trans hp'
      exact ⟨closings_eq (by rwa [store_put_ne hg]), .inl rfl⟩
  | ends hc hp hu =>
      obtain ⟨x, rest', t, hp', ht⟩ := pulled_generator (hwalk hc) hs hg h
      cases hp.symm.trans hp'
      exact ⟨closings_close hg ht hu, .inr rfl⟩
  | fails hc hp =>
      obtain ⟨x, rest', t, hp', ht⟩ := pulled_generator (hwalk hc) hs hg h
      cases hp.symm.trans hp'
  | reads => exact ⟨closings_eq h, hw⟩
  | breaks hc hu =>
      rw [hwalk hc] at hu
      exact ⟨closings_close hg h hu, .inr rfl⟩
  | stays hc op => exact ⟨closings_eq h, .inr (phase_eq_exhausted.mpr hc)⟩

end

structure Leaves (id : Nat) (s t : Session) : Prop where
  kept : t.store[id]? = s.store[id]?
  steps : 2 ≤ t.steps

/-- Operations on a cursor, one after the other. Between two of them anything happens to the source. -/
inductive Run (id : Nat) : Session → List Event → Prop
  | nil (s : Session) : Run id s []
  | cons {s : Session} {e : Event} {events : List Event} (hl : Leaves id s e.before)
      (he : e.before.exec (e.op.run id) = (e.answer, e.after)) (hr : Run id e.after events) :
      Run id s (e :: events)

/-- The phase after some operations, from what the source had to give at each of them. -/
def after (id : Nat) (p : Phase) (events : List Event) : Phase :=
  events.foldl (fun p e => p.next (given e.before id) e.op) p

/-- Steps one after the other, and the walks that they close. -/
inductive Steps (id : Nat) : Cursor → List Event → List Walk → Cursor → Prop
  | nil (c : Cursor) : Steps id c [] [] c
  | cons {c d d' : Cursor} {e : Event} {events : List Event} {k : Option Walk} {closed : List Walk}
      (h : Step id c e k d) (hs : Steps id d events closed d') :
      Steps id c (e :: events) (k.toList ++ closed) d'

variable {events : List Event} {closed : List Walk}

theorem Run.steps (hr : Run id s events) (h : s.store[id]? = some (.cursor c)) :
    ∃ closed d, Steps id c events closed d ∧ d.phase = after id c.phase events := by
  induction hr generalizing c with
  | nil s => exact ⟨[], c, .nil c, rfl⟩
  | @cons s e events hl he hr ih =>
      have hid := hl.kept.trans h
      obtain ⟨k, d, hstep, hd⟩ := step_of_exec hid (by have := hl.steps; omega) he
      obtain ⟨closed, d', hsteps, hd'⟩ := ih hd
      exact ⟨_, d', .cons hstep hsteps, by rw [hd', hstep.phase hid]; rfl⟩

theorem Run.follows (hr : Run id s events) (h : s.store[id]? = some (.cursor c)) :
    ∀ pre e post, events = pre ++ e :: post → e.Follows id (after id c.phase pre) := by
  induction hr generalizing c with
  | nil s => simp
  | @cons s e events hl he hr ih =>
      have hid := hl.kept.trans h
      obtain ⟨k, d, hstep, hd⟩ := step_of_exec hid (by have := hl.steps; omega) he
      intro pre e' post heq
      cases pre with
      | nil =>
          cases heq
          exact hstep.follows hid hd
      | cons e'' pre =>
          cases heq
          have hfollows := ih hd pre e' post rfl
          rwa [hstep.phase hid] at hfollows

theorem Steps.length_closed (h : Steps id c events closed d) :
    closed.length + c.phase.ended = d.phase.ended := by
  induction h with
  | nil c => simp
  | cons hstep _ ih =>
      have := hstep.length_closed
      rw [List.length_append]
      omega

/-- How often an operation closes a sequence that comes once. -/
def Event.closings (g : Nat) (e : Event) : Int := Cursor.closings e.after g - Cursor.closings e.before g

theorem Run.closings (hr : Run id s events) (h : s.store[id]? = some (.cursor c))
    (hw : c.walk = .generator g ∨ c.phase = .exhausted)
    (hg : ∀ e ∈ events, ∃ rest n, e.before.store[g]? = some (.generator rest n)) :
    (events.map (Event.closings g)).sum + c.phase.ended = (after id c.phase events).ended := by
  induction hr generalizing c with
  | nil s => simp [after]
  | @cons s e events hl he hr ih =>
      have hid := hl.kept.trans h
      obtain ⟨k, d, hstep, hd⟩ := step_of_exec hid (by have := hl.steps; omega) he
      obtain ⟨rest, n, hn⟩ := hg e List.mem_cons_self
      obtain ⟨hclosings, hwalk⟩ := hstep.closings hid hw hl.steps hn
      have hrest := ih hd hwalk fun e' he' => hg e' (List.mem_cons_of_mem e he')
      have hended := hstep.length_closed
      have hafter : after id c.phase (e :: events) = after id d.phase events := by
        rw [hstep.phase hid]
        rfl
      rw [List.map_cons, List.sum_cons, hafter, ← hrest, Event.closings, hclosings, closings_eq hn]
      omega

/-- A cursor goes through its phases, whatever happens to its source: each operation answers what the
phase says that the operations before it have led to. When the enumeration is over, exactly one walk has
been closed, and none before; of a sequence that comes once this is one closing that can be counted. -/
theorem run_follows_phases (h : s.store[id]? = some (.cursor c)) (hr : Run id s events) :
    (∀ pre e post, events = pre ++ e :: post → e.Follows id (after id c.phase pre)) ∧
      (c.phase ≠ .exhausted →
        (∃ closed d, Steps id c events closed d ∧
          closed.length = (after id c.phase events).ended) ∧
        ∀ g, c.walk = .generator g →
          (∀ e ∈ events, ∃ rest n, e.before.store[g]? = some (.generator rest n)) →
          (events.map (Event.closings g)).sum = (after id c.phase events).ended) := by
  refine ⟨hr.follows h, fun hc => ?_⟩
  have hstart : c.phase.ended = 0 := if_neg hc
  refine ⟨?_, fun g hw hg => ?_⟩
  · obtain ⟨closed, d, hsteps, hd⟩ := hr.steps h
    have hlength := hsteps.length_closed
    exact ⟨closed, d, hsteps, by rw [← hd]; omega⟩
  · have hsum := hr.closings h (.inl hw) hg
    omega

/-- A sequence that comes once, and a cursor over it. -/
def spring (rest : List Value) (closings : Nat) (c : Cursor) : Session :=
  { Session.start 0 with store := #[.generator rest closings, .cursor c], steps := 4 }

/-- The sequence is filled anew after the first move and after the disposal. -/
theorem run_follows_phases_refilled :
    let c := Cursor.start .iterator (.generator 0)
    let c₁ := c.positioned (.int 1) (.generator 0)
    let c₂ := c.positioned (.int 5) (.generator 0)
    let e₁ : Event := ⟨spring [.int 1] 0 c, .moveNext, .ok (.bool true), spring [] 0 c₁⟩
    let e₂ : Event := ⟨spring [.int 5] 0 c₁, .current, .ok (.int 1), spring [.int 5] 0 c₁⟩
    let e₃ : Event := ⟨spring [.int 5] 0 c₁, .moveNext, .ok (.bool true), spring [] 0 c₂⟩
    let e₄ : Event := ⟨spring [] 0 c₂, .dispose, .ok .null, spring [] 1 c.finished⟩
    let e₅ : Event :=
      ⟨spring [.int 7] 1 c.finished, .moveNext, .ok (.bool false), spring [.int 7] 1 c.finished⟩
    let events := [e₁, e₂, e₃, e₄, e₅]
    (spring [.int 1] 0 c).store[1]? = some (.cursor c) ∧ Run 1 (spring [.int 1] 0 c) events ∧
      c.phase ≠ .exhausted ∧ c.walk = .generator 0 ∧
      (∀ e ∈ events, ∃ rest n, e.before.store[0]? = some (.generator rest n)) ∧
      e₂.Follows 1 (.positioned (.int 1)) ∧ e₅.Follows 1 .exhausted ∧
      (events.map (Event.closings 0)).sum = 1 := by
  intro c c₁ c₂ e₁ e₂ e₃ e₄ e₅ events
  have h : (spring [.int 1] 0 c).store[1]? = some (.cursor c) := rfl
  have h₁ : e₁.before.exec (e₁.op.run 1) = (e₁.answer, e₁.after) := rfl
  have h₂ : e₂.before.exec (e₂.op.run 1) = (e₂.answer, e₂.after) := rfl
  have h₃ : e₃.before.exec (e₃.op.run 1) = (e₃.answer, e₃.after) := rfl
  have h₄ : e₄.before.exec (e₄.op.run 1) = (e₄.answer, e₄.after) := rfl
  have h₅ : e₅.before.exec (e₅.op.run 1) = (e₅.answer, e₅.after) := rfl
  have hr : Run 1 (spring [.int 1] 0 c) events :=
    .cons ⟨rfl, by decide⟩ h₁ (.cons ⟨rfl, by decide⟩ h₂ (.cons ⟨rfl, by decide⟩ h₃
      (.cons ⟨rfl, by decide⟩ h₄ (.cons ⟨rfl, by decide⟩ h₅ (.nil _)))))
  have hg : ∀ e ∈ events, ∃ rest n, e.before.store[0]? = some (.generator rest n) := by
    simp only [events, List.forall_mem_cons]
    exact ⟨⟨_, _, rfl⟩, ⟨_, _, rfl⟩, ⟨_, _, rfl⟩, ⟨_, _, rfl⟩, ⟨_, _, rfl⟩, by simp⟩
  obtain ⟨hfollows, hclosed⟩ := run_follows_phases h hr
  exact ⟨h, hr, by decide, rfl, hg, hfollows [e₁] e₂ [e₃, e₄, e₅] rfl,
    hfollows [e₁, e₂, e₃, e₄] e₅ [] rfl, (hclosed (by decide)).2 0 rfl hg⟩

end Cursor

end BaseLib
