import BaseLib.Proofs.Event.Watching

namespace BaseLib.Event

open Library Session

inductive DropsFirst (equal : Value → Bool) : List Value → List Value → Prop
  | first {before after : List Value} {x : Value} (apart : ∀ y ∈ before, equal y = false)
      (same : equal x = true) : DropsFirst equal (before ++ x :: after) (before ++ after)
  | absent {l : List Value} (apart : ∀ y ∈ l, equal y = false) : DropsFirst equal l l

/-- Every listener is called once, one after the other and with the same arguments. A listener that fails is
the last, and its failure is the outcome. -/
inductive Serves (args : List Value) : List Value → List Occurrence → Except Fault Value → Prop
  | done : Serves args [] [] (.ok .null)
  | next {f y listeners inner rest r} (h : Serves args listeners rest r) :
      Serves args (f :: listeners) (.called f args inner (.ok y) :: rest) r
  | cut {f fault listeners inner} :
      Serves args (f :: listeners) [.called f args inner (.error fault)] (.error fault)

/-- What is registered with an event, and the functions that were obtained of it. -/
structure Register where
  listeners : List Value
  functions : List Value

/-- Occurrences that take a register to another. Each is in order for the register that those before it have
left; calls are inside each other `n` deep at most, and deeper ones are refused. -/
inductive Lawful : Nat → Register → List Occurrence → Register → Prop
  | nil {n g} : Lawful n g [] g
  | added {n g g' f rest} (h : Lawful n { g with listeners := g.listeners ++ [f] } rest g') :
      Lawful n g (.added f (.ok .null) :: rest) g'
  | removed {n g g' f rest listeners} {s : Session}
      (drops : DropsFirst (s.looselyEquals · f) g.listeners listeners)
      (h : Lawful n { g with listeners } rest g') : Lawful n g (.removed f s (.ok .null) :: rest) g'
  | askedNone {n g g' rest} (unheard : g.listeners = []) (h : Lawful n g rest g') :
      Lawful n g (.asked (.ok .null) :: rest) g'
  | askedSome {n g g' f rest} (heard : g.listeners ≠ []) (present : f ≠ .null)
      (h : Lawful n { g with functions := f :: g.functions } rest g') : Lawful n g (.asked (.ok f) :: rest) g'
  | called {n g g₁ g' f args inner r rest} (serves : f ∈ g.functions → Serves args g.listeners inner r)
      (inside : Lawful n g inner g₁) (h : Lawful (n + 1) g₁ rest g') :
      Lawful (n + 1) g (.called f args inner r :: rest) g'
  | refused {g g' f args rest} (h : Lawful 0 g rest g') :
      Lawful 0 g (.called f args [] (.error (.misuse .tooDeep)) :: rest) g'

variable {e n : Nat} {s t : Session} {g g₁ g₂ : Register} {log occs occs' : List Occurrence}

theorem Lawful.append (h : Lawful n g occs g₁) (h' : Lawful n g₁ occs' g₂) :
    Lawful n g (occs ++ occs') g₂ := by
  induction h with
  | nil => exact h'
  | added _ ih => exact .added (ih h')
  | removed drops _ ih => exact .removed drops (ih h')
  | askedNone unheard _ ih => exact .askedNone unheard (ih h')
  | askedSome heard present _ ih => exact .askedSome heard present (ih h')
  | called serves inside _ _ ih => exact .called serves inside (ih h')
  | refused _ ih => exact .refused (ih h')

theorem dropsFirst_eraseP (equal : Value → Bool) (l : List Value) :
    DropsFirst equal l (l.eraseP equal) := by
  by_cases h : ∃ x ∈ l, equal x = true
  · obtain ⟨x, hx, hsame⟩ := h
    obtain ⟨y, before, after, hbefore, hy, hl, herase⟩ := List.exists_of_eraseP hx hsame
    rw [herase, hl]
    exact .first (fun z hz => by simpa using hbefore z hz) hy
  · rw [List.eraseP_of_forall_not fun x hx hsame => h ⟨x, hx, hsame⟩]
    exact .absent fun y hy => by simpa using fun hsame => h ⟨y, hy, hsame⟩

structure Tracks (e : Nat) (s : Session) (g : Register) : Prop where
  listeners : s.store[e]? = some (.event g.listeners)
  functions : ∀ f ∈ g.functions, ∃ id, f = .ref id ∧ s.store[id]? = some (.multicast e)

theorem Tracks.leaves (h : Tracks e s g) (ht : Leaves e s t) : Tracks e t g where
  listeners := ht.event h.listeners
  functions f hf := by
    obtain ⟨id, rfl, hid⟩ := h.functions f hf
    exact ⟨id, rfl, ht.function hid⟩

theorem Tracks.put (h : Tracks e s g) (listeners : List Value) :
    Tracks e (s.put e (.event listeners)) { g with listeners } where
  listeners := store_put h.listeners _
  functions f hf := by
    obtain ⟨id, rfl, hid⟩ := h.functions f hf
    have hne : id ≠ e := by
      rintro rfl
      cases hid.symm.trans h.listeners
    exact ⟨id, rfl, (store_put_ne hne _).trans hid⟩

theorem Tracks.grow (h : Tracks e s g) :
    Tracks e (s.grow (.multicast e)) { g with functions := .ref s.store.size :: g.functions } where
  listeners := store_grow_of_some h.listeners _
  functions f hf := by
    obtain rfl | hf := List.mem_cons.mp hf
    · exact ⟨_, rfl, store_grow s _⟩
    · obtain ⟨id, rfl, hid⟩ := h.functions f hf
      exact ⟨id, rfl, store_grow_of_some hid _⟩

theorem exec_add (h : Tracks e s g) (f : Value) :
    s.exec (Methods.call (.ref e) "Add" [f]) = (.ok .null, s.put e (.event (g.listeners ++ [f]))) :=
  (exec_call h.listeners rfl [f]).trans rfl

theorem exec_remove (h : Tracks e s g) (f : Value) :
    s.exec (Methods.call (.ref e) "Remove" [f]) =
      (.ok .null, s.put e (.event (g.listeners.eraseP (s.looselyEquals · f)))) :=
  (exec_call h.listeners rfl [f]).trans rfl

theorem exec_ask (h : Tracks e s g) :
    s.exec (Methods.call (.ref e) "ToMulticastFunction" []) =
      if g.listeners = [] then (.ok .null, s) else (.ok (.ref s.store.size), s.grow (.multicast e)) := by
  refine (exec_call h.listeners rfl []).trans ?_
  show s.exec (if g.listeners.isEmpty then pure .null else alloc (.multicast e)) = _
  cases g.listeners <;> rfl

def Follows (e n : Nat) (a : Watched Value) : Prop :=
  ∀ {s g} log, Tracks e s g →
    ∃ r t occs g', a s log = (r, t, log ++ occs) ∧ Tracks e t g' ∧ Lawful n g occs g'

def Answers (e n : Nat) (call : Value → List Value → Watched Value) : Prop :=
  ∀ f args {s g} log, Tracks e s g → ∃ r t inner g',
    call f args s log = (r, t, log ++ [.called f args inner r]) ∧ Tracks e t g' ∧
      Lawful n g [.called f args inner r] g'

variable {call : Value → List Value → Watched Value}

theorem Answers.perform (hcall : Answers e n call) (a : Act e) : Follows e n (a.perform .all call) := by
  intro s g log h
  cases a with
  | add f => exact ⟨_, _, _, _, note_eq (exec_add h f) _ log, h.put _, .added .nil⟩
  | remove f =>
      exact ⟨_, _, _, _, note_eq (exec_remove h f) _ log, h.put _, .removed (dropsFirst_eraseP _ _) .nil⟩
  | ask =>
      have hask := exec_ask h
      by_cases hl : g.listeners = []
      · rw [if_pos hl] at hask
        exact ⟨_, _, _, _, note_eq hask _ log, h, .askedNone hl .nil⟩
      · rw [if_neg hl] at hask
        exact ⟨_, _, _, _, note_eq hask _ log, h.grow, .askedSome hl (by simp) .nil⟩
  | call f args =>
      obtain ⟨r, t, inner, g', hrun, ht, hlaw⟩ := hcall f args log h
      exact ⟨r, t, _, g', hrun, ht, hlaw⟩
  | aside a =>
      have hact : s.exec a.act = ((s.exec a.act).1, (s.exec a.act).2) := rfl
      exact ⟨_, _, [], g, note_eq hact _ log, h.leaves (a.leaves s), .nil⟩

theorem Follows.run {perform : Act e → Watched Value} (h : ∀ a, Follows e n (perform a))
    (main : Reaction e) : Follows e n (main.run perform) := by
  induction main with
  | ends r =>
      intro s g log hs
      exact ⟨r, s, [], g, by rw [List.append_nil]; exact Watched.ofExcept_eq r s log, hs, .nil⟩
  | acts a next ih =>
      intro s g log hs
      obtain ⟨r, t, occs, g₁, hrun, ht, hlaw⟩ := h a log hs
      obtain ⟨r', u, occs', g₂, hrest, hu, hlaw'⟩ := ih r t (log ++ occs) ht
      refine ⟨r', u, occs ++ occs', g₂, ?_, hu, hlaw.append hlaw'⟩
      rw [Reaction.run, Watched.bind_ok (Watched.observing_eq hrun), ← List.append_assoc]
      exact hrest

/-- The listeners of a list are called one after the other, whatever becomes of the event meanwhile. -/
theorem Answers.serves (hcall : Answers e n call) (listeners args : List Value) (log : List Occurrence)
    (h : Tracks e s g) :
    ∃ r t occs g', (listeners.forM fun l => discard (call l args)) s log = (r, t, log ++ occs) ∧
      Tracks e t g' ∧ Lawful n g occs g' ∧ Serves args listeners occs (r.map fun _ => .null) := by
  induction listeners generalizing s g log with
  | nil => exact ⟨.ok (), s, [], g, by rw [List.append_nil]; rfl, h, .nil, .done⟩
  | cons f listeners ih =>
      obtain ⟨r, t, inner, g₁, hrun, ht, hlaw⟩ := hcall f args log h
      cases r with
      | error fault =>
          have hdiscard := Watched.bind_error hrun fun _ => (pure () : Watched Unit)
          refine ⟨.error fault, t, [.called f args inner (.error fault)], g₁, ?_, ht, hlaw, .cut⟩
          exact Watched.bind_error hdiscard _
      | ok y =>
          have hdiscard := Watched.bind_ok hrun fun _ => (pure () : Watched Unit)
          obtain ⟨r, u, occs, g₂, hrest, hu, hlaw', hserves⟩ :=
            ih (log ++ [.called f args inner (.ok y)]) ht
          refine ⟨r, u, _, g₂, ?_, hu, hlaw.append hlaw', .next hserves⟩
          rw [← List.append_assoc]
          exact (Watched.bind_ok hdiscard _).trans hrest

/-- One call. If it is the event's function that is called, the listeners of this moment are served. -/
theorem Answers.callWith (hcall : Answers e n call) {conduct : Function → List Value → Watched Value}
    (hconduct : ∀ f xs, Follows e n (conduct f xs)) (f : Value) (args : List Value) (log : List Occurrence)
    (h : Tracks e s g) :
    ∃ r t occs g', callWith conduct call f args s log = (r, t, log ++ occs) ∧ Tracks e t g' ∧
      Lawful n g occs g' ∧ (f ∈ g.functions → Serves args g.listeners occs r) := by
  -- a function that was obtained of the event is still its function
  have hknown : f ∈ g.functions → s.object? f = some (.multicast e) := by
    intro hf
    obtain ⟨id, rfl, hid⟩ := h.functions f hf
    exact hid
  rw [BaseLib.callWith, Watched.get_bind]
  cases ho : s.object? f with
  | none =>
      refine ⟨_, s, [], g, by rw [List.append_nil]; rfl, h, .nil, fun hf => ?_⟩
      cases ho.symm.trans (hknown hf)
  | some o =>
      cases o with
      | function function =>
          obtain ⟨r, t, occs, g', hrun, ht, hlaw⟩ := hconduct function args log h
          refine ⟨r, t, occs, g', hrun, ht, hlaw, fun hf => ?_⟩
          cases ho.symm.trans (hknown hf)
      | multicast event =>
          obtain ⟨r, t, occs, g', hrun, ht, hlaw, hserves⟩ := hcall.serves (s.listeners event) args log h
          refine ⟨r.map fun _ => .null, t, occs, g', ?_, ht, hlaw, fun hf => ?_⟩
          · dsimp only
            rw [Watched.get_bind]
            cases r with
            | ok => exact Watched.bind_ok hrun _
            | error => exact Watched.bind_error hrun _
          · cases ho.symm.trans (hknown hf)
            rwa [Session.listeners, h.listeners] at hserves
      | _ =>
          refine ⟨_, s, [], g, by rw [List.append_nil]; rfl, h, .nil, fun hf => ?_⟩
          cases ho.symm.trans (hknown hf)

theorem answers_calls (body : Function → List Value → Reaction e) (n : Nat) :
    Answers e n (Watcher.all.calls body n) := by
  induction n with
  | zero => exact fun f args s g log h => ⟨_, s, [], g, rfl, h, .refused .nil⟩
  | succ n ih =>
      intro f args s g log h
      obtain ⟨r, t, occs, g', hrun, ht, hlaw, hserves⟩ :=
        ih.callWith (fun f xs => Follows.run ih.perform (body f xs)) f args [] h
      exact ⟨r, t, occs, g', around_eq hrun f args log, ht, .called hserves hlaw .nil⟩

end BaseLib.Event
