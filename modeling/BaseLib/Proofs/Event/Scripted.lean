import BaseLib.Proofs.Event.Registrations

namespace BaseLib.Event

open Library Session

variable {e : Nat} {s : Session}

instance : CoversRecords (Leaves e) where
  refl _ := ⟨id, id⟩
  trans h h' := ⟨fun ho => h'.event (h.event ho), fun ho => h'.function (h.function ho)⟩
  grow _ o := ⟨fun h => store_grow_of_some h o, fun h => store_grow_of_some h o⟩
  record _ _ := ⟨id, id⟩

theorem leaves_put {id : Nat} (hne : id ≠ e) {listeners : List Value}
    (h : s.store[id]? = some (.event listeners)) (listeners' : List Value) :
    Leaves e s (s.put id (.event listeners')) where
  event ho := (store_put_ne hne.symm _).trans ho
  function {i} ho := by
    have hi : i ≠ id := by
      rintro rfl
      cases ho.symm.trans h
    exact (store_put_ne hi _).trans ho

theorem within_addListener_of_ne {id : Nat} (hne : id ≠ e) (f : Function) :
    Within (Leaves e) (addListener id f) :=
  within_addListener_of (leaves_put hne) f

def recording (k : Value) (args : List Value) : Action Value := do
  match (← get).object? k with
  | some (.array [name, .text _, _]) =>
    record (.list ((← report name) :: (← reportAll args)))
    pure .null
  | _ => misuse .wrongType

theorem within_recording (k : Value) (args : List Value) : Within (Leaves e) (recording k args) := by
  unfold recording
  refine .bind within_get fun s => ?_
  split
  · exact .bind (within_report _) fun r => .bind (within_reportAll _) fun rs =>
      .bind (within_record _) fun _ => within_pure _
  · exact within_misuse _

def adding (e : Nat) (s : Session) (id : Nat) (f : Function) : Reaction e :=
  if h : id = e then
    match s.store[e]? with
    | some (.event _) =>
      .acts (.aside ⟨alloc (.function f), within_alloc _⟩) fun
        | .ok v, _ => .acts (.add v) fun r _ => .ends r
        | .error fault, _ => .ends (.error fault)
    | _ => .ends (.error (.misuse .noSuchMember))
  else
    .acts (.aside ⟨addListener id f >>= fun _ => pure .null,
      .bind (within_addListener_of_ne h f) fun _ => within_pure _⟩) fun r _ => .ends r

instance (b : Builtin) : Decidable (b = .listenAdd) :=
  decidable_of_iff (b matches .listenAdd) (by cases b <;> simp)

def scripted (e : Nat) (f : Function) (args : List Value) : Reaction e :=
  if h : f.builtin = .listenAdd then
    .acts (.aside ⟨recording f.operand args, within_recording _ _⟩) fun r s =>
      match r, s.object? f.operand with
      | .ok _, some (.array [_, .text event, newName]) =>
        match s.bindings.lookup (String.ofList event) with
        | some (.ref id) => adding e s id ⟨.listen, newName, false⟩
        | _ => .ends (.error (.misuse .noSuchMember))
      | r, _ => .ends r
  else .acts (.aside ⟨callFunction f args, within_callFunction_of_ne h args⟩) fun r _ => .ends r

variable {call : Value → List Value → Action Value}

theorem exec_acts (perform : Act e → Action Value) (a : Act e)
    (next : Except Fault Value → Session → Reaction e) (s : Session) :
    s.exec ((Reaction.acts a next).run perform) =
      (s.exec (perform a)).2.exec ((next (s.exec (perform a)).1 (s.exec (perform a)).2).run perform) := by
  rw [Reaction.run, exec_bind, exec_observing]
  rfl

theorem exec_ends (perform : Act e → Action Value) (r : Except Fault Value) (s : Session) :
    s.exec ((Reaction.ends r : Reaction e).run perform) = (r, s) := by
  cases r <;> rfl

theorem exec_addListener {id : Nat} {listeners : List Value} (h : s.store[id]? = some (.event listeners))
    (f : Function) : s.exec (addListener id f) =
      (.ok (), (s.grow (.function f)).put id (.event (listeners ++ [.ref s.store.size]))) := by
  rw [addListener, exec_get_bind, h]
  rfl

theorem exec_adding (s : Session) (id : Nat) (f : Function) :
    s.exec ((adding e s id f).run (Act.perform .none call)) =
      s.exec (addListener id f >>= fun _ => pure .null) := by
  unfold adding
  split
  · subst id
    split
    · rename_i listeners h
      have hgrown : Tracks e (s.grow (.function f)) ⟨listeners, []⟩ :=
        ⟨store_grow_of_some h _, fun _ hf => absurd hf List.not_mem_nil⟩
      have halloc : s.exec (Act.perform .none call
          (.aside ⟨alloc (.function f), within_alloc _⟩ : Act e)) = _ := exec_alloc s _
      have hadd : (s.grow (.function f)).exec (Act.perform .none call
          (.add (.ref s.store.size) : Act e)) = _ := exec_add hgrown _
      rw [exec_bind_ok (exec_addListener h f), exec_acts, halloc]
      dsimp only
      rw [exec_acts, hadd, exec_ends]
      rfl
    · rename_i h
      have hnone : s.exec (addListener e f) = (.error (.misuse .noSuchMember), s) := by
        rw [addListener, exec_get_bind]
        split
        · rename_i listeners hs
          exact absurd hs (h listeners)
        · rfl
      rw [exec_bind_error hnone, exec_ends]
  · rw [exec_acts, exec_ends]
    rfl

theorem exec_reportAll (s : Session) (xs : List Value) : ∃ rs, s.exec (reportAll xs) = (.ok rs, s) := by
  induction xs with
  | nil => exact ⟨[], rfl⟩
  | cons x xs ih =>
      obtain ⟨rs, hrs⟩ := ih
      refine ⟨s.report x :: rs, ?_⟩
      have hx : s.exec (report x) = (.ok (s.report x), s) := rfl
      rw [reportAll, exec_bind_ok hx, exec_bind_ok hrs, exec_pure]

theorem exec_listenAndAdd {k name newName : Value} {event : List Char}
    (hk : s.object? k = some (.array [name, .text event, newName])) (args : List Value) :
    ∃ t, s.exec (recording k args) = (.ok .null, t) ∧ t.object? k = s.object? k ∧
      s.exec (listenAndAdd k args) = t.exec (match t.bindings.lookup (String.ofList event) with
        | some (.ref id) => addListener id ⟨.listen, newName, false⟩
        | _ => misuse .noSuchMember) := by
  obtain ⟨rs, hrs⟩ := exec_reportAll s args
  have hname : s.exec (report name) = (.ok (s.report name), s) := rfl
  refine ⟨{ s with trace := s.trace ++ [.list (s.report name :: rs)] }, ?_, rfl, ?_⟩
  · rw [recording, exec_get_bind, hk]
    dsimp only
    rw [exec_bind_ok hname, exec_bind_ok hrs]
    rfl
  · rw [listenAndAdd, exec_get_bind, hk]
    dsimp only
    rw [exec_bind_ok hname, exec_bind_ok hrs]
    rfl

theorem exec_scripted (f : Function) (args : List Value) (s : Session) :
    s.exec ((scripted e f args).run (Act.perform .none call)) = s.exec (callFunction f args) := by
  unfold scripted
  split
  · rename_i h
    obtain ⟨_, k, logs⟩ := f
    obtain rfl := h
    have hcall : s.exec (callFunction ⟨.listenAdd, k, logs⟩ args) =
        s.exec (listenAndAdd k args >>= fun _ => pure .null) := rfl
    have hfirst : s.exec (Act.perform .none call
        (.aside ⟨recording k args, within_recording k args⟩ : Act e)) = s.exec (recording k args) := rfl
    rw [hcall, exec_acts, hfirst]
    by_cases hk : ∃ name event newName, s.object? k = some (.array [name, .text event, newName])
    · obtain ⟨name, event, newName, hk⟩ := hk
      obtain ⟨t, hrecording, ht, hadd⟩ := exec_listenAndAdd hk args
      rw [exec_bind, hadd, ← exec_bind, hrecording]
      dsimp only
      rw [ht, hk]
      dsimp only
      split
      · exact exec_adding t _ _
      · rw [exec_ends]
        rfl
    · have hnone : s.exec (recording k args) = (.error (.misuse .wrongType), s) := by
        rw [recording, exec_get_bind]
        split
        · rename_i name event newName h
          exact absurd ⟨name, event, newName, h⟩ hk
        · rfl
      have hnone' : s.exec (listenAndAdd k args) = (.error (.misuse .wrongType), s) := by
        rw [listenAndAdd, exec_get_bind]
        split
        · rename_i name event newName h
          exact absurd ⟨name, event, newName, h⟩ hk
        · rfl
      rw [exec_bind_error hnone', hnone]
      dsimp only
      rw [exec_ends]
  · rw [exec_acts, exec_ends]
    rfl

theorem calls_scripted (e n : Nat) : Watcher.none.calls (scripted e) n = applyAt n := by
  induction n with
  | zero => rfl
  | succ n ih =>
      funext f args
      have hconduct : (fun g xs => (scripted e g xs).run (Act.perform .none (applyAt n))) = callFunction := by
        funext g xs
        exact funext fun s => exec_scripted g xs s
      rw [Watcher.calls, ih, hconduct]
      rfl

/-- For every program, every conduct of the functions that it may call, and every event: what happens is
lawful, from the registrations and functions at hand on, and what is registered in the end is what the law
says. The program that nobody watches does the same, and what the functions of scripts do is one such
conduct. -/
theorem runs_lawful {listeners functions : List Value} (hevent : s.store[e]? = some (.event listeners))
    (hfunctions : ∀ f ∈ functions, ∃ id, f = .ref id ∧ s.store[id]? = some (.multicast e)) :
    (∀ (body : Function → List Value → Reaction e) (n : Nat) (main : Reaction e), ∃ r t occs g,
      Watcher.all.run body n main s [] = (r, t, occs) ∧ Lawful n ⟨listeners, functions⟩ occs g ∧
        t.store[e]? = some (.event g.listeners) ∧ s.exec (Watcher.none.run body n main) = (r, t)) ∧
      ∀ n, Watcher.none.calls (scripted e) n = applyAt n := by
  refine ⟨fun body n main => ?_, calls_scripted e⟩
  have htracks : Tracks e s ⟨listeners, functions⟩ := ⟨hevent, hfunctions⟩
  have hfollows : Follows e n (Watcher.all.run body n main) := Follows.run (answers_calls body n).perform main
  obtain ⟨r, t, occs, g, hrun, ht, hlaw⟩ := hfollows [] htracks
  refine ⟨r, t, occs, g, hrun, hlaw, ht.listeners, ?_⟩
  rw [erases_run body n main s [], hrun]

/-- An event with one listener, and a function that does not listen yet. -/
def oneListener : Session :=
  (((start 0).grow (.event [.ref 14])).grow (.function ⟨.listen, .int 0, false⟩)).grow
    (.function ⟨.listen, .int 1, false⟩)

/-- The listener adds the other function whenever it is called. -/
def adds (f : Function) (_args : List Value) : Reaction 13 :=
  if f.operand = .int 0 then .acts (.add (.ref 15)) fun r _ => .ends r else .ends (.ok .null)

def callsTwice : Reaction 13 :=
  .acts .ask fun r _ =>
    match r with
    | .ok f => .acts (.call f [.int 7]) fun _ _ => .acts (.call f [.int 8]) fun r _ => .ends r
    | .error fault => .ends (.error fault)

theorem runs_lawful_added :
    oneListener.store[13]? = some (.event [.ref 14]) ∧
      ∃ r t occs g, Watcher.all.run adds 2 callsTwice oneListener [] = (r, t, occs) ∧
        Lawful 2 ⟨[.ref 14], []⟩ occs g ∧ t.store[13]? = some (.event g.listeners) ∧
        occs = [.asked (.ok (.ref 16)),
          .called (.ref 16) [.int 7]
            [.called (.ref 14) [.int 7] [.added (.ref 15) (.ok .null)] (.ok .null)] (.ok .null),
          .called (.ref 16) [.int 8]
            [.called (.ref 14) [.int 8] [.added (.ref 15) (.ok .null)] (.ok .null),
              .called (.ref 15) [.int 8] [] (.ok .null)] (.ok .null)] := by
  have hevent : oneListener.store[13]? = some (.event [.ref 14]) := rfl
  have hnone (f : Value) (hf : f ∈ []) :
      ∃ id, f = .ref id ∧ oneListener.store[id]? = some (.multicast 13) := absurd hf List.not_mem_nil
  obtain ⟨r, t, occs, g, hrun, hlaw, ht, -⟩ :=
    (runs_lawful hevent hnone).1 adds 2 callsTwice
  refine ⟨hevent, r, t, occs, g, hrun, hlaw, ht, ?_⟩
  have hlog := congrArg (·.2.2) hrun
  exact hlog.symm

end BaseLib.Event
