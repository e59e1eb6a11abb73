import BaseLib.Proofs.Session.Settled
import BaseLib.Library.Catalogue
import Mathlib.Algebra.BigOperators.Group.Finset.Piecewise
import Mathlib.Algebra.BigOperators.Ring.Finset
import Mathlib.Algebra.Order.BigOperators.Group.Finset

namespace BaseLib.Interlocked

open Library Session

inductive Update
  | add (amount : Int)
  | increment
  | decrement

namespace Update

def amount : Update → Int
  | add n => n
  | increment => 1
  | decrement => -1

def call (slot : Value) : Update → Action Value
  | add n => Catalogue.call "Interlocked.Add" [slot, .int n]
  | increment => Catalogue.call "Interlocked.Increment" [slot]
  | decrement => Catalogue.call "Interlocked.Decrement" [slot]

end Update

/-- What a client has to do: a change in one call, or one that is computed from the value read and tried until
the slot still has that value. -/
inductive Task
  | update (u : Update)
  | retry (change : Int → Int)

def Task.effect : Task → Int → Int
  | update u, v => Word.wrap (v + u.amount)
  | retry change, v => change v

/-- A client: the tasks left, and the value that it read for the first of them. -/
structure Client where
  tasks : List Task
  seen : Option Int := none

def Client.next (slot : Value) : Client → Action (Option Task × Client)
  | ⟨[], seen⟩ => pure (none, ⟨[], seen⟩)
  | ⟨.update u :: rest, _⟩ => do
    discard (u.call slot)
    pure (some (.update u), ⟨rest, none⟩)
  | ⟨.retry change :: rest, none⟩ => do
    let v ← needInt (← Catalogue.call "op.getitem" [slot, .int 0])
    pure (none, ⟨.retry change :: rest, some v⟩)
  | ⟨.retry change :: rest, some v⟩ => do
    let found ← Catalogue.call "Interlocked.CompareExchange" [slot, .int (change v), .int v]
    pure (if found == .int v then (some (.retry change), ⟨rest, none⟩)
      else (none, ⟨.retry change :: rest, none⟩))

variable {n : ℕ}

/-- The clients in turn, with the tasks in the order in which they are finished. -/
def run (slot : Value) :
    List (Fin n) → (Fin n → Client) → Action (List (Fin n × Task) × (Fin n → Client))
  | [], clients => pure ([], clients)
  | k :: schedule, clients => do
    let (finished, client) ← (clients k).next slot
    let (log, clients) ← run slot schedule (Function.update clients k client)
    pure (finished.toList.map (k, ·) ++ log, clients)

/-- A client's part of what all have done. -/
def ofClient {α : Type} (k : Fin n) (log : List (Fin n × α)) : List α :=
  log.filterMap fun e => if e.1 = k then some e.2 else none

@[simp]
theorem ofClient_append {α : Type} (k : Fin n) (log log' : List (Fin n × α)) :
    ofClient k (log ++ log') = ofClient k log ++ ofClient k log' := List.filterMap_append

variable {s t : Session} {id : Nat} {v w : Int}

def Holds (s : Session) (id : Nat) (v : Int) : Prop := s.store[id]? = some (.array [.int v])

theorem Holds.put (h : Holds s id v) (w : Int) : Holds (s.put id (.array [.int w])) id w :=
  store_put h _

theorem addValues_int (s : Session) (a b : Int) :
    s.exec (addValues (.int a) (.int b)) = (.ok (.int (a + b)), s) := rfl

theorem equals_int (s : Session) (a b : Int) : s.equals (.int a) (.int b) = (a == b) := by
  have hkey (c : Int) : s.IsKey (.int c) := ⟨1, .plain rfl⟩
  rw [(hkey a).settled.equals_eq (hkey b).settled]
  simp [content, view, depth, viewAt, Datum.content, Number.content]

theorem exec_addTo (h : Holds s id v) (d : Int) :
    ∃ t, s.exec (Threads.addTo (.ref id) (.int d)) = (.ok (.int (Word.wrap (v + d))), t) ∧
      Holds t id (Word.wrap (v + d)) := by
  have hput := h.put (Word.wrap (v + d))
  refine ⟨_, ?_, hput⟩
  rw [Threads.addTo, exec_bind_ok (exec_readHolder h), exec_bind_ok (addValues_int s v d)]
  rw [exec_bind_ok (show s.exec (needInt (.int (v + d))) = (.ok (v + d), s) from rfl)]
  rw [exec_bind_ok (exec_writeHolder h _)]
  exact exec_readHolder hput

theorem exec_call (h : Holds s id v) (u : Update) :
    ∃ t, s.exec (u.call (.ref id)) = (.ok (.int (Word.wrap (v + u.amount))), t) ∧
      Holds t id (Word.wrap (v + u.amount)) := by
  cases u with
  | add d => exact exec_addTo h d
  | increment => exact exec_addTo h 1
  | decrement => exact exec_addTo h (-1)

theorem exec_read (h : Holds s id v) :
    s.exec (Catalogue.call "op.getitem" [.ref id, .int 0]) = (.ok (.int v), s) :=
  exec_readHolder h

theorem exec_compareExchange (h : Holds s id v) (new expected : Int) :
    ∃ t, s.exec (Catalogue.call "Interlocked.CompareExchange" [.ref id, .int new, .int expected]) =
        (.ok (.int v), t) ∧ Holds t id (if v = expected then new else v) := by
  have hrun : s.exec (Catalogue.call "Interlocked.CompareExchange" [.ref id, .int new, .int expected]) =
      s.exec (Threads.compareExchange (.ref id) (.int new) (.int expected)) := rfl
  have hsame : Threads.sameSlot s (.int v) (.int expected) = (v == expected) := equals_int s v expected
  rw [hrun, Threads.compareExchange, exec_bind_ok (exec_readHolder h), exec_get_bind, hsame]
  by_cases hv : v = expected
  · rw [if_pos (beq_iff_eq.mpr hv), if_pos hv, exec_bind_ok (exec_writeHolder h _)]
    exact ⟨_, rfl, h.put new⟩
  · rw [if_neg (by simpa using hv), if_neg hv]
    exact ⟨s, rfl, h⟩

/-- What a turn is for a client when the slot has a value. -/
inductive Moves (v : Int) : Client → Option Task → Client → Prop
  | idle {seen} : Moves v ⟨[], seen⟩ none ⟨[], seen⟩
  | update {u rest seen} : Moves v ⟨.update u :: rest, seen⟩ (some (.update u)) ⟨rest, none⟩
  | read {change rest} : Moves v ⟨.retry change :: rest, none⟩ none ⟨.retry change :: rest, some v⟩
  | exchanged {change rest} :
      Moves v ⟨.retry change :: rest, some v⟩ (some (.retry change)) ⟨rest, none⟩
  | refused {change rest w} (h : v ≠ w) :
      Moves v ⟨.retry change :: rest, some w⟩ none ⟨.retry change :: rest, none⟩

def after (v : Int) : Option Task → Int
  | none => v
  | some task => task.effect v

theorem exec_next (h : Holds s id v) (c : Client) :
    ∃ finished c' t, s.exec (c.next (.ref id)) = (.ok (finished, c'), t) ∧ Moves v c finished c' ∧
      Holds t id (after v finished) := by
  obtain ⟨_ | ⟨⟨u⟩ | ⟨change⟩, rest⟩, seen⟩ := c
  · exact ⟨_, _, s, rfl, .idle, h⟩
  · obtain ⟨t, hcall, ht⟩ := exec_call h u
    refine ⟨_, _, t, ?_, .update, ht⟩
    have hdiscard : s.exec (discard (u.call (.ref id))) = (.ok (), t) := exec_bind_ok hcall _
    rw [Client.next, exec_bind_ok hdiscard]
    rfl
  · cases seen with
    | none =>
        refine ⟨_, _, s, ?_, .read, h⟩
        rw [Client.next, exec_bind_ok (exec_read h)]
        rfl
    | some w =>
        obtain ⟨t, hcall, ht⟩ := exec_compareExchange h (change w) w
        rw [Client.next, exec_bind_ok hcall, exec_pure]
        by_cases hv : v = w
        · subst hv
          rw [if_pos rfl] at ht
          exact ⟨_, _, t, by rw [if_pos (by simp)], .exchanged, ht⟩
        · rw [if_neg hv] at ht
          exact ⟨_, _, t, by rw [if_neg (by simpa using hv)], .refused hv, ht⟩

inductive Runs :
    Int → (Fin n → Client) → List (Fin n) → List (Fin n × Task) → (Fin n → Client) → Int → Prop
  | nil {v clients} : Runs v clients [] [] clients v
  | cons {v w clients clients' k client finished schedule log} (move : Moves v (clients k) finished client)
      (run : Runs (after v finished) (Function.update clients k client) schedule log clients' w) :
      Runs v clients (k :: schedule) (finished.toList.map (k, ·) ++ log) clients' w

theorem exec_run (h : Holds s id v) (schedule : List (Fin n)) (clients : Fin n → Client) :
    ∃ log clients' w t, s.exec (run (.ref id) schedule clients) = (.ok (log, clients'), t) ∧
      Runs v clients schedule log clients' w ∧ Holds t id w := by
  induction schedule generalizing s v clients with
  | nil => exact ⟨[], clients, v, s, rfl, .nil, h⟩
  | cons k schedule ih =>
      obtain ⟨finished, client, t, hnext, hmove, ht⟩ := exec_next h (clients k)
      obtain ⟨log, clients', w, u, hrest, hruns, hu⟩ := ih ht (Function.update clients k client)
      refine ⟨_, clients', w, u, ?_, .cons hmove hruns, hu⟩
      rw [run, exec_bind_ok hnext, exec_bind_ok hrest, exec_pure]

theorem Moves.tasks {c c' : Client} {finished : Option Task} (h : Moves v c finished c') :
    c.tasks = finished.toList ++ c'.tasks := by
  cases h <;> rfl

def applied (v : Int) (log : List (Fin n × Task)) : Int := log.foldl (fun v e => e.2.effect v) v

theorem applied_finished (v : Int) (k : Fin n) (finished : Option Task) (log : List (Fin n × Task)) :
    applied v (finished.toList.map (k, ·) ++ log) = applied (after v finished) log := by
  cases finished <;> rfl

theorem Runs.slot {clients clients' : Fin n → Client} {schedule log}
    (h : Runs v clients schedule log clients' w) : w = applied v log := by
  induction h with
  | nil => rfl
  | cons move run ih => rw [applied_finished, ih]

theorem ofClient_finished (j k : Fin n) (finished : Option Task) :
    ofClient j (finished.toList.map (k, ·)) = if k = j then finished.toList else [] := by
  cases finished <;> by_cases h : k = j <;> simp [ofClient, h]

theorem Runs.tasks {clients clients' : Fin n → Client} {schedule log}
    (h : Runs v clients schedule log clients' w) (j : Fin n) :
    (clients j).tasks = ofClient j log ++ (clients' j).tasks := by
  induction h with
  | nil => rfl
  | @cons v w clients clients' k client finished schedule log move run ih =>
      rw [ofClient_append, ofClient_finished, List.append_assoc, ← ih]
      by_cases hk : k = j
      · subst hk
        rw [if_pos rfl, Function.update_self]
        exact move.tasks
      · rw [if_neg hk, Function.update_of_ne (Ne.symm hk), List.nil_append]

theorem wrap_sum_cons {α : Type} (amount : α → Int) (v : Int) (x : α) (xs : List α) :
    Word.wrap (Word.wrap (v + amount x) + (xs.map amount).sum) =
      Word.wrap (v + ((x :: xs).map amount).sum) := by
  rw [List.map_cons, List.sum_cons, ← add_assoc]
  exact Int.bmod_add_bmod

/-- A start value with the amounts of all clients, in the signed range. -/
def total {α : Type} (amount : α → Int) (start : Int) (parts : Fin n → List α) : Int :=
  Word.wrap (start + ∑ k, ((parts k).map amount).sum)

theorem sum_ofClient {α : Type} (amount : α → Int) (log : List (Fin n × α)) :
    ∑ k, ((ofClient k log).map amount).sum = (log.map fun e => amount e.2).sum := by
  induction log with
  | nil => simp [ofClient]
  | cons e log ih =>
      have hpart (k : Fin n) : ((ofClient k (e :: log)).map amount).sum =
          (if e.1 = k then amount e.2 else 0) + ((ofClient k log).map amount).sum := by
        by_cases hk : e.1 = k <;> simp [ofClient, hk]
      simp only [hpart, Finset.sum_add_distrib, ih, List.map_cons, List.sum_cons]
      simp

theorem exec_calls (h : Holds s id v) {order : List (Fin n × Update)} (hne : order ≠ []) :
    ∃ results t, s.exec (order.mapM fun e => e.2.call (.ref id)) = (.ok results, t) ∧
      results.getLast? = some (.int (total Update.amount v fun k => ofClient k order)) ∧
      Holds t id (total Update.amount v fun k => ofClient k order) := by
  simp only [total, sum_ofClient]
  induction order generalizing s v with
  | nil => exact absurd rfl hne
  | cons e order ih =>
      obtain ⟨t, hcall, ht⟩ := exec_call h e.2
      cases order with
      | nil =>
          refine ⟨[_], t, ?_, rfl, by simpa using ht⟩
          rw [List.mapM_cons, exec_bind_ok hcall]
          simp
      | cons e' order =>
          obtain ⟨results, u, hrest, hlast, hu⟩ := ih ht (List.cons_ne_nil e' order)
          rw [wrap_sum_cons fun e : Fin n × Update => e.2.amount] at hlast hu
          refine ⟨.int (Word.wrap (v + e.2.amount)) :: results, u, ?_, ?_, hu⟩
          · rw [List.mapM_cons, exec_bind_ok hcall, exec_bind_ok hrest, exec_pure]
          · rw [List.getLast?_cons, hlast, Option.getD_some]

def Task.Adds (x : Task) (amount : Int) : Prop := ∀ v, x.effect v = Word.wrap (v + amount)

theorem applied_adds {amount : Task → Int} {log : List (Fin n × Task)} (hne : log ≠ [])
    (hadds : ∀ e ∈ log, e.2.Adds (amount e.2)) (v : Int) :
    applied v log = total amount v fun k => ofClient k log := by
  rw [total, sum_ofClient]
  induction log generalizing v with
  | nil => exact absurd rfl hne
  | cons e log ih =>
      have he : applied v (e :: log) = applied (e.2.effect v) log := rfl
      rw [he, hadds e List.mem_cons_self v]
      cases log with
      | nil => simp [applied]
      | cons e' log =>
          rw [ih (List.cons_ne_nil e' log) fun x hx => hadds x (List.mem_cons_of_mem e hx),
            wrap_sum_cons fun e : Fin n × Task => amount e.2]

def progress (v : Int) : Option Int → ℕ
  | none => 1
  | some w => if v = w then 2 else 0

/-- The turns that a client needs at most, with the turns that its tasks will cost the others, who then have
to read again. -/
def Client.cost (n : ℕ) (v : Int) (c : Client) : ℕ := (2 * n + 1) * c.tasks.length - progress v c.seen

def work (v : Int) (clients : Fin n → Client) : ℕ := ∑ k, (clients k).cost n v

theorem progress_le (v : Int) (seen : Option Int) : progress v seen ≤ 2 := by
  unfold progress
  split
  · omega
  · split <;> omega

theorem cost_cons (v : Int) (task : Task) (rest : List Task) (seen : Option Int) :
    (Client.mk (task :: rest) seen).cost n v = (2 * n + 1) * rest.length + (2 * n + 1) - progress v seen :=
  rfl

theorem cost_eq_zero_iff (hn : 0 < n) (c : Client) : c.cost n v = 0 ↔ c.tasks = [] := by
  obtain ⟨tasks, seen⟩ := c
  cases tasks with
  | nil => exact iff_of_true (by simp [Client.cost]) rfl
  | cons task rest =>
      have := progress_le v seen
      refine iff_of_false ?_ (List.cons_ne_nil task rest)
      rw [cost_cons]
      omega

/-- A turn of a client with tasks brings it on by more than it sets the others back: what they have read is
out of date if the turn finished a task, and only then. -/
theorem Moves.cost {c c' : Client} {finished : Option Task} (h : Moves v c finished c')
    (hc : c.tasks ≠ []) (hn : 0 < n) :
    ∃ back, c'.cost n (after v finished) + back * (n - 1) < c.cost n v ∧
      ∀ d : Client, d.cost n (after v finished) ≤ d.cost n v + back := by
  -- a finished task costs every other client two turns at most, to be refused and to read again
  have hback (w : Int) (d : Client) : d.cost n w ≤ d.cost n v + 2 := by
    have := progress_le v d.seen
    unfold Client.cost
    omega
  have hnone (w : Int) : progress w none = 1 := rfl
  have hnext (w : Int) (rest : List Task) :
      (Client.mk rest none).cost n w = (2 * n + 1) * rest.length - 1 := rfl
  cases h with
  | idle => exact absurd rfl hc
  | read =>
      have hsome : progress v (some v) = 2 := if_pos rfl
      refine ⟨0, ?_, fun d => le_rfl⟩
      rw [cost_cons, cost_cons, hnone, after, hsome]
      omega
  | @refused change rest w h =>
      have hsome : progress v (some w) = 0 := if_neg h
      refine ⟨0, ?_, fun d => le_rfl⟩
      rw [cost_cons, cost_cons, hnone, hsome]
      omega
  | @update u rest seen =>
      have := progress_le v seen
      refine ⟨2, ?_, hback _⟩
      rw [cost_cons, hnext]
      omega
  | exchanged =>
      have := progress_le v (some v)
      refine ⟨2, ?_, hback _⟩
      rw [cost_cons, hnext]
      omega

theorem sum_lt_of_one {f g : Fin n → ℕ} {k : Fin n} (back : ℕ) (hk : g k + back * (n - 1) < f k)
    (hall : ∀ j, j ≠ k → g j ≤ f j + back) : ∑ j, g j < ∑ j, f j := by
  have hrest :
      ∑ j ∈ Finset.univ.erase k, g j ≤ ∑ j ∈ Finset.univ.erase k, f j + back * (n - 1) := by
    calc ∑ j ∈ Finset.univ.erase k, g j
        ≤ ∑ j ∈ Finset.univ.erase k, (f j + back) :=
          Finset.sum_le_sum fun j hj => hall j (Finset.ne_of_mem_erase hj)
      _ = ∑ j ∈ Finset.univ.erase k, f j + back * (n - 1) := by
          rw [Finset.sum_add_distrib, Finset.sum_const_nat fun _ _ => rfl,
            Finset.card_erase_of_mem (Finset.mem_univ k), Finset.card_univ, Fintype.card_fin, mul_comm]
  rw [← Finset.add_sum_erase _ _ (Finset.mem_univ k), ← Finset.add_sum_erase _ _ (Finset.mem_univ k)]
  omega

theorem Moves.work_lt {clients : Fin n → Client} {k : Fin n} {client : Client} {finished : Option Task}
    (h : Moves v (clients k) finished client) (hk : (clients k).tasks ≠ []) :
    work (after v finished) (Function.update clients k client) < work v clients := by
  obtain ⟨back, hown, hother⟩ := h.cost hk (Fin.pos k)
  refine sum_lt_of_one (k := k) back ?_ fun j hj => ?_
  · rwa [Function.update_self]
  · rw [Function.update_of_ne hj]
    exact hother _

theorem Moves.eq_of_idle {c c' : Client} {finished : Option Task} (h : Moves v c finished c')
    (hc : c.tasks = []) : finished = none ∧ c' = c := by
  cases h with
  | idle => exact ⟨rfl, rfl⟩
  | _ => cases hc

theorem Moves.work_le {clients : Fin n → Client} {k : Fin n} {client : Client} {finished : Option Task}
    (h : Moves v (clients k) finished client) :
    work (after v finished) (Function.update clients k client) ≤ work v clients := by
  by_cases hk : (clients k).tasks = []
  · obtain ⟨rfl, rfl⟩ := h.eq_of_idle hk
    rw [Function.update_eq_self]
    rfl
  · exact (h.work_lt hk).le

variable {clients clients' : Fin n → Client} {schedule schedule' : List (Fin n)}
  {log : List (Fin n × Task)}

theorem Runs.work_le (h : Runs v clients schedule log clients' w) : work w clients' ≤ work v clients := by
  induction h with
  | nil => exact le_rfl
  | cons move run ih => exact ih.trans move.work_le

theorem Runs.work_lt (h : Runs v clients schedule log clients' w) {k : Fin n} (hk : k ∈ schedule)
    (htasks : (clients k).tasks ≠ []) : work w clients' < work v clients := by
  induction h with
  | nil => cases hk
  | @cons v w clients clients' j client finished schedule log move run ih =>
      by_cases hj : k = j
      · subst hj
        exact run.work_le.trans_lt (move.work_lt htasks)
      · refine (ih ((List.mem_cons.mp hk).resolve_left hj) ?_).trans_le move.work_le
        rwa [Function.update_of_ne hj]

theorem Runs.split (h : Runs v clients (schedule ++ schedule') log clients' w) :
    ∃ u middle log₁ log₂, Runs v clients schedule log₁ middle u ∧
      Runs u middle schedule' log₂ clients' w := by
  induction schedule generalizing v clients log with
  | nil => exact ⟨v, clients, [], log, .nil, h⟩
  | cons k schedule ih =>
      cases h with
      | cons move run =>
          obtain ⟨u, middle, log₁, log₂, h₁, h₂⟩ := ih run
          exact ⟨u, middle, _, log₂, .cons move h₁, h₂⟩

/-- In each round everybody has a turn, and there are as many rounds. -/
def Rounds (count : ℕ) (schedule : List (Fin n)) : Prop :=
  ∃ rounds : List (List (Fin n)), rounds.flatten = schedule ∧ count ≤ rounds.length ∧
    ∀ round ∈ rounds, ∀ k, k ∈ round

theorem Runs.finished (h : Runs v clients schedule log clients' w)
    (hrounds : Rounds (work v clients) schedule) (k : Fin n) : (clients' k).tasks = [] := by
  have hn := Fin.pos k
  obtain ⟨rounds, rfl, hcount, hall⟩ := hrounds
  -- the work falls in every round until there is none left
  induction rounds generalizing v clients log with
  | nil =>
      cases h with
      | nil =>
          have hcost := Finset.sum_eq_zero_iff.mp (Nat.le_zero.mp hcount) k (Finset.mem_univ k)
          exact (cost_eq_zero_iff hn _).mp hcost
  | cons round rounds ih =>
      obtain ⟨u, middle, log₁, log₂, h₁, h₂⟩ := h.split
      refine ih h₂ ?_ fun r hr => hall r (List.mem_cons_of_mem _ hr)
      rw [List.length_cons] at hcount
      by_cases hwork : work v clients = 0
      · have := h₁.work_le
        omega
      · obtain ⟨j, -, hj⟩ := Finset.exists_ne_zero_of_sum_ne_zero hwork
        have := h₁.work_lt (hall round List.mem_cons_self j) fun h => hj ((cost_eq_zero_iff hn _).mpr h)
        omega

def fresh (programs : Fin n → List Task) : Fin n → Client := fun k => ⟨programs k, none⟩

theorem work_fresh (v : Int) (programs : Fin n → List Task) :
    work v (fresh programs) ≤ (2 * n + 1) * ∑ k, (programs k).length := by
  rw [Finset.mul_sum]
  exact Finset.sum_le_sum fun k _ => Nat.sub_le _ _

theorem Rounds.mono {count count' : ℕ} (h : Rounds count schedule) (hle : count' ≤ count) :
    Rounds count' schedule := by
  obtain ⟨rounds, hflatten, hcount, hall⟩ := h
  exact ⟨rounds, hflatten, hle.trans hcount, hall⟩

/-- What clients with programs have done after some turns, with what is in the slot. -/
structure Done (start : Int) (programs : Fin n → List Task) (log : List (Fin n × Task))
    (clients : Fin n → Client) (value : Int) : Prop where
  /-- Every task that is finished has its effect on what the one before has left. -/
  slot : value = applied start log
  /-- A client finishes its tasks in their order, and each once. -/
  tasks : ∀ k, programs k = ofClient k log ++ (clients k).tasks
  /-- Tasks that add count with their amounts, whoever finished them and in whatever order. -/
  counted : ∀ amount : Task → Int, (∀ k, ∀ task ∈ programs k, task.Adds (amount task)) →
    log ≠ [] → value = total amount start fun k => ofClient k log

theorem mem_ofClient {α : Type} {e : Fin n × α} {log : List (Fin n × α)} (h : e ∈ log) :
    e.2 ∈ ofClient e.1 log :=
  List.mem_filterMap.mpr ⟨e, h, if_pos rfl⟩

theorem Runs.done {programs : Fin n → List Task} (h : Runs v (fresh programs) schedule log clients' w) :
    Done v programs log clients' w where
  slot := h.slot
  tasks := h.tasks
  counted amount hadds hne := by
    rw [h.slot]
    refine applied_adds hne (fun e he => hadds e.1 e.2 ?_) v
    have htasks : programs e.1 = ofClient e.1 log ++ (clients' e.1).tasks := h.tasks e.1
    rw [htasks]
    exact List.mem_append_left _ (mem_ofClient he)

/-- Changes in one call, of several clients and in any order, leave in the slot and return with the last the
start value with all amounts, in the signed range. Clients that also read and exchange until they succeed,
with any turns, never fail and lose no task; with enough rounds they finish all. -/
theorem no_update_lost {start : Int} (h : s.store[id]? = some (.array [.int start])) :
    (∀ (n : ℕ) (programs : Fin n → List Update) (order : List (Fin n × Update)),
      (∀ k, ofClient k order = programs k) → order ≠ [] →
      ∃ results t, s.exec (order.mapM fun e => e.2.call (.ref id)) = (.ok results, t) ∧
        results.getLast? = some (.int (total Update.amount start programs)) ∧
        t.store[id]? = some (.array [.int (total Update.amount start programs)])) ∧
    ∀ (n : ℕ) (programs : Fin n → List Task) (schedule : List (Fin n)),
      ∃ log clients value t, s.exec (run (.ref id) schedule (fresh programs)) = (.ok (log, clients), t) ∧
        t.store[id]? = some (.array [.int value]) ∧ Done start programs log clients value ∧
        (Rounds ((2 * n + 1) * ∑ k, (programs k).length) schedule → ∀ k, (clients k).tasks = []) := by
  refine ⟨fun n programs order hprograms hne => ?_, fun n programs schedule => ?_⟩
  · obtain rfl : (fun k => ofClient k order) = programs := funext hprograms
    exact exec_calls h hne
  · obtain ⟨log, clients, value, t, hrun, hruns, ht⟩ := exec_run h schedule (fresh programs)
    exact ⟨log, clients, value, t, hrun, ht, hruns.done,
      fun hrounds => hruns.finished (hrounds.mono (work_fresh start programs))⟩

/-- A session with a slot that holds the largest integer of the signed range. -/
def full : Session := (start 0).grow (.array [.int 2147483647])

/-- Reads the slot, and exchanges the value for the sum with an amount. -/
def adding (amount : Int) : Task := .retry fun v => Word.wrap (v + amount)

/-- Two clients that read and exchange in step: one of them is refused, reads again, and adds as well. -/
theorem no_update_lost_in_step :
    full.store[13]? = some (.array [.int 2147483647]) ∧
      (∃ results t, full.exec ([(0, .increment), (1, .add 5), (0, .decrement)].mapM
          fun e : Fin 2 × Update => e.2.call (.ref 13)) = (.ok results, t) ∧
        results.getLast? = some (.int (-2147483644)) ∧
        t.store[13]? = some (.array [.int (-2147483644)])) ∧
      ∃ log clients t, full.exec (run (.ref 13) (List.replicate 10 [0, 1]).flatten
          (fresh fun _ : Fin 2 => [adding 1])) = (.ok (log, clients), t) ∧
        t.store[13]? = some (.array [.int (-2147483647)]) := by
  have hslot : full.store[13]? = some (.array [.int 2147483647]) := rfl
  refine ⟨hslot, ?_, ?_⟩
  · exact (no_update_lost hslot).1 2 _ [(0, .increment), (1, .add 5), (0, .decrement)] (fun _ => rfl)
      (by simp)
  · obtain ⟨log, clients, value, t, hrun, ht, hdone, hfinished⟩ := (no_update_lost hslot).2 2
      (fun _ => [adding 1]) (List.replicate 10 [0, 1]).flatten
    have hrounds : Rounds ((2 * 2 + 1) * ∑ _k : Fin 2, [adding 1].length)
        (List.replicate 10 [(0 : Fin 2), 1]).flatten :=
      ⟨List.replicate 10 [0, 1], rfl, by decide, by decide⟩
    have hlog (k : Fin 2) : ofClient k log = [adding 1] := by
      rw [hdone.tasks k, hfinished hrounds k, List.append_nil]
    have hvalue : value = -2147483647 := by
      have hadds (k : Fin 2) (task : Task) (htask : task ∈ [adding 1]) : task.Adds 1 := by
        obtain rfl := List.mem_singleton.mp htask
        exact fun _ => rfl
      rw [hdone.counted (fun _ => 1) hadds (by rintro rfl; cases hlog 0)]
      simp only [total, hlog]
      rfl
    exact ⟨log, clients, t, hrun, hvalue ▸ ht⟩

end BaseLib.Interlocked
