import BaseLib.Proofs.Session.Drift

namespace BaseLib.LiveView

open Library Session

inductive Op
  | setItem (i v : Value)
  | add (v : Value)
  | addRange (source : Value)
  | insert (i v : Value)
  | removeAt (i : Value)
  | removeRange (i n : Value)
  | remove (v : Value)
  | removeAll (p : Value)
  | reverse
  | sort (comparison : Value)

inductive Act
  | change (op : Op)
  | move

namespace Op

def run (list : Nat) : Op → Action Value
  | setItem i v => Methods.call (.ref list) "set_Item" [i, v]
  | add v => Methods.call (.ref list) "Add" [v]
  | addRange source => Methods.call (.ref list) "AddRange" [source]
  | insert i v => Methods.call (.ref list) "Insert" [i, v]
  | removeAt i => Methods.call (.ref list) "RemoveAt" [i]
  | removeRange i n => Methods.call (.ref list) "RemoveRange" [i, n]
  | remove v => Methods.call (.ref list) "Remove" [v]
  | removeAll p => Methods.call (.ref list) "RemoveAll" [p]
  | reverse => Methods.call (.ref list) "Reverse" []
  | sort comparison => Methods.call (.ref list) "Sort" [comparison]

/-- Only a source of new elements is enumerated, so only it can draw on a cursor. -/
def draws : Op → Bool
  | addRange _ => true
  | _ => false

def body (list : Nat) (kind : ListKind) (a : Nat) : Op → Action Value
  | setItem i v => do
    let i ← needInt i
    Collections.update a (Sequence.set · i v)
  | add v => Collections.update a fun xs => .ok (xs ++ [v])
  | addRange source => Collections.addRange list a source
  | insert i v => do
    let i ← needInt i
    Collections.update a (Sequence.insert · i v)
  | removeAt i => do
    let i ← needInt i
    Collections.update a (Sequence.removeAt · i)
  | removeRange i n => do
    let i ← needInt i
    let n ← needInt n
    Collections.update a (Sequence.removeRange · i n)
  | remove v => Collections.remove a v
  | removeAll p => Collections.removeAll list kind a p
  | reverse => Collections.update a fun xs => .ok xs.reverse
  | sort comparison => Collections.sort a comparison

end Op

def Act.run (list cursor : Nat) : Act → Action Value
  | change op => op.run list
  | move => Methods.call (.ref cursor) "MoveNext" []

def contents (s : Session) (list : Nat) : List Value :=
  match s.store[list]? with
  | some (.list _ a) => s.items a
  | _ => []

/-- The place in an array that a cursor moves to next; none once it is exhausted. -/
def place (s : Session) (cursor : Nat) : Option Nat :=
  match s.store[cursor]? with
  | some (.cursor c) =>
    if c.state = .exhausted then none
    else
      match c.walk with
      | .live _ n => some n
      | _ => none
  | _ => none

variable {s t u : Session} {list cursor a b n : Nat} {kind : ListKind} {op : Op} {xs ys : List Value}
  {c d : Cursor} {moves : Bool}

theorem exec_run (h : s.store[list]? = some (.list kind a)) (op : Op) :
    s.exec (op.run list) = s.exec (op.body list kind a) := by
  unfold Op.run Op.body
  cases op <;> refine (exec_call h rfl _).trans ?_ <;> rfl

theorem within_assign_array (a : Nat) (xs : List Value) :
    Within (Drift moves (some a)) (assign a (.array xs)) := fun s => drift_put_array s xs

theorem within_update (a : Nat) (f : List Value → Except Failure (List Value)) :
    Within (Drift moves (some a)) (Collections.update a f) :=
  .bind within_get fun _ => .bind (within_ofResult _) fun _ =>
    .bind (within_assign_array a _) fun _ => within_pure _

theorem within_remove (a : Nat) (v : Value) :
    Within (Drift moves (some a)) (Collections.remove a v) :=
  .bind within_get fun _ => .bind (within_assign_array a _) fun _ => within_pure _

theorem within_addRange (list a : Nat) (source : Value) :
    Within (Drift true (some a)) (Collections.addRange list a source) := by
  unfold Collections.addRange
  split
  · exact within_fail _
  · split
    · exact .bind within_get fun _ => .bind (within_assign_array a _) fun _ => within_pure _
    · refine .bind (.bind (within_foldSource (fun _ x => ?_) source ()) fun _ => within_pure _)
        fun _ => within_pure _
      exact .bind within_get fun _ => .bind (within_assign_array a _) fun _ => within_pure _

theorem withinState_comparedLess (comparison x y : Value) :
    WithinState (Drift moves (some a)) (Collections.comparedLess comparison x y) :=
  (show Within (Drift moves (some a)) (do
    if comparison == .null then pure (decide ((← BaseLib.comparison x y) < 0))
    else do orderOf .lt (← apply comparison [x, y]) (.int 0)) by grind)

theorem within_sort (a : Nat) (comparison : Value) :
    Within (Drift moves (some a)) (Collections.sort a comparison) := by
  refine .bind within_get fun s => .bind (fun t => ?_) fun r =>
    .bind (within_assign_array a _) fun _ => ?_
  · exact withinState_sort (fun x y => withinState_comparedLess comparison x y) _ t
  · cases r.1 with
    | none => exact within_pure _
    | some e => exact within_throw e

/-- All changes but the one by a predicate edit the array of the list and leave the rest as it was. -/
theorem within_body (list a : Nat) (kind : ListKind) (hop : ∀ p, op ≠ .removeAll p) :
    Within (Drift op.draws (some a)) (op.body list kind a) := by
  cases op with
  | setItem i v | insert i v => exact .bind (within_needInt i) fun _ => within_update a _
  | removeAt i => exact .bind (within_needInt i) fun _ => within_update a _
  | removeRange i n =>
      exact .bind (within_needInt i) fun _ => .bind (within_needInt n) fun _ => within_update a _
  | add v => exact within_update a _
  | reverse => exact within_update a _
  | addRange source => exact within_addRange list a source
  | remove v => exact within_remove a v
  | removeAll p => exact absurd rfl (hop p)
  | sort comparison => exact within_sort a comparison

theorem within_keptBy (p : Value) (xs : List Value) :
    Within (Drift false none) (Collections.keptBy p xs) := by
  induction xs with
  | nil => exact within_pure _
  | cons x xs ih =>
      unfold Collections.keptBy
      refine .bind (within_holds p [x]) fun b => ?_
      cases b with
      | true => exact ih
      | false => exact .bind ih fun _ => within_pure _

/-- A predicate that fails leaves the list alone; otherwise what is kept goes into a new array. -/
theorem exec_removeAll (list a : Nat) (kind : ListKind) (p : Value) (s : Session) :
    ∃ u, Drift false none s u ∧
      ((∃ e, s.exec (Collections.removeAll list kind a p) = (.error e, u)) ∨
        ∃ k kept, s.exec (Collections.removeAll list kind a p) =
          (.ok (.int k), (u.grow (.array kept)).put list (.list kind u.store.size))) := by
  have hwithin := within_keptBy p (s.items a) s
  rcases hkept : s.exec (Collections.keptBy p (s.items a)) with ⟨e | kept, u⟩
  · rw [hkept] at hwithin
    refine ⟨u, hwithin, .inl ⟨e, ?_⟩⟩
    rw [Collections.removeAll, exec_get_bind, exec_bind_error hkept]
  · rw [hkept] at hwithin
    refine ⟨u, hwithin, .inr ⟨((s.items a).length - kept.length : Nat), kept, ?_⟩⟩
    rw [Collections.removeAll, exec_get_bind, exec_bind_ok hkept]
    rfl

/-- A list with its array, and a cursor that reads an array, in a session with enough steps for a
move. -/
structure Watches (s : Session) (list cursor a b : Nat) : Prop where
  steps : 2 ≤ s.steps
  list : ∃ kind, s.store[list]? = some (.list kind a)
  array : ∃ xs, s.store[a]? = some (.array xs)
  cursor : ∃ c, s.store[cursor]? = some (.cursor c) ∧
    (c.state ≠ .exhausted → ∃ n, c.walk = .live b n)
  read : ∃ ys, s.store[b]? = some (.array ys)

theorem place_eq (h : s.store[cursor]? = some (.cursor c)) (hc : c.state ≠ .exhausted)
    (hw : c.walk = .live b n) : place s cursor = some n := by
  simp only [place, h, if_neg hc, hw]

theorem place_eq_none (h : s.store[cursor]? = some (.cursor c)) (hc : c.state = .exhausted) :
    place s cursor = none := by
  simp only [place, h, if_pos hc]

def Forward (p q : Option Nat) : Prop := ∀ n, q = some n → ∃ m, p = some m ∧ m ≤ n

theorem Forward.refl (p : Option Nat) : Forward p p := fun n h => ⟨n, h, Nat.le_refl n⟩

namespace Watches

theorem ne_array (h : Watches s list cursor a b) (hc : s.store[cursor]? = some (.cursor c)) :
    a ≠ cursor := by
  obtain ⟨xs, ha⟩ := h.array
  rintro rfl
  cases ha.symm.trans hc

theorem contents_eq (h : Watches s list cursor a b) : contents s list = s.items a := by
  obtain ⟨kind, hl⟩ := h.list
  simp only [contents, hl]

theorem cursor_drift (h : Watches s list cursor a b) (hd : Drift moves (some a) s t) :
    ∃ d, t.store[cursor]? = some (.cursor d) ∧ (d.state ≠ .exhausted → ∃ n, d.walk = .live b n) ∧
      Forward (place s cursor) (place t cursor) ∧ (moves = false → place t cursor = place s cursor) := by
  obtain ⟨c, hc, hw⟩ := h.cursor
  obtain ⟨o, ho, hdrift⟩ := hd.kept hc
  cases hdrift with
  | same =>
      have hplace : place t cursor = place s cursor := by simp only [place, hc, ho]
      exact ⟨c, ho, hw, hplace ▸ .refl _, fun _ => hplace⟩
  | array hf => simp [h.ne_array hc] at hf
  | @cursor _ d hm honward =>
      -- The cursor was drawn on: it is further on in the same array, or at its end.
      refine ⟨d, ho, ?_⟩
      by_cases hx : c.state = .exhausted
      · obtain rfl := honward.exhausted hx
        have hplace : place t cursor = place s cursor := by simp only [place, hc, ho]
        exact ⟨hw, hplace ▸ .refl _, fun _ => hplace⟩
      obtain ⟨n, hn⟩ := hw hx
      refine ⟨fun hd => ?_, fun m hm => ?_, fun hm' => by simp [hm] at hm'⟩
      · obtain rfl | ⟨-, k, hk⟩ | hd' := honward.live hx b n hn
        · exact ⟨n, hn⟩
        · exact ⟨_, hk⟩
        · exact absurd hd' hd
      · refine ⟨n, place_eq hc hx hn, ?_⟩
        obtain rfl | ⟨hd, k, hk⟩ | hd := honward.live hx b n hn
        · exact Nat.le_of_eq (Option.some_inj.mp ((place_eq ho hx hn).symm.trans hm))
        · have := Option.some_inj.mp ((place_eq ho (by simp [hd]) hk).symm.trans hm)
          omega
        · cases (place_eq_none ho hd).symm.trans hm

theorem drift (h : Watches s list cursor a b) (hd : Drift moves (some a) s t) :
    Watches t list cursor a b := by
  obtain ⟨kind, hl⟩ := h.list
  obtain ⟨xs, ha⟩ := h.array
  obtain ⟨ys, hb⟩ := h.read
  obtain ⟨d, ho, hw, -⟩ := h.cursor_drift hd
  obtain ⟨xs', ha', -⟩ := hd.array_kept ha
  obtain ⟨ys', hb', -⟩ := hd.array_kept hb
  refine ⟨hd.steps ▸ h.steps, ⟨kind, ?_⟩, ⟨_, ha'⟩, ⟨d, ho, hw⟩, ⟨_, hb'⟩⟩
  obtain ⟨o, ho, hdrift⟩ := hd.kept hl
  cases hdrift with
  | same => exact ho
  | array hf =>
      obtain rfl : a = list := by simpa using hf
      cases ha.symm.trans hl

theorem exchange (h : Watches s list cursor a b) (kind : ListKind) (xs : List Value) :
    Watches ((s.grow (.array xs)).put list (.list kind s.store.size)) list cursor s.store.size b ∧
      place ((s.grow (.array xs)).put list (.list kind s.store.size)) cursor = place s cursor := by
  obtain ⟨kind', hl⟩ := h.list
  obtain ⟨c, hc, hw⟩ := h.cursor
  obtain ⟨ys, hb⟩ := h.read
  have hkeep {i : Nat} {o : Object} (hi : i ≠ list) (ho : s.store[i]? = some o) :
      ((s.grow (.array xs)).put list (.list kind s.store.size)).store[i]? = some o :=
    (store_put_ne hi _).trans (store_grow_of_some ho _)
  have hlt : list < s.store.size := (Array.getElem?_eq_some_iff.mp hl).1
  have hc' := hkeep (i := cursor) (by rintro rfl; cases hc.symm.trans hl) hc
  have hb' := hkeep (i := b) (by rintro rfl; cases hb.symm.trans hl) hb
  refine ⟨⟨h.steps, ⟨kind, store_put (store_grow_of_some hl _) _⟩, ⟨xs, ?_⟩, ⟨c, hc', hw⟩, ⟨ys, hb'⟩⟩, ?_⟩
  · exact (store_put_ne (Nat.ne_of_gt hlt) _).trans (store_grow s _)
  · simp only [place, hc, hc']

theorem put_cursor {d : Cursor} (h : Watches s list cursor a b)
    (hw : d.state ≠ .exhausted → ∃ n, d.walk = .live b n) :
    Watches (s.put cursor (.cursor d)) list cursor a b := by
  obtain ⟨kind, hl⟩ := h.list
  obtain ⟨xs, ha⟩ := h.array
  obtain ⟨c, hc, -⟩ := h.cursor
  obtain ⟨ys, hb⟩ := h.read
  have hkeep {i : Nat} {o : Object} (hi : i ≠ cursor) (ho : s.store[i]? = some o) :
      (s.put cursor (.cursor d)).store[i]? = some o := (store_put_ne hi _).trans ho
  exact ⟨h.steps, ⟨kind, hkeep (by rintro rfl; cases hc.symm.trans hl) hl⟩,
    ⟨xs, hkeep (h.ne_array hc) ha⟩, ⟨d, store_put hc _, hw⟩,
    ⟨ys, hkeep (by rintro rfl; cases hc.symm.trans hb) hb⟩⟩

end Watches

def Ended (s : Session) (cursor : Nat) : Prop :=
  s.exec (Properties.read (.ref cursor) "State") = (.ok (.symbol (.cursorState .exhausted)), s)

theorem ended_of (h : s.store[cursor]? = some (.cursor c)) (hc : c.state = .exhausted) :
    Ended s cursor := by
  rw [Ended, Properties.read, exec_get_bind]
  simp only [object?, h, Properties.known?, hc]
  rfl

theorem Watches.move (h : Watches s list cursor a b) (hp : place s cursor = some n) :
    match (s.items b)[n]? with
    | some x => ∃ t, s.exec (Act.move.run list cursor) = (.ok (.bool true), t) ∧
        Watches t list cursor a b ∧ t.store[b]? = s.store[b]? ∧ place t cursor = some (n + 1) ∧
        t.exec (Properties.read (.ref cursor) "Current") = (.ok x, t)
    | none => ∃ t, s.exec (Act.move.run list cursor) = (.ok (.bool false), t) ∧
        Watches t list cursor a b ∧ t.store[b]? = s.store[b]? ∧ place t cursor = none ∧
        Ended t cursor := by
  obtain ⟨c, hc, hw⟩ := h.cursor
  obtain ⟨ys, hb⟩ := h.read
  have hx : c.state ≠ .exhausted := fun hx => by cases (place_eq_none hc hx).symm.trans hp
  obtain ⟨m, hm⟩ := hw hx
  obtain rfl : m = n := Option.some_inj.mp ((place_eq hc hx hm).symm.trans hp)
  obtain ⟨k, hk⟩ : ∃ k, s.steps = k + 2 := ⟨s.steps - 2, by have := h.steps; omega⟩
  have hne : b ≠ cursor := by
    rintro rfl
    cases hc.symm.trans hb
  have hitems : (s.put cursor (.cursor c.moving)).items b = s.items b :=
    (items_eq ((store_put_ne hne _).trans hb)).trans (items_eq hb).symm
  have hpull := exec_pull_live (s.put cursor (.cursor c.moving)) k b m
  rw [hitems, ← hm] at hpull
  cases hget : (s.items b)[m]? with
  | some x =>
      simp only [hget] at hpull ⊢
      have ha := hk ▸ exec_advance_give hc hx hpull
      rw [put_put] at ha
      refine ⟨_, exec_moveNext hc ha, h.put_cursor fun _ => ⟨m + 1, rfl⟩, store_put_ne hne _, ?_, ?_⟩
      · exact place_eq (store_put hc _) (by simp [Cursor.positioned]) rfl
      · exact exec_current (store_put hc _) rfl
  | none =>
      simp only [hget] at hpull ⊢
      have ha := hk ▸ exec_advance_finish hc hx hpull rfl
      rw [put_put] at ha
      refine ⟨_, exec_moveNext hc ha, h.put_cursor fun hn => absurd rfl hn, store_put_ne hne _, ?_, ?_⟩
      · exact place_eq_none (store_put hc _) rfl
      · exact ended_of (store_put hc _) rfl

theorem Watches.move_exhausted (h : Watches s list cursor a b) (hp : place s cursor = none) :
    s.exec (Act.move.run list cursor) = (.ok (.bool false), s) ∧ Ended s cursor := by
  obtain ⟨c, hc, hw⟩ := h.cursor
  have hx : c.state = .exhausted := by
    by_contra hx
    obtain ⟨m, hm⟩ := hw hx
    cases (place_eq hc hx hm).symm.trans hp
  obtain ⟨k, hk⟩ : ∃ k, s.steps = k + 1 := ⟨s.steps - 1, by have := h.steps; omega⟩
  have ha := hk ▸ exec_advance_exhausted hc hx k
  exact ⟨(exec_moveNext hc ha).trans rfl, ended_of hc hx⟩

/-- A change or a move with the sessions before and after it and with what it answers. -/
structure Event where
  before : Session
  act : Act
  outcome : Except Fault Value
  after : Session

namespace Event

/-- How far the cursor is moved: by one, or by as many elements as a source draws from it. -/
def distance (cursor : Nat) (e : Event) : Nat :=
  match e.act with
  | .move => 1
  | .change _ => (place e.after cursor).getD 0 - (place e.before cursor).getD 0

/-- What the list held when a removal by a predicate gave it another array. -/
def left (list : Nat) (e : Event) : Option (List Value) :=
  match e.act, e.outcome with
  | .change (.removeAll _), .ok _ => some (contents e.before list)
  | _, _ => none

/-- A move gives the element of `xs` at the place of the cursor, or exhausts the cursor. A change that
does not enumerate a source leaves the cursor where it is. -/
def Agrees (cursor : Nat) (xs : List Value) (e : Event) : Prop :=
  match e.act with
  | .change op => op.draws = false → place e.after cursor = place e.before cursor
  | .move =>
    match (place e.before cursor).bind (xs[·]?) with
    | some x => e.outcome = .ok (.bool true) ∧
        place e.after cursor = (place e.before cursor).map (· + 1) ∧
        e.after.exec (Properties.read (.ref cursor) "Current") = (.ok x, e.after)
    | none => e.outcome = .ok (.bool false) ∧ place e.after cursor = none ∧ Ended e.after cursor

end Event

/-- The place of a cursor after some changes and moves, unless one of them exhausted it. -/
def reached (cursor : Nat) : List Event → Option Nat
  | [] => some 0
  | e :: events =>
    if place e.after cursor = none then none else (reached cursor events).map (e.distance cursor + ·)

/-- What a cursor reads: what the list holds or, once a removal by a predicate has given the list another
array, what it held before. -/
def seen (list : Nat) (events : List Event) (s : Session) : List Value :=
  (events.findSome? (·.left list)).getD (contents s list)

structure Quiet (cursor : Nat) (s t : Session) : Prop where
  drift : Drift true none s t
  cursor : t.store[cursor]? = s.store[cursor]?

/-- Changes of a list and moves of a cursor, one after the other. -/
inductive Run (list cursor : Nat) : Session → List Event → Session → Prop
  | nil {s t : Session} (hq : Quiet cursor s t) : Run list cursor s [] t
  | cons {s t : Session} {e : Event} {events : List Event} (hq : Quiet cursor s e.before)
      (he : e.before.exec (e.act.run list cursor) = (e.outcome, e.after))
      (hr : Run list cursor e.after events t) : Run list cursor s (e :: events) t

/-- The array that the cursor reads is that of the list, or one that the list has left with elements
`xs`. -/
def Reads (s : Session) (a b : Nat) : Option (List Value) → Prop
  | none => b = a
  | some xs => b ≠ a ∧ s.store[b]? = some (.array xs)

def Sees (s : Session) (list cursor : Nat) (left : Option (List Value)) : Prop :=
  ∃ a b, Watches s list cursor a b ∧ Reads s a b left

variable {left : Option (List Value)} {e : Event}

theorem Watches.items_read (h : Watches s list cursor a b) (hr : Reads s a b left) :
    s.items b = left.getD (contents s list) := by
  cases left with
  | none =>
      obtain rfl : b = a := hr
      exact h.contents_eq.symm
  | some xs => exact items_eq hr.2

theorem Reads.drift (hr : Reads s a b left) (hd : Drift moves (some a) s t) : Reads t a b left := by
  cases left with
  | none => exact hr
  | some xs =>
      obtain ⟨ys, hys, heq⟩ := hd.array_kept hr.2
      exact ⟨hr.1, heq (by simpa using hr.1.symm) ▸ hys⟩

theorem Event.left_eq_none (he : ∀ p, e.act ≠ .change (.removeAll p)) : e.left list = none := by
  obtain ⟨s, act, r, t⟩ := e
  cases act with
  | move => rfl
  | change op =>
      cases op with
      | removeAll p => exact absurd rfl (he p)
      | _ => rfl

/-- What the list leaves keeps its elements; `u` is the session in which the predicate has been asked. -/
theorem Sees.exchange (hw : Watches s list cursor a b) (hr : Reads s a b left)
    (hd : Drift false none s u) (kind : ListKind) (kept : List Value) :
    Sees ((u.grow (.array kept)).put list (.list kind u.store.size)) list cursor
        (left.or (some (contents s list))) ∧
      place ((u.grow (.array kept)).put list (.list kind u.store.size)) cursor = place s cursor := by
  obtain ⟨ys, hb⟩ := hw.read
  obtain ⟨zs, hzs, heq⟩ := hd.array_kept hb
  obtain rfl : zs = ys := heq (by simp)
  have hleft : left.or (some (contents s list)) = some zs := by
    have hitems := (hw.items_read hr).symm.trans (items_eq hb)
    cases left <;> exact congrArg some hitems
  obtain ⟨hw', hplace⟩ := (hw.drift hd.freed).exchange kind kept
  have hfreed : Drift false (some a) s u := hd.freed
  obtain ⟨-, -, -, -, hsame⟩ := hw.cursor_drift hfreed
  refine ⟨⟨_, b, hw', ?_⟩, hplace.trans (hsame rfl)⟩
  rw [hleft]
  have hlt : b < u.store.size := (Array.getElem?_eq_some_iff.mp hzs).1
  obtain ⟨_, hl⟩ := (hw.drift hfreed).list
  refine ⟨Nat.ne_of_lt hlt, (store_put_ne ?_ _).trans (store_grow_of_some hzs _)⟩
  rintro rfl
  cases hzs.symm.trans hl

theorem Sees.change {r : Except Fault Value} (hw : Watches s list cursor a b) (hr : Reads s a b left)
    (he : s.exec (op.run list) = (r, t)) :
    Sees t list cursor (left.or (Event.left list ⟨s, .change op, r, t⟩)) ∧
      Forward (place s cursor) (place t cursor) ∧
      (op.draws = false → place t cursor = place s cursor) := by
  obtain ⟨kind, hl⟩ := hw.list
  rw [exec_run hl] at he
  by_cases hop : ∀ p, op ≠ .removeAll p
  · have hd : Drift op.draws (some a) s t := by
      have hd := within_body list a kind hop s
      rwa [he] at hd
    obtain ⟨-, -, -, hplace⟩ := hw.cursor_drift hd
    rw [Event.left_eq_none fun p hp => hop p (Act.change.inj hp), Option.or_none]
    exact ⟨⟨a, b, hw.drift hd, hr.drift hd⟩, hplace⟩
  · obtain ⟨p, rfl⟩ : ∃ p, op = .removeAll p := by simpa using hop
    obtain ⟨u, hd, ⟨e, hex⟩ | ⟨k, kept, hex⟩⟩ := exec_removeAll list a kind p s
    · have hfreed : Drift false (some a) s u := hd.freed
      cases he.symm.trans hex
      obtain ⟨-, -, -, hplace, hsame⟩ := hw.cursor_drift hfreed
      rw [show Event.left list ⟨s, .change (.removeAll p), .error e, t⟩ = none from rfl, Option.or_none]
      exact ⟨⟨a, b, hw.drift hfreed, hr.drift hfreed⟩, hplace, fun _ => hsame rfl⟩
    · cases he.symm.trans hex
      obtain ⟨hsees, hplace⟩ := Sees.exchange hw hr hd kind kept
      exact ⟨hsees, hplace ▸ .refl _, fun _ => hplace⟩

theorem Sees.move {r : Except Fault Value} (hw : Watches s list cursor a b) (hr : Reads s a b left)
    (he : s.exec (Act.move.run list cursor) = (r, t)) :
    Sees t list cursor left ∧
      Event.Agrees cursor (left.getD (contents s list)) ⟨s, .move, r, t⟩ ∧
      place t cursor = (place s cursor).bind fun n =>
        if place t cursor = none then none else some (n + 1) := by
  rw [Event.Agrees, ← hw.items_read hr]
  cases hp : place s cursor with
  | none =>
      obtain ⟨ht, hend⟩ := hw.move_exhausted hp
      cases he.symm.trans ht
      exact ⟨⟨a, b, hw, hr⟩, by simp [hp, hend], by simp [hp]⟩
  | some n =>
      have hmove := hw.move hp
      have hreads (ht : t.store[b]? = s.store[b]?) : Reads t a b left := by
        cases left with
        | none => exact hr
        | some xs => exact ⟨hr.1, ht.trans hr.2⟩
      cases hget : (s.items b)[n]? with
      | some x =>
          simp only [hget] at hmove
          obtain ⟨u, hu, hwatches, hb, hplace, hcurrent⟩ := hmove
          cases he.symm.trans hu
          exact ⟨⟨a, b, hwatches, hreads hb⟩, by simp [hget, hplace, hcurrent], by simp [hplace]⟩
      | none =>
          simp only [hget] at hmove
          obtain ⟨u, hu, hwatches, hb, hplace, hend⟩ := hmove
          cases he.symm.trans hu
          exact ⟨⟨a, b, hwatches, hreads hb⟩, by simp [hget, hplace, hend], by simp [hplace]⟩

theorem Forward.eq {p q : Option Nat} (h : Forward p q) :
    q = p.bind fun n => if q = none then none else some (n + (q.getD 0 - p.getD 0)) := by
  cases q with
  | none => cases p <;> rfl
  | some n =>
      obtain ⟨m, rfl, hm⟩ := h n rfl
      simp [Nat.add_sub_cancel' hm]

theorem Sees.step (h : Sees e.before list cursor left)
    (he : e.before.exec (e.act.run list cursor) = (e.outcome, e.after)) :
    Sees e.after list cursor (left.or (e.left list)) ∧
      e.Agrees cursor (left.getD (contents e.before list)) ∧
      place e.after cursor = (place e.before cursor).bind fun n =>
        if place e.after cursor = none then none else some (n + e.distance cursor) := by
  obtain ⟨a, b, hw, hr⟩ := h
  obtain ⟨s, act, r, t⟩ := e
  cases act with
  | move =>
      rw [Event.left_eq_none fun _ => Act.noConfusion, Option.or_none]
      exact Sees.move hw hr he
  | change op =>
      obtain ⟨hsees, hforward, hsame⟩ := Sees.change hw hr he
      exact ⟨hsees, hsame, hforward.eq⟩

theorem Sees.quiet (h : Sees s list cursor left) (hq : Quiet cursor s t) :
    Sees t list cursor left ∧ place t cursor = place s cursor := by
  obtain ⟨a, b, hw, hr⟩ := h
  exact ⟨⟨a, b, hw.drift hq.drift.freed, hr.drift hq.drift.freed⟩, by simp only [place, hq.cursor]⟩

theorem Run.sees {events : List Event} (hr : Run list cursor s events u)
    (h : Sees s list cursor left) :
    ∀ pre e post, events = pre ++ e :: post →
      place e.before cursor =
          (place s cursor).bind (fun n => (reached cursor pre).map (n + ·)) ∧
        e.Agrees cursor ((left.or (pre.findSome? (·.left list))).getD (contents e.before list)) := by
  -- What the list has left changes on the way, and the first such array stays the one that is read.
  induction hr generalizing left with
  | nil hq => simp
  | @cons s t e events hq he hr ih =>
      obtain ⟨hs, hplace⟩ := h.quiet hq
      obtain ⟨ht, hagrees, hnext⟩ := hs.step he
      intro pre e' post heq
      cases pre with
      | nil =>
          cases heq
          exact ⟨by simp [hplace, reached], by simpa using hagrees⟩
      | cons e'' pre =>
          cases heq
          obtain ⟨hp, hagrees'⟩ := ih ht pre e' post rfl
          have hleft : (left.or (e.left list)).or (pre.findSome? (·.left list)) =
              left.or ((e :: pre).findSome? (·.left list)) := by
            rw [Option.or_assoc, List.findSome?_cons]
            cases e.left list <;> rfl
          refine ⟨?_, hleft ▸ hagrees'⟩
          rw [hp, hnext, hplace]
          cases place s cursor with
          | none => rfl
          | some n =>
              by_cases hend : place e.after cursor = none
              · simp [reached, hend]
              · simp [reached, hend, Function.comp_def, Nat.add_assoc]

theorem sees_grow {xs : List Value} (hs : 2 ≤ s.steps) (hl : s.store[list]? = some (.list kind a))
    (ha : s.store[a]? = some (.array xs)) (hc : c.state ≠ .exhausted) (hw : c.walk = .live a 0) :
    Sees (s.grow (.cursor c)) list s.store.size none ∧
      place (s.grow (.cursor c)) s.store.size = some 0 := by
  have hcursor := store_grow s (.cursor c)
  have harray := store_grow_of_some ha (.cursor c)
  exact ⟨⟨a, a, ⟨hs, ⟨kind, store_grow_of_some hl _⟩, ⟨xs, harray⟩, ⟨c, hcursor, fun _ => ⟨0, hw⟩⟩,
    ⟨xs, harray⟩⟩, rfl⟩, place_eq hcursor hc hw⟩

theorem exec_getEnumerator {xs : List Value} (hs : 2 ≤ s.steps)
    (hl : s.store[list]? = some (.list kind a)) (ha : s.store[a]? = some (.array xs)) :
    ∃ cursor t, s.exec (Methods.call (.ref list) "GetEnumerator" []) = (.ok (.ref cursor), t) ∧
      Sees t list cursor none ∧ place t cursor = some 0 := by
  obtain ⟨k, hk⟩ : ∃ k, s.steps = k + 1 := ⟨s.steps - 1, by omega⟩
  have hm : (Methods.of list (.list kind a)).lookup "GetEnumerator" =
      some (.nullary (newCursor (.ref list))) := by cases kind <;> rfl
  have hopen : s.exec (openWalk (k + 1) (.ref list)) = (.ok (.live a 0), s) := by
    rw [openWalk, exec_get_bind]
    simp only [object?, hl]
    rfl
  have hnew : s.exec (newCursor (.ref list)) = (.ok (.ref s.store.size),
      s.grow (.cursor (.start (s.cursorKind (.ref list)) (.live a 0)))) := by
    rw [newCursor, exec_get_bind, hk, exec_bind_ok hopen]
    rfl
  exact ⟨_, _, (exec_call hl hm []).trans hnew, sees_grow hs hl ha (by simp [Cursor.start]) rfl⟩

/-- A cursor through a run of changes of its list and moves: the place it has reached counts its moves,
and each gives what is there in the list as it is now, or in what the list held before it removed by a
predicate. -/
theorem run_sees {xs : List Value} (hs : 2 ≤ s.steps) (hl : s.store[list]? = some (.list kind a))
    (ha : s.store[a]? = some (.array xs)) :
    ∃ cursor t, s.exec (Methods.call (.ref list) "GetEnumerator" []) = (.ok (.ref cursor), t) ∧
      ∀ events u, Run list cursor t events u → ∀ pre e post, events = pre ++ e :: post →
        place e.before cursor = reached cursor pre ∧ e.Agrees cursor (seen list pre e.before) := by
  obtain ⟨cursor, t, hget, hsees, hplace⟩ := exec_getEnumerator hs hl ha
  refine ⟨cursor, t, hget, fun events u hr pre e post heq => ?_⟩
  obtain ⟨hp, hagrees⟩ := hr.sees hsees pre e post heq
  exact ⟨by simpa [hplace] using hp, hagrees⟩

def occur (list cursor : Nat) (s : Session) (act : Act) : Event :=
  ⟨s, act, (s.exec (act.run list cursor)).1, (s.exec (act.run list cursor)).2⟩

theorem Quiet.refl (cursor : Nat) (s : Session) : Quiet cursor s s := ⟨Drift.refl s, rfl⟩

theorem Run.occur {events : List Event} {s t : Session} {act : Act}
    (hr : Run list cursor (occur list cursor s act).after events t) :
    Run list cursor s (occur list cursor s act :: events) t :=
  .cons (.refl cursor s) rfl hr

/-- A list of two numbers, and a predicate that takes both. -/
def numbers : Session :=
  { start 0 with
    store := #[.array [.int 1, .int 2], .list .list 0, .function ⟨.gt, .int 0, false⟩] }

/-- An insertion before the place of the cursor makes it give an element again. -/
theorem run_sees_inserted :
    let t := (numbers.exec (Methods.call (.ref 1) "GetEnumerator" [])).2
    let e := occur 1 3 t .move
    let e' := occur 1 3 e.after (.change (.insert (.int 0) (.int 7)))
    let e'' := occur 1 3 e'.after .move
    place e''.before 3 = reached 3 [e, e'] ∧ e''.Agrees 3 (seen 1 [e, e'] e''.before) := by
  intro t e e' e''
  have hget : numbers.exec (Methods.call (.ref 1) "GetEnumerator" []) = (.ok (.ref 3), t) := rfl
  have hr : Run 1 3 t [e, e', e''] e''.after := .occur (.occur (.occur (.nil (.refl 3 e''.after))))
  have hl : numbers.store[1]? = some (.list .list 0) := rfl
  obtain ⟨cursor, u, hu, hrun⟩ := run_sees (by decide) hl rfl
  cases hget.symm.trans hu
  exact hrun _ _ hr [e, e'] e'' [] rfl

/-- A cursor goes on over elements that a predicate has removed from its list. -/
theorem removed_seen :
    let t := (numbers.exec (Methods.call (.ref 1) "GetEnumerator" [])).2
    let e := occur 1 3 t (.change (.removeAll (.ref 2)))
    let e' := occur 1 3 e.after .move
    Run 1 3 t [e, e'] e'.after ∧ contents e'.before 1 = [] ∧ place e'.before 3 = some 0 ∧
      e'.outcome = .ok (.bool true) ∧ ¬ e'.Agrees 3 (contents e'.before 1) := by
  intro t e e'
  have hr : Run 1 3 t [e, e'] e'.after := .occur (.occur (.nil (.refl 3 e'.after)))
  have hcontents : contents e'.before 1 = [] := by decide +kernel
  have hplace : place e'.before 3 = some 0 := by decide +kernel
  have hmove : e'.outcome = .ok (.bool true) := by decide +kernel
  refine ⟨hr, hcontents, hplace, hmove, fun h => ?_⟩
  rw [hcontents, Event.Agrees, show e'.act = .move from rfl] at h
  simp only [hplace] at h
  cases hmove.symm.trans h.1

end BaseLib.LiveView
