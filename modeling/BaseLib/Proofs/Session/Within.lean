import BaseLib.Proofs.Session.Advance

namespace BaseLib.Session

variable {α β : Type}

/-- The relation holds between a session and the one that the action leaves. -/
def Within (R : Session → Session → Prop) (a : Action α) : Prop := ∀ s : Session, R s (s.exec a).2

class CoversNew (R : Session → Session → Prop) : Prop where
  refl : ∀ s, R s s
  trans : ∀ {s t u}, R s t → R t u → R s u
  grow : ∀ s o, R s (s.grow o)

class CoversRecords (R : Session → Session → Prop) : Prop extends CoversNew R where
  record : ∀ (s : Session) (trace : List Report), R s { s with trace }

/-- A relation that holds across each thing that functions do: they make objects, record, and add listeners to
events. -/
class CoversCalls (R : Session → Session → Prop) : Prop extends CoversRecords R where
  event : ∀ {s : Session} {id : Nat} {listeners : List Value},
    s.store[id]? = some (.event listeners) → ∀ listeners', R s (s.put id (.event listeners'))

/-- A relation that also holds across what walks do: they take elements from sequences that come once, or close
them. -/
class Covers (R : Session → Session → Prop) : Prop extends CoversCalls R where
  generator : ∀ {s : Session} {id n : Nat} {xs : List Value},
    s.store[id]? = some (.generator xs n) → ∀ ys k, R s (s.put id (.generator ys k))

class CoversMoves (R : Session → Session → Prop) : Prop extends Covers R where
  advance : ∀ n, (∀ w, Within R (pull n w)) → ∀ id, Within R (advance (n + 1) id)

section

variable {R : Session → Session → Prop} [CoversNew R]

@[grind .]
theorem within_pure (x : α) : Within R (pure x) := CoversNew.refl

@[grind .]
theorem within_throw (e : Fault) : Within R (throw e : Action α) := CoversNew.refl

@[grind .]
theorem within_get : Within R (get : Action Session) := CoversNew.refl

@[grind ←]
theorem Within.bind {a : Action α} {f : α → Action β} (ha : Within R a) (hf : ∀ x, Within R (f x)) :
    Within R (a >>= f) := by
  intro s
  have ha := ha s
  cases hr : s.exec a with
  | mk r t =>
      rw [hr] at ha
      cases r with
      | error e => rwa [exec_bind_error hr]
      | ok x =>
          rw [exec_bind_ok hr]
          exact CoversNew.trans ha (hf x t)

@[grind .]
theorem within_misuse (e : Misuse) : Within R (misuse e : Action α) := within_throw _

@[grind .]
theorem within_fail (e : Failure) : Within R (fail e : Action α) := within_throw _

@[grind .]
theorem within_alloc (o : Object) : Within R (alloc o) := fun s => CoversNew.grow s o

omit [CoversNew R] in
@[grind ←]
theorem Within.outcome {a : Action α} (h : Within R a) : Within R (outcome a) := h

@[grind .]
theorem within_ofExcept (r : Except Fault α) : Within R (ofExcept r) := by
  cases r <;> exact CoversNew.refl

@[grind .]
theorem within_ofResult (r : Except Failure α) : Within R (ofResult r) := by
  cases r <;> exact CoversNew.refl

@[grind .]
theorem within_newArray (xs : List Value) : Within R (newArray xs) := within_alloc _

@[grind .]
theorem within_newSpan (t : Except Failure TimeSpan) : Within R (newSpan t) := by
  unfold newSpan
  grind

@[grind .]
theorem within_newTime (d : Except Failure DateTime) : Within R (newTime d) := by
  unfold newTime
  grind

@[grind .]
theorem within_orTooLarge (x : Option Number) : Within R (orTooLarge x) := by
  unfold orTooLarge
  grind

variable (x y k : Value)

@[grind .]
theorem within_addValues : Within R (addValues x y) := by
  unfold addValues
  grind

@[grind .]
theorem within_subtractTime (d : DateTime) (o : Object) : Within R (subtractTime d o) := by
  unfold subtractTime
  grind

@[grind .]
theorem within_subValues : Within R (subValues x y) := by
  unfold subValues
  grind

@[grind .]
theorem within_mulValues : Within R (mulValues x y) := by
  unfold mulValues
  grind

@[grind .]
theorem within_modValues : Within R (modValues x y) := by
  unfold modValues
  grind

@[grind .]
theorem within_negValue : Within R (negValue x) := by
  unfold negValue
  grind

@[grind .]
theorem within_absValue : Within R (absValue x) := by
  unfold absValue
  grind

@[grind .]
theorem within_displayOf : Within R (displayOf x) := by
  unfold displayOf
  grind

@[grind .]
theorem within_lengthOf : Within R (lengthOf x) := by
  unfold lengthOf
  grind

@[grind .]
theorem within_needInt : Within R (needInt x) := by
  unfold needInt
  grind

@[grind .]
theorem within_elementAt (xs : List Value) : Within R (elementAt xs x) := by
  unfold elementAt
  grind

@[grind .]
theorem within_dictionaryItem (entries : Table Value (Value × Value)) :
    Within R (dictionaryItem entries x) := by
  unfold dictionaryItem
  grind

@[grind .]
theorem within_numberedGroup (s : Session) (members : Nat) (n : Int) (name : Except Fault (List Char)) :
    Within R (numberedGroup s members n name) := by
  unfold numberedGroup
  grind

@[grind .]
theorem within_groupItem (members : Nat) (names : List (List Char)) :
    Within R (groupItem members names x) := by
  unfold groupItem
  grind

@[grind .]
theorem within_itemOf : Within R (itemOf x y) := by
  unfold itemOf charAt
  grind

@[grind .]
theorem within_captureOf : Within R (captureOf x) := by
  unfold captureOf
  grind

@[grind .]
theorem within_groupsOfMatch : Within R (groupsOfMatch x) := by
  unfold groupsOfMatch
  grind

@[grind .]
theorem within_comparison : Within R (comparison x y) := by
  unfold comparison
  grind

@[grind .]
theorem within_orderOf (op : OrderOp) : Within R (orderOf op x y) := by
  unfold orderOf
  grind

@[grind .]
theorem within_keyOf : Within R (keyOf x) := by
  unfold keyOf
  grind

@[grind .]
theorem within_valueOf : Within R (valueOf x) := by
  unfold valueOf
  grind

@[grind .]
theorem within_operator (o : Operator) (args : List Value) : Within R (o.apply args) := by
  unfold Operator.apply
  grind

@[grind .]
theorem within_program (p : Program) : Within R p.run := by
  induction p with
  | ends r => exact within_ofExcept r
  | uses o args next ih => exact .bind (.outcome (within_operator o args)) ih

@[grind .]
theorem within_callUnary (b : Builtin) : Within R (callUnary b k x) := by
  unfold callUnary
  cases b <;> grind

@[grind .]
theorem within_callBinary (b : Builtin) : Within R (callBinary b k x y) := by
  unfold callBinary
  cases b <;> grind

@[grind .]
theorem within_report : Within R (BaseLib.report x) := CoversNew.refl

@[grind .]
theorem within_reportAll (xs : List Value) : Within R (reportAll xs) := by
  induction xs with
  | nil => exact within_pure _
  | cons x xs ih =>
      unfold reportAll
      grind

theorem within_addListener_of {event : Nat}
    (hevent : ∀ {s : Session} {listeners : List Value}, s.store[event]? = some (.event listeners) →
      ∀ listeners', R s (s.put event (.event listeners')))
    (f : Function) : Within R (addListener event f) := by
  intro s
  rw [addListener, exec_get_bind]
  split
  · rename_i listeners h
    rw [exec_bind_ok (exec_alloc s _)]
    exact CoversNew.trans (CoversNew.grow s _) (hevent (store_grow_of_some h _) _)
  · exact CoversNew.refl s

end

section

variable {R : Session → Session → Prop} [CoversRecords R]

@[grind .]
theorem within_record (r : Report) : Within R (record r) :=
  fun s => CoversRecords.record s (s.trace ++ [r])

theorem within_callFunction_of_ne {f : Function} (h : f.builtin ≠ .listenAdd) (args : List Value) :
    Within R (callFunction f args) := by
  unfold callFunction
  grind

end

section

variable {R : Session → Session → Prop} [CoversCalls R] (x y k : Value)

@[grind .]
theorem within_addListener (event : Nat) (f : Function) : Within R (addListener event f) :=
  within_addListener_of (fun h => CoversCalls.event h) f

@[grind .]
theorem within_listenAndAdd (args : List Value) : Within R (listenAndAdd k args) := by
  unfold listenAndAdd
  refine .bind within_get fun s => ?_
  split
  · refine .bind (within_report _) fun r => .bind (within_reportAll _) fun rs => ?_
    grind
  · exact within_misuse _

@[grind .]
theorem within_callFunction (f : Function) (args : List Value) : Within R (callFunction f args) := by
  unfold callFunction
  grind

theorem within_forM {f : Value → Action Unit} (h : ∀ x, Within R (f x)) (xs : List Value) :
    Within R (xs.forM f) := by
  induction xs with
  | nil => exact within_pure _
  | cons x xs ih => exact .bind (h x) fun _ => ih

@[grind .]
theorem within_applyAt (n : Nat) (f : Value) (args : List Value) : Within R (applyAt n f args) := by
  induction n generalizing f with
  | zero => exact within_misuse _
  | succ n ih =>
      unfold applyAt callWith
      refine .bind within_get fun s => ?_
      split
      · exact within_callFunction _ _
      · refine .bind within_get fun t => .bind (within_forM (fun l => ?_) _) fun _ => within_pure _
        exact .bind (ih l) fun _ => within_pure _
      · exact within_throw _

@[grind .]
theorem within_apply (f : Value) (args : List Value) : Within R (apply f args) :=
  .bind within_get fun s => within_applyAt s.steps f args

@[grind .]
theorem within_holds (p : Value) (args : List Value) : Within R (holds p args) := by
  unfold holds
  grind

def WithinState (R : Session → Session → Prop) (a : StateT Session Id α) : Prop :=
  ∀ s : Session, R s (a s).2

@[grind .]
theorem withinState_pure (x : α) : WithinState R (pure x) := CoversNew.refl

@[grind ←]
theorem WithinState.bind {a : StateT Session Id α} {f : α → StateT Session Id β} (ha : WithinState R a)
    (hf : ∀ x, WithinState R (f x)) : WithinState R (a >>= f) :=
  fun s => CoversNew.trans (ha s) (hf (a s).1 (a s).2)

section

variable {less : Sorting.Less (StateT Session Id) Value Fault}

theorem withinState_runLength (h : ∀ x y, WithinState R (less x y)) (descending : Bool) (x : Value)
    (xs : List Value) : WithinState R (Sorting.runLength less descending x xs) := by
  induction xs generalizing x with
  | nil => exact withinState_pure _
  | cons y ys ih =>
      unfold Sorting.runLength
      grind

theorem withinState_firstRun (h : ∀ x y, WithinState R (less x y)) (xs : List Value) :
    WithinState R (Sorting.firstRun less xs) := by
  have hrun := withinState_runLength h
  unfold Sorting.firstRun
  split
  · refine .bind (h _ _) fun r => ?_
    grind
  · exact withinState_pure _

theorem withinState_bisect (h : ∀ x y, WithinState R (less x y)) (xs : List Value) (x : Value)
    (low width : Nat) : WithinState R (Sorting.bisect less xs x low width) := by
  induction width using Nat.strongRecOn generalizing low with
  | _ width ih =>
      cases width with
      | zero =>
          rw [Sorting.bisect]
          exact withinState_pure _
      | succ width =>
          have hlow := ih ((width + 1) / 2) (by omega)
          have hhigh := ih (width - (width + 1) / 2) (by omega)
          rw [Sorting.bisect]
          grind

theorem withinState_insertAll (h : ∀ x y, WithinState R (less x y)) (xs ys : List Value) :
    WithinState R (Sorting.insertAll less xs ys) := by
  induction ys generalizing xs with
  | nil => exact withinState_pure _
  | cons y ys ih =>
      have hbisect := withinState_bisect h
      unfold Sorting.insertAll
      grind

theorem withinState_sort (h : ∀ x y, WithinState R (less x y)) (xs : List Value) :
    WithinState R (Sorting.sort less xs) := by
  have hrun := withinState_firstRun h
  have hinsert := withinState_insertAll h
  unfold Sorting.sort
  grind

theorem withinState_sortDescending (h : ∀ x y, WithinState R (less x y)) (xs : List Value) :
    WithinState R (Sorting.sortDescending less xs) :=
  .bind (withinState_sort h _) fun _ => withinState_pure _

end

theorem withinState_keyLess (f : Value) : WithinState R (keyLess f x y) :=
  (show Within R (do
    let a ← apply f [x]
    let b ← apply f [y]
    pure (decide ((← comparison a b) < 0))) by grind)

@[grind .]
theorem within_sortByKeys (xs : List Value) (keys : List (Value × Bool)) :
    Within R (sortByKeys xs keys) := by
  induction keys with
  | nil => exact within_pure _
  | cons key keys ih =>
      obtain ⟨f, descending⟩ := key
      refine .bind ih fun ys => .bind (fun s => ?_) fun r => ?_
      · have hless (x y : Value) : WithinState R (keyLess f x y) := withinState_keyLess x y f
        cases descending with
        | true => exact withinState_sortDescending hless ys s
        | false => exact withinState_sort hless ys s
      · split
        grind

@[grind .]
theorem within_foreignWalk : Within R (foreignWalk x) := by
  unfold foreignWalk
  grind

@[grind .]
theorem within_newPairs (entries : List (Value × Value)) : Within R (newPairs entries) := by
  induction entries with
  | nil => exact within_pure _
  | cons entry entries ih =>
      unfold newPairs
      grind

end

section

variable {R : Session → Session → Prop} [Covers R]

@[grind .]
theorem within_closeGenerator (id : Nat) : Within R (closeGenerator id) := by
  intro s
  rw [closeGenerator, exec_get_bind]
  split
  · rename_i h
    exact Covers.generator h _ _
  · exact CoversNew.refl s

@[grind .]
theorem within_close (w : Walk) : Within R w.close := by
  fun_induction Walk.close w <;> grind

@[grind .]
theorem within_failWith (e : Fault) (w : Walk) : Within R (Pulled.failWith e w) :=
  .bind (within_close w) fun _ => within_pure _

@[grind .]
theorem within_leafStep (w : Walk) : Within R (leafStep w) := by
  intro s
  rw [leafStep, exec_get_bind]
  split
  · exact CoversNew.refl s
  · split <;> exact CoversNew.refl s
  · split
    · split
      · exact CoversNew.refl s
      · split <;> exact CoversNew.refl s
    · exact CoversNew.refl s
  · split
    · rename_i h
      exact Covers.generator h _ _
    · exact CoversNew.refl s
  · exact CoversNew.refl s
  · exact CoversNew.refl s

end

structure EnumerationWithin (R : Session → Session → Prop) (n : Nat) : Prop where
  openWalk : ∀ v, Within R (openWalk n v)
  openQuery : ∀ q, Within R (openQuery n q)
  pull : ∀ w, Within R (pull n w)
  advance : ∀ id, Within R (advance n id)
  drain : ∀ w, Within R (drain n w)

section

variable {R : Session → Session → Prop} [CoversMoves R]

theorem EnumerationWithin.succ {n : Nat} (h : EnumerationWithin R n) :
    EnumerationWithin R (n + 1) := by
  obtain ⟨hopen, hquery, hpull, hadvance, hdrain⟩ := h
  refine ⟨fun v => ?_, fun q => ?_, fun w => ?_, fun id => ?_, fun w => ?_⟩
  · unfold BaseLib.openWalk
    grind
  · unfold BaseLib.openQuery
    cases q <;> grind
  · unfold BaseLib.pull
    cases w with
    | flatten f indexed combine index item inner outer =>
        refine .bind (hpull inner) fun r => ?_
        split
        · grind
        · grind
        · refine .bind (hpull outer) fun r => ?_
          grind
    | _ => grind
  · exact CoversMoves.advance n hpull id
  · unfold BaseLib.drain
    grind

theorem enumerationWithin (n : Nat) : EnumerationWithin R n := by
  induction n with
  | zero =>
      refine ⟨fun v => ?_, fun q => ?_, fun w => ?_, fun id => ?_, fun w => ?_⟩
      · exact within_misuse _
      · exact within_misuse _
      · exact within_pure _
      · exact within_misuse _
      · exact within_misuse _
  | succ n ih => exact ih.succ

theorem within_foldWalk {σ : Type} {step : σ → Value → Action (Bool × σ)}
    (h : ∀ state x, Within R (step state x)) (n : Nat) (state : σ) (w : Walk) :
    Within R (foldWalk step n state w) := by
  induction n generalizing state w with
  | zero => exact within_misuse _
  | succ n ih =>
      have hpull := (enumerationWithin (R := R) n).pull w
      unfold foldWalk
      refine .bind hpull fun r => ?_
      grind

theorem within_foldSource {σ : Type} {step : σ → Value → Action (Bool × σ)}
    (h : ∀ state x, Within R (step state x)) (source : Value) (state : σ) :
    Within R (foldSource source state step) :=
  .bind within_get fun s => within_foldWalk h s.steps state _

end

def Grows (s t : Session) : Prop := s.store.size ≤ t.store.size

theorem grows_put (s : Session) (id : Nat) (o : Object) : Grows s (s.put id o) := by
  simp [Grows, put]

instance : Covers Grows where
  refl s := Nat.le_refl _
  trans := Nat.le_trans
  grow s o := by simp [Grows, Session.grow]
  record s trace := Nat.le_refl _
  event _ _ := grows_put _ _ _
  generator _ _ _ := grows_put _ _ _

instance : CoversMoves Grows where
  advance n hpull id s := by
    obtain heq | ⟨c, p, t, -, -, hp, heq⟩ := exec_advance_snd n id s
    · rw [heq]
      exact Nat.le_refl _
    have hst : Grows s t := by
      have ht := hpull c.walk (s.put id (.cursor c.moving))
      rw [hp] at ht
      exact Nat.le_trans (grows_put s id _) ht
    have hback := Nat.le_trans hst (grows_put t id (.cursor (c.resumed p)))
    rcases heq with heq | heq
    · rwa [heq]
    · rw [heq]
      have hclose : Within Grows p.2.close := within_close p.2
      exact Nat.le_trans hback (hclose _)

end BaseLib.Session
