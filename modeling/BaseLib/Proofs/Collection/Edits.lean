import BaseLib.Proofs.Collection.LiveView
import BaseLib.Proofs.Collection.SelfAppend
import BaseLib.Proofs.Session.Runs

namespace BaseLib.Edits

open Library Session

inductive Op
  | add (v : Value)
  | addRange (array : Nat)
  | insert (i v : Value)
  | setItem (i v : Value)
  | removeAt (i : Value)
  | removeRange (i n : Value)
  | remove (v : Value)
  | removeAll (p : Value)
  | reverse
  | clear
  | push (v : Value)
  | pop
  | peek
  | indexOf (v : Value)
  | toArray

def Op.run (list : Nat) : Op → Action Value
  | add v => Methods.call (.ref list) "Add" [v]
  | addRange array => Methods.call (.ref list) "AddRange" [.ref array]
  | insert i v => Methods.call (.ref list) "Insert" [i, v]
  | setItem i v => Methods.call (.ref list) "set_Item" [i, v]
  | removeAt i => Methods.call (.ref list) "RemoveAt" [i]
  | removeRange i n => Methods.call (.ref list) "RemoveRange" [i, n]
  | remove v => Methods.call (.ref list) "Remove" [v]
  | removeAll p => Methods.call (.ref list) "RemoveAll" [p]
  | reverse => Methods.call (.ref list) "Reverse" []
  | clear => Methods.call (.ref list) "Clear" []
  | push v => Methods.call (.ref list) "Push" [v]
  | pop => Methods.call (.ref list) "Pop" []
  | peek => Methods.call (.ref list) "Peek" []
  | indexOf v => Methods.call (.ref list) "IndexOf" [v]
  | toArray => Methods.call (.ref list) "ToArray" []

/-- A list with an array for its elements. -/
def Keeps (list : Nat) (kind : ListKind) (s : Session) (a : Nat) (xs : List Value) : Prop :=
  s.store[list]? = some (.list kind a) ∧ s.store[a]? = some (.array xs)

/-- The elements that are added come from an array that is not the list's own, with steps enough to read it;
only a stack is pushed to, popped and peeked at. -/
def Op.Allowed (list : Nat) (kind : ListKind) (s : Session) : Op → Prop
  | addRange array => s.store[list]? ≠ some (.list kind array) ∧
      ∃ ys, s.store[array]? = some (.array ys) ∧ ys.length + 4 ≤ s.steps
  | push _ | pop | peek => kind = .stack
  | _ => True

/-- Calls on a list; in between, anything may happen that touches neither it nor its elements. -/
def protocol (list : Nat) (kind : ListKind) : Protocol Op where
  run := Op.run list
  allowed s op := op.Allowed list kind s
  quiet s t := ∀ a xs, Keeps list kind s a xs → Keeps list kind t a xs

/-- A predicate is asked about one element after the other, and what it answers. -/
inductive Judged (p : Value) : Session → List Value → List Bool → Session → Prop
  | nil (s : Session) : Judged p s [] [] s
  | cons {s t u : Session} {x : Value} {xs : List Value} {d : Bool} {ds : List Bool}
      (h : s.exec (holds p [x]) = (.ok d, t)) (hrest : Judged p t xs ds u) :
      Judged p s (x :: xs) (d :: ds) u

def spared : List Value → List Bool → List Value
  | x :: xs, d :: ds => if d then spared xs ds else x :: spared xs ds
  | _, _ => []

/-- The call asks for a position or a range that the sequence has, for an element of a stack that is not
empty, or by a predicate that does not fail. -/
def Op.Fits (s : Session) (xs : List Value) : Op → Prop
  | insert i _ => ∃ n : Nat, i.asInt? = some (n : Int) ∧ n ≤ xs.length
  | setItem i _ | removeAt i => ∃ n : Nat, i.asInt? = some (n : Int) ∧ n < xs.length
  | removeRange i k =>
    ∃ n c : Nat, i.asInt? = some (n : Int) ∧ k.asInt? = some (c : Int) ∧ n + c ≤ xs.length
  | removeAll p => ∃ ds t, Judged p s xs ds t
  | pop | peek => xs ≠ []
  | _ => True

/-- What a call makes of the sequence and what it answers; `s` and `t` are the sessions before and after. -/
inductive Makes (s t : Session) : List Value → Op → Value → List Value → Prop
  | add (xs : List Value) (v : Value) : Makes s t xs (.add v) .null (xs ++ [v])
  | addRange (xs : List Value) {array : Nat} {ys : List Value} (h : s.store[array]? = some (.array ys)) :
    Makes s t xs (.addRange array) .null (xs ++ ys)
  | insert {i : Value} (before after : List Value) (hi : i.asInt? = some (before.length : Int)) (v : Value) :
    Makes s t (before ++ after) (.insert i v) .null (before ++ v :: after)
  | setItem {i : Value} (before : List Value) (x : Value) (after : List Value)
    (hi : i.asInt? = some (before.length : Int)) (v : Value) :
    Makes s t (before ++ x :: after) (.setItem i v) .null (before ++ v :: after)
  | removeAt {i : Value} (before : List Value) (x : Value) (after : List Value)
    (hi : i.asInt? = some (before.length : Int)) :
    Makes s t (before ++ x :: after) (.removeAt i) .null (before ++ after)
  | removeRange {i k : Value} (before range after : List Value) (hi : i.asInt? = some (before.length : Int))
    (hk : k.asInt? = some (range.length : Int)) :
    Makes s t (before ++ (range ++ after)) (.removeRange i k) .null (before ++ after)
  | remove {before : List Value} {x v : Value} (hbefore : ∀ y ∈ before, s.equals y v = false)
    (hx : s.equals x v = true) (after : List Value) :
    Makes s t (before ++ x :: after) (.remove v) (.bool true) (before ++ after)
  | removeNone {xs : List Value} {v : Value} (h : ∀ y ∈ xs, s.equals y v = false) :
    Makes s t xs (.remove v) (.bool false) xs
  | removeAll {xs : List Value} {p : Value} {ds : List Bool} {u : Session} (h : Judged p s xs ds u) :
    Makes s t xs (.removeAll p) (.int (ds.count true)) (spared xs ds)
  | reverse (xs : List Value) : Makes s t xs .reverse .null xs.reverse
  | clear (xs : List Value) : Makes s t xs .clear .null []
  | push (xs : List Value) (v : Value) : Makes s t xs (.push v) .null (xs ++ [v])
  | pop (xs : List Value) (x : Value) : Makes s t (xs ++ [x]) .pop x xs
  | peek (xs : List Value) (x : Value) : Makes s t (xs ++ [x]) .peek x (xs ++ [x])
  | indexOf {before : List Value} {x v : Value} (hbefore : ∀ y ∈ before, s.equals y v = false)
    (hx : s.equals x v = true) (after : List Value) :
    Makes s t (before ++ x :: after) (.indexOf v) (.int before.length) (before ++ x :: after)
  | indexOfNone {xs : List Value} {v : Value} (h : ∀ y ∈ xs, s.equals y v = false) :
    Makes s t xs (.indexOf v) (.int (-1)) xs
  | toArray {xs : List Value} {array : Nat} (hnew : s.store[array]? = none)
    (h : t.store[array]? = some (.array xs)) : Makes s t xs .toArray (.ref array) xs

/-- A call that fits does what it does to the sequence; any other raises, and leaves the sequence alone. -/
inductive Does (xs : List Value) (e : Invocation Op) : List Value → Prop
  | answers {v : Value} {ys : List Value} (hfits : e.op.Fits e.before xs) (hanswer : e.outcome = .ok v)
    (h : Makes e.before e.after xs e.op v ys) : Does xs e ys
  | raises {fault : Fault} (hfits : ¬ e.op.Fits e.before xs) (hraises : e.outcome = .error fault) :
    Does xs e xs

/-- One call, with the elements of the list before and after it. -/
structure Step (list : Nat) (kind : ListKind) (xs : List Value) (e : Invocation Op) (ys : List Value) :
    Prop where
  before : ∃ a, Keeps list kind e.before a xs
  does : Does xs e ys
  after : ∃ a, Keeps list kind e.after a ys

variable {s t u : Session} {list a n : Nat} {kind : ListKind} {op : Op} {xs ys : List Value}
  {i k p v : Value}

def Op.body (list : Nat) (kind : ListKind) (a : Nat) : Op → Action Value
  | add v | push v => Collections.update a fun xs => .ok (xs ++ [v])
  | addRange array => Collections.addRange list a (.ref array)
  | insert i v => do
    let i ← needInt i
    Collections.update a (Sequence.insert · i v)
  | setItem i v => do
    let i ← needInt i
    Collections.update a (Sequence.set · i v)
  | removeAt i => do
    let i ← needInt i
    Collections.update a (Sequence.removeAt · i)
  | removeRange i k => do
    let i ← needInt i
    let k ← needInt k
    Collections.update a (Sequence.removeRange · i k)
  | remove v => Collections.remove a v
  | removeAll p => Collections.removeAll list kind a p
  | reverse => Collections.update a fun xs => .ok xs.reverse
  | clear => do
    Collections.exchange list kind []
    done
  | pop => do
    let (x, rest) ← ofResult (Sequence.pop ((← get).items a))
    assign a (.array rest)
    pure x
  | peek => do ofResult (Sequence.peek ((← get).items a))
  | indexOf v => do
    let s ← get
    pure (.int (Sequence.indexOf s.equals (s.items a) v))
  | toArray => do newArray ((← get).items a)

theorem exec_run (op : Op) (h : s.store[list]? = some (.list kind a)) (ha : op.Allowed list kind s) :
    s.exec (op.run list) = s.exec (op.body list kind a) := by
  unfold Op.run Op.body
  cases op with
  | push v | pop | peek =>
      obtain rfl : kind = .stack := ha
      exact (exec_call h rfl _).trans rfl
  | _ => exact (exec_call h rfl _).trans rfl

theorem Keeps.put (h : Keeps list kind s a xs) (ys : List Value) : Keeps list kind (s.put a (.array ys)) a ys := by
  obtain ⟨hl, ha⟩ := h
  refine ⟨(store_put_ne ?_ _).trans hl, store_put ha _⟩
  rintro rfl
  cases hl.symm.trans ha

theorem Keeps.exchange (h : Keeps list kind s a xs) (ys : List Value) :
    Keeps list kind ((s.grow (.array ys)).put list (.list kind s.store.size)) s.store.size ys := by
  have hlt := (Array.getElem?_eq_some_iff.mp h.1).1
  exact ⟨store_put (store_grow_of_some h.1 _) _, (store_put_ne (Nat.ne_of_gt hlt) _).trans (store_grow s _)⟩

theorem Keeps.extends (h : Keeps list kind s a xs) (hst : Extends s t) : Keeps list kind t a xs :=
  ⟨hst.kept h.1, hst.kept h.2⟩

theorem Keeps.drift (h : Keeps list kind s a xs) (hst : Drift false none s t) : Keeps list kind t a xs := by
  obtain ⟨ys, hys, heq⟩ := hst.array_kept h.2
  obtain ⟨o, ho, hdrift⟩ := hst.kept h.1
  cases hdrift with
  | same => exact ⟨ho, heq (by simp) ▸ hys⟩
  | array hf => cases hf

theorem Keeps.items (h : Keeps list kind s a xs) : s.items a = xs := items_eq h.2

theorem step_answers (h : Keeps list kind s a xs) (hrun : s.exec (op.run list) = (.ok v, t))
    (hfits : op.Fits s xs) (hmakes : Makes s t xs op v ys) {b : Nat} (hys : Keeps list kind t b ys) :
    ∃ ys, Step list kind xs ((protocol list kind).call s op) ys := by
  have hcall : (protocol list kind).call s op = ⟨s, op, .ok v, t⟩ := Protocol.call_of hrun
  exact hcall ▸ ⟨ys, ⟨a, h⟩, .answers hfits rfl hmakes, b, hys⟩

theorem step_raises {fault : Fault} (h : Keeps list kind s a xs)
    (hrun : s.exec (op.run list) = (.error fault, t)) (hfits : ¬ op.Fits s xs)
    (hxs : Keeps list kind t a xs) : ∃ ys, Step list kind xs ((protocol list kind).call s op) ys := by
  have hcall : (protocol list kind).call s op = ⟨s, op, .error fault, t⟩ := Protocol.call_of hrun
  exact hcall ▸ ⟨xs, ⟨a, h⟩, .raises hfits rfl, a, hxs⟩

theorem step_put (h : Keeps list kind s a xs) (hfits : op.Fits s xs)
    (hrun : s.exec (op.run list) = (.ok v, s.put a (.array ys)))
    (hmakes : Makes s (s.put a (.array ys)) xs op v ys) :
    ∃ ys, Step list kind xs ((protocol list kind).call s op) ys :=
  step_answers h hrun hfits hmakes (h.put ys)

theorem exec_update (h : s.store[a]? = some (.array xs)) (f : List Value → Except Failure (List Value)) :
    s.exec (Collections.update a f) =
      match f xs with
      | .ok ys => (.ok .null, s.put a (.array ys))
      | .error e => (.error (.failure e), s) := by
  rw [Collections.update, exec_get_bind, items_eq h]
  cases f xs <;> rfl

theorem exec_needInt (v : Value) (s : Session) :
    s.exec (needInt v) =
      match v.asInt? with
      | some n => (.ok n, s)
      | none => (.error (.misuse .wrongType), s) := by
  unfold needInt
  cases v.asInt? <;> rfl

theorem position_eq (limit : Nat) (i : Int) :
    (∃ n : Nat, i = n ∧ n < limit ∧ Sequence.position limit i = .ok n) ∨
      (∀ n : Nat, i = n → ¬ n < limit) ∧ Sequence.position limit i = .error .elementIndex := by
  by_cases hi : 0 ≤ i ∧ i < limit
  · exact .inl ⟨i.toNat, by omega, by omega, if_pos hi⟩
  · exact .inr ⟨fun n hn => by omega, if_neg hi⟩

theorem exec_edit_at (h : s.store[a]? = some (.array xs)) (limit : List Value → Nat)
    (f : List Value → Nat → List Value) (i : Value) (action : Action Value)
    (haction : action = do
      let i ← needInt i
      Collections.update a fun xs => do pure (f xs (← Sequence.position (limit xs) i))) :
    (∃ n : Nat, i.asInt? = some (n : Int) ∧ n < limit xs ∧
        s.exec action = (.ok .null, s.put a (.array (f xs n)))) ∨
      (¬ ∃ n : Nat, i.asInt? = some (n : Int) ∧ n < limit xs) ∧
        ∃ fault, s.exec action = (.error fault, s) := by
  subst haction
  have hint := exec_needInt i s
  cases hi : i.asInt? with
  | none =>
      rw [hi] at hint
      exact .inr ⟨by simp, _, exec_bind_error hint _⟩
  | some j =>
      rw [hi] at hint
      rw [exec_bind_ok hint, exec_update h]
      obtain ⟨n, rfl, hn, hpos⟩ | ⟨hout, hpos⟩ := position_eq (limit xs) j
      · exact .inl ⟨n, rfl, hn, by rw [hpos]; rfl⟩
      · refine .inr ⟨?_, _, by rw [hpos]; rfl⟩
        rintro ⟨n, hn, hlt⟩
        exact hout n (Option.some.inj hn) hlt

theorem exists_split (h : n < xs.length) : ∃ before x after, xs = before ++ x :: after ∧ before.length = n :=
  ⟨xs.take n, xs[n], xs.drop (n + 1), by simp, by simp [Nat.le_of_lt h]⟩

theorem insertIdx_append (before after : List Value) (v : Value) :
    (before ++ after).insertIdx before.length v = before ++ v :: after := by
  induction before with
  | nil => exact List.insertIdx_zero
  | cons x before ih => exact List.insertIdx_succ_cons.trans (congrArg (x :: ·) ih)

theorem step_insert (h : Keeps list kind s a xs) :
    ∃ ys, Step list kind xs ((protocol list kind).call s (.insert i v)) ys := by
  have hrun := exec_run (.insert i v) h.1 trivial
  obtain ⟨n, hi, hn, hexec⟩ | ⟨hout, fault, hexec⟩ :=
    exec_edit_at h.2 (·.length + 1) (fun xs n => xs.insertIdx n v) i
      (Op.body list kind a (.insert i v)) rfl
  · refine step_put h ⟨n, hi, by omega⟩ (hrun.trans hexec) ?_
    obtain ⟨before, after, rfl, rfl⟩ : ∃ before after, xs = before ++ after ∧ before.length = n :=
      ⟨xs.take n, xs.drop n, by simp, by simp; omega⟩
    rw [insertIdx_append]
    exact .insert before after hi v
  · refine step_raises h (hrun.trans hexec) ?_ h
    rintro ⟨n, hi, hn⟩
    exact hout ⟨n, hi, by omega⟩

theorem step_setItem (h : Keeps list kind s a xs) :
    ∃ ys, Step list kind xs ((protocol list kind).call s (.setItem i v)) ys := by
  have hrun := exec_run (.setItem i v) h.1 trivial
  obtain ⟨n, hi, hn, hexec⟩ | ⟨hout, fault, hexec⟩ :=
    exec_edit_at h.2 List.length (fun xs n => xs.set n v) i (Op.body list kind a (.setItem i v)) rfl
  · refine step_put h ⟨n, hi, hn⟩ (hrun.trans hexec) ?_
    obtain ⟨before, x, after, rfl, rfl⟩ := exists_split hn
    rw [List.set_append_right _ _ (Nat.le_refl _), Nat.sub_self, List.set_cons_zero]
    exact .setItem before x after hi v
  · exact step_raises h (hrun.trans hexec) hout h

theorem step_removeAt (h : Keeps list kind s a xs) :
    ∃ ys, Step list kind xs ((protocol list kind).call s (.removeAt i)) ys := by
  have hrun := exec_run (.removeAt i) h.1 trivial
  obtain ⟨n, hi, hn, hexec⟩ | ⟨hout, fault, hexec⟩ :=
    exec_edit_at h.2 List.length List.eraseIdx i (Op.body list kind a (.removeAt i)) rfl
  · refine step_put h ⟨n, hi, hn⟩ (hrun.trans hexec) ?_
    obtain ⟨before, x, after, rfl, rfl⟩ := exists_split hn
    rw [List.eraseIdx_append_of_length_le (Nat.le_refl _), Nat.sub_self, List.eraseIdx_cons_zero]
    exact .removeAt before x after hi
  · exact step_raises h (hrun.trans hexec) hout h

theorem step_removeRange (h : Keeps list kind s a xs) :
    ∃ ys, Step list kind xs ((protocol list kind).call s (.removeRange i k)) ys := by
  have hrun := exec_run (.removeRange i k) h.1 trivial
  have hint := exec_needInt i s
  cases hi : i.asInt? with
  | none =>
      rw [hi] at hint
      exact step_raises h (hrun.trans (exec_bind_error hint _)) (by simp [Op.Fits, hi]) h
  | some m =>
    rw [hi] at hint
    have hcount := exec_needInt k s
    cases hk : k.asInt? with
    | none =>
        rw [hk] at hcount
        rw [Op.body, exec_bind_ok hint, exec_bind_error hcount] at hrun
        exact step_raises h hrun (by simp [Op.Fits, hk]) h
    | some c =>
      rw [hk] at hcount
      rw [Op.body, exec_bind_ok hint, exec_bind_ok hcount, exec_update h.2] at hrun
      by_cases hrange : 0 ≤ m ∧ 0 ≤ c ∧ m + c ≤ xs.length
      · obtain ⟨m, rfl⟩ := Int.eq_ofNat_of_zero_le hrange.1
        obtain ⟨c, rfl⟩ := Int.eq_ofNat_of_zero_le hrange.2.1
        have hlength : m + c ≤ xs.length := by omega
        have hok : Sequence.removeRange xs (m : Int) (c : Int) = .ok (xs.take m ++ xs.drop (m + c)) := by
          rw [Sequence.removeRange, if_neg (by omega), if_neg (by omega), if_neg (by omega)]
          rfl
        rw [hok] at hrun
        refine step_put h ⟨m, c, hi, hk, hlength⟩ hrun ?_
        obtain ⟨before, range, after, rfl, rfl, rfl⟩ :
            ∃ before range after, xs = before ++ (range ++ after) ∧ before.length = m ∧ range.length = c :=
          ⟨xs.take m, (xs.drop m).take c, (xs.drop m).drop c, by simp, by simp; omega, by simp; omega⟩
        rw [List.take_left, ← List.length_append, ← List.append_assoc, List.drop_left, List.append_assoc]
        exact .removeRange before range after hi hk
      · have herr : ∃ e, Sequence.removeRange xs m c = .error e := by
          unfold Sequence.removeRange
          split
          · exact ⟨_, rfl⟩
          · split
            · exact ⟨_, rfl⟩
            · rw [if_pos (by omega)]
              exact ⟨_, rfl⟩
        obtain ⟨e, he⟩ := herr
        rw [he] at hrun
        refine step_raises h hrun ?_ h
        rintro ⟨n, d, hn, hd, hlength⟩
        cases hi.symm.trans hn
        cases hk.symm.trans hd
        omega

theorem first_equal (s : Session) (xs : List Value) (v : Value) :
    (∃ before x after, xs = before ++ x :: after ∧ (∀ y ∈ before, s.equals y v = false) ∧
        s.equals x v = true ∧ Sequence.indexOf? s.equals xs v = some before.length) ∨
      (∀ y ∈ xs, s.equals y v = false) ∧ Sequence.indexOf? s.equals xs v = none := by
  cases hfound : Sequence.indexOf? s.equals xs v with
  | none => exact .inr ⟨List.findIdx?_eq_none_iff.mp hfound, rfl⟩
  | some n =>
      obtain ⟨hn, hequal, hbefore⟩ := List.findIdx?_eq_some_iff_getElem.mp hfound
      refine .inl ⟨xs.take n, xs[n], xs.drop (n + 1), by simp, fun y hy => ?_, hequal, by simp [Nat.le_of_lt hn]⟩
      obtain ⟨j, hj, rfl⟩ := List.mem_iff_getElem.mp hy
      rw [List.getElem_take]
      exact Bool.eq_false_of_not_eq_true (hbefore j (by simp at hj; omega))

theorem step_remove (h : Keeps list kind s a xs) :
    ∃ ys, Step list kind xs ((protocol list kind).call s (.remove v)) ys := by
  have hrun := exec_run (.remove v) h.1 trivial
  have hexec : s.exec (Op.body list kind a (.remove v)) =
      (.ok (.bool (Sequence.remove s.equals xs v).2), s.put a (.array (Sequence.remove s.equals xs v).1)) := by
    rw [← h.items]
    rfl
  refine step_put h trivial (hrun.trans hexec) ?_
  obtain ⟨before, x, after, rfl, hbefore, hx, hindex⟩ | ⟨hnone, hindex⟩ := first_equal s xs v
  · rw [Sequence.remove, hindex]
    simp only [List.eraseIdx_append_of_length_le (Nat.le_refl _), Nat.sub_self, List.eraseIdx_cons_zero]
    exact .remove hbefore hx after
  · rw [Sequence.remove, hindex]
    exact .removeNone hnone

theorem step_indexOf (h : Keeps list kind s a xs) :
    ∃ ys, Step list kind xs ((protocol list kind).call s (.indexOf v)) ys := by
  have hrun := exec_run (.indexOf v) h.1 trivial
  have hexec : s.exec (Op.body list kind a (.indexOf v)) = (.ok (.int (Sequence.indexOf s.equals xs v)), s) := by
    rw [← h.items]
    rfl
  refine step_answers h (hrun.trans hexec) trivial ?_ h
  obtain ⟨before, x, after, rfl, hbefore, hx, hindex⟩ | ⟨hnone, hindex⟩ := first_equal s xs v
  · rw [Sequence.indexOf, hindex]
    exact .indexOf hbefore hx after
  · rw [Sequence.indexOf, hindex]
    exact .indexOfNone hnone

theorem Judged.count_spared {ds : List Bool} (h : Judged p s xs ds t) :
    xs.length - (spared xs ds).length = ds.count true ∧ (spared xs ds).length ≤ xs.length := by
  induction h with
  | nil => exact ⟨rfl, Nat.le_refl 0⟩
  | @cons _ _ _ x xs d ds _ _ ih =>
      cases d with
      | true => simp [spared]; omega
      | false => simp [spared]; omega

/-- Elements are kept by asking about one after the other; the asking fails exactly if the predicate
does. -/
theorem exec_keptBy (p : Value) (xs : List Value) (s : Session) :
    (∃ ds t, Judged p s xs ds t ∧ s.exec (Collections.keptBy p xs) = (.ok (spared xs ds), t)) ∨
      (¬ ∃ ds t, Judged p s xs ds t) ∧ ∃ fault t, s.exec (Collections.keptBy p xs) = (.error fault, t) := by
  induction xs generalizing s with
  | nil => exact .inl ⟨[], s, .nil s, rfl⟩
  | cons x xs ih =>
      rcases hx : s.exec (holds p [x]) with ⟨fault | d, t⟩
      · refine .inr ⟨?_, fault, t, exec_bind_error hx _⟩
        rintro ⟨ds, u, h⟩
        cases h with
        | cons hx' => cases hx.symm.trans hx'
      · obtain ⟨ds, u, hjudged, hrest⟩ | ⟨hnone, fault, u, hrest⟩ := ih t
        · refine .inl ⟨d :: ds, u, .cons hx hjudged, (exec_bind_ok hx _).trans ?_⟩
          cases d with
          | true => exact hrest
          | false => exact exec_bind_ok hrest _
        · refine .inr ⟨?_, fault, u, (exec_bind_ok hx _).trans ?_⟩
          · rintro ⟨ds, v, h⟩
            cases h with
            | cons hx' hjudged =>
                cases hx.symm.trans hx'
                exact hnone ⟨_, _, hjudged⟩
          · cases d with
            | true => exact hrest
            | false => exact exec_bind_error hrest _

theorem step_removeAll (h : Keeps list kind s a xs) :
    ∃ ys, Step list kind xs ((protocol list kind).call s (.removeAll p)) ys := by
  have hrun := exec_run (.removeAll p) h.1 trivial
  have hdrift := LiveView.within_keptBy p xs s
  obtain ⟨ds, u, hjudged, hkept⟩ | ⟨hnone, fault, u, hkept⟩ := exec_keptBy p xs s
  · rw [hkept] at hdrift
    have hexec : s.exec (Op.body list kind a (.removeAll p)) = (.ok (.int (ds.count true)),
        (u.grow (.array (spared xs ds))).put list (.list kind u.store.size)) := by
      rw [Op.body, Collections.removeAll, exec_get_bind, h.items, exec_bind_ok hkept, ← hjudged.count_spared.1]
      rfl
    exact step_answers h (hrun.trans hexec) ⟨ds, u, hjudged⟩ (.removeAll hjudged)
      ((h.drift hdrift).exchange _)
  · rw [hkept] at hdrift
    have hexec : s.exec (Op.body list kind a (.removeAll p)) = (.error fault, u) := by
      rw [Op.body, Collections.removeAll, exec_get_bind, h.items, exec_bind_error hkept]
    exact step_raises h (hrun.trans hexec) hnone (h.drift hdrift)

def itself (a : Nat) : Feedback.Meaning a Value where
  rel _ v d := v = d
  stable _ h := h

theorem grows_rest (c ds : List Value) : Feedback.Grows c (.guarded (.rest ds)) ds := by
  induction ds generalizing c with
  | nil => exact .done rfl
  | cons d ds ih => exact .more rfl (ih (c ++ [d]))

theorem cost_rest (c ds : List Value) : Feedback.cost c (.guarded (.rest ds)) ds = ds.length + 4 := by
  induction ds generalizing c with
  | nil => rfl
  | cons d ds ih =>
      have hrest : Feedback.after c (.guarded (.rest (d :: ds))) 1 = .guarded (.rest ds) := rfl
      rw [Feedback.cost, hrest, ih, Feedback.need, Feedback.need, List.length_cons]
      omega

theorem exec_addRange {array : Nat} (h : Keeps list kind s a xs) (hne : array ≠ a)
    (hys : s.store[array]? = some (.array ys)) (hsteps : ys.length + 4 ≤ s.steps) :
    ∃ t, s.exec (Collections.addRange list a (.ref array)) = (.ok .null, t) ∧
      Keeps list kind t a (xs ++ ys) := by
  have hall (zs : List Value) : List.Forall₂ ((itself a).rel s) zs zs := List.forall₂_same.mpr fun _ _ => rfl
  have hshape : (Feedback.Lazy.other ys).Shape (itself a) s (.ref array) := by
    refine ⟨ys, .array hys, ⟨by simpa using hne, ?_⟩, hall ys⟩
    rintro b (⟨kind, hb⟩ | hb) <;> cases hys.symm.trans hb
  obtain ⟨out, zs, t, hfold, hgrows, hbeside, ht, hzs⟩ | ⟨-, hcost⟩ :=
    Feedback.exec_extend (B := fun _ => True) (.pending hshape trivial) h.2 (hall xs) (fun _ _ => trivial)
      (fun _ _ => trivial) s.steps
  · obtain rfl := hgrows.unique (grows_rest xs ys)
    obtain rfl : zs = out := List.forall₂_eq_eq_eq ▸ hzs
    have hne' : list ≠ a := by
      rintro rfl
      cases h.1.symm.trans h.2
    have hself : array ≠ list := by
      rintro rfl
      cases h.1.symm.trans hys
    have hextend : s.exec (Collections.extend a (.ref array)) = (.ok (), t) := exec_bind_ok hfold _
    refine ⟨t, ?_, hbeside.kept_of_ne hne' h.1, ht⟩
    rw [Collections.addRange, if_neg (by simp), if_neg (by simpa using hself), exec_bind_ok hextend]
    rfl
  · have hlt := hcost ys (grows_rest xs ys)
    rw [show (Feedback.Lazy.other ys).start = .guarded (.rest ys) from rfl, cost_rest] at hlt
    omega

theorem step_addRange {array : Nat} (h : Keeps list kind s a xs)
    (ha : Op.Allowed list kind s (.addRange array)) :
    ∃ ys, Step list kind xs ((protocol list kind).call s (.addRange array)) ys := by
  have hrun := exec_run _ h.1 ha
  obtain ⟨hown, ys, hys, hsteps⟩ := ha
  have hne : array ≠ a := by
    rintro rfl
    exact hown h.1
  obtain ⟨t, hexec, ht⟩ := exec_addRange h hne hys hsteps
  exact step_answers h (hrun.trans hexec) trivial (.addRange xs hys) ht

theorem step_pop (h : Keeps list kind s a xs) (ha : Op.Allowed list kind s .pop) :
    ∃ ys, Step list kind xs ((protocol list kind).call s .pop) ys := by
  have hrun := exec_run _ h.1 ha
  rw [Op.body, exec_get_bind, h.items] at hrun
  rcases xs.eq_nil_or_concat' with rfl | ⟨init, x, rfl⟩
  · exact step_raises h (hrun.trans rfl) (fun hfits => hfits rfl) h
  · have hpop : Sequence.pop (init ++ [x]) = .ok (x, init) := by simp [Sequence.pop]
    rw [hpop] at hrun
    exact step_put h (by simp [Op.Fits]) (hrun.trans rfl) (.pop init x)

theorem step_peek (h : Keeps list kind s a xs) (ha : Op.Allowed list kind s .peek) :
    ∃ ys, Step list kind xs ((protocol list kind).call s .peek) ys := by
  have hrun := exec_run _ h.1 ha
  rw [Op.body, exec_get_bind, h.items] at hrun
  rcases xs.eq_nil_or_concat' with rfl | ⟨init, x, rfl⟩
  · exact step_raises h (hrun.trans rfl) (fun hfits => hfits rfl) h
  · have hpeek : Sequence.peek (init ++ [x]) = .ok x := by simp [Sequence.peek]
    rw [hpeek] at hrun
    exact step_answers h (hrun.trans rfl) (by simp [Op.Fits]) (.peek init x) h

theorem step_call (h : Keeps list kind s a xs) (ha : op.Allowed list kind s) :
    ∃ ys, Step list kind xs ((protocol list kind).call s op) ys := by
  have hrun := exec_run _ h.1 ha
  cases op with
  | add v =>
      rw [Op.body, exec_update h.2] at hrun
      exact step_put h trivial hrun (.add xs v)
  | push v =>
      rw [Op.body, exec_update h.2] at hrun
      exact step_put h trivial hrun (.push xs v)
  | reverse =>
      rw [Op.body, exec_update h.2] at hrun
      exact step_put h trivial hrun (.reverse xs)
  | clear => exact step_answers h (hrun.trans rfl) trivial (.clear xs) (h.exchange [])
  | toArray =>
      have hexec : s.exec (Op.body list kind a .toArray) = (.ok (.ref s.store.size), s.grow (.array xs)) := by
        rw [← h.items]
        rfl
      exact step_answers h (hrun.trans hexec) trivial (.toArray (by simp) (store_grow s _))
        (h.extends (extends_grow s _))
  | addRange array => exact step_addRange h ha
  | insert i v => exact step_insert h
  | setItem i v => exact step_setItem h
  | removeAt i => exact step_removeAt h
  | removeRange i k => exact step_removeRange h
  | remove v => exact step_remove h
  | removeAll p => exact step_removeAll h
  | pop => exact step_pop h ha
  | peek => exact step_peek h ha
  | indexOf v => exact step_indexOf h

def Has (list : Nat) (kind : ListKind) (s : Session) (xs : List Value) : Prop := ∃ a, Keeps list kind s a xs

/-- A list or a stack through any run of calls: its elements follow the sequence, a call raises exactly if
it does not fit, and what raises leaves the elements as they were. -/
theorem calls_follow_sequence (h : Keeps list kind s a xs) {calls : List (Invocation Op)}
    (hr : (protocol list kind).Runs s calls t) :
    ∃ ys, Follows (Step list kind) xs calls ys ∧ ∃ b, Keeps list kind t b ys := by
  have hquiet {s t : Session} {xs : List Value} (hst : (protocol list kind).quiet s t) :
      Has list kind s xs → Has list kind t xs := fun ⟨a, h⟩ => ⟨a, hst a xs h⟩
  have hstep {s : Session} {xs : List Value} {op : Op} (ha : (protocol list kind).allowed s op)
      (h : Has list kind s xs) : ∃ ys, Step list kind xs ((protocol list kind).call s op) ys ∧
        Has list kind ((protocol list kind).call s op).after ys := by
    obtain ⟨a, h⟩ := h
    obtain ⟨ys, hstep⟩ := step_call h ha
    exact ⟨ys, hstep, hstep.after⟩
  have hhas : Has list kind s xs := ⟨a, h⟩
  have hfollows : ∃ ys, Follows (Step list kind) xs calls ys ∧ Has list kind t ys :=
    hr.follows hquiet hstep hhas
  exact hfollows

/-- An empty stack, an array with a text between two numbers, and a predicate that compares with a number. -/
def stacked : Session :=
  { start 0 with
    store := #[.array [], .list .stack 0, .array [.int 1, .text [], .int 3],
      .function ⟨.gt, .int 0, false⟩] }

def filled : Invocation Op := (protocol 1 .stack).call stacked (.addRange 2)

def overrun : Invocation Op := (protocol 1 .stack).call filled.after (.removeRange (.int 2) (.int 2))

def unjudged : Invocation Op := (protocol 1 .stack).call overrun.after (.removeAll (.ref 3))

def shortened : Invocation Op := (protocol 1 .stack).call unjudged.after (.removeAt (.bool true))

def popped : Invocation Op := (protocol 1 .stack).call shortened.after .pop

def cleared : Invocation Op := (protocol 1 .stack).call popped.after .clear

def refused : Invocation Op := (protocol 1 .stack).call cleared.after .pop

/-- A range that ends outside, a predicate that answers for one element and fails on the next, and an empty
stack raise; a truth value may be an index. -/
theorem calls_follow_sequence_stack :
    let calls := [filled, overrun, unjudged, shortened, popped, cleared, refused]
    (protocol 1 .stack).Runs stacked calls refused.after ∧
      (∃ ys, Follows (Step 1 .stack) [] calls ys ∧ ∃ b, Keeps 1 .stack refused.after b ys) ∧
      calls.map (·.outcome.toOption) = [some .null, none, none, some .null, some (.int 3), some .null, none] := by
  intro calls
  have harray : Op.Allowed 1 .stack stacked (.addRange 2) := by
    refine ⟨fun h => ?_, [.int 1, .text [], .int 3], rfl, by decide⟩
    cases h
  have hr : (protocol 1 .stack).Runs stacked calls refused.after :=
    .call (fun _ _ h => h) harray (.call (fun _ _ h => h) trivial (.call (fun _ _ h => h) trivial
      (.call (fun _ _ h => h) trivial (.call (fun _ _ h => h) rfl (.call (fun _ _ h => h) trivial
        (.call (fun _ _ h => h) rfl (.nil fun _ _ h => h)))))))
  exact ⟨hr, calls_follow_sequence ⟨rfl, rfl⟩ hr, by decide +kernel⟩

end BaseLib.Edits
