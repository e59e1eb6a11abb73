import BaseLib.Proofs.Collection.Dictionary
import BaseLib.Proofs.Collection.LiveView
import BaseLib.Proofs.Session.Runs

namespace BaseLib.Snapshot

open Library Session
open Dictionary (Entries)

inductive Change
  | setItem (k v : Value)
  | assign (k v : Value)
  | bind (k v : Value)
  | add (v : Value)
  | remove (k : Value)
  | clear

def Change.run (collection : Nat) : Change → Action Value
  | setItem k v => Methods.call (.ref collection) "set_Item" [k, v]
  | assign k v => Catalogue.call "op.setitem" [.ref collection, k, v]
  | bind k v => Methods.call (.ref collection) "Add" [k, v]
  | add v => Methods.call (.ref collection) "Add" [v]
  | remove k => Methods.call (.ref collection) "Remove" [k]
  | clear => Methods.call (.ref collection) "Clear" []

inductive Edit
  | change (op : LiveView.Op)
  | assign (i v : Value)
  | clear

def Edit.run (list : Nat) : Edit → Action Value
  | change op => op.run list
  | assign i v => Catalogue.call "op.setitem" [.ref list, i, v]
  | clear => Methods.call (.ref list) "Clear" []

inductive IsCollection : Object → Prop
  | set (members : Table Value Value) : IsCollection (.hashSet members)
  | dictionary (entries : Entries) : IsCollection (.dictionary entries)

section

variable {α β X Y : Type}

def Apart (view : Session → X × Y → Prop) (m : X × Y) (e : Invocation (α ⊕ β)) (m' : X × Y) : Prop :=
  view e.before m ∧ view e.after m' ∧
    match e.op with
    | .inl _ => m'.2 = m.2
    | .inr _ => m'.1 = m.1

theorem follows_apart {p : Protocol (α ⊕ β)} {view : Session → X × Y → Prop}
    (hquiet : ∀ {s t m}, p.quiet s t → view s m → view t m)
    (hleft : ∀ {s x y} a, view s (x, y) → ∃ x', view (s.exec (p.run (.inl a))).2 (x', y))
    (hright : ∀ {s x y} b, view s (x, y) → ∃ y', view (s.exec (p.run (.inr b))).2 (x, y'))
    {s t : Session} {m : X × Y} {calls : List (Invocation (α ⊕ β))} (hr : p.Runs s calls t) (h : view s m) :
    ∃ m', Follows (Apart view) m calls m' ∧ view t m' := by
  refine hr.follows hquiet (fun {s m op} _ h => ?_) h
  cases op with
  | inl a =>
      obtain ⟨x', hx⟩ := hleft a h
      exact ⟨(x', m.2), ⟨h, hx, rfl⟩, hx⟩
  | inr b =>
      obtain ⟨y', hy⟩ := hright b h
      exact ⟨(m.1, y'), ⟨h, hy, rfl⟩, hy⟩

end

variable {s t : Session} {c : Nat} {o : Object} {es : Entries}

theorem exec_addMember (s : Session) (members : Table Value Value) (v : Value) :
    ∃ r, s.exec (Collections.addMember members v) = (.ok r, s) := by
  have hkeyed : s.exec Collections.keyed = (.ok s.keying, s) := rfl
  rw [Collections.addMember, exec_bind_ok hkeyed]
  split <;> exact ⟨_, rfl⟩

theorem exec_addBinding (s : Session) (es : Entries) (k v : Value) :
    ∃ r, s.exec (Collections.addBinding es k v) = (r, s) := by
  rw [Collections.addBinding, exec_get_bind]
  split
  · exact ⟨_, rfl⟩
  · exact ⟨_, Dictionary.exec_refuse s k .keyTaken⟩

theorem exec_opSetItem (x k v : Value) :
    s.exec (Catalogue.call "op.setitem" [x, k, v]) = s.exec (do
      setItemOf x k v
      done) := rfl

theorem change_set {members : Table Value Value} (h : s.store[c]? = some (.hashSet members)) (op : Change) :
    (s.exec (op.run c)).2 = s ∨ ∃ members', (s.exec (op.run c)).2 = s.put c (.hashSet members') := by
  cases op with
  | setItem k v =>
      left
      rw [Change.run, Methods.call, exec_get_bind]
      have hobject : s.object? (.ref c) = some (.hashSet members) := h
      simp only [hobject]
      have hnone : (Methods.of c (.hashSet members)).lookup "set_Item" = none := rfl
      simp only [hnone]
      have hread : s.exec (Properties.read (.ref c) "set_Item") = (.error (.misuse .noSuchMember), s) := by
        rw [Properties.read, exec_get_bind]
        simp only [hobject]
        rfl
      rw [exec_bind_error hread]
  | assign k v =>
      have hassign : s.exec (setItemOf (.ref c) k v) = (.error (.misuse .wrongType), s) := by
        rw [setItemOf, exec_get_bind]
        simp only [h]
        rfl
      rw [Change.run, exec_opSetItem, exec_bind_error hassign]
      exact .inl rfl
  | bind k v => exact .inl (by rw [Change.run, exec_call h rfl]; rfl)
  | add v =>
      right
      obtain ⟨⟨members', added⟩, hadd⟩ := exec_addMember s members v
      rw [Change.run, exec_call h rfl]
      exact ⟨members', congrArg Prod.snd (exec_bind_ok hadd _)⟩
  | remove k => exact .inr ⟨_, by rw [Change.run, exec_call h rfl]; rfl⟩
  | clear => exact .inr ⟨_, by rw [Change.run, exec_call h rfl]; rfl⟩

theorem change_dictionary (h : s.store[c]? = some (.dictionary es)) (op : Change) :
    (s.exec (op.run c)).2 = s ∨ ∃ es', (s.exec (op.run c)).2 = s.put c (.dictionary es') := by
  cases op with
  | setItem k v => exact .inr ⟨_, by rw [Change.run, exec_call h rfl]; rfl⟩
  | assign k v =>
      have hassign : s.exec (setItemOf (.ref c) k v) = (.ok (), s.put c (.dictionary (bindKey s k v es))) := by
        rw [setItemOf, exec_get_bind]
        simp only [h]
        rfl
      rw [Change.run, exec_opSetItem, exec_bind_ok hassign]
      exact .inr ⟨_, rfl⟩
  | bind k v =>
      obtain ⟨r, hadd⟩ := exec_addBinding s es k v
      rw [Change.run, exec_call h rfl]
      cases r with
      | error f => exact .inl (congrArg Prod.snd (exec_bind_error hadd _))
      | ok es' => exact .inr ⟨es', congrArg Prod.snd (exec_bind_ok hadd _)⟩
  | add v => exact .inl (by rw [Change.run, exec_call h rfl]; rfl)
  | remove k => exact .inr ⟨_, by rw [Change.run, exec_call h rfl]; rfl⟩
  | clear => exact .inr ⟨_, by rw [Change.run, exec_call h rfl]; rfl⟩

theorem change_collection (h : s.store[c]? = some o) (ho : IsCollection o) (op : Change) :
    ∃ o', IsCollection o' ∧ (s.exec (op.run c)).2.steps = s.steps ∧
      (s.exec (op.run c)).2.store[c]? = some o' ∧
      ∀ i, i ≠ c → (s.exec (op.run c)).2.store[i]? = s.store[i]? := by
  have hput (o' : Object) (ho' : IsCollection o') (ht : (s.exec (op.run c)).2 = s.put c o') :
      ∃ o', IsCollection o' ∧ (s.exec (op.run c)).2.steps = s.steps ∧
        (s.exec (op.run c)).2.store[c]? = some o' ∧
        ∀ i, i ≠ c → (s.exec (op.run c)).2.store[i]? = s.store[i]? := by
    rw [ht]
    exact ⟨o', ho', rfl, store_put h o', fun i hi => store_put_ne hi o'⟩
  cases ho with
  | set members =>
      obtain ht | ⟨members', ht⟩ := change_set h op
      · rw [ht]
        exact ⟨_, .set members, rfl, h, fun _ _ => rfl⟩
      · exact hput _ (.set members') ht
  | dictionary es =>
      obtain ht | ⟨es', ht⟩ := change_dictionary h op
      · rw [ht]
        exact ⟨_, .dictionary es, rfl, h, fun _ _ => rfl⟩
      · exact hput _ (.dictionary es') ht

/-- The elements that a cursor over a collection gives: the members of a set, and a pair for each key of a
dictionary. -/
def Lists (s : Session) (xs : List Value) : Object → Prop
  | .hashSet members => xs = members.values
  | .dictionary es => List.Forall₂ (fun x b => s.object? x = some (.pair b.1 b.2)) xs es.values
  | _ => False

inductive Act
  | change (op : Change)
  | move

/-- Changes of a collection and moves of a cursor; in between, anything may happen that touches neither them nor
the pairs that were made for the cursor. -/
def cursorProtocol (c cursor : Nat) (xs : List Value) (o : Object) : Protocol Act where
  run
    | .change op => op.run c
    | .move => Methods.call (.ref cursor) "MoveNext" []
  allowed _ _ := True
  quiet s t := t.steps = s.steps ∧ t.store[c]? = s.store[c]? ∧ t.store[cursor]? = s.store[cursor]? ∧
    (Lists s xs o → Lists t xs o)

/-- What a cursor has delivered grows by one element with each move, until all of them have been. -/
inductive Moves (cursor : Nat) (xs : List Value) (o : Object) (m : List Value) (e : Invocation Act) :
    List Value → Prop
  | changed {op : Change} (hop : e.op = .change op) : Moves cursor xs o m e m
  | moved {x : Value} (hop : e.op = .move) (hanswer : e.outcome = .ok (.bool true))
      (hx : e.after.exec (Properties.read (.ref cursor) "Current") = (.ok x, e.after))
      (hnext : m ++ [x] <+: xs) (hlists : Lists e.after xs o) : Moves cursor xs o m e (m ++ [x])
  | ended (hop : e.op = .move) (hanswer : e.outcome = .ok (.bool false)) (hm : m = xs) :
      Moves cursor xs o m e m

structure Taken (c cursor : Nat) (xs : List Value) (o : Object) (s : Session) (m : List Value) : Prop where
  steps : 2 ≤ s.steps
  collection : ∃ o', s.store[c]? = some o' ∧ IsCollection o'
  cursor : ∃ d rest, s.store[cursor]? = some (.cursor d) ∧ xs = m ++ rest ∧
    (d.state ≠ .exhausted → d.walk = .items rest) ∧ (d.state = .exhausted → rest = [])
  lists : Lists s xs o

variable {cursor : Nat} {xs m : List Value}

theorem Lists.kept (h : Lists s xs o)
    (hpair : ∀ x k v, s.object? x = some (.pair k v) → t.object? x = some (.pair k v)) : Lists t xs o := by
  cases o with
  | dictionary es => exact List.Forall₂.imp (fun x b hx => hpair x b.1 b.2 hx) h
  | hashSet members => exact h
  | _ => exact h

theorem Lists.kept_ne (h : Lists s xs o) {p : Object} (hc : s.store[c]? = some p) (hp : ∀ k v, p ≠ .pair k v)
    (hkeep : ∀ i, i ≠ c → t.store[i]? = s.store[i]?) : Lists t xs o := by
  refine h.kept fun x k v hx => ?_
  obtain ⟨id, rfl, hid⟩ := exists_ref hx
  refine (hkeep id ?_).trans hid
  rintro rfl
  exact hp k v (Option.some.inj (hc.symm.trans hid))

theorem IsCollection.ne_pair (ho : IsCollection o) (k v : Value) : o ≠ .pair k v := by
  rintro rfl
  cases ho

theorem Taken.change (h : Taken c cursor xs o s m) (op : Change) :
    Taken c cursor xs o (s.exec (op.run c)).2 m := by
  obtain ⟨p, hp, hcollection⟩ := h.collection
  obtain ⟨p', hp', hsteps, hstored, hkeep⟩ := change_collection hp hcollection op
  obtain ⟨d, rest, hd, hrest⟩ := h.cursor
  have hne : cursor ≠ c := by
    rintro rfl
    cases hd.symm.trans hp
    cases hcollection
  exact ⟨hsteps ▸ h.steps, ⟨p', hstored, hp'⟩, ⟨d, rest, (hkeep cursor hne).trans hd, hrest⟩,
    h.lists.kept_ne hp hcollection.ne_pair hkeep⟩

theorem Taken.put_cursor (h : Taken c cursor xs o s m) {d : Cursor} {m' rest : List Value} (hxs : xs = m' ++ rest)
    (hopen : d.state ≠ .exhausted → d.walk = .items rest) (hend : d.state = .exhausted → rest = []) :
    Taken c cursor xs o (s.put cursor (.cursor d)) m' := by
  obtain ⟨p, hp, hcollection⟩ := h.collection
  obtain ⟨d', rest', hd, -⟩ := h.cursor
  have hne : c ≠ cursor := by
    rintro rfl
    cases hp.symm.trans hd
    cases hcollection
  refine ⟨h.steps, ⟨p, (store_put_ne hne _).trans hp, hcollection⟩,
    ⟨d, rest, store_put hd _, hxs, hopen, hend⟩, ?_⟩
  exact h.lists.kept_ne hd (by simp) fun i hi => store_put_ne hi _

theorem Taken.move (h : Taken c cursor xs o s m) :
    ∃ m', Moves cursor xs o m ((cursorProtocol c cursor xs o).call s .move) m' ∧
      Taken c cursor xs o ((cursorProtocol c cursor xs o).call s .move).after m' := by
  obtain ⟨d, rest, hd, hxs, hopen, hend⟩ := h.cursor
  obtain ⟨n, hn⟩ : ∃ n, s.steps = n + 2 := ⟨s.steps - 2, by have := h.steps; omega⟩
  have hcall {r : Except Fault Value} {t : Session}
      (hrun : s.exec (Methods.call (.ref cursor) "MoveNext" []) = (r, t)) :
      (cursorProtocol c cursor xs o).call s .move = ⟨s, .move, r, t⟩ :=
    Protocol.call_of (p := cursorProtocol c cursor xs o) hrun
  by_cases hstate : d.state = .exhausted
  · obtain rfl := hend hstate
    rw [hcall (exec_moveNext hd (hn ▸ exec_advance_exhausted hd hstate (n + 1)))]
    exact ⟨m, .ended rfl rfl (by rw [hxs, List.append_nil]), h⟩
  cases rest with
  | nil =>
      rw [hcall (exec_moveNext hd (hn ▸ exec_advance_nil hd hstate (hopen hstate) n))]
      exact ⟨m, .ended rfl rfl (by rw [hxs, List.append_nil]), h.put_cursor hxs (absurd rfl) fun _ => rfl⟩
  | cons x rest =>
      rw [hcall (exec_moveNext hd (hn ▸ exec_advance_cons hd hstate (hopen hstate) n))]
      have hsplit : xs = (m ++ [x]) ++ rest := by
        rw [hxs, List.append_assoc]
        rfl
      have hafter := h.put_cursor (d := { d with state := .positioned, current := x, walk := .items rest })
        hsplit (fun _ => rfl) nofun
      exact ⟨m ++ [x],
        .moved rfl rfl (exec_current (store_put hd _) rfl) ⟨rest, hsplit.symm⟩ hafter.lists, hafter⟩

theorem Taken.quiet (hq : (cursorProtocol c cursor xs o).quiet s t) (h : Taken c cursor xs o s m) :
    Taken c cursor xs o t m := by
  obtain ⟨hsteps, hstored, hcursor, hlists⟩ := hq
  obtain ⟨p, hp, hcollection⟩ := h.collection
  obtain ⟨d, rest, hd, hrest⟩ := h.cursor
  exact ⟨hsteps ▸ h.steps, ⟨p, hstored.trans hp, hcollection⟩, ⟨d, rest, hcursor.trans hd, hrest⟩,
    hlists h.lists⟩

theorem Taken.follows {calls : List (Invocation Act)} (hr : (cursorProtocol c cursor xs o).Runs s calls t)
    (h : Taken c cursor xs o s m) : ∃ m', Follows (Moves cursor xs o) m calls m' ∧ Taken c cursor xs o t m' := by
  refine hr.follows (fun hq h => h.quiet hq) (fun {s m act} _ h => ?_) h
  cases act with
  | change op => exact ⟨m, .changed rfl, h.change op⟩
  | move => exact h.move

/-- A cursor gives exactly the elements that are there when it is taken. -/
def Enumerates (s : Session) (c : Nat) (o : Object) : Prop :=
  ∃ cursor t xs, s.exec (Methods.call (.ref c) "GetEnumerator" []) = (.ok (.ref cursor), t) ∧ Lists t xs o ∧
    ∀ calls u, (cursorProtocol c cursor xs o).Runs t calls u →
      ∃ m, Follows (Moves cursor xs o) [] calls m ∧ m <+: xs

theorem enumerates_set {members : Table Value Value} (hs : 2 ≤ s.steps)
    (hc : s.store[c]? = some (.hashSet members)) :
    s.exec (Methods.call (.ref c) "GetEnumerator" []) = (.ok (.ref s.store.size),
      s.grow (.cursor (.start .hashSet (.items members.values)))) := by
  obtain ⟨n, hn⟩ : ∃ n, s.steps = n + 1 := ⟨s.steps - 1, by omega⟩
  have hobject : s.object? (.ref c) = some (.hashSet members) := hc
  have hopen : s.exec (openWalk s.steps (.ref c)) = (.ok (.items members.values), s) := by
    rw [hn, openWalk, exec_get_bind]
    simp only [hobject]
    rfl
  have hkind : s.cursorKind (.ref c) = .hashSet := by simp only [cursorKind, hobject]
  have hm : (Methods.of c (.hashSet members)).lookup "GetEnumerator" =
      some (.nullary (newCursor (.ref c))) := rfl
  refine (exec_call hc hm []).trans ?_
  change s.exec (newCursor (.ref c)) = _
  rw [newCursor, exec_get_bind, exec_bind_ok hopen, hkind, exec_alloc]

theorem enumerates (hs : 2 ≤ s.steps) (hc : s.store[c]? = some o) (ho : IsCollection o) : Enumerates s c o := by
  have hstart {t : Session} (kind : CursorKind) {xs : List Value} (hext : Extends s t) (hlists : Lists t xs o) :
      Taken c t.store.size xs o (t.grow (.cursor (.start kind (.items xs)))) [] := by
    refine ⟨hext.steps ▸ hs, ⟨o, store_grow_of_some (hext.kept hc) _, ho⟩,
      ⟨_, xs, store_grow t _, rfl, fun _ => rfl, nofun⟩, ?_⟩
    refine hlists.kept fun x k v hx => ?_
    obtain ⟨id, rfl, hid⟩ := exists_ref hx
    exact store_grow_of_some hid _
  have hall {t : Session} {kind : CursorKind} {xs : List Value} (hext : Extends s t) (hlists : Lists t xs o)
      (hrun : s.exec (Methods.call (.ref c) "GetEnumerator" []) =
        (.ok (.ref t.store.size), t.grow (.cursor (.start kind (.items xs))))) : Enumerates s c o := by
    have htaken := hstart kind hext hlists
    refine ⟨_, _, xs, hrun, htaken.lists, fun calls u hr => ?_⟩
    obtain ⟨m, hm, hend⟩ := Taken.follows hr htaken
    obtain ⟨d, rest, -, hxs, -⟩ := hend.cursor
    exact ⟨m, hm, rest, hxs.symm⟩
  cases ho with
  | set members => exact hall (Extends.refl s) rfl (enumerates_set hs hc)
  | dictionary es =>
      obtain ⟨ps, t, ht, hext, hps⟩ := Dictionary.exec_newCursor hs hc
      have hm : (Methods.of c (.dictionary es)).lookup "GetEnumerator" =
          some (.nullary (newCursor (.ref c))) := rfl
      exact hall hext hps ((exec_call hc hm []).trans ht)

def Contains (s : Session) (list : Nat) (xs : List Value) : Prop :=
  ∃ kind a, s.store[list]? = some (.list kind a) ∧ s.store[a]? = some (.array xs)

def Listed (dict list : Nat) (s : Session) (m : Entries × List Value) : Prop :=
  s.store[dict]? = some (.dictionary m.1) ∧ Contains s list m.2

/-- Changes of a dictionary and of a list; in between, anything may happen that touches neither. -/
def listProtocol (dict list : Nat) : Protocol (Change ⊕ Edit) where
  run := Sum.elim (Change.run dict) (Edit.run list)
  allowed _ _ := True
  quiet s t := t.store[dict]? = s.store[dict]? ∧ t.store[list]? = s.store[list]? ∧
    ∀ kind a, s.store[list]? = some (.list kind a) → t.store[a]? = s.store[a]?

variable {dict list : Nat} {ys : List Value}

theorem Contains.kept (h : Contains s list xs) (hst : ∀ {id : Nat} {p : Object}, s.store[id]? = some p →
    (∀ es, p ≠ .dictionary es) → t.store[id]? = some p) : Contains t list xs := by
  obtain ⟨kind, a, hlist, harray⟩ := h
  exact ⟨kind, a, hst hlist (by simp), hst harray (by simp)⟩

theorem Listed.change (h : Listed dict list s (es, xs)) (op : Change) :
    ∃ es', Listed dict list (s.exec (op.run dict)).2 (es', xs) := by
  obtain ⟨hdict, hlist⟩ := h
  have hkept (es' : Entries) : Contains (s.put dict (.dictionary es')) list xs := by
    refine hlist.kept fun {id p} hp hne => (store_put_ne ?_ _).trans hp
    rintro rfl
    exact hne _ (Option.some.inj (hp.symm.trans hdict))
  obtain ht | ⟨es', ht⟩ := change_dictionary hdict op
  · rw [ht]
    exact ⟨es, hdict, hlist⟩
  · rw [ht]
    exact ⟨es', store_put hdict _, hkept es'⟩

theorem drift_in_place {moves : Bool} {kind : ListKind} {a : Nat} (hdict : s.store[dict]? = some (.dictionary es))
    (hlist : s.store[list]? = some (.list kind a)) (harray : s.store[a]? = some (.array xs))
    (hd : Drift moves (some a) s t) :
    ∃ ys, t.store[dict]? = some (.dictionary es) ∧ t.store[list]? = some (.list kind a) ∧
      t.store[a]? = some (.array ys) := by
  obtain ⟨ys, hys, -⟩ := hd.array_kept harray
  refine ⟨ys, ?_, ?_, hys⟩
  · obtain ⟨p, hp, hdrift⟩ := hd.kept hdict
    cases hdrift with
    | same => exact hp
    | array hf =>
        obtain rfl : a = dict := by simpa using hf
        cases harray.symm.trans hdict
  · obtain ⟨p, hp, hdrift⟩ := hd.kept hlist
    cases hdrift with
    | same => exact hp
    | array hf =>
        obtain rfl : a = list := by simpa using hf
        cases harray.symm.trans hlist

theorem Listed.exchange {kind : ListKind} {a : Nat} (hdict : s.store[dict]? = some (.dictionary es))
    (hlist : s.store[list]? = some (.list kind a)) (ys : List Value) :
    Listed dict list ((s.grow (.array ys)).put list (.list kind s.store.size)) (es, ys) := by
  have hne : dict ≠ list := by
    rintro rfl
    cases hdict.symm.trans hlist
  have hlt : list < s.store.size := (Array.getElem?_eq_some_iff.mp hlist).1
  refine ⟨(store_put_ne hne _).trans (store_grow_of_some hdict _), kind, s.store.size,
    store_put (store_grow_of_some hlist _) _, ?_⟩
  exact (store_put_ne (Nat.ne_of_gt hlt) _).trans (store_grow s _)

theorem exec_assign {kind : ListKind} {a : Nat} (hlist : s.store[list]? = some (.list kind a)) (i v : Value) :
    s.exec ((Edit.assign i v).run list) = s.exec ((LiveView.Op.setItem i v).body list kind a) := by
  have hset : s.exec (setItemOf (.ref list) i v) = s.exec (do
      assign a (.array (← ofResult (Sequence.set (s.items a) (← needInt i) v)))) := by
    rw [setItemOf, exec_get_bind]
    simp only [hlist]
  rw [Edit.run, exec_opSetItem, exec_bind, hset, LiveView.Op.body, needInt]
  cases i.asInt? with
  | none => rfl
  | some n =>
      have hget : s.exec get = (.ok s, s) := rfl
      simp only [exec_bind, exec_pure, exec_ofResult, Collections.update, hget]
      cases Sequence.set (s.items a) n v <;> rfl

theorem Listed.edit (h : Listed dict list s (es, xs)) (op : Edit) :
    ∃ ys, Listed dict list (s.exec (op.run list)).2 (es, ys) := by
  obtain ⟨hdict, kind, a, hlist, harray⟩ := h
  cases op with
  | clear =>
      have hrun : (s.exec (Edit.clear.run list)).2 =
          (s.grow (.array [])).put list (.list kind s.store.size) := by
        rw [Edit.run, exec_call hlist rfl]
        rfl
      exact ⟨[], hrun ▸ Listed.exchange hdict hlist []⟩
  | assign i v =>
      rw [exec_assign hlist]
      have hop (p : Value) : LiveView.Op.setItem i v ≠ .removeAll p := nofun
      obtain ⟨ys, hdict', hlist', harray'⟩ :=
        drift_in_place hdict hlist harray (LiveView.within_body list a kind hop s)
      exact ⟨ys, hdict', kind, a, hlist', harray'⟩
  | change op =>
      rw [Edit.run, LiveView.exec_run hlist]
      by_cases hop : ∀ p, op ≠ .removeAll p
      · obtain ⟨ys, hdict', hlist', harray'⟩ :=
          drift_in_place hdict hlist harray (LiveView.within_body list a kind hop s)
        exact ⟨ys, hdict', kind, a, hlist', harray'⟩
      · obtain ⟨p, rfl⟩ : ∃ p, op = .removeAll p := by simpa using hop
        obtain ⟨u, hd, hrun⟩ := LiveView.exec_removeAll list a kind p s
        obtain ⟨ys, hdict', hlist', harray'⟩ := drift_in_place hdict hlist harray hd.freed
        obtain ⟨f, hrun⟩ | ⟨k, kept, hrun⟩ := hrun
        · exact ⟨ys, by rw [LiveView.Op.body, hrun]; exact ⟨hdict', kind, a, hlist', harray'⟩⟩
        · exact ⟨kept, by rw [LiveView.Op.body, hrun]; exact Listed.exchange hdict' hlist' kept⟩

theorem Listed.quiet {m : Entries × List Value} (hq : (listProtocol dict list).quiet s t)
    (h : Listed dict list s m) : Listed dict list t m := by
  obtain ⟨hdict, kind, a, hlist, harray⟩ := h
  obtain ⟨hdict', hlist', harray'⟩ := hq
  exact ⟨hdict'.trans hdict, kind, a, hlist'.trans hlist, (harray' kind a hlist).trans harray⟩

/-- A property gives a new list of some elements, and from then on neither it nor the dictionary sees what is
changed in the other. -/
def Gives (s : Session) (dict : Nat) (es : Entries) (name : String) (xs : List Value) : Prop :=
  ∃ list t, s.exec (Properties.read (.ref dict) name) = (.ok (.ref list), t) ∧ Listed dict list t (es, xs) ∧
    ∀ calls u, (listProtocol dict list).Runs t calls u →
      ∃ m, Follows (Apart (Listed dict list)) (es, xs) calls m ∧ Listed dict list u m

theorem gives {name : String} {kind : ListKind} (hdict : s.store[dict]? = some (.dictionary es))
    (hrun : s.exec (Properties.read (.ref dict) name) = s.exec (newListOf kind xs)) :
    Gives s dict es name xs := by
  have hnew : s.exec (newListOf kind xs) = (.ok (.ref (s.grow (.array xs)).store.size),
      (s.grow (.array xs)).grow (.list kind s.store.size)) := rfl
  have hlisted : Listed dict (s.grow (.array xs)).store.size
      ((s.grow (.array xs)).grow (.list kind s.store.size)) (es, xs) :=
    ⟨store_grow_of_some (store_grow_of_some hdict _) _, kind, s.store.size, store_grow _ _,
      store_grow_of_some (store_grow s _) _⟩
  refine ⟨_, _, hrun.trans hnew, hlisted, fun calls u hr => ?_⟩
  exact follows_apart (fun hq h => h.quiet hq) (fun op h => h.change op) (fun op h => h.edit op) hr hlisted

def Both (dict copy : Nat) (s : Session) (m : Entries × Entries) : Prop :=
  s.store[dict]? = some (.dictionary m.1) ∧ s.store[copy]? = some (.dictionary m.2)

/-- Changes of two dictionaries; in between, anything may happen that touches neither. -/
def copyProtocol (dict copy : Nat) : Protocol (Change ⊕ Change) where
  run := Sum.elim (Change.run dict) (Change.run copy)
  allowed _ _ := True
  quiet s t := t.store[dict]? = s.store[dict]? ∧ t.store[copy]? = s.store[copy]?

theorem change_both {a b : Nat} {es es' : Entries} (ha : s.store[a]? = some (.dictionary es))
    (hb : s.store[b]? = some (.dictionary es')) (hne : b ≠ a) (op : Change) :
    ∃ es'', (s.exec (op.run a)).2.store[a]? = some (.dictionary es'') ∧
      (s.exec (op.run a)).2.store[b]? = some (.dictionary es') := by
  obtain ht | ⟨es'', ht⟩ := change_dictionary ha op
  · rw [ht]
    exact ⟨es, ha, hb⟩
  · rw [ht]
    exact ⟨es'', store_put ha _, (store_put_ne hne _).trans hb⟩

/-- A dictionary that is made from another one has its entries, and from then on neither sees what is changed in
the other. -/
def Copies (s : Session) (dict : Nat) (es : Entries) : Prop :=
  ∃ copy t, s.exec (Types.construct "Dictionary" [.ref dict]) = (.ok (.ref copy), t) ∧
    Both dict copy t (es, es) ∧ ∀ calls u, (copyProtocol dict copy).Runs t calls u →
      ∃ m, Follows (Apart (Both dict copy)) (es, es) calls m ∧ Both dict copy u m

theorem copies (hdict : s.store[dict]? = some (.dictionary es)) : Copies s dict es := by
  have hnew : s.exec (Types.construct "Dictionary" [.ref dict]) =
      (.ok (.ref s.store.size), s.grow (.dictionary es)) := by
    have hobject : s.object? (.ref dict) = some (.dictionary es) := hdict
    have hcall : s.exec (Types.construct "Dictionary" [.ref dict]) =
        s.exec (Collections.newDictionary (.ref dict)) := rfl
    rw [hcall]
    change s.exec (get >>= fun s : Session => _) = _
    rw [exec_get_bind]
    simp only [hobject, exec_alloc]
  have hne : dict ≠ s.store.size := Nat.ne_of_lt (Array.getElem?_eq_some_iff.mp hdict).1
  have hboth : Both dict s.store.size (s.grow (.dictionary es)) (es, es) :=
    ⟨store_grow_of_some hdict _, store_grow s _⟩
  refine ⟨_, _, hnew, hboth, fun calls u hr => ?_⟩
  refine follows_apart ?_ (fun op h => change_both h.1 h.2 hne.symm op) ?_ hr hboth
  · rintro s t m ⟨hdict, hcopy⟩ ⟨h, h'⟩
    exact ⟨hdict.trans h, hcopy.trans h'⟩
  · rintro s es es' op ⟨h, h'⟩
    obtain ⟨es'', hcopy, hdict⟩ := change_both h' h hne op
    exact ⟨es'', hdict, hcopy⟩

/-- Whatever is taken from a set or a dictionary is its own. A cursor gives exactly the elements that are there when
it is taken, each once, whatever the changes between its moves; the collections of keys and of values, and a copy,
neither see later changes of the dictionary nor change it. -/
theorem snapshots_apart (hs : 2 ≤ s.steps) (hc : s.store[c]? = some o) (ho : IsCollection o) :
    Enumerates s c o ∧ ∀ es, o = .dictionary es →
      Gives s c es "Keys" (es.values.map (·.1)) ∧ Gives s c es "Values" (es.values.map (·.2)) ∧
        Copies s c es := by
  refine ⟨enumerates hs hc ho, ?_⟩
  rintro es rfl
  exact ⟨gives hc (Dictionary.exec_keys hc), gives hc (Dictionary.exec_values hc), copies hc⟩

def filled : Session :=
  let t := ((start 0).exec (Types.construct "Dictionary" [])).2
  (t.exec (Methods.call (.ref 13) "Add" [.int 1, .text ['a']])).2

def entries : Entries := ⟨[(.keyed (filled.hash (.int 1)) (.int 1), (.int 1, .text ['a']))]⟩

def taken : Session := (filled.exec (Methods.call (.ref 13) "GetEnumerator" [])).2

def cleared : Invocation Act := (cursorProtocol 13 15 [] (.dictionary entries)).call taken (.change .clear)

def next : Invocation Act := (cursorProtocol 13 15 [] (.dictionary entries)).call cleared.after .move

/-- A cursor gives the pair of a key that is gone. -/
theorem snapshots_apart_cleared : 2 ≤ filled.steps ∧ filled.store[13]? = some (.dictionary entries) ∧
    IsCollection (.dictionary entries) ∧ next.outcome = .ok (.bool true) ∧
    ∃ xs m, Lists taken xs (.dictionary entries) ∧
      Follows (Moves 15 xs (.dictionary entries)) [] [cleared, next] m ∧ m <+: xs := by
  have hc : filled.store[13]? = some (.dictionary entries) := rfl
  have hget : filled.exec (Methods.call (.ref 13) "GetEnumerator" []) = (.ok (.ref 15), taken) := rfl
  obtain ⟨⟨cursor, t, xs, hcursor, hlists, hruns⟩, -⟩ :=
    snapshots_apart (s := filled) (by decide) hc (.dictionary entries)
  cases hget.symm.trans hcursor
  have hr : (cursorProtocol 13 15 xs (.dictionary entries)).Runs taken [cleared, next] next.after :=
    .call ⟨rfl, rfl, rfl, id⟩ trivial (.call ⟨rfl, rfl, rfl, id⟩ trivial (.nil ⟨rfl, rfl, rfl, id⟩))
  obtain ⟨m, hm, hprefix⟩ := hruns _ _ hr
  exact ⟨by decide, hc, .dictionary entries, rfl, xs, m, hlists, hm, hprefix⟩

end BaseLib.Snapshot
