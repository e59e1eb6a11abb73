import BaseLib.Library.Types
import BaseLib.Proofs.Session.Delivery
import BaseLib.Proofs.Session.Keys
import BaseLib.Proofs.Value.Display

namespace BaseLib.Dictionary

open Library Session
open Text (plain)

/-- What a dictionary binds: for the content of a key, the key that is stored and the value. -/
abbrev Bindings := Finmap fun _ : Content => Value × Value

abbrev Entries := Table Value (Value × Value)

variable {s t : Session} {es : Entries} {m : Bindings} {k v : Value}

structure IsTable (s : Session) (es : Entries) (m : Bindings) : Prop where
  isMap : es.IsMap s.IsKeyToken s.tokenContent m
  token : ∀ e ∈ es.entries, e.1 = s.keying.token e.2.1
  isKey : ∀ e ∈ es.entries, s.IsKey e.2.1

def Keeps (s t : Session) (es : Entries) : Prop :=
  ∀ e ∈ es.entries, s.IsKey e.2.1 → t.IsKey e.2.1 ∧ t.content e.2.1 = s.content e.2.1

theorem keeps_of_similar (hst : Session.Similar s t) (es : Entries) : Keeps s t es :=
  fun _ _ hk => ⟨hk.similar hst, hk.content_similar hst⟩

theorem IsTable.keeps (h : IsTable s es m) (hk : Keeps s t es) : IsTable t es m := by
  have hk := fun e he => hk e he (h.isKey e he)
  have htoken : ∀ e ∈ es.entries, e.1 = t.keying.token e.2.1 := by
    intro e he
    rw [h.token e he]
    exact Session.token_of_content (h.isKey e he) (hk e he).1 (hk e he).2
  refine ⟨⟨fun e he => ⟨_, (hk e he).1, htoken e he⟩, ?_⟩, htoken, fun e he => (hk e he).1⟩
  rw [h.isMap.entries]
  congr 1
  refine List.map_congr_left fun e he => ?_
  rw [htoken e he, t.tokenContent_token, (hk e he).2, ← s.tokenContent_token, ← h.token e he,
    htoken e he]

theorem empty_isTable (s : Session) : IsTable s .empty ∅ :=
  ⟨Table.empty_isMap, by simp [Table.empty], by simp [Table.empty]⟩

theorem IsTable.get?_eq (h : IsTable s es m) (hk : s.IsKey k) :
    es.get? s.keying k = m.lookup (s.content k) := by
  rw [h.isMap.get?_eq s.classifies hk.isKeyToken, s.tokenContent_token]

theorem IsTable.contains_eq (h : IsTable s es m) (hk : s.IsKey k) :
    es.contains s.keying k = decide (s.content k ∈ m) := by
  have hc := h.isMap.contains_iff s.classifies hk.isKeyToken
  rw [s.tokenContent_token] at hc
  exact Bool.eq_iff_iff.mpr (hc.trans decide_eq_true_iff.symm)

theorem IsTable.content_eq (h : IsTable s es m) {c : Content} {b : Value × Value}
    (hb : m.lookup c = some b) : s.IsKey b.1 ∧ s.content b.1 = c := by
  rw [Finmap.lookup_eq_some_iff, h.isMap.entries] at hb
  obtain ⟨e, he, heq⟩ := List.mem_map.mp (Multiset.mem_coe.mp hb)
  cases heq
  exact ⟨h.isKey e he, by rw [h.token e he, s.tokenContent_token]⟩

def bind (m : Bindings) (c : Content) (k v : Value) : Bindings :=
  m.insert c (((m.lookup c).map (·.1)).getD k, v)

theorem IsTable.bindKey (h : IsTable s es m) (hk : s.IsKey k) :
    IsTable s (bindKey s k v es) (bind m (s.content k) k v) := by
  rw [BaseLib.bindKey, bind]
  have hmap := h.isMap.set (v := (((m.lookup (s.content k)).map (·.1)).getD k, v)) s.classifies
    hk.isKeyToken
  rw [s.tokenContent_token] at hmap
  have hmem (e : Token Value × (Value × Value)) (he : e ∈ (es.set s.keying k
      (((es.get? s.keying k).map (·.1)).getD k, v)).entries) :
      e.1 = s.keying.token e.2.1 ∧ s.IsKey e.2.1 := by
    rcases Table.mem_set he with he | ⟨e', he', hg, rfl⟩ | ⟨hg, rfl⟩
    · exact ⟨h.token e he, h.isKey e he⟩
    · simpa [hg] using ⟨h.token e' he', h.isKey e' he'⟩
    · simpa [hg] using hk
  rw [h.get?_eq hk] at hmem ⊢
  exact ⟨hmap, fun e he => (hmem e he).1, fun e he => (hmem e he).2⟩

theorem IsTable.add?_eq (h : IsTable s es m) (hk : s.IsKey k) :
    es.add? s.keying k (k, v) =
      if s.content k ∈ m then none else some ⟨es.entries ++ [(s.keying.token k, (k, v))]⟩ := by
  rw [h.isMap.add?_eq s.classifies hk.isKeyToken, s.tokenContent_token]

theorem IsTable.append (h : IsTable s es m) (hk : s.IsKey k) (hm : s.content k ∉ m) :
    IsTable s ⟨es.entries ++ [(s.keying.token k, (k, v))]⟩ (m.insert (s.content k) (k, v)) := by
  have hmap := h.isMap.append (v := (k, v)) hk.isKeyToken (by rwa [s.tokenContent_token])
  rw [s.tokenContent_token] at hmap
  refine ⟨hmap, fun e he => ?_, fun e he => ?_⟩
  · rcases List.mem_append.mp he with he | he
    · exact h.token e he
    · rw [List.mem_singleton.mp he]
  · rcases List.mem_append.mp he with he | he
    · exact h.isKey e he
    · rwa [List.mem_singleton.mp he]

theorem IsTable.erase (h : IsTable s es m) (hk : s.IsKey k) :
    IsTable s (es.erase s.keying k) (m.erase (s.content k)) := by
  have hmap := h.isMap.erase s.classifies hk.isKeyToken
  rw [s.tokenContent_token] at hmap
  exact ⟨hmap, fun e he => h.token e (List.mem_of_mem_eraseP he),
    fun e he => h.isKey e (List.mem_of_mem_eraseP he)⟩

inductive Op
  | setItem (k v : Value)
  | add (k v : Value)
  | remove (k : Value)
  | clear
  | getItem (k : Value)
  | tryGetValue (k holder : Value)
  | containsKey (k : Value)
  | containsValue (v : Value)
  | count
  | keys
  | values
  | getEnumerator

namespace Op

def run (dict : Nat) : Op → Action Value
  | setItem k v => Methods.call (.ref dict) "set_Item" [k, v]
  | add k v => Methods.call (.ref dict) "Add" [k, v]
  | remove k => Methods.call (.ref dict) "Remove" [k]
  | clear => Methods.call (.ref dict) "Clear" []
  | getItem k => Methods.call (.ref dict) "get_Item" [k]
  | tryGetValue k holder => Methods.call (.ref dict) "TryGetValue" [k, holder]
  | containsKey k => Methods.call (.ref dict) "ContainsKey" [k]
  | containsValue v => Methods.call (.ref dict) "ContainsValue" [v]
  | count => Properties.read (.ref dict) "Count"
  | keys => Properties.read (.ref dict) "Keys"
  | values => Properties.read (.ref dict) "Values"
  | getEnumerator => Methods.call (.ref dict) "GetEnumerator" []

/-- Keys have no layers of `nullable`, and a holder is an array with a place for what it holds. -/
def Allowed (s : Session) : Op → Prop
  | setItem k _ | add k _ | remove k | getItem k | containsKey k => s.IsKey k
  | tryGetValue k holder =>
    s.IsKey k ∧ ∃ id x xs, holder = .ref id ∧ s.store[id]? = some (.array (x :: xs))
  | _ => True

def next (s : Session) (m : Bindings) : Op → Bindings
  | setItem k v => bind m (s.content k) k v
  | add k v => if s.content k ∈ m then m else m.insert (s.content k) (k, v)
  | remove k => m.erase (s.content k)
  | clear => ∅
  | _ => m

end Op

/-- An operation with the sessions before and after it and with what it answers. -/
structure Event where
  before : Session
  op : Op
  outcome : Except Fault Value
  after : Session

namespace Event

def Gives (e : Event) (v : Value) : Prop := e.outcome = .ok v

def Reads (e : Event) (v : Value) : Prop := e.outcome = .ok v ∧ e.after = e.before

/-- The operation is refused because of a key and changes nothing. The message shows the key; a key that the host
cannot write is refused by the host instead. -/
def Refuses (e : Event) (kind : ErrorKind) (before after : String) (k : Value) : Prop :=
  e.after = e.before ∧
    ((e.before.view k).Overlong ∧ e.outcome = .error (.misuse .badValue) ∨
      ¬(e.before.view k).Overlong ∧ ∃ (f : Failure) (shown : List Nat), e.outcome = .error (.failure f) ∧
        f.kind = kind ∧ e.before.display k = .ok shown ∧ f.message = plain before ++ shown ++ plain after)

/-- The operation gives a new list of a kind with these elements in any order. -/
def Lists (e : Event) (kind : ListKind) (xs : Multiset Value) : Prop :=
  ∃ id storage, e.outcome = .ok (.ref id) ∧ e.after.store[id]? = some (.list kind storage) ∧
    (e.after.items storage : Multiset Value) = xs

/-- The operation gives a cursor that delivers pairs for these bindings in any order. -/
def Enumerates (e : Event) (bs : Multiset (Value × Value)) : Prop :=
  ∃ (id : Nat) (ps : List Value) (l : List (Value × Value)) (t : Session),
    e.outcome = .ok (.ref id) ∧ Delivers id e.after ps t ∧
      List.Forall₂ (fun p b => t.object? p = some (.pair b.1 b.2)) ps l ∧
      (l : Multiset (Value × Value)) = bs

/-- The operation answers what the map answers. -/
def Agrees (e : Event) (m : Bindings) : Prop :=
  let s := e.before
  match e.op with
  | .setItem _ _ | .clear => e.Gives .null
  | .add k _ =>
    if s.content k ∈ m then
      e.Refuses .invalidOperation "An item with the same key has already been added. Key: " "" k
    else e.Gives .null
  | .remove k => e.Gives (.bool (decide (s.content k ∈ m)))
  | .getItem k =>
    match m.lookup (s.content k) with
    | some b => e.Reads b.2
    | none =>
      e.Refuses .keyNotFound "The given key '" "' was not present in the dictionary." k
  | .tryGetValue k holder =>
    e.Gives (.bool (decide (s.content k ∈ m))) ∧
      e.after.exec (readHolder holder) =
        (.ok (((m.lookup (s.content k)).map (·.2)).getD .null), e.after)
  | .containsKey k => e.Reads (.bool (decide (s.content k ∈ m)))
  | .containsValue v =>
    ∃ b, e.Reads (.bool b) ∧ (b = true ↔ ∃ c x, m.lookup c = some x ∧ s.Equal x.2 v)
  | .count => e.Reads (.int m.keys.card)
  | .keys => e.Lists .keys (m.entries.map (·.2.1))
  | .values => e.Lists .values (m.entries.map (·.2.2))
  | .getEnumerator => e.Enumerates (m.entries.map (·.2))

end Event

structure IsDictionary (s : Session) (dict : Nat) (m : Bindings) : Prop where
  steps : 2 ≤ s.steps
  table : ∃ es, s.store[dict]? = some (.dictionary es) ∧ IsTable s es m

/-- Between two operations anything may happen that changes neither the dictionary nor its keys. -/
structure Quiet (dict : Nat) (s t : Session) : Prop where
  steps : t.steps = s.steps
  stored : t.store[dict]? = s.store[dict]?
  keeps : ∀ {es : Entries}, s.store[dict]? = some (.dictionary es) → Keeps s t es

/-- A run of operations on a dictionary, one after the other, with quiet in between. -/
inductive Run (dict : Nat) : Session → List Event → Session → Prop
  | nil {s t : Session} (h : Quiet dict s t) : Run dict s [] t
  | cons {s t : Session} {e : Event} {events : List Event} (h : Quiet dict s e.before)
      (ha : e.op.Allowed e.before) (he : e.before.exec (e.op.run dict) = (e.outcome, e.after))
      (hr : Run dict e.after events t) : Run dict s (e :: events) t

def BindsClasses (s : Session) (m : Bindings) : Prop :=
  ∀ c b, m.lookup c = some b → ∀ k, s.IsKey k → (s.Equal b.1 k ↔ s.content k = c)

def after (m : Bindings) (events : List Event) : Bindings :=
  events.foldl (fun m e => e.op.next e.before m) m

variable {dict : Nat}

theorem IsDictionary.quiet (h : IsDictionary s dict m) (hq : Quiet dict s t) :
    IsDictionary t dict m := by
  obtain ⟨es, hes, htable⟩ := h.table
  exact ⟨hq.steps ▸ h.steps, es, hq.stored.trans hes, htable.keeps (hq.keeps hes)⟩

theorem IsDictionary.put {es' : Entries} {m' : Bindings} (h : IsDictionary s dict m)
    (h' : IsTable s es' m') : IsDictionary (s.put dict (.dictionary es')) dict m' := by
  obtain ⟨es, hes, -⟩ := h.table
  have hst : Similar s (s.put dict (.dictionary es')) :=
    similar_put hes _ rfl (by simp [Object.whole?])
  exact ⟨h.steps, es', store_put hes _, h'.keeps (keeps_of_similar hst es')⟩

theorem IsDictionary.extends (h : IsDictionary s dict m) (hst : Extends s t) :
    IsDictionary t dict m := by
  obtain ⟨es, hes, htable⟩ := h.table
  exact ⟨hst.steps ▸ h.steps, es, hst.kept hes, htable.keeps (keeps_of_similar hst.similar es)⟩

theorem setItem_step (h : IsDictionary s dict m) (hk : s.IsKey k) :
    ∃ t, s.exec ((Op.setItem k v).run dict) = (.ok .null, t) ∧
      IsDictionary t dict (bind m (s.content k) k v) := by
  obtain ⟨es, hes, htable⟩ := h.table
  refine ⟨_, (exec_call hes rfl _).trans ?_, h.put (htable.bindKey (v := v) hk)⟩
  rfl

def refused (s : Session) (k : Value) (cause : List Nat → Failure) : Fault :=
  match s.display k with
  | .ok shown => .failure (cause shown)
  | .error fault => fault

theorem exec_refuse {α : Type} (s : Session) (k : Value) (cause : List Nat → Failure) :
    s.exec (do fail (cause (← displayOf k)) : Action α) = (.error (refused s k cause), s) := by
  rw [exec_bind, exec_displayOf, refused]
  cases s.display k <;> rfl

theorem Event.refuses_of_refused {e : Event} {cause : List Nat → Failure} {kind : ErrorKind} {before after : String}
    (hsame : e.after = e.before) (houtcome : e.outcome = .error (refused e.before k cause))
    (hkind : ∀ shown, (cause shown).kind = kind)
    (hmessage : ∀ shown, (cause shown).message = plain before ++ shown ++ plain after) :
    e.Refuses kind before after k := by
  refine ⟨hsame, ?_⟩
  have hdisplay : e.before.display k = (e.before.view k).display := rfl
  obtain ⟨hlong, hrefused⟩ | ⟨hshort, shown, hshown⟩ := Datum.display_refused (e.before.view k)
  · refine .inl ⟨hlong, houtcome.trans ?_⟩
    rw [refused, hdisplay, hrefused]
  · refine .inr ⟨hshort, cause shown, shown, houtcome.trans ?_, hkind shown, hdisplay.trans hshown, hmessage shown⟩
    rw [refused, hdisplay, hshown]

theorem exec_addBinding (h : IsTable s es m) (hk : s.IsKey k) :
    s.exec (Collections.addBinding es k v) =
      if s.content k ∈ m then (.error (refused s k .keyTaken), s)
      else (.ok ⟨es.entries ++ [(s.keying.token k, (k, v))]⟩, s) := by
  rw [Collections.addBinding, exec_get_bind, h.add?_eq hk]
  by_cases hm : s.content k ∈ m
  · simp only [if_pos hm, exec_refuse]
  · simp only [if_neg hm, exec_pure]

theorem add_step_taken (h : IsDictionary s dict m) (hk : s.IsKey k) (hm : s.content k ∈ m) :
    s.exec ((Op.add k v).run dict) = (.error (refused s k .keyTaken), s) := by
  obtain ⟨es, hes, htable⟩ := h.table
  have hadd := exec_addBinding (v := v) htable hk
  rw [if_pos hm] at hadd
  exact (exec_call hes rfl _).trans (exec_bind_error hadd _)

theorem add_step_new (h : IsDictionary s dict m) (hk : s.IsKey k) (hm : s.content k ∉ m) :
    ∃ t, s.exec ((Op.add k v).run dict) = (.ok .null, t) ∧
      IsDictionary t dict (m.insert (s.content k) (k, v)) := by
  obtain ⟨es, hes, htable⟩ := h.table
  have hadd := exec_addBinding (v := v) htable hk
  rw [if_neg hm] at hadd
  refine ⟨_, ?_, h.put (htable.append (v := v) hk hm)⟩
  exact (exec_call hes rfl _).trans (exec_bind_ok hadd _)

theorem remove_step (h : IsDictionary s dict m) (hk : s.IsKey k) :
    ∃ t, s.exec ((Op.remove k).run dict) = (.ok (.bool (decide (s.content k ∈ m))), t) ∧
      IsDictionary t dict (m.erase (s.content k)) := by
  obtain ⟨es, hes, htable⟩ := h.table
  rw [← htable.contains_eq hk]
  refine ⟨_, (exec_call hes rfl _).trans ?_, h.put (htable.erase hk)⟩
  rfl

theorem clear_step (h : IsDictionary s dict m) :
    ∃ t, s.exec (Op.clear.run dict) = (.ok .null, t) ∧ IsDictionary t dict ∅ := by
  obtain ⟨es, hes, htable⟩ := h.table
  refine ⟨_, (exec_call hes rfl _).trans ?_, h.put (empty_isTable s)⟩
  rfl

theorem getItem_step (h : IsDictionary s dict m) (hk : s.IsKey k) :
    s.exec ((Op.getItem k).run dict) =
      match m.lookup (s.content k) with
      | some b => (.ok b.2, s)
      | none => (.error (refused s k .keyMissing), s) := by
  obtain ⟨es, hes, htable⟩ := h.table
  rw [← htable.get?_eq hk]
  refine (exec_call hes rfl _).trans ?_
  show s.exec (dictionaryItem es k) = _
  rw [dictionaryItem, exec_get_bind]
  cases es.get? s.keying k with
  | none => exact exec_refuse s k .keyMissing
  | some b => rfl

theorem isSome_lookup (m : Bindings) (c : Content) : (m.lookup c).isSome = decide (c ∈ m) :=
  Bool.eq_iff_iff.mpr (Finmap.lookup_isSome.trans decide_eq_true_iff.symm)

theorem exec_tryGetValue {id : Nat} {x : Value} {xs : List Value} (h : IsTable s es m)
    (hk : s.IsKey k) (hid : s.store[id]? = some (.array (x :: xs))) :
    s.exec (Collections.tryGetValue es k (.ref id)) =
      (.ok (.bool (decide (s.content k ∈ m))),
        s.put id (.array (((m.lookup (s.content k)).map (·.2)).getD .null :: xs))) := by
  have hkeyed : s.exec Collections.keyed = (.ok s.keying, s) := rfl
  rw [Collections.tryGetValue, exec_bind_ok hkeyed, h.get?_eq hk,
    exec_bind_ok (exec_writeHolder hid _), isSome_lookup]
  rfl

theorem tryGetValue_step {id : Nat} {x : Value} {xs : List Value} (h : IsDictionary s dict m)
    (hk : s.IsKey k) (hid : s.store[id]? = some (.array (x :: xs))) :
    ∃ t, s.exec ((Op.tryGetValue k (.ref id)).run dict) =
        (.ok (.bool (decide (s.content k ∈ m))), t) ∧
      t.exec (readHolder (.ref id)) = (.ok (((m.lookup (s.content k)).map (·.2)).getD .null), t) ∧
      IsDictionary t dict m := by
  obtain ⟨es, hes, htable⟩ := h.table
  have hne : dict ≠ id := by
    rintro rfl
    cases hes.symm.trans hid
  have hst (ys : List Value) : Similar s (s.put id (.array ys)) :=
    similar_put hid _ rfl (by simp [Object.whole?])
  refine ⟨s.put id (.array (((m.lookup (s.content k)).map (·.2)).getD .null :: xs)), ?_,
    exec_readHolder (store_put hid _), h.steps, es, ?_, htable.keeps (keeps_of_similar (hst _) es)⟩
  · refine (exec_call hes rfl _).trans ?_
    exact exec_tryGetValue htable hk hid
  · exact (store_put_ne hne _).trans hes

theorem containsKey_step (h : IsDictionary s dict m) (hk : s.IsKey k) :
    s.exec ((Op.containsKey k).run dict) = (.ok (.bool (decide (s.content k ∈ m))), s) := by
  obtain ⟨es, hes, htable⟩ := h.table
  rw [← htable.contains_eq hk]
  exact (exec_call hes rfl _).trans rfl

theorem count_step (h : IsDictionary s dict m) :
    s.exec (Op.count.run dict) = (.ok (.int m.keys.card), s) := by
  obtain ⟨es, hes, htable⟩ := h.table
  rw [← htable.isMap.size_eq, Op.run, Properties.read, exec_get_bind]
  simp only [object?, hes, Properties.known?, Properties.count, length?]
  rfl

theorem containsValue_step (h : IsDictionary s dict m) :
    ∃ b, s.exec ((Op.containsValue v).run dict) = (.ok (.bool b), s) ∧
      (b = true ↔ ∃ c x, m.lookup c = some x ∧ s.Equal x.2 v) := by
  obtain ⟨es, hes, htable⟩ := h.table
  refine ⟨_, (exec_call hes rfl _).trans rfl, ?_⟩
  have hmem (x : Value × Value) : x ∈ es.values ↔ ∃ c, m.lookup c = some x := by
    rw [← Multiset.mem_coe, htable.isMap.values_eq]
    simp [Finmap.lookup_eq_some_iff]
  simp only [List.any_eq_true, hmem, equal_iff]
  constructor
  · rintro ⟨x, ⟨c, hc⟩, hx⟩
    exact ⟨c, x, hc, hx⟩
  · rintro ⟨c, x, hc, hx⟩
    exact ⟨x, ⟨c, hc⟩, hx⟩

theorem listing_step (h : IsDictionary s dict m) {op : Op} {kind : ListKind}
    {g : Value × Value → Value} (hop : ∀ {es : Entries}, s.store[dict]? = some (.dictionary es) →
      s.exec (op.run dict) = s.exec (newListOf kind (es.values.map g))) :
    ∃ id storage t, s.exec (op.run dict) = (.ok (.ref id), t) ∧ IsDictionary t dict m ∧
      t.store[id]? = some (.list kind storage) ∧
      (t.items storage : Multiset Value) = m.entries.map fun e => g e.2 := by
  obtain ⟨es, hes, htable⟩ := h.table
  obtain ⟨id, storage, t, ht, hext, hlist, hitems⟩ := exec_newListOf s kind (es.values.map g)
  refine ⟨id, storage, t, (hop hes).trans ht, h.extends hext, hlist, ?_⟩
  rw [hitems, ← Multiset.map_coe, htable.isMap.values_eq, Multiset.map_map]
  rfl

theorem exec_keys (hes : s.store[dict]? = some (.dictionary es)) :
    s.exec (Op.keys.run dict) = s.exec (newListOf .keys (es.values.map (·.1))) := by
  rw [Op.run, Properties.read, exec_get_bind]
  simp only [object?, hes]
  rfl

theorem exec_values (hes : s.store[dict]? = some (.dictionary es)) :
    s.exec (Op.values.run dict) = s.exec (newListOf .values (es.values.map (·.2))) := by
  rw [Op.run, Properties.read, exec_get_bind]
  simp only [object?, hes]
  rfl

theorem exec_newCursor (hs : 2 ≤ s.steps) (hes : s.store[dict]? = some (.dictionary es)) :
    ∃ ps t, s.exec (newCursor (.ref dict)) =
        (.ok (.ref t.store.size), t.grow (.cursor (.start .dictionary (.items ps)))) ∧
      Extends s t ∧ List.Forall₂ (fun p b => t.object? p = some (.pair b.1 b.2)) ps es.values := by
  obtain ⟨ps, t, ht, hext, hps⟩ := exec_newPairs s es.values
  obtain ⟨n, hn⟩ : ∃ n, s.steps = n + 1 := ⟨s.steps - 1, by omega⟩
  have hopen : s.exec (openWalk s.steps (.ref dict)) = (.ok (.items ps), t) := by
    rw [hn, openWalk, exec_get_bind]
    simp only [object?, hes]
    rw [exec_bind_ok ht, exec_pure]
  have hkind : s.cursorKind (.ref dict) = .dictionary := by simp only [cursorKind, object?, hes]
  refine ⟨ps, t, ?_, hext, hps⟩
  rw [newCursor, exec_get_bind, exec_bind_ok hopen, hkind, exec_alloc]

theorem getEnumerator_step (h : IsDictionary s dict m) :
    ∃ id t, s.exec (Op.getEnumerator.run dict) = (.ok (.ref id), t) ∧ IsDictionary t dict m ∧
      ∃ ps l u, Delivers id t ps u ∧
        List.Forall₂ (fun p (b : Value × Value) => u.object? p = some (.pair b.1 b.2)) ps l ∧
        (l : Multiset (Value × Value)) = m.entries.map (·.2) := by
  obtain ⟨es, hes, htable⟩ := h.table
  obtain ⟨ps, t, ht, hext, hps⟩ := exec_newCursor h.steps hes
  have hgrow := hext.trans (extends_grow t (.cursor (.start .dictionary (.items ps))))
  obtain ⟨u, hu, hkeep⟩ := delivers_items (store_grow t _) (by simp [Cursor.start]) rfl
    (hgrow.steps ▸ h.steps)
  have hm : (Methods.of dict (.dictionary es)).lookup "GetEnumerator" =
      some (.nullary (newCursor (.ref dict))) := rfl
  refine ⟨_, _, (exec_call hes hm []).trans ht, h.extends hgrow, ps, es.values, u, hu, ?_, ?_⟩
  · refine hps.imp fun p b hp => ?_
    cases p with
    | ref i =>
        have hlt := (Array.getElem?_eq_some_iff.mp hp).1
        exact (hkeep i (Nat.ne_of_lt hlt)).trans (store_grow_of_some hp _)
    | _ => cases hp
  · exact htable.isMap.values_eq

theorem step_agrees {e : Event} (h : IsDictionary e.before dict m) (ha : e.op.Allowed e.before)
    (he : e.before.exec (e.op.run dict) = (e.outcome, e.after)) :
    e.Agrees m ∧ IsDictionary e.after dict (e.op.next e.before m) := by
  obtain ⟨s, op, r, t⟩ := e
  dsimp only at h ha he
  cases op with
  | setItem k v =>
      obtain ⟨t', ht, hd⟩ := setItem_step h ha
      cases he.symm.trans ht
      exact ⟨rfl, hd⟩
  | add k v =>
      by_cases hm : s.content k ∈ m
      · cases he.symm.trans (add_step_taken h ha hm)
        simp only [Event.Agrees, Op.next, if_pos hm]
        refine ⟨Event.refuses_of_refused rfl rfl (fun _ => rfl) fun shown => ?_, h⟩
        exact (List.append_nil _).symm
      · obtain ⟨t', ht, hd⟩ := add_step_new h ha hm
        cases he.symm.trans ht
        simp only [Event.Agrees, Op.next, if_neg hm]
        exact ⟨rfl, hd⟩
  | remove k =>
      obtain ⟨t', ht, hd⟩ := remove_step h ha
      cases he.symm.trans ht
      exact ⟨rfl, hd⟩
  | clear =>
      obtain ⟨t', ht, hd⟩ := clear_step h
      cases he.symm.trans ht
      exact ⟨rfl, hd⟩
  | getItem k =>
      have ht := getItem_step h ha
      simp only [Event.Agrees]
      cases hl : m.lookup (s.content k) with
      | some b =>
          rw [hl] at ht
          cases he.symm.trans ht
          exact ⟨⟨rfl, rfl⟩, h⟩
      | none =>
          rw [hl] at ht
          cases he.symm.trans ht
          exact ⟨Event.refuses_of_refused rfl rfl (fun _ => rfl) fun _ => rfl, h⟩
  | tryGetValue k holder =>
      obtain ⟨hk, id, x, xs, rfl, hid⟩ := ha
      obtain ⟨t', ht, hread, hd⟩ := tryGetValue_step h hk hid
      cases he.symm.trans ht
      exact ⟨⟨rfl, hread⟩, hd⟩
  | containsKey k =>
      cases he.symm.trans (containsKey_step h ha)
      exact ⟨⟨rfl, rfl⟩, h⟩
  | containsValue v =>
      obtain ⟨b, ht, hb⟩ := containsValue_step (v := v) h
      cases he.symm.trans ht
      exact ⟨⟨b, ⟨rfl, rfl⟩, hb⟩, h⟩
  | count =>
      cases he.symm.trans (count_step h)
      exact ⟨⟨rfl, rfl⟩, h⟩
  | keys =>
      obtain ⟨id, storage, t', ht, hd, hlist, hitems⟩ := listing_step h exec_keys
      cases he.symm.trans ht
      exact ⟨⟨id, storage, rfl, hlist, hitems⟩, hd⟩
  | values =>
      obtain ⟨id, storage, t', ht, hd, hlist, hitems⟩ := listing_step h exec_values
      cases he.symm.trans ht
      exact ⟨⟨id, storage, rfl, hlist, hitems⟩, hd⟩
  | getEnumerator =>
      obtain ⟨id, t', ht, hd, ps, l, u, hu, hps, hl⟩ := getEnumerator_step h
      cases he.symm.trans ht
      exact ⟨⟨id, ps, l, u, rfl, hu, hps, hl⟩, hd⟩

theorem IsDictionary.bindsClasses (h : IsDictionary s dict m) : BindsClasses s m := by
  obtain ⟨es, -, htable⟩ := h.table
  intro c b hb k hk
  obtain ⟨hkey, rfl⟩ := htable.content_eq hb
  rw [equal_iff_content hkey hk, eq_comm]

theorem Run.agrees {events : List Event} (hr : Run dict s events t) (h : IsDictionary s dict m) :
    ∀ pre e post, events = pre ++ e :: post →
      BindsClasses e.before (after m pre) ∧ e.Agrees (after m pre) := by
  induction hr generalizing m with
  | nil hq => simp
  | @cons s t e events hq ha he hr ih =>
      obtain ⟨hagrees, hd⟩ := step_agrees (h.quiet hq) ha he
      intro pre e' post heq
      cases pre with
      | nil =>
          cases heq
          exact ⟨(h.quiet hq).bindsClasses, hagrees⟩
      | cons e'' pre =>
          cases heq
          exact ih hd pre e' post rfl

theorem new_isDictionary (hs : 2 ≤ s.steps)
    (hnew : s.exec (Types.construct "Dictionary" []) = (.ok (.ref dict), t)) :
    IsDictionary t dict ∅ := by
  have halloc : s.exec (Types.construct "Dictionary" []) =
      (.ok (.ref s.store.size), s.grow (.dictionary .empty)) := rfl
  cases hnew.symm.trans halloc
  exact ⟨hs, .empty, store_grow s _, empty_isTable _⟩

/-- A new dictionary is a finite map from the classes of equal keys: every operation of a run answers
what the map answers after the operations before it. -/
theorem run_agrees {u : Session} {events : List Event} (hs : 2 ≤ s.steps)
    (hnew : s.exec (Types.construct "Dictionary" []) = (.ok (.ref dict), t))
    (hr : Run dict t events u) :
    ∀ pre e post, events = pre ++ e :: post →
      BindsClasses e.before (after ∅ pre) ∧ e.Agrees (after ∅ pre) :=
  hr.agrees (new_isDictionary hs hnew)

def occur (dict : Nat) (s : Session) (op : Op) : Event :=
  ⟨s, op, (s.exec (op.run dict)).1, (s.exec (op.run dict)).2⟩

theorem Quiet.refl (dict : Nat) (s : Session) : Quiet dict s s :=
  ⟨rfl, rfl, fun _ _ _ hk => ⟨hk, rfl⟩⟩

/-- A key is looked up by an equal number of another type. -/
theorem run_agrees_numbers :
    let t := ((start 0).exec (Types.construct "Dictionary" [])).2
    let e := occur 13 t (.add (.int 1) (.bool true))
    let e' := occur 13 e.after (.getItem (.double ⟨0x3FF0000000000000⟩))
    BindsClasses e'.before (after ∅ [e]) ∧ e'.Agrees (after ∅ [e]) := by
  intro t e e'
  have hnew : (start 0).exec (Types.construct "Dictionary" []) = (.ok (.ref 13), t) := rfl
  have ha : e.op.Allowed e.before := ⟨1, .plain rfl⟩
  have ha' : e'.op.Allowed e'.before := ⟨1, .plain rfl⟩
  have hr : Run 13 t [e, e'] e'.after :=
    .cons (.refl 13 t) ha rfl (.cons (.refl 13 e.after) ha' rfl (.nil (.refl 13 e'.after)))
  exact run_agrees (by decide) hnew hr [e] e' [] rfl

theorem refused_of_long {n : Int} (h : 10 ^ Text.Composite.longestNumeral ≤ n.natAbs) (s : Session)
    (cause : List Nat → Failure) : refused s (.int n) cause = .misuse .badValue := by
  have hdisplay : s.display (.int n) = .error (.misuse .badValue) :=
    congrArg (·.map Text.codesOf) (Number.shown_of_le h)
  rw [refused, hdisplay]

def blank : Session := ((start 0).exec (Types.construct "Dictionary" [])).2

theorem long_refused {n : Int} (h : 10 ^ Text.Composite.longestNumeral ≤ n.natAbs) :
    blank.exec (Methods.call (.ref 13) "get_Item" [.int n]) = (.error (.misuse .badValue), blank) ∧
      ∃ u, blank.exec (Methods.call (.ref 13) "Add" [.int n, .null]) = (.ok .null, u) ∧
        u.exec (Methods.call (.ref 13) "Add" [.int n, .null]) = (.error (.misuse .badValue), u) := by
  have hkey (s : Session) : s.IsKey (.int n) := ⟨1, .plain rfl⟩
  have hblank : IsDictionary blank 13 ∅ := new_isDictionary (s := start 0) (by decide) rfl
  have hget := getItem_step hblank (hkey blank)
  rw [Finmap.lookup_empty] at hget
  obtain ⟨u, hu, hadded⟩ := add_step_new (v := .null) hblank (hkey blank) Finmap.notMem_empty
  have hbound : u.content (.int n) ∈ (∅ : Bindings).insert (blank.content (.int n)) (.int n, .null) :=
    Finmap.mem_insert.mpr (.inl rfl)
  have hadd := add_step_taken (v := .null) hadded (hkey u) hbound
  rw [refused_of_long h] at hget hadd
  exact ⟨hget, u, hu, hadd⟩

/-- The least key of more than 4300 digits is refused by the host, both where it is not bound and where it is. -/
theorem long_key_refused :
    let key : Value := .int (10 ^ Text.Composite.longestNumeral : Nat)
    blank.exec (Methods.call (.ref 13) "get_Item" [key]) = (.error (.misuse .badValue), blank) ∧
      ∃ u, blank.exec (Methods.call (.ref 13) "Add" [key, .null]) = (.ok .null, u) ∧
        u.exec (Methods.call (.ref 13) "Add" [key, .null]) = (.error (.misuse .badValue), u) :=
  long_refused (Int.natAbs_natCast _).ge

end BaseLib.Dictionary
