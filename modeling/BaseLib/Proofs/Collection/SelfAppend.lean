import BaseLib.Proofs.Collection.Feedback
import BaseLib.Proofs.Enumeration.Integers

namespace BaseLib.Feedback

open Library Session Enumeration.Plan

/-- A session with all objects as they were, except that one array may be another one. -/
structure Beside (a : Nat) (s t : Session) : Prop where
  offset : t.offset = s.offset
  steps : t.steps = s.steps
  kept : ∀ {id : Nat} {o : Object}, s.store[id]? = some o →
    t.store[id]? = some o ∨ id = a ∧ (∃ xs, o = .array xs) ∧ ∃ ys, t.store[id]? = some (.array ys)

variable {a : Nat} {s t u : Session} {v : Value}

theorem beside_of_extends (h : Extends s t) : Beside a s t := ⟨h.offset, h.steps, fun ho => .inl (h.kept ho)⟩

theorem Beside.trans (h : Beside a s t) (h' : Beside a t u) : Beside a s u := by
  refine ⟨h'.offset.trans h.offset, h'.steps.trans h.steps, fun ho => ?_⟩
  rcases h.kept ho with ht | ⟨rfl, harray, ys, ht⟩
  · exact h'.kept ht
  · rcases h'.kept ht with hu | ⟨-, -, zs, hu⟩
    · exact .inr ⟨rfl, harray, ys, hu⟩
    · exact .inr ⟨rfl, harray, zs, hu⟩

theorem beside_put {xs : List Value} (h : s.store[a]? = some (.array xs)) (ys : List Value) :
    Beside a s (s.put a (.array ys)) := by
  refine ⟨rfl, rfl, fun {id o} ho => ?_⟩
  by_cases hid : id = a
  · subst hid
    exact .inr ⟨rfl, ⟨xs, Option.some.inj (ho.symm.trans h)⟩, ys, store_put h _⟩
  · exact .inl ((store_put_ne hid _).trans ho)

theorem Beside.kept_of_ne {id : Nat} {o : Object} (h : Beside a s t) (hid : id ≠ a)
    (ho : s.store[id]? = some o) : t.store[id]? = some o :=
  (h.kept ho).resolve_right fun h => hid h.1

theorem Beside.object? {o : Object} (h : Beside a s t) (hv : s.object? v = some o)
    (ho : ∀ xs, o ≠ .array xs) : t.object? v = some o := by
  obtain ⟨id, rfl, hid⟩ := exists_ref hv
  refine (h.kept hid).resolve_right ?_
  rintro ⟨-, ⟨xs, hxs⟩, -⟩
  exact ho xs hxs

def Apart (a : Nat) (s : Session) (v : Value) : Prop :=
  v ≠ .ref a ∧ ∀ b, (∃ kind, s.object? v = some (.list kind b)) ∨ s.object? v = some (.arrayView (.ref b)) → b ≠ a

theorem Beside.holds {xs : List Value} (h : Beside a s t) (hv : s.Holds v xs) (hap : Apart a s v) :
    t.Holds v xs ∧ Apart a t v := by
  have hobject {o : Object} (ho : s.object? v = some o) : t.object? v = some o := by
    obtain ⟨id, rfl, hid⟩ := exists_ref ho
    exact h.kept_of_ne (fun heq => hap.1 (congrArg Value.ref heq)) hid
  have hapart {o : Object} (ho : s.object? v = some o) : Apart a t v := by
    rw [Apart, hobject ho, ← ho]
    exact hap
  cases hv with
  | array hx => exact ⟨.array (hobject hx), hapart hx⟩
  | list hx hxs =>
      exact ⟨.list (hobject hx) (h.kept_of_ne (hap.2 _ (.inl ⟨_, hx⟩)) hxs), hapart hx⟩
  | view hx hxs => exact ⟨.view (hobject hx) (h.kept_of_ne (hap.2 _ (.inr hx)) hxs), hapart hx⟩
  | tuple hx => exact ⟨.tuple (hobject hx), hapart hx⟩
  | hashSet hx => exact ⟨.hashSet (hobject hx), hapart hx⟩
  | text t => exact ⟨.text t, hap⟩

theorem exec_openWalk_holds {xs : List Value} (hv : s.Holds v xs) (hap : Apart a s v) (k : Nat) :
    (∃ w, s.exec (openWalk (k + 1) v) = (.ok w, s) ∧
      (w = .items xs ∨ ∃ b, b ≠ a ∧ w = .live b 0 ∧ s.store[b]? = some (.array xs))) ∨
    k = 0 ∧ s.exec (openWalk (k + 1) v) = (.error (.misuse .tooDeep), s) := by
  cases hv with
  | @array id _ h =>
      exact .inl ⟨.live id 0, exec_openWalk_array h _, .inr ⟨id, fun heq => hap.1 (congrArg _ heq), rfl, h⟩⟩
  | @list id storage _ _ h hxs =>
      refine .inl ⟨.live storage 0, ?_, .inr ⟨storage, hap.2 _ (.inl ⟨_, h⟩), rfl, hxs⟩⟩
      rw [openWalk, exec_get_bind]
      simp only [Session.object?, h]
      rfl
  | @view id array _ h hxs =>
      have hrun : s.exec (openWalk (k + 1) (.ref id)) = s.exec (openWalk k (.ref array)) := by
        rw [openWalk, exec_get_bind]
        simp only [Session.object?, h]
      rw [hrun]
      cases k with
      | zero => exact .inr ⟨rfl, rfl⟩
      | succ k =>
          exact .inl ⟨.live array 0, exec_openWalk_array hxs k, .inr ⟨array, hap.2 _ (.inr h), rfl, hxs⟩⟩
  | tuple h =>
      refine .inl ⟨.items xs, ?_, .inl rfl⟩
      rw [openWalk, exec_get_bind]
      simp only [Session.object?, h, foreignWalk]
      rw [exec_get_bind]
      simp only [h]
      rfl
  | hashSet h =>
      refine .inl ⟨.items _, ?_, .inl rfl⟩
      rw [openWalk, exec_get_bind]
      simp only [Session.object?, h]
      rfl
  | text t => exact .inl ⟨.items _, rfl, .inl rfl⟩

/-- What values stand for, whatever the array of the list is. -/
structure Meaning (a : Nat) (D : Type) where
  rel : Session → Value → D → Prop
  stable : ∀ {s t : Session} {v : Value} {d : D}, Beside a s t → rel s v d → rel t v d

/-- A query over a list, with what its functions do to data. -/
inductive Lazy (D : Type)
  | own
  | other (ds : List D)
  | select (source : Lazy D) (f : Value) (g : D → D)
  | filter (source : Lazy D) (p : Value) (q : D → Bool)
  | concat (first second : Lazy D)
  | take (source : Lazy D) (count : Int)
  | skip (source : Lazy D) (count : Int)

variable {D : Type}

namespace Lazy

/-- What the query gives on a list that does not change. -/
def toList (c : List D) : Lazy D → List D
  | own => c
  | other ds => ds
  | select source _ g => (source.toList c).map g
  | filter source _ q => (source.toList c).filter q
  | concat first second => first.toList c ++ second.toList c
  | take source count => (source.toList c).take count.toNat
  | skip source count => (source.toList c).drop count.toNat

def start : Lazy D → Reader D
  | own => .guarded (.own 0)
  | other ds => .guarded (.rest ds)
  | select source _ g => .guarded (.select g source.start)
  | filter source _ q => .guarded (.filter q source.start)
  | concat first second => .guarded (.chain first.start second.start)
  | take source count => .guarded (.take count.toNat source.start)
  | skip source count => .guarded (.skip count.toNat source.start)

theorem remaining_start (c : List D) (q : Lazy D) : remaining c q.start = q.toList c := by
  induction q with
  | own => rfl
  | other ds => rfl
  | select source f g ih => exact congrArg (List.map g) ih
  | filter source p q ih => exact congrArg (List.filter q) ih
  | concat first second ih ih' => exact congrArg₂ (· ++ ·) ih ih'
  | take source count ih => exact congrArg (List.take count.toNat) ih
  | skip source count ih => exact congrArg (List.drop count.toNat) ih

theorem two_lt_need (c : List D) (q : Lazy D) : 2 < need c q.start := by
  have hguarded (r : Reader D) : 2 < need c (.guarded r) := Nat.add_lt_add_right (need_pos c r) 2
  cases q <;> exact hguarded _

def Unchained : Lazy D → Prop
  | own | other _ => True
  | select source _ _ | filter source _ _ | take source _ | skip source _ => source.Unchained
  | concat _ _ => False

theorem Unchained.streams {q : Lazy D} (h : q.Unchained) (c : List D) : Streams c q.start := by
  induction q with
  | own => exact Nat.zero_le _
  | other ds => trivial
  | select _ _ _ ih | filter _ _ _ ih | take _ _ ih | skip _ _ ih => exact ih h
  | concat _ _ => exact h.elim

/-- A query that concatenates nothing gives in all what it gave on the list as it was exactly if it gives
the same on the list so extended. -/
theorem Unchained.grows_iff {q : Lazy D} (h : q.Unchained) (c : List D) :
    Grows c q.start (q.toList c) ↔ q.toList (c ++ q.toList c) = q.toList c := by
  have hgrows := grows_remaining_iff (h.streams c)
  rwa [remaining_start, remaining_start] at hgrows

end Lazy

namespace Meaning

variable {m : Meaning a D} {f : Value}

/-- Called for a value of the datum, a function gives a value of another one and changes no object. -/
def Maps (m : Meaning a D) (s : Session) (f : Value) (d e : D) : Prop :=
  ∀ t x, Beside a s t → m.rel t x d → ∃ y u, t.exec (apply f [x]) = (.ok y, u) ∧ Extends t u ∧ m.rel u y e

/-- Asked about a value of the datum, a predicate gives an answer and changes no object. -/
def Tests (m : Meaning a D) (s : Session) (p : Value) (d : D) (b : Bool) : Prop :=
  ∀ t x, Beside a s t → m.rel t x d → ∃ u, t.exec (holds p [x]) = (.ok b, u) ∧ Extends t u

theorem Maps.beside {d e : D} (h : m.Maps s f d e) (hst : Beside a s t) : m.Maps t f d e :=
  fun u x hu hx => h u x (hst.trans hu) hx

theorem Tests.beside {d : D} {b : Bool} (h : m.Tests s f d b) (hst : Beside a s t) : m.Tests t f d b :=
  fun u x hu hx => h u x (hst.trans hu) hx

theorem stable_all {xs : List Value} {ds : List D} (h : Beside a s t)
    (hxs : List.Forall₂ (m.rel s) xs ds) : List.Forall₂ (m.rel t) xs ds := hxs.imp fun _ _ => m.stable h

end Meaning

namespace Lazy

/-- The value is the query, as the members of queries make it. -/
def Shape (m : Meaning a D) : Lazy D → Session → Value → Prop
  | own, s, w => ∃ kind, s.object? w = some (.list kind a)
  | other ds, s, w => ∃ xs, s.Holds w xs ∧ Apart a s w ∧ List.Forall₂ (m.rel s) xs ds
  | select source f _, s, w => ∃ v, s.object? w = some (.sequence (.select v f)) ∧ source.Shape m s v
  | filter source p _, s, w => ∃ v, s.object? w = some (.sequence (.filter v p)) ∧ source.Shape m s v
  | concat first second, s, w =>
    ∃ v v', s.object? w = some (.sequence (.concat v v')) ∧ first.Shape m s v ∧ second.Shape m s v'
  | take source count, s, w =>
    ∃ v, s.object? w = some (.sequence (.take v (.int count))) ∧ source.Shape m s v
  | skip source count, s, w =>
    ∃ v, s.object? w = some (.sequence (.skip v (.int count))) ∧ source.Shape m s v

/-- The functions of the query do what it says to whatever they may be called with while the list has data
in `B`, and change nothing; counts are below 2^63 in magnitude. -/
def Pure (m : Meaning a D) (B : D → Prop) (s : Session) : Lazy D → Prop
  | own | other _ => True
  | select source f g => source.Pure m B s ∧ ∀ d, Range B source.start d → m.Maps s f d (g d)
  | filter source p q => source.Pure m B s ∧ ∀ d, Range B source.start d → m.Tests s p d (q d)
  | concat first second => first.Pure m B s ∧ second.Pure m B s
  | take source count | skip source count => source.Pure m B s ∧ count.natAbs < 2 ^ 63

variable {m : Meaning a D} {B : D → Prop} {q : Lazy D}

theorem Shape.beside (h : q.Shape m s v) (hst : Beside a s t) : q.Shape m t v := by
  induction q generalizing v with
  | own =>
      obtain ⟨kind, hv⟩ := h
      exact ⟨kind, hst.object? hv (fun _ h => nomatch h)⟩
  | other ds =>
      obtain ⟨xs, hv, hap, hxs⟩ := h
      obtain ⟨hv, hap⟩ := hst.holds hv hap
      exact ⟨xs, hv, hap, m.stable_all hst hxs⟩
  | select _ _ _ ih | filter _ _ _ ih | take _ _ ih | skip _ _ ih =>
      obtain ⟨w, hv, h⟩ := h
      exact ⟨w, hst.object? hv (fun _ h => nomatch h), ih h⟩
  | concat _ _ ih ih' =>
      obtain ⟨w, w', hv, h, h'⟩ := h
      exact ⟨w, w', hst.object? hv (fun _ h => nomatch h), ih h, ih' h'⟩

theorem Pure.beside (h : q.Pure m B s) (hst : Beside a s t) : q.Pure m B t := by
  induction q with
  | own | other _ => trivial
  | select _ _ _ ih => exact ⟨ih h.1, fun d hd => (h.2 d hd).beside hst⟩
  | filter _ _ _ ih => exact ⟨ih h.1, fun d hd => (h.2 d hd).beside hst⟩
  | concat _ _ ih ih' => exact ⟨ih h.1, ih' h.2⟩
  | take _ _ ih | skip _ _ ih => exact ⟨ih h.1, h.2⟩

end Lazy

section

variable {m : Meaning a D} {B : D → Prop} {q : Lazy D} {w : Walk} {r : Reader D} {c : List D}
  {xs : List Value} {k n : Nat}

inductive Reads (m : Meaning a D) (B : D → Prop) (s : Session) : Walk → Reader D → Prop
  | own (next : Nat) : Reads m B s (.live a next) (.own next)
  | array {b next : Nat} {xs : List Value} {ds : List D} (hb : b ≠ a) (h : s.store[b]? = some (.array xs))
    (hds : List.Forall₂ (m.rel s) (xs.drop next) ds) : Reads m B s (.live b next) (.rest ds)
  | items {xs : List Value} {ds : List D} (hds : List.Forall₂ (m.rel s) xs ds) :
    Reads m B s (.items xs) (.rest ds)
  | pending {v : Value} {q : Lazy D} (hv : q.Shape m s v) (hq : q.Pure m B s) :
    Reads m B s (.pending v) q.start
  | guarded {w : Walk} {r : Reader D} (h : Reads m B s w r) : Reads m B s (.guarded w) (.guarded r)
  | select {w : Walk} {r : Reader D} {f : Value} {g : D → D} (h : Reads m B s w r)
    (hf : ∀ d, Range B r d → m.Maps s f d (g d)) : Reads m B s (.select f w) (.select g r)
  | filter {w : Walk} {r : Reader D} {p : Value} {q : D → Bool} (h : Reads m B s w r)
    (hp : ∀ d, Range B r d → m.Tests s p d (q d)) : Reads m B s (.filter p w) (.filter q r)
  | chain {w w' : Walk} {r r' : Reader D} (h : Reads m B s w r) (h' : Reads m B s w' r') :
    Reads m B s (.chain w w') (.chain r r')
  | take {w : Walk} {r : Reader D} (count : Nat) (h : Reads m B s w r) :
    Reads m B s (.take count w) (.take count r)
  | skip {w : Walk} {r : Reader D} (count : Nat) (h : Reads m B s w r) :
    Reads m B s (.skip count w) (.skip count r)

theorem Reads.beside (h : Reads m B s w r) (hst : Beside a s t) : Reads m B t w r := by
  induction h with
  | own next => exact .own next
  | array hb h hds => exact .array hb (hst.kept_of_ne hb h) (m.stable_all hst hds)
  | items hds => exact .items (m.stable_all hst hds)
  | pending hv hq => exact .pending (hv.beside hst) (hq.beside hst)
  | guarded _ ih => exact .guarded ih
  | select _ hf ih => exact .select ih fun d hd => (hf d hd).beside hst
  | filter _ hp ih => exact .filter ih fun d hd => (hp d hd).beside hst
  | chain _ _ ih ih' => exact .chain ih ih'
  | take count _ ih => exact .take count ih
  | skip count _ ih => exact .skip count ih

theorem Reads.quiet (h : Reads m B s w r) : Enumeration.Quiet w := by
  induction h with
  | own | array | items | pending => exact fun _ => rfl
  | guarded _ ih | select _ _ ih | filter _ _ ih | take _ _ ih | skip _ _ ih => exact ih
  | chain _ _ ih ih' => exact fun s => (exec_bind_ok (ih s) _).trans (ih' s)

/-- What a pull with `k` steps gives: the next element, or the end where nothing remains, or it runs out of
steps, which `n` of them do not. -/
inductive Pulls (m : Meaning a D) (B : D → Prop) (c : List D) (r : Reader D) (s : Session) (k n : Nat) :
    Except Fault Pulled × Session → Prop
  | give {d : D} {ds : List D} {x : Value} {w : Walk} {u : Session} (hr : remaining c r = d :: ds)
    (hext : Extends s u) (hx : m.rel u x d) (hw : Reads m B u w (after c r 1)) :
    Pulls m B c r s k n (.ok (.give x w), u)
  | finish {u : Session} (hr : remaining c r = []) (hext : Extends s u) :
    Pulls m B c r s k n (.ok .finish, u)
  | deep {w : Walk} {u : Session} (hk : k < n) (hext : Extends s u) (hq : Enumeration.Quiet w) :
    Pulls m B c r s k n (.ok (.error (.misuse .tooDeep), w), u)

def Contains (m : Meaning a D) (s : Session) (c : List D) : Prop :=
  ∃ xs, s.store[a]? = some (.array xs) ∧ List.Forall₂ (m.rel s) xs c

theorem Contains.extends (h : Contains m s c) (hext : Extends s t) : Contains m t c := by
  obtain ⟨xs, hxs, hc⟩ := h
  exact ⟨xs, hext.kept hxs, m.stable_all (beside_of_extends hext) hc⟩

theorem pulls_own (hc : Contains m s c) (next : Nat) :
    Pulls m B c (.own next) s (k + 1) n (s.exec (pull (k + 1) (.live a next))) := by
  obtain ⟨xs, hxs, hc⟩ := hc
  rw [exec_pull_live, items_eq hxs]
  cases hds : c.drop next with
  | nil =>
      have hnone : xs[next]? = none := by
        rw [List.getElem?_eq_none_iff, hc.length_eq]
        exact List.drop_eq_nil_iff.mp hds
      rw [hnone]
      exact .finish hds (.refl s)
  | cons d ds =>
      have hdrop := hds ▸ List.forall₂_drop next hc
      obtain ⟨x, xs', hx, -, hxs'⟩ := List.forall₂_cons_right_iff.mp hdrop
      rw [← List.head?_drop, hxs', List.head?_cons]
      exact .give hds (.refl s) hx (.own (next + 1))

theorem pulls_array {b next : Nat} {ds : List D} (hb : b ≠ a) (h : s.store[b]? = some (.array xs))
    (hds : List.Forall₂ (m.rel s) (xs.drop next) ds) :
    Pulls m B c (.rest ds) s (k + 1) n (s.exec (pull (k + 1) (.live b next))) := by
  rw [exec_pull_live, items_eq h]
  cases ds with
  | nil =>
      rw [List.getElem?_eq_none (List.drop_eq_nil_iff.mp (List.forall₂_nil_right_iff.mp hds))]
      exact .finish rfl (.refl s)
  | cons d ds =>
      obtain ⟨x, xs', hx, hxs', hdrop⟩ := List.forall₂_cons_right_iff.mp hds
      rw [← List.head?_drop, hdrop, List.head?_cons]
      refine .give rfl (.refl s) hx (.array hb h ?_)
      rw [← List.tail_drop, hdrop]
      exact hxs'

theorem pulls_items {ds : List D} (hds : List.Forall₂ (m.rel s) xs ds) :
    Pulls m B c (.rest ds) s (k + 1) n (s.exec (pull (k + 1) (.items xs))) := by
  cases hds with
  | nil => exact .finish rfl (.refl s)
  | cons hx hxs => exact .give rfl (.refl s) hx (.items hxs)

theorem Pulls.passed_on {r' : Reader D} {i j : Nat} {res : Except Fault Pulled × Session}
    (h : Pulls m B c r' t k n res) (hext : Extends s t) (hr : remaining c r = remaining c r')
    (hafter : after c r 1 = after c r' 1) (hn : k < n → i < j) : Pulls m B c r s i j res := by
  cases h with
  | give hr' hext' hx hw => exact .give (hr.trans hr') (hext.trans hext') hx (hafter ▸ hw)
  | finish hr' hext' => exact .finish (hr.trans hr') (hext.trans hext')
  | deep hk hext' hq => exact .deep (hn hk) (hext.trans hext') hq

theorem pulls_failed {w' : Walk} {i j : Nat} (hij : i < j) (hext : Extends s u) (hq : Enumeration.Quiet w')
    (h : s.exec (pull k w) = u.exec (Pulled.failWith (.misuse .tooDeep) w')) :
    Pulls m B c r s i j (s.exec (pull k w)) := by
  have hrun : u.exec (Pulled.failWith (.misuse .tooDeep) w') = (.ok (.error (.misuse .tooDeep), .ended), u) :=
    (exec_bind_ok (hq u) _).trans rfl
  exact (h.trans hrun) ▸ .deep hij hext fun _ => rfl

theorem pulls_guarded (hp : Pulls m B c r s k n (s.exec (pull k w))) :
    Pulls m B c (.guarded r) s (k + 1) (n + 1) (s.exec (pull (k + 1) (.guarded w))) := by
  generalize hres : s.exec (pull k w) = res at hp
  cases hp with
  | give hr hext hx hw => exact ((exec_bind_ok hres _).trans rfl) ▸ .give hr hext hx (.guarded hw)
  | finish hr hext => exact ((exec_bind_ok hres _).trans rfl) ▸ .finish hr hext
  | deep hk hext hq => exact pulls_failed (Nat.succ_lt_succ hk) hext hq (exec_bind_ok hres _)

theorem pulls_select {f : Value} {g : D → D} (hc : ∀ d ∈ c, B d)
    (hf : ∀ d, Range B r d → m.Maps s f d (g d)) (hp : Pulls m B c r s k n (s.exec (pull k w))) :
    Pulls m B c (.select g r) s (k + 1) (n + 1) (s.exec (pull (k + 1) (.select f w))) := by
  generalize hres : s.exec (pull k w) = res at hp
  cases hp with
  | @give d ds x w' u hr hext hx hw =>
      have hd : Range B r d := range_of_mem hc (hr ▸ List.mem_cons_self)
      obtain ⟨y, v, hv, hext', hy⟩ := hf d hd u x (beside_of_extends hext) hx
      have hsv := hext.trans hext'
      have hrun : s.exec (pull (k + 1) (.select f w)) = (.ok (.give y (.select f w')), v) :=
        (exec_bind_ok hres _).trans ((exec_bind_ok (exec_outcome hv) _).trans rfl)
      refine hrun ▸ .give (by rw [remaining, hr, List.map_cons]) hsv hy ?_
      exact .select (hw.beside (beside_of_extends hext')) fun e he =>
        (hf e (range_after he)).beside (beside_of_extends hsv)
  | finish hr hext =>
      exact ((exec_bind_ok hres _).trans rfl) ▸ .finish (by rw [remaining, hr, List.map_nil]) hext
  | deep hk hext hq => exact pulls_failed (Nat.succ_lt_succ hk) hext hq (exec_bind_ok hres _)

theorem pulls_filter {p : Value} {q : D → Bool} (hc : ∀ d ∈ c, B d)
    (hp : ∀ d, Range B r d → m.Tests s p d (q d)) (hr : Pulls m B c r s k (need c r) (s.exec (pull k w)))
    (hagain : ∀ {w' : Walk} {u : Session}, Extends s u → Reads m B u w' (.filter q (after c r 1)) →
      Pulls m B c (.filter q (after c r 1)) u k (need c (.filter q (after c r 1))) (u.exec (pull k w'))) :
    Pulls m B c (.filter q r) s (k + 1) (need c (.filter q r)) (s.exec (pull (k + 1) (.filter p w))) := by
  generalize hres : s.exec (pull k w) = res at hr
  cases hr with
  | @give d ds x w' u hrem hext hx hw =>
      have hd : Range B r d := range_of_mem hc (hrem ▸ List.mem_cons_self)
      obtain ⟨v, hv, hext'⟩ := hp d hd u x (beside_of_extends hext) hx
      have hsv := hext.trans hext'
      have hnext : Reads m B v (.filter p w') (.filter q (after c r 1)) :=
        .filter (hw.beside (beside_of_extends hext')) fun e he =>
          (hp e (range_after he)).beside (beside_of_extends hsv)
      have hrun : s.exec (pull (k + 1) (.filter p w)) = v.exec (if q d then
          pure (.give x (.filter p w')) else pull k (.filter p w')) := by
        refine (exec_bind_ok hres _).trans ((exec_bind_ok (exec_outcome hv) _).trans ?_)
        cases q d <;> rfl
      rw [hrun]
      cases hq : q d with
      | true =>
          have hfilter : remaining c (.filter q r) = d :: ds.filter q := by
            rw [remaining, hrem, List.filter_cons_of_pos hq]
          refine .give hfilter hsv (m.stable (beside_of_extends hext') hx) ?_
          rwa [after_filter_of_pos hrem hq]
      | false =>
          have hneed := need_filter (p := q) hrem
          refine (hagain hsv hnext).passed_on hsv ?_ (after_filter_of_neg hrem hq) (by omega)
          rw [remaining, remaining, remaining_after, hrem, List.filter_cons_of_neg (by simp [hq])]
          rfl
  | finish hrem hext =>
      exact ((exec_bind_ok hres _).trans rfl) ▸ .finish (by rw [remaining, hrem, List.filter_nil]) hext
  | deep hk hext hq =>
      exact pulls_failed (by rw [need]; omega) hext hq (exec_bind_ok hres _)

theorem pulls_take (count : Nat) (h : Reads m B s w r) (hp : Pulls m B c r s k n (s.exec (pull k w))) :
    Pulls m B c (.take count r) s (k + 1) (n + 1) (s.exec (pull (k + 1) (.take count w))) := by
  cases count with
  | zero => exact ((exec_bind_ok (h.quiet s) _).trans rfl) ▸ .finish List.take_zero (.refl s)
  | succ count =>
      generalize hres : s.exec (pull k w) = res at hp
      cases hp with
      | give hr hext hx hw =>
          exact ((exec_bind_ok hres _).trans rfl) ▸
            .give (by rw [remaining, hr, List.take_succ_cons]) hext hx (.take count hw)
      | finish hr hext =>
          exact ((exec_bind_ok hres _).trans rfl) ▸ .finish (by rw [remaining, hr, List.take_nil]) hext
      | deep hk hext hq => exact pulls_failed (Nat.succ_lt_succ hk) hext hq (exec_bind_ok hres _)

theorem pulls_skip (count : Nat) (hr : Pulls m B c r s k (need c r) (s.exec (pull k w)))
    (hagain : ∀ {count : Nat} {w' : Walk} {u : Session}, Extends s u →
      Reads m B u w' (.skip count (after c r 1)) →
      Pulls m B c (.skip count (after c r 1)) u k (need c (.skip count (after c r 1))) (u.exec (pull k w'))) :
    Pulls m B c (.skip count r) s (k + 1) (need c (.skip count r))
      (s.exec (pull (k + 1) (.skip count w))) := by
  generalize hres : s.exec (pull k w) = res at hr
  cases hr with
  | @give d ds x w' u hrem hext hx hw =>
      cases count with
      | zero =>
          exact ((exec_bind_ok hres _).trans rfl) ▸ .give hrem hext hx (.skip 0 hw)
      | succ count =>
          have hneed := need_skip hrem count (count + 1)
          have hrun : s.exec (pull (k + 1) (.skip (count + 1) w)) = u.exec (pull k (.skip count w')) :=
            exec_bind_ok hres _
          refine hrun ▸ (hagain hext (.skip count hw)).passed_on hext ?_ (after_skip c r count) (by omega)
          rw [remaining, remaining, remaining_after, hrem, List.drop_succ_cons, List.drop_succ_cons,
            List.drop_zero]
  | finish hrem hext =>
      exact ((exec_bind_ok hres _).trans rfl) ▸ .finish (by rw [remaining, hrem, List.drop_nil]) hext
  | deep hk hext hq => exact pulls_failed (by rw [need]; omega) hext hq (exec_bind_ok hres _)

theorem pulls_chain {w' : Walk} {r' : Reader D} (h' : Reads m B s w' r')
    (hp : Pulls m B c r s k (need c r) (s.exec (pull k w)))
    (hsecond : ∀ {u : Session}, Extends s u → Pulls m B c r' u k (need c r') (u.exec (pull k w'))) :
    Pulls m B c (.chain r r') s (k + 1) (need c (.chain r r')) (s.exec (pull (k + 1) (.chain w w'))) := by
  generalize hres : s.exec (pull k w) = res at hp
  cases hp with
  | give hr hext hx hw =>
      refine ((exec_bind_ok hres _).trans rfl) ▸ .give (by rw [remaining, hr, List.cons_append]) hext hx ?_
      rw [after, if_pos (by rw [hr]; exact Nat.succ_pos _)]
      exact .chain hw (h'.beside (beside_of_extends hext))
  | @finish u hr hext =>
      have hrun : s.exec (pull (k + 1) (.chain w w')) = u.exec (pull k w') := exec_bind_ok hres _
      refine hrun ▸ (hsecond hext).passed_on hext ?_ ?_ (by rw [need]; omega)
      · rw [remaining, hr, List.nil_append]
      · rw [after, hr]
        exact if_neg (Nat.not_succ_le_zero 0)
  | @deep v u hk hext hq =>
      have hrun : s.exec (pull (k + 1) (.chain w w')) = (.ok (.error (.misuse .tooDeep), .chain v w'), u) :=
        exec_bind_ok hres _
      exact hrun ▸ .deep (by rw [need]; omega) hext fun s => (exec_bind_ok (hq s) _).trans (h'.quiet s)

theorem exec_openWalk_start (hv : q.Shape m s v) (hq : q.Pure m B s) (k : Nat) :
    (∃ w r, s.exec (openWalk k v) = (.ok w, s) ∧ q.start = .guarded r ∧ Reads m B s w r) ∨
      k < 2 ∧ s.exec (openWalk k v) = (.error (.misuse .tooDeep), s) := by
  cases k with
  | zero => exact .inr ⟨by decide, rfl⟩
  | succ k =>
      have hquery {query : Query} {w : Walk} {r : Reader D} (hv : s.object? v = some (.sequence query))
          (hr : q.start = .guarded r) (hw : Reads m B s w r)
          (hopen : ∀ k, s.exec (openQuery (k + 1) query) = (.ok w, s)) :
          (∃ w r, s.exec (openWalk (k + 1) v) = (.ok w, s) ∧ q.start = .guarded r ∧ Reads m B s w r) ∨
            k + 1 < 2 ∧ s.exec (openWalk (k + 1) v) = (.error (.misuse .tooDeep), s) := by
        rw [exec_openWalk hv]
        cases k with
        | zero => exact .inr ⟨by decide, rfl⟩
        | succ k => exact .inl ⟨w, r, hopen k, hr, hw⟩
      cases q with
      | own =>
          obtain ⟨kind, hv⟩ := hv
          refine .inl ⟨.live a 0, .own 0, ?_, rfl, .own 0⟩
          rw [openWalk, exec_get_bind]
          simp only [hv]
          rfl
      | other ds =>
          obtain ⟨xs, hv, hap, hxs⟩ := hv
          obtain ⟨w, hrun, hw⟩ | ⟨rfl, hrun⟩ := exec_openWalk_holds hv hap k
          · refine .inl ⟨w, .rest ds, hrun, rfl, ?_⟩
            rcases hw with rfl | ⟨b, hb, rfl, h⟩
            · exact .items hxs
            · exact .array hb h hxs
          · exact .inr ⟨by decide, hrun⟩
      | select source f g =>
          obtain ⟨v', hv, hv'⟩ := hv
          exact hquery hv rfl (.select (.pending hv' hq.1) hq.2) fun _ => rfl
      | filter source p q =>
          obtain ⟨v', hv, hv'⟩ := hv
          exact hquery hv rfl (.filter (.pending hv' hq.1) hq.2) fun _ => rfl
      | concat first second =>
          obtain ⟨v', v'', hv, hv', hv''⟩ := hv
          exact hquery hv rfl (.chain (.pending hv' hq.1) (.pending hv'' hq.2)) fun _ => rfl
      | take source count =>
          obtain ⟨v', hv, hv'⟩ := hv
          exact hquery hv rfl (.take _ (.pending hv' hq.1)) fun _ =>
            (exec_bind_ok (exec_elementCount (lt_of_natAbs_lt hq.2) s) _).trans rfl
      | skip source count =>
          obtain ⟨v', hv, hv'⟩ := hv
          exact hquery hv rfl (.skip _ (.pending hv' hq.1)) fun _ =>
            (exec_bind_ok (exec_elementCount (lt_of_natAbs_lt hq.2) s) _).trans rfl

theorem pulls_pull (h : Reads m B s w r) (hc : Contains m s c) (hB : ∀ d ∈ c, B d) (k : Nat) :
    Pulls m B c r s k (need c r) (s.exec (pull k w)) := by
  induction k using Nat.strong_induction_on generalizing s w r with
  | _ k ih =>
    cases k with
    | zero => exact .deep (need_pos c r) (.refl s) h.quiet
    | succ k =>
        have hinner {s : Session} {w : Walk} {r : Reader D} (h : Reads m B s w r) (hc : Contains m s c) :
            Pulls m B c r s k (need c r) (s.exec (pull k w)) := ih k (Nat.lt_succ_self k) h hc
        cases h with
        | own next => exact pulls_own hc next
        | array hb h hds => exact pulls_array hb h hds
        | items hds => exact pulls_items hds
        | guarded h => exact (pulls_guarded (hinner h hc)).passed_on (.refl s) rfl rfl (by rw [need]; omega)
        | select h hf => exact pulls_select hB hf (hinner h hc)
        | filter h hp => exact pulls_filter hB hp (hinner h hc) fun hext h => hinner h (hc.extends hext)
        | chain h h' =>
            exact pulls_chain h' (hinner h hc) fun hext =>
              hinner (h'.beside (beside_of_extends hext)) (hc.extends hext)
        | take count h => exact pulls_take count h (hinner h hc)
        | skip count h => exact pulls_skip count (hinner h hc) fun hext h => hinner h (hc.extends hext)
        | @pending v q hv hq =>
            obtain ⟨w, r, hopen, hr, hw⟩ | ⟨hk, hopen⟩ := exec_openWalk_start hv hq k
            · have hrun : s.exec (pull (k + 1) (.pending v)) = s.exec (pull k (.guarded w)) :=
                (exec_bind_ok (exec_outcome hopen) _).trans rfl
              rw [hrun, hr]
              cases k with
              | zero =>
                  have hpos := need_pos c r
                  exact .deep (by rw [need]; omega) (.refl s) hw.quiet
              | succ k =>
                  have hguard := pulls_guarded (ih k (by omega) hw hc)
                  exact hguard.passed_on (.refl s) rfl rfl (by rw [need]; omega)
            · have hrun : s.exec (pull (k + 1) (.pending v)) = (.ok (.error (.misuse .tooDeep), .ended), s) :=
                (exec_bind_ok (exec_outcome hopen) _).trans rfl
              have hneed := q.two_lt_need c
              exact hrun ▸ .deep (by omega) (.refl s) fun _ => rfl

theorem exec_foldWalk_give {σ : Type} {step : σ → Value → Action (Bool × σ)} {state state' : σ} {x : Value}
    {w' : Walk} (h : s.exec (pull k w) = (.ok (.give x w'), t))
    (hstep : t.exec (step state x) = (.ok (true, state'), u)) :
    s.exec (foldWalk step (k + 1) state w) = u.exec (foldWalk step k state' w') :=
  (exec_bind_ok h _).trans ((exec_bind_ok (exec_outcome hstep) _).trans rfl)

/-- What is added is what the query gives while the list grows. By induction on the steps: an element is
added and the rest is added to the longer list. -/
theorem exec_extend (h : Reads m B s w r) (hxs : s.store[a]? = some (.array xs))
    (hc : List.Forall₂ (m.rel s) xs c) (hB : ∀ d ∈ c, B d) (hclosed : ∀ d, Range B r d → B d) (k : Nat) :
    (∃ out ys t, s.exec (foldWalk (fun _ v => do
          assign a (.array ((← get).items a ++ [v]))
          pure (true, ())) k () w) = (.ok (), t) ∧ Grows c r out ∧ Beside a s t ∧
        t.store[a]? = some (.array (xs ++ ys)) ∧ List.Forall₂ (m.rel t) ys out) ∨
      (∃ t, s.exec (foldWalk (fun _ v => do
          assign a (.array ((← get).items a ++ [v]))
          pure (true, ())) k () w) = (.error (.misuse .tooDeep), t)) ∧
        ∀ out, Grows c r out → k < cost c r out := by
  induction k generalizing s w r c xs with
  | zero => exact .inr ⟨⟨s, rfl⟩, fun out _ => Nat.zero_lt_of_lt (need_lt_cost c r out)⟩
  | succ k ih =>
      have hp := pulls_pull h ⟨xs, hxs, hc⟩ hB k
      generalize hres : s.exec (pull k w) = res at hp
      cases hp with
      | @give d ds x w' u hr hext hx hw =>
          have hxs' := hext.kept hxs
          have hsu := beside_of_extends (a := a) hext
          have hput := beside_put hxs' (xs ++ [x])
          have hd : B d := hclosed d (range_of_mem hB (hr ▸ List.mem_cons_self))
          have hstep : u.exec (do
              assign a (.array ((← get).items a ++ [x]))
              pure (true, ())) = (.ok (true, ()), u.put a (.array (xs ++ [x]))) := by
            rw [exec_get_bind, items_eq hxs']
            rfl
          rw [exec_foldWalk_give hres hstep]
          have hall : List.Forall₂ (m.rel (u.put a (.array (xs ++ [x])))) (xs ++ [x]) (c ++ [d]) :=
            List.rel_append (m.stable_all (hsu.trans hput) hc) (.cons (m.stable hput hx) .nil)
          have hB' : ∀ e ∈ c ++ [d], B e := by
            intro e he
            rcases List.mem_append.mp he with he | he
            · exact hB e he
            · rwa [List.mem_singleton.mp he]
          obtain ⟨out, ys, t, hrun, hgrows, hbeside, hstore, hys⟩ | ⟨hrun, hcost⟩ :=
            ih (hw.beside hput) (store_put hxs' _) hall hB' fun e he => hclosed e (range_after he)
          · refine .inl ⟨d :: out, x :: ys, t, hrun, .more hr hgrows, (hsu.trans hput).trans hbeside, ?_, ?_⟩
            · rwa [List.append_cons]
            · exact .cons (m.stable (hput.trans hbeside) hx) hys
          · refine .inr ⟨hrun, fun out hgrows => ?_⟩
            cases hgrows with
            | done hend => cases hr.symm.trans hend
            | more hr' hrest =>
                cases hr.symm.trans hr'
                have hlt := hcost _ hrest
                simp only [cost]
                omega
      | @finish u hr hext =>
          refine .inl ⟨[], [], u, (exec_bind_ok hres _).trans rfl, .done hr, beside_of_extends hext, ?_, .nil⟩
          rw [List.append_nil]
          exact hext.kept hxs
      | deep hk hext hq =>
          refine .inr ⟨⟨_, (exec_bind_ok hres _).trans rfl⟩, fun out _ => ?_⟩
          have hlt := need_lt_cost c r out
          omega

theorem Lazy.Shape.ne_null (h : q.Shape m s v) : v ≠ .null := by
  cases q with
  | own =>
      obtain ⟨_, hv⟩ := h
      rintro rfl
      cases hv
  | other ds =>
      obtain ⟨xs, hv, -⟩ := h
      exact hv.ne_null
  | concat first second =>
      obtain ⟨_, _, hv, -⟩ := h
      rintro rfl
      cases hv
  | _ =>
      obtain ⟨_, hv, -⟩ := h
      rintro rfl
      cases hv

/-- Adding to a list what a query over it gives: the call ends if what the query gives, while the list
grows, comes to an end, and then exactly that has been added; otherwise no number of steps is enough. It is
what the query gave on the old list, if the query concatenates nothing, exactly when the query gives no more
on the longer one. A list that is added to itself is doubled. -/
theorem addRange_grows {list : Nat} {kind : ListKind} (hlist : s.store[list]? = some (.list kind a))
    (hxs : s.store[a]? = some (.array xs)) (hc : List.Forall₂ (m.rel s) xs c) (hB : ∀ d ∈ c, B d)
    (hv : q.Shape m s v) (hq : q.Pure m B s) (hclosed : ∀ d, Range B q.start d → B d)
    (hne : v ≠ .ref list) :
    ((∃ out ys t, s.exec (Methods.call (.ref list) "AddRange" [v]) = (.ok .null, t) ∧
        Grows c q.start out ∧ Beside a s t ∧ t.store[a]? = some (.array (xs ++ ys)) ∧
        List.Forall₂ (m.rel t) ys out) ∨
      (∃ t, s.exec (Methods.call (.ref list) "AddRange" [v]) = (.error (.misuse .tooDeep), t)) ∧
        ∀ out, Grows c q.start out → s.steps < cost c q.start out) ∧
    (q.Unchained → (Grows c q.start (q.toList c) ↔ q.toList (c ++ q.toList c) = q.toList c)) ∧
    s.exec (Methods.call (.ref list) "AddRange" [.ref list]) =
      (.ok .null, s.put a (.array (xs ++ xs))) := by
  have hcall (v : Value) : s.exec (Methods.call (.ref list) "AddRange" [v]) =
      s.exec (Collections.addRange list a v) := (exec_call hlist rfl [v]).trans rfl
  refine ⟨?_, fun h => h.grows_iff c, ?_⟩
  · have hrun : s.exec (Collections.addRange list a v) = s.exec (Collections.extend a v >>= fun _ => done) := by
      rw [Collections.addRange, if_neg (by simpa using hv.ne_null), if_neg (by simpa using hne)]
    rw [hcall, hrun]
    obtain ⟨out, ys, t, ht, hrest⟩ | ⟨⟨t, ht⟩, hcost⟩ :=
      exec_extend (.pending hv hq) hxs hc hB hclosed s.steps
    · have hextend : s.exec (Collections.extend a v) = (.ok (), t) := exec_bind_ok ht _
      exact .inl ⟨out, ys, t, (exec_bind_ok hextend _).trans rfl, hrest⟩
    · have hextend : s.exec (Collections.extend a v) = (.error (.misuse .tooDeep), t) := exec_bind_error ht _
      exact .inr ⟨⟨t, exec_bind_error hextend _⟩, hcost⟩
  · rw [hcall, Collections.addRange, if_neg (by simp), if_pos (by simp), exec_get_bind, items_eq hxs]
    rfl

end

def numbers (a : Nat) : Meaning a Int where
  rel _ v n := v = .int n
  stable _ h := h

/-- The list, a function that adds one, and two queries: the first two elements of the raised list, and the
first three of the list itself. -/
def growing : Session :=
  { start 0 with
    store := #[.array [.int 1], .list .list 0, .function ⟨.add, .int 1, false⟩,
      .sequence (.select (.ref 1) (.ref 2)), .sequence (.take (.ref 3) (.int 2)),
      .sequence (.take (.ref 1) (.int 3))] }

def raisedTwo : Lazy Int := .take (.select .own (.ref 2) (· + 1)) 2

def firstThree : Lazy Int := .take .own 3

theorem maps_raise (n : Int) : (numbers 0).Maps growing (.ref 2) n (n + 1) := by
  rintro t _ ht rfl
  have hf : t.object? (.ref 2) = some (.function ⟨.add, .int 1, false⟩) :=
    ht.object? (s := growing) rfl (fun _ h => nomatch h)
  refine ⟨.int (n + 1), t, ?_, .refl t, rfl⟩
  rw [Enumeration.exec_apply hf (by rw [ht.steps]; decide)]
  rfl

theorem raisedTwo_shape : raisedTwo.Shape (numbers 0) growing (.ref 4) :=
  ⟨.ref 3, rfl, .ref 1, rfl, .list, rfl⟩

theorem firstThree_shape : firstThree.Shape (numbers 0) growing (.ref 5) :=
  ⟨.ref 1, rfl, .list, rfl⟩

theorem raisedTwo_pure : raisedTwo.Pure (numbers 0) (fun _ => True) growing :=
  ⟨⟨trivial, fun n _ => maps_raise n⟩, by decide⟩

/-- The second element that is added is made of the first one. -/
theorem addRange_grows_raised :
    raisedTwo.Shape (numbers 0) growing (.ref 4) ∧ raisedTwo.Pure (numbers 0) (fun _ => True) growing ∧
      ∃ t, growing.exec (Methods.call (.ref 1) "AddRange" [.ref 4]) = (.ok .null, t) ∧
        t.store[0]? = some (.array [.int 1, .int 2, .int 3]) := by
  refine ⟨raisedTwo_shape, raisedTwo_pure, ?_⟩
  have hgrows : Grows [1] raisedTwo.start [2, 3] := .more rfl (.more rfl (.done rfl))
  have hcost : cost [1] raisedTwo.start [2, 3] ≤ growing.steps := by decide
  have hlist : growing.store[1]? = some (.list .list 0) := rfl
  have hxs : growing.store[0]? = some (.array [.int 1]) := rfl
  have hone : List.Forall₂ ((numbers 0).rel growing) [.int 1] [1] := .cons rfl .nil
  obtain ⟨⟨out, ys, t, hrun, hout, -, hstore, hys⟩ | ⟨-, hdeep⟩, -⟩ :=
    addRange_grows hlist hxs hone (fun _ _ => trivial) raisedTwo_shape raisedTwo_pure (fun _ _ => trivial) (by decide)
  · obtain rfl := hout.unique hgrows
    obtain _ | ⟨rfl, _ | ⟨rfl, _ | _⟩⟩ := hys
    exact ⟨t, hrun, hstore⟩
  · exact absurd (hdeep _ hgrows) (Nat.not_lt.mpr hcost)

/-- A query for more elements than there are comes to those that it has added. -/
theorem addRange_overruns :
    firstThree.Shape (numbers 0) growing (.ref 5) ∧ firstThree.toList [1] = [1] ∧
      ∃ t, growing.exec (Methods.call (.ref 1) "AddRange" [.ref 5]) = (.ok .null, t) ∧
        t.store[0]? = some (.array [.int 1, .int 1, .int 1, .int 1]) :=
  ⟨firstThree_shape, rfl, _, rfl, rfl⟩

end BaseLib.Feedback
