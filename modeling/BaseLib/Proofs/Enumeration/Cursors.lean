import BaseLib.Proofs.Enumeration.Integers

namespace BaseLib.Enumeration

open Session Library

variable {D : Type} {m : Meaning D} {s t : Session} {id n : Nat} {v : Value} {d : D} {ds : List D}

structure Moved (id : Nat) (s t : Session) : Prop where
  later : Later s t
  kept : ∀ {i : Nat} {o : Object}, i ≠ id → s.store[i]? = some o → t.store[i]? = some o

def Stands (m : Meaning D) (n : Nat) (s : Session) (id : Nat) (ds : List D) : Prop :=
  ∃ c, s.store[id]? = some (.cursor c) ∧
    (c.state ≠ .exhausted ∧ Yields m n s c.walk ds ∨ c.state = .exhausted ∧ ds = [])

theorem Stands.later (h : Stands m n s id ds) (hst : Later s t)
    (hid : t.store[id]? = s.store[id]?) : Stands m n t id ds := by
  obtain ⟨c, hc, h⟩ := h
  exact ⟨c, hid.trans hc, h.imp_left fun h => ⟨h.1, h.2.later hst⟩⟩

theorem Stands.extends (h : Stands m n s id ds) (hst : Extends s t) : Stands m n t id ds := by
  have ⟨c, hc, _⟩ := h
  exact h.later hst.later ((hst.kept hc).trans hc.symm)

theorem Stands.moved {i : Nat} (h : Stands m n s i ds) (hi : i ≠ id) (hst : Moved id s t) :
    Stands m n t i ds := by
  have ⟨c, hc, _⟩ := h
  exact h.later hst.later ((hst.kept hi hc).trans hc.symm)

theorem moved_of_pull {c c' c'' : Cursor} (h : s.store[id]? = some (.cursor c))
    (hext : Extends (s.put id (.cursor c')) t) : Moved id s (t.put id (.cursor c'')) := by
  refine ⟨((later_put h (.cursor c c')).trans hext.later).trans
    (later_put (hext.kept (store_put h _)) (.cursor c' c'')), ?_⟩
  intro i o hi ho
  rw [store_put_ne hi]
  exact hext.kept ((store_put_ne hi _).trans ho)

theorem Stands.move_cons (h : Stands m n s id (d :: ds)) (hn : n < s.steps) :
    ∃ x t, s.exec (Methods.call (.ref id) "MoveNext" []) = (.ok (.bool true), t) ∧
      t.exec (Properties.read (.ref id) "Current") = (.ok x, t) ∧ m.rel t x d ∧ Moved id s t ∧
      Stands m n t id ds := by
  obtain ⟨c, hc, ⟨hstate, hw⟩ | ⟨-, hnil⟩⟩ := h
  · obtain ⟨k, hk⟩ : ∃ k, s.steps = k + 1 := ⟨s.steps - 1, by omega⟩
    obtain ⟨x, w, u, hu, hext, hx, hw'⟩ := hw.2 _ (later_put hc (.cursor c c.moving)) k (by omega)
    have hcu := hext.kept (store_put hc _)
    have hlater := later_put hcu (.cursor _ (c.positioned x w))
    have hadvance := hk ▸ exec_advance_give hc hstate hu
    have hput := store_put hcu (.cursor (c.positioned x w))
    exact ⟨x, _, exec_moveNext hc hadvance, exec_current hput rfl, m.stable hlater hx,
      moved_of_pull hc hext, _, hput, .inl ⟨by simp [Cursor.positioned], hw'.later hlater⟩⟩
  · cases hnil

theorem Stands.move_nil (h : Stands m n s id []) (hn : n < s.steps) :
    ∃ t, s.exec (Methods.call (.ref id) "MoveNext" []) = (.ok (.bool false), t) ∧ Moved id s t ∧
      Stands m n t id [] := by
  obtain ⟨k, hk⟩ : ∃ k, s.steps = k + 1 := ⟨s.steps - 1, by omega⟩
  obtain ⟨c, hc, ⟨hstate, hw⟩ | ⟨hstate, -⟩⟩ := h
  · obtain ⟨u, hu, hext⟩ := hw.2 _ (later_put hc (.cursor c c.moving)) k (by omega)
    have hadvance := hk ▸ exec_advance_finish hc hstate hu rfl
    have hput := store_put (hext.kept (store_put hc _)) (.cursor c.finished)
    exact ⟨_, exec_moveNext hc hadvance, moved_of_pull hc hext, _, hput, .inr ⟨rfl, rfl⟩⟩
  · have hadvance := hk ▸ exec_advance_exhausted hc hstate k
    exact ⟨s, exec_moveNext hc hadvance, ⟨.refl s, fun _ h => h⟩, c, hc, .inr ⟨hstate, rfl⟩⟩

theorem exec_newCursor (hv : Opens m n s v ds) (hn : n ≤ s.steps) :
    ∃ id t, s.exec (Catalogue.call "get_enumerator" [v]) = (.ok (.ref id), t) ∧ Extends s t ∧
      s.store[id]? = none ∧ Stands m n t id ds := by
  have hcall : Catalogue.call "get_enumerator" [v] = newCursor v := rfl
  obtain ⟨w, u, hu, hext, hw⟩ := hv s (.refl s) s.steps hn
  have hgrow := extends_grow u (.cursor (.start (s.cursorKind v) w))
  refine ⟨u.store.size, _, ?_, hext.trans hgrow, ?_, _, store_grow u _,
    .inl ⟨by simp [Cursor.start], hw.later hgrow.later⟩⟩
  · rw [hcall, newCursor, exec_get_bind, exec_bind_ok hu, exec_alloc]
  by_contra hne
  obtain ⟨o, ho⟩ := Option.ne_none_iff_exists'.mp hne
  simpa using hext.kept ho

theorem exec_toArray (hv : Opens m n s v ds) (hnull : v ≠ .null) (hn : n + ds.length + 3 ≤ s.steps) :
    ∃ id xs t, s.exec (Catalogue.call "Enumerable.ToArray" [v]) = (.ok (.ref id), t) ∧ Extends s t ∧
      t.store[id]? = some (.array xs) ∧ List.Forall₂ (m.rel t) xs ds := by
  obtain ⟨xs, u, hu, hext, hxs⟩ := exec_drain (k := s.steps) (yields_pending hv) (by omega)
  have hrequired := exec_notNull hnull s "source"
  have hgrow := extends_grow u (.array xs)
  refine ⟨u.store.size, xs, _, ?_, hext.trans hgrow, store_grow u _, m.stable_all hgrow.later hxs⟩
  refine (exec_bind_ok hrequired _).trans ((exec_bind_ok (x := xs) (t := u) ?_ _).trans rfl)
  rw [elements, exec_get_bind, hu]

/-- What a session does with a query: it takes another cursor, reads the whole list, or moves one of its
cursors; or something else comes between, and the cursors stand where they stood. -/
inductive Use
  | enumerate
  | collect
  | move (i : Nat)
  | pass (t : Session)

/-- However a query is used, each cursor, kept here with the data that it has left, delivers these one
after the other and then no more. A new cursor has the whole list. -/
def Serves (m : Meaning D) (v : Value) (ds : List D) : List Use → Session → List (Nat × List D) → Prop
  | [], _, _ => True
  | .enumerate :: rest, s, cursors =>
    ∃ id t, s.exec (Catalogue.call "get_enumerator" [v]) = (.ok (.ref id), t) ∧
      Serves m v ds rest t (cursors ++ [(id, ds)])
  | .collect :: rest, s, cursors =>
    ∃ id xs t, s.exec (Catalogue.call "Enumerable.ToArray" [v]) = (.ok (.ref id), t) ∧
      t.store[id]? = some (.array xs) ∧ List.Forall₂ (m.rel t) xs ds ∧ Serves m v ds rest t cursors
  | .move i :: rest, s, cursors =>
    match cursors[i]? with
    | some (id, d :: left) =>
      ∃ x t, s.exec (Methods.call (.ref id) "MoveNext" []) = (.ok (.bool true), t) ∧
        t.exec (Properties.read (.ref id) "Current") = (.ok x, t) ∧ m.rel t x d ∧
        Serves m v ds rest t (cursors.set i (id, left))
    | some (id, []) =>
      ∃ t, s.exec (Methods.call (.ref id) "MoveNext" []) = (.ok (.bool false), t) ∧
        Serves m v ds rest t cursors
    | none => Serves m v ds rest s cursors
  | .pass t :: rest, s, cursors =>
    Later s t → (∀ c ∈ cursors, t.store[c.1]? = s.store[c.1]?) → Serves m v ds rest t cursors

structure Apart (m : Meaning D) (n : Nat) (s : Session) (cursors : List (Nat × List D)) : Prop where
  stands : ∀ c ∈ cursors, Stands m n s c.1 c.2
  distinct : (cursors.map (·.1)).Nodup

variable {cursors : List (Nat × List D)}

theorem Apart.extends (h : Apart m n s cursors) (hst : Extends s t) : Apart m n t cursors :=
  ⟨fun c hc => (h.stands c hc).extends hst, h.distinct⟩

theorem Apart.add (h : Apart m n s cursors) (hst : Extends s t) (hid : s.store[id]? = none)
    (hs : Stands m n t id ds) : Apart m n t (cursors ++ [(id, ds)]) := by
  refine ⟨fun c hc => ?_, ?_⟩
  · rcases List.mem_append.mp hc with hc | hc
    · exact (h.stands c hc).extends hst
    · obtain rfl := List.mem_singleton.mp hc
      exact hs
  · rw [List.map_append, List.nodup_append]
    refine ⟨h.distinct, by simp, fun i hi j hj hij => ?_⟩
    obtain ⟨c, hc, rfl⟩ := List.mem_map.mp hi
    obtain rfl : j = id := by simpa using hj
    obtain ⟨o, ho, -⟩ := h.stands c hc
    rw [hij, hid] at ho
    cases ho

theorem Apart.set {i : Nat} {left : List D} (h : Apart m n s cursors) (hi : cursors[i]? = some (id, ds))
    (hst : Moved id s t) (hs : Stands m n t id left) : Apart m n t (cursors.set i (id, left)) := by
  obtain ⟨hlt, hget⟩ := List.getElem?_eq_some_iff.mp hi
  have hlt' : i < (cursors.map (·.1)).length := by simpa using hlt
  have hids : (cursors.set i (id, left)).map (·.1) = cursors.map (·.1) := by
    rw [List.map_set, show id = (cursors.map (·.1))[i] by simp [hget], List.set_getElem_self]
  refine ⟨fun c hc => ?_, hids ▸ h.distinct⟩
  obtain ⟨j, hj, rfl⟩ := List.getElem_of_mem hc
  rw [List.length_set] at hj
  rw [List.getElem_set]
  split
  · exact hs
  · rename_i hij
    have hj' : j < (cursors.map (·.1)).length := by simpa using hj
    refine (h.stands _ (List.getElem_mem hj)).moved (fun heq => hij ?_) hst
    have hsame : (cursors.map (·.1))[i] = (cursors.map (·.1))[j] := by simp [hget, heq]
    exact h.distinct.getElem_inj_iff.mp hsame

theorem serves_of_opens (hv : Opens m n s v ds) (hnull : v ≠ .null) (hn : n + ds.length + 3 ≤ s.steps)
    (h : Apart m n s cursors) (uses : List Use) : Serves m v ds uses s cursors := by
  induction uses generalizing s cursors with
  | nil => trivial
  | cons use rest ih =>
      have hlater {t : Session} {cursors : List (Nat × List D)} (hst : Later s t)
          (h : Apart m n t cursors) : Serves m v ds rest t cursors :=
        ih (hv.later hst) (by rw [hst.steps]; exact hn) h
      cases use with
      | enumerate =>
          obtain ⟨id, t, ht, hext, hid, hs⟩ := exec_newCursor hv (by omega)
          exact ⟨id, t, ht, hlater hext.later (h.add hext hid hs)⟩
      | collect =>
          obtain ⟨id, xs, t, ht, hext, hid, hxs⟩ := exec_toArray hv hnull hn
          exact ⟨id, xs, t, ht, hid, hxs, hlater hext.later (h.extends hext)⟩
      | move i =>
          rw [Serves]
          rcases hi : cursors[i]? with _ | ⟨id, _ | ⟨d, left⟩⟩
          · exact hlater (.refl s) h
          · have hs := h.stands _ (List.mem_of_getElem? hi)
            obtain ⟨t, ht, hmoved, hs'⟩ := hs.move_nil (by omega)
            obtain ⟨hlt, hget⟩ := List.getElem?_eq_some_iff.mp hi
            have hset := h.set hi hmoved hs'
            rw [← hget, List.set_getElem_self] at hset
            exact ⟨t, ht, hlater hmoved.later hset⟩
          · have hs := h.stands _ (List.mem_of_getElem? hi)
            obtain ⟨x, t, ht, hcurrent, hx, hmoved, hs'⟩ := hs.move_cons (by omega)
            exact ⟨x, t, ht, hcurrent, hx, hlater hmoved.later (h.set hi hmoved hs')⟩
      | pass t =>
          intro hst hkept
          exact hlater hst ⟨fun c hc => (h.stands c hc).later hst (hkept c hc), h.distinct⟩

/-- A query whose functions change nothing and do not fail is its list: cursors over it that take turns,
with other enumerations between their moves, deliver the whole list each. -/
theorem serves_query {p : Plan D} (hr : p.Rooted m s) (hl : p.Lawful m s)
    (hs : p.steps m.same + (p.toList m.same).length + 3 ≤ s.steps) :
    ∃ v t, s.exec p.build = (.ok v, t) ∧ ∀ uses, Serves m v (p.toList m.same) uses t [] := by
  obtain ⟨v, t, ht, hext, hv⟩ := Plan.exec_build hr hl
  have hopens := Plan.opens (hl.later hext.later) hv
  exact ⟨v, t, ht, serves_of_opens hopens hv.ne_null (by rw [hext.steps]; exact hs) ⟨by simp, by simp⟩⟩

/-- An array, and functions for queries over it. -/
def workshop : Session :=
  { start 0 with
    store := #[.array [.int 3, .int 1, .int 2], .function ⟨.add, .int 1, false⟩,
      .function ⟨.gt, .int 2, false⟩, .function ⟨.id, .null, false⟩, .function ⟨.dup, .null, false⟩] }

def tour : Plan Int :=
  let array : Plan Int := .items (.ref 0) [3, 1, 2]
  let raised : Plan Int := .filter (.select array (.ref 1) (· + 1)) (.ref 2) (2 < ·)
  let falling : Plan Int := .ordered (.reverse array) (.ref 3) true fun a b => (a - b).sign
  let doubled : Plan Int := .flatten falling (.ref 4) .null false (fun n _ => .items .null [n, n]) fun _ n => n
  .take (.distinct (.concat (.skip raised (-1)) doubled)) 4

theorem tour_toList : tour.toList integers.same = [4, 3, 2, 1] := by decide +kernel

theorem tour_rooted : tour.Rooted integers workshop := by
  have harray : workshop.Holds (.ref 0) [.int 3, .int 1, .int 2] := .array rfl
  exact ⟨⟨_, harray, .cons rfl (.cons rfl (.cons rfl .nil))⟩,
    ⟨_, harray, .cons rfl (.cons rfl (.cons rfl .nil))⟩⟩

theorem tour_lawful : tour.Lawful integers workshop := by
  have hdup : workshop.object? (.ref 4) = some (.function ⟨.dup, .null, false⟩) := rfl
  refine ⟨⟨⟨⟨⟨⟨trivial, ?_⟩, ?_⟩, by decide⟩, ⟨⟨trivial, ?_⟩, ?_, ?_, ?_⟩⟩, ?_⟩, by decide⟩
  · exact fun n _ => maps_add rfl (by decide) n
  · exact fun n _ => tests_gt rfl (by decide) n
  · exact fun a _ b _ => compares_id (v := .null) rfl (by decide) a b
  · intro t ht
    rw [takesIndex, ht.object?_of_still hdup rfl]
    rfl
  · rintro x - t v ht rfl
    obtain ⟨y, u, hu, hext, hy⟩ :=
      exec_dup (ht.object?_of_still hdup rfl) (by rw [ht.steps]; decide) (.int x.1)
    exact ⟨y, u, hu, hext, ⟨_, hy, .cons rfl (.cons rfl .nil)⟩, trivial⟩
  · exact fun x _ n _ => ⟨fun _ => rfl, fun h => absurd rfl h⟩
  · exact tells_integers _ _

theorem serves_query_tour :
    tour.Rooted integers workshop ∧ tour.Lawful integers workshop ∧
      tour.steps integers.same + (tour.toList integers.same).length + 3 ≤ workshop.steps ∧
      ∃ v t, workshop.exec tour.build = (.ok v, t) ∧ ∀ uses, Serves integers v [4, 3, 2, 1] uses t [] := by
  have hs : tour.steps integers.same + (tour.toList integers.same).length + 3 ≤ workshop.steps := by
    decide +kernel
  have h := serves_query tour_rooted tour_lawful hs
  rw [tour_toList] at h
  exact ⟨tour_rooted, tour_lawful, hs, h⟩

end BaseLib.Enumeration
