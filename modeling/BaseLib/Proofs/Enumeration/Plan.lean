import BaseLib.Library.Catalogue
import BaseLib.Proofs.Enumeration.Sorted

namespace BaseLib

namespace Session

/-- A source that can be read again and again, and its elements. -/
inductive Holds (s : Session) : Value → List Value → Prop
  | array {id : Nat} {xs : List Value} (h : s.store[id]? = some (.array xs)) : Holds s (.ref id) xs
  | list {id storage : Nat} {kind : ListKind} {xs : List Value}
      (h : s.store[id]? = some (.list kind storage)) (hxs : s.store[storage]? = some (.array xs)) :
      Holds s (.ref id) xs
  | view {id array : Nat} {xs : List Value} (h : s.store[id]? = some (.arrayView (.ref array)))
      (hxs : s.store[array]? = some (.array xs)) : Holds s (.ref id) xs
  | tuple {id : Nat} {xs : List Value} (h : s.store[id]? = some (.tuple xs)) : Holds s (.ref id) xs
  | hashSet {id : Nat} {members : Table Value Value} (h : s.store[id]? = some (.hashSet members)) :
      Holds s (.ref id) members.values
  | text (t : List Char) : Holds s (.text t) (t.map fun c => .text [c])

theorem Holds.later {s t : Session} {v : Value} {xs : List Value} (h : s.Holds v xs)
    (hst : Later s t) : t.Holds v xs := by
  cases h with
  | array h => exact .array (hst.kept_of_still h rfl)
  | list h hxs => exact .list (hst.kept_of_still h rfl) (hst.kept_of_still hxs rfl)
  | view h hxs => exact .view (hst.kept_of_still h rfl) (hst.kept_of_still hxs rfl)
  | tuple h => exact .tuple (hst.kept_of_still h rfl)
  | hashSet h => exact .hashSet (hst.kept_of_still h rfl)
  | text t => exact .text t

theorem Holds.ne_null {s : Session} {v : Value} {xs : List Value} (h : s.Holds v xs) : v ≠ .null := by
  cases h <;> simp

end Session

namespace Enumeration

open Session Library

/-- How a query is built, and what the functions in it do to the data that values stand for. -/
inductive Plan (D : Type)
  /-- A source of known elements; a query that is built with it is built from `v`. -/
  | items (v : Value) (ds : List D)
  | select (source : Plan D) (f : Value) (g : D → D)
  | filter (source : Plan D) (p : Value) (q : D → Bool)
  /-- `f` leads from an element, and its place if `indexed` holds, to the elements of another plan. -/
  | flatten (source : Plan D) (f combine : Value) (indexed : Bool) (h : D → Nat → Plan D)
    (c : D → D → D)
  | concat (first second : Plan D)
  | take (source : Plan D) (count : Int)
  | skip (source : Plan D) (count : Int)
  | distinct (source : Plan D)
  | reverse (source : Plan D)
  | ordered (source : Plan D) (f : Value) (descending : Bool) (cmp : D → D → Int)

namespace Plan

variable {D : Type}

/-- The list of a query: the list functions of its members, one inside the other. -/
def toList (same : D → D → Bool) : Plan D → List D
  | items _ ds => ds
  | select source _ g => (source.toList same).map g
  | filter source _ q => (source.toList same).filter q
  | flatten source _ _ _ h c =>
    (source.toList same).zipIdx.flatMap fun x => ((h x.1 x.2).toList same).map (c x.1)
  | concat first second => first.toList same ++ second.toList same
  | take source count => (source.toList same).take count.toNat
  | skip source count => (source.toList same).drop count.toNat
  | distinct source => distinctFrom same [] (source.toList same)
  | reverse source => (source.toList same).reverse
  | ordered source _ descending cmp => Sorting.arrangeBy [(descending, cmp)] (source.toList same)

/-- Steps that are enough for a pull: a walk over a source may pass over all its elements. -/
def steps (same : D → D → Bool) : Plan D → Nat
  | items _ _ => 2
  | select source _ _ | filter source _ _ | take source _ | skip source _ | distinct source
  | reverse source | ordered source _ _ _ => source.steps same + (source.toList same).length + 5
  | flatten source _ _ _ h _ =>
    max (source.steps same)
      (((source.toList same).zipIdx.map fun x => (h x.1 x.2).steps same).foldr max 0) +
      (source.toList same).length + 5
  | concat first second => max (first.steps same) (second.steps same) + 5

def build : Plan D → Action Value
  | items v _ => pure v
  | select source f _ => do Catalogue.call "Enumerable.Select" [← source.build, f]
  | filter source p _ => do Catalogue.call "Enumerable.Where" [← source.build, p]
  | flatten source f combine _ _ _ => do
    Catalogue.call "Enumerable.SelectMany" [← source.build, f, combine]
  | concat first second => do
    let v ← first.build
    Catalogue.call "Enumerable.Concat" [v, ← second.build]
  | take source count => do Catalogue.call "Enumerable.Take" [← source.build, .int count]
  | skip source count => do Catalogue.call "Enumerable.Skip" [← source.build, .int count]
  | distinct source => do Catalogue.call "Enumerable.Distinct" [← source.build]
  | reverse source => do Catalogue.call "Enumerable.Reverse" [← source.build]
  | ordered source f descending _ => do
    let v ← source.build
    Catalogue.call (if descending then "Enumerable.OrderByDescending" else "Enumerable.OrderBy") [v, f]

def Shape (m : Meaning D) : Plan D → Session → Value → Prop
  | items _ ds, s, w => ∃ xs, s.Holds w xs ∧ List.Forall₂ (m.rel s) xs ds
  | select source f _, s, w => ∃ v, s.object? w = some (.sequence (.select v f)) ∧ source.Shape m s v
  | filter source p _, s, w => ∃ v, s.object? w = some (.sequence (.filter v p)) ∧ source.Shape m s v
  | flatten source f combine indexed _ _, s, w =>
    ∃ v, s.object? w = some (.sequence (.flatten v f indexed combine)) ∧ source.Shape m s v
  | concat first second, s, w =>
    ∃ v v', s.object? w = some (.sequence (.concat v v')) ∧ first.Shape m s v ∧ second.Shape m s v'
  | take source count, s, w =>
    ∃ v, s.object? w = some (.sequence (.take v (.int count))) ∧ source.Shape m s v
  | skip source count, s, w =>
    ∃ v, s.object? w = some (.sequence (.skip v (.int count))) ∧ source.Shape m s v
  | distinct source, s, w => ∃ v, s.object? w = some (.sequence (.distinct v)) ∧ source.Shape m s v
  | reverse source, s, w => ∃ v, s.object? w = some (.sequence (.reverse v)) ∧ source.Shape m s v
  | ordered source f descending _, s, w =>
    ∃ v, s.object? w = some (.sequence (.ordered v [(f, descending)])) ∧ source.Shape m s v

/-- The sources that the query is built from have the elements of the plan. -/
def Rooted (m : Meaning D) : Plan D → Session → Prop
  | items v ds, s => ∃ xs, s.Holds v xs ∧ List.Forall₂ (m.rel s) xs ds
  | select source _ _, s | filter source _ _, s | flatten source _ _ _ _ _, s | take source _, s
  | skip source _, s | distinct source, s | reverse source, s | ordered source _ _ _, s =>
    source.Rooted m s
  | concat first second, s => first.Rooted m s ∧ second.Rooted m s

/-- The functions of the query change no object, do not fail, and do to values what the plan says they do
to data; counts are below 2^63 in magnitude. -/
def Lawful (m : Meaning D) : Plan D → Session → Prop
  | items _ _, _ => True
  | select source f g, s =>
    source.Lawful m s ∧ ∀ d ∈ source.toList m.same, m.Maps s f [d] (g d)
  | filter source p q, s =>
    source.Lawful m s ∧ ∀ d ∈ source.toList m.same, m.Tests s p d (q d)
  | flatten source f combine indexed h c, s =>
    source.Lawful m s ∧ (∀ t, Later s t → t.takesIndex f = indexed) ∧
      (∀ x ∈ (source.toList m.same).zipIdx, ∀ t v, Later s t → m.rel t v x.1 → ∃ y u,
        t.exec (apply f (if indexed then [v, .int x.2] else [v])) = (.ok y, u) ∧ Extends t u ∧
          (h x.1 x.2).Shape m u y ∧ (h x.1 x.2).Lawful m u) ∧
      ∀ x ∈ (source.toList m.same).zipIdx, ∀ d ∈ (h x.1 x.2).toList m.same,
        m.Combines s combine c x.1 d
  | concat first second, s => first.Lawful m s ∧ second.Lawful m s
  | take source count, s | skip source count, s => source.Lawful m s ∧ count.natAbs < 2 ^ 63
  | distinct source, s => source.Lawful m s ∧ m.Tells s (source.toList m.same)
  | reverse source, s => source.Lawful m s
  | ordered source f _ cmp, s => source.Lawful m s ∧
      ∀ d ∈ source.toList m.same, ∀ e ∈ source.toList m.same, m.Compares s f cmp d e

variable {m : Meaning D} {s t : Session} {v w : Value} {p : Plan D} {xs : List Value} {ds : List D}
  {n : Nat}

theorem Shape.later (h : p.Shape m s v) (hst : Later s t) : p.Shape m t v := by
  induction p generalizing v with
  | items _ _ =>
      obtain ⟨xs, hv, hxs⟩ := h
      exact ⟨xs, hv.later hst, m.stable_all hst hxs⟩
  | select _ _ _ ih | filter _ _ _ ih | flatten _ _ _ _ _ _ ih _ | take _ _ ih | skip _ _ ih
  | distinct _ ih | reverse _ ih | ordered _ _ _ _ ih =>
      obtain ⟨v, hv, h⟩ := h
      exact ⟨v, hst.object?_of_still hv rfl, ih h⟩
  | concat _ _ ih ih' =>
      obtain ⟨v, v', hv, h, h'⟩ := h
      exact ⟨v, v', hst.object?_of_still hv rfl, ih h, ih' h'⟩

theorem Rooted.later (h : p.Rooted m s) (hst : Later s t) : p.Rooted m t := by
  induction p with
  | items _ _ =>
      obtain ⟨xs, hv, hxs⟩ := h
      exact ⟨xs, hv.later hst, m.stable_all hst hxs⟩
  | select _ _ _ ih | filter _ _ _ ih | flatten _ _ _ _ _ _ ih _ | take _ _ ih | skip _ _ ih
  | distinct _ ih | reverse _ ih | ordered _ _ _ _ ih => exact ih h
  | concat _ _ ih ih' => exact ⟨ih h.1, ih' h.2⟩

theorem Lawful.later (h : p.Lawful m s) (hst : Later s t) : p.Lawful m t := by
  induction p with
  | items _ _ => trivial
  | select _ _ _ ih => exact ⟨ih h.1, fun d hd => (h.2 d hd).later hst⟩
  | filter _ _ _ ih => exact ⟨ih h.1, fun d hd => (h.2 d hd).later hst⟩
  | flatten _ _ _ _ _ _ ih _ =>
      obtain ⟨hs, hi, hf, hc⟩ := h
      exact ⟨ih hs, fun u hu => hi u (hst.trans hu), fun x hx u v hu => hf x hx u v (hst.trans hu),
        fun x hx d hd => (hc x hx d hd).later hst⟩
  | concat _ _ ih ih' => exact ⟨ih h.1, ih' h.2⟩
  | take _ _ ih | skip _ _ ih => exact ⟨ih h.1, h.2⟩
  | distinct _ ih => exact ⟨ih h.1, h.2.later hst⟩
  | reverse _ ih => exact ih h
  | ordered _ _ _ _ ih => exact ⟨ih h.1, fun d hd e he => (h.2 d hd e he).later hst⟩

theorem exec_openWalk_array {id : Nat} (h : s.store[id]? = some (.array xs)) (k : Nat) :
    s.exec (openWalk (k + 1) (.ref id)) = (.ok (.live id 0), s) := by
  rw [openWalk, exec_get_bind]
  simp only [object?, h, foreignWalk]
  rw [exec_get_bind]
  simp only [h]
  rfl

theorem opens_items (hv : s.Holds v xs) (hxs : List.Forall₂ (m.rel s) xs ds) : Opens m 2 s v ds := by
  intro t ht k hk
  obtain ⟨k, rfl⟩ : ∃ i, k = i + 2 := ⟨k - 2, by omega⟩
  have hxs := m.stable_all ht hxs
  have hlive {id : Nat} (h : t.store[id]? = some (.array xs)) : Yields m 2 t (.live id 0) ds :=
    (yields_live h hxs).mono (by omega)
  cases hv.later ht with
  | @array id _ h => exact ⟨.live id 0, t, exec_openWalk_array h _, .refl t, hlive h⟩
  | @list id storage _ _ h hstorage =>
      refine ⟨.live storage 0, t, ?_, .refl t, hlive hstorage⟩
      rw [openWalk, exec_get_bind]
      simp only [object?, h]
      rfl
  | @view id array _ h harray =>
      refine ⟨.live array 0, t, ?_, .refl t, hlive harray⟩
      rw [openWalk, exec_get_bind]
      simp only [object?, h]
      exact exec_openWalk_array harray k
  | tuple h =>
      refine ⟨.items xs, t, ?_, .refl t, (yields_items hxs).mono (by omega)⟩
      rw [openWalk, exec_get_bind]
      simp only [object?, h, foreignWalk]
      rw [exec_get_bind]
      simp only [h]
      rfl
  | hashSet h =>
      refine ⟨.items _, t, ?_, .refl t, (yields_items hxs).mono (by omega)⟩
      rw [openWalk, exec_get_bind]
      simp only [object?, h]
      rfl
  | text c => exact ⟨.items _, t, rfl, .refl t, (yields_items hxs).mono (by omega)⟩

theorem exec_openWalk {q : Query} (h : s.object? v = some (.sequence q)) (k : Nat) :
    s.exec (openWalk (k + 1) v) = s.exec (openQuery k q) := by
  rw [openWalk, exec_get_bind]
  simp only [h]

theorem opens_of_yields {q : Query} (h : s.object? v = some (.sequence q)) (w : Walk)
    (hq : ∀ t : Session, ∀ k, t.exec (openQuery (k + 1) q) = (.ok w, t)) (hn : 2 ≤ n)
    (hw : Yields m n s w ds) : Opens m n s v ds := by
  intro t ht k hk
  obtain ⟨k, rfl⟩ : ∃ i, k = i + 2 := ⟨k - 2, by omega⟩
  refine ⟨w, t, ?_, .refl t, hw.later ht⟩
  rw [exec_openWalk (ht.object?_of_still h rfl), hq]

theorem lt_of_natAbs_lt {count : Int} {n : Nat} (h : count.natAbs < n) : count < n :=
  Int.lt_of_le_of_lt Int.le_natAbs (Int.ofNat_lt.mpr h)

theorem elementCount_int (s : Session) (count : Int) :
    elementCount s (.int count) =
      if count < 2 ^ 63 then .ok count.toNat else .error (.misuse .badValue) := by
  show (do
    if ← s.order .gt (.int 0) (.int count) then pure 0
    else if count ≤ 9223372036854775807 then Except.ok count.toNat
      else Except.error (Misuse.badValue : Fault)) = _
  rw [order_gt_int]
  have hle : count ≤ 9223372036854775807 ↔ count < 2 ^ 63 := by omega
  by_cases hneg : count < 0
  · have hzero : count.toNat = 0 := by omega
    have hlt : count < 2 ^ 63 := by omega
    simp only [hneg, hlt, hzero, decide_true, if_true]
    rfl
  · simp only [hneg, hle, decide_false]
    rfl

theorem exec_elementCount {count : Int} (h : count < 2 ^ 63) (s : Session) :
    s.exec (ofExcept (elementCount s (.int count))) = (.ok count.toNat, s) := by
  rw [exec_ofExcept, elementCount_int, if_pos h]

theorem opens_of_drain {q : Query} {source : Value} {es : List D}
    (h : s.object? v = some (.sequence q)) (hs : Opens m n s source ds)
    (hq : ∀ {t u : Session} {k : Nat} {xs : List Value}, Later s t → Extends t u →
      t.exec (drain k (.pending source)) = (.ok xs, u) → List.Forall₂ (m.rel u) xs ds →
      ∃ ys x, t.exec (openQuery (k + 1) q) = (.ok (.items ys), x) ∧ Extends u x ∧
        List.Forall₂ (m.rel x) ys es) : Opens m (n + ds.length + 5) s v es := by
  intro t ht k hk
  obtain ⟨k, rfl⟩ : ∃ i, k = i + 2 := ⟨k - 2, by omega⟩
  obtain ⟨xs, u, hu, hext, hxs⟩ := exec_drain (k := k) ((yields_pending hs).later ht) (by omega)
  obtain ⟨ys, x, hx, hext', hys⟩ := hq ht hext hu hxs
  refine ⟨.items ys, x, ?_, hext.trans hext', (yields_items hys).mono (by omega)⟩
  rw [exec_openWalk (ht.object?_of_still h rfl), hx]

theorem le_foldr_max {a : Nat} {as : List Nat} (h : a ∈ as) : a ≤ as.foldr max 0 := by
  induction as with
  | nil => cases h
  | cons b as ih =>
      rw [List.foldr_cons]
      rcases List.mem_cons.mp h with rfl | h
      · exact Nat.le_max_left _ _
      · exact (ih h).trans (Nat.le_max_right _ _)

theorem opens (hl : p.Lawful m s) (hv : p.Shape m s v) : Opens m (p.steps m.same) s v (p.toList m.same) := by
  induction p generalizing s v with
  | items _ ds =>
      obtain ⟨xs, hv, hxs⟩ := hv
      exact opens_items hv hxs
  | select source f g ih =>
      obtain ⟨w, hw, hv⟩ := hv
      refine opens_of_yields hw _ (fun _ _ => rfl) (by rw [steps]; omega) ?_
      exact (yields_select (yields_pending (ih hl.1 hv)) hl.2).mono (by rw [steps]; omega)
  | filter source p q ih =>
      obtain ⟨w, hw, hv⟩ := hv
      refine opens_of_yields hw _ (fun _ _ => rfl) (by rw [steps]; omega) ?_
      exact (yields_filter (yields_pending (ih hl.1 hv)) hl.2).mono (by rw [steps]; omega)
  | flatten source f combine indexed h c ih ihh =>
      obtain ⟨w, hw, hv⟩ := hv
      obtain ⟨hs, -, hf, hc⟩ := hl
      refine opens_of_yields hw _ (fun _ _ => rfl) (by rw [steps]; omega) ?_
      let inner := ((source.toList m.same).zipIdx.map fun x => (h x.1 x.2).steps m.same).foldr max 0
      have hsource := (yields_pending (ih hs hv)).mono
        (show source.steps m.same + 2 ≤ max (source.steps m.same) inner + 2 by omega)
      have hended : Yields m (max (source.steps m.same) inner + 2) s .ended [] :=
        (yields_ended m s).mono (by omega)
      have hleads (x : D × Nat) (hx : x ∈ (source.toList m.same).zipIdx) :
          m.Leads inner s f indexed x.1 x.2 ((h x.1 x.2).toList m.same) := by
        intro t v ht hxv
        obtain ⟨y, u, hu, hext, hshape, hlawful⟩ := hf x hx t v ht hxv
        exact ⟨y, u, hu, hext, (ihh x.1 x.2 hlawful hshape).mono
          (le_foldr_max (List.mem_map.mpr ⟨x, hx, rfl⟩))⟩
      exact (yields_flatten (h := fun d i => (h d i).toList m.same) hsource hended
        (show inner + 2 ≤ _ by omega) hleads hc).mono (by rw [steps]; omega)
  | concat first second ih ih' =>
      obtain ⟨v, v', hw, hv, hv'⟩ := hv
      refine opens_of_yields hw _ (fun _ _ => rfl) (by rw [steps]; omega) ?_
      have hfirst := (yields_pending (ih hl.1 hv)).mono
        (show _ ≤ max (first.steps m.same) (second.steps m.same) + 2 by omega)
      have hsecond := (yields_pending (ih' hl.2 hv')).mono
        (show _ ≤ max (first.steps m.same) (second.steps m.same) + 2 by omega)
      exact (yields_chain hfirst hsecond).mono (by rw [steps]; omega)
  | take source count ih =>
      obtain ⟨w, hw, hv⟩ := hv
      refine opens_of_yields hw (.take count.toNat (.pending w)) (fun t k => ?_) (by rw [steps]; omega) ?_
      · exact (exec_bind_ok (exec_elementCount (lt_of_natAbs_lt hl.2) t) _).trans rfl
      · exact (yields_take (yields_pending (ih hl.1 hv)) _).mono (by rw [steps]; omega)
  | skip source count ih =>
      obtain ⟨w, hw, hv⟩ := hv
      refine opens_of_yields hw (.skip count.toNat (.pending w)) (fun t k => ?_) (by rw [steps]; omega) ?_
      · exact (exec_bind_ok (exec_elementCount (lt_of_natAbs_lt hl.2) t) _).trans rfl
      · exact (yields_skip (yields_pending (ih hl.1 hv)) _).mono (by rw [steps]; omega)
  | distinct source ih =>
      obtain ⟨w, hw, hv⟩ := hv
      refine opens_of_yields hw _ (fun _ _ => rfl) (by rw [steps]; omega) ?_
      exact (yields_distinct (yields_pending (ih hl.1 hv)) hl.2 (.refl s) (fun _ hd => hd) .nil).mono
        (by rw [steps]; omega)
  | reverse source ih =>
      obtain ⟨w, hw, hv⟩ := hv
      refine opens_of_drain hw (ih hl hv) fun {t u k xs} _ _ hu hxs => ?_
      exact ⟨xs.reverse, u, (exec_bind_ok hu _).trans rfl, .refl u, List.rel_reverse hxs⟩
  | ordered source f descending cmp ih =>
      obtain ⟨w, hw, hv⟩ := hv
      refine opens_of_drain hw (ih hl.1 hv) fun {t u k xs} ht hext hu hxs => ?_
      have hkeys : ∀ key ∈ [(f, descending, cmp)], ∀ d ∈ source.toList m.same,
          ∀ e ∈ source.toList m.same, m.Compares u key.1 key.2.2 d e := by
        intro key hkey d hd e he
        obtain rfl := List.mem_singleton.mp hkey
        exact (hl.2 d hd e he).later (ht.trans hext.later)
      obtain ⟨ys, x, hx, hext', hys⟩ := exec_sortByKeys hkeys hxs
      exact ⟨ys, x, (exec_bind_ok hu _).trans ((exec_bind_ok hx _).trans rfl), hext',
        m.rel_of_within hys⟩

theorem exec_lazily (hv : v ≠ .null) (q : Query) :
    s.exec (Queries.lazily v q) = (.ok (.ref s.store.size), s.grow (.sequence q)) :=
  (exec_bind_ok (exec_notNull hv s "source") _).trans rfl

theorem Shape.ne_null (hv : p.Shape m s v) : v ≠ .null := by
  cases p with
  | items _ _ =>
      obtain ⟨_, hv, -⟩ := hv
      exact hv.ne_null
  | concat _ _ =>
      obtain ⟨_, _, hv, -⟩ := hv
      rintro rfl
      cases hv
  | _ =>
      obtain ⟨_, hv, -⟩ := hv
      rintro rfl
      cases hv

theorem exec_around {source : Plan D} {call : Value → Action Value} (q : Value → Query)
    (h : ∃ v t, s.exec source.build = (.ok v, t) ∧ Extends s t ∧ source.Shape m t v)
    (hcall : ∀ v t, v ≠ .null → Extends s t →
      t.exec (call v) = (.ok (.ref t.store.size), t.grow (.sequence (q v)))) :
    ∃ w t, s.exec (source.build >>= call) = (.ok w, t) ∧ Extends s t ∧
      ∃ v, t.object? w = some (.sequence (q v)) ∧ source.Shape m t v := by
  obtain ⟨v, t, ht, hext, hv⟩ := h
  have hgrow := extends_grow t (.sequence (q v))
  exact ⟨_, _, (exec_bind_ok ht _).trans (hcall v t hv.ne_null hext), hext.trans hgrow, v,
    store_grow t _, hv.later hgrow.later⟩

theorem exec_build (hr : p.Rooted m s) (hl : p.Lawful m s) :
    ∃ v t, s.exec p.build = (.ok v, t) ∧ Extends s t ∧ p.Shape m t v := by
  induction p generalizing s with
  | items w ds => exact ⟨w, s, rfl, .refl s, hr⟩
  | select source f g ih =>
      exact exec_around (.select · f) (ih hr hl.1) fun v t hv _ => exec_lazily hv (.select v f)
  | filter source p q ih =>
      exact exec_around (.filter · p) (ih hr hl.1) fun v t hv _ => exec_lazily hv (.filter v p)
  | flatten source f combine indexed h c ih _ =>
      refine exec_around (.flatten · f indexed combine) (ih hr hl.1) fun v t hv hext => ?_
      have hrequired := exec_notNull hv t "source"
      show t.exec (Queries.flatten v f combine) = _
      rw [Queries.flatten, exec_bind_ok hrequired, exec_get_bind, hl.2.1 t hext.later, exec_alloc]
  | concat first second ih ih' =>
      obtain ⟨v, t, ht, hext, hv⟩ := ih hr.1 hl.1
      obtain ⟨v', u, hu, hext', hv'⟩ := ih' (hr.2.later hext.later) (hl.2.later hext.later)
      have hgrow := extends_grow u (.sequence (.concat v v'))
      have hcall : u.exec (Queries.concat v v') =
          (.ok (.ref u.store.size), u.grow (.sequence (.concat v v'))) := by
        have hfirst := exec_notNull hv.ne_null u "first"
        have hsecond := exec_notNull hv'.ne_null u "second"
        rw [Queries.concat, exec_bind_ok hfirst, exec_bind_ok hsecond, exec_alloc]
      exact ⟨_, _, (exec_bind_ok ht _).trans ((exec_bind_ok hu _).trans hcall),
        (hext.trans hext').trans hgrow, v, v', store_grow u _,
        hv.later (hext'.trans hgrow).later, hv'.later hgrow.later⟩
  | take source count ih =>
      exact exec_around (.take · (.int count)) (ih hr hl.1) fun v t hv _ =>
        exec_lazily hv (.take v (.int count))
  | skip source count ih =>
      exact exec_around (.skip · (.int count)) (ih hr hl.1) fun v t hv _ =>
        exec_lazily hv (.skip v (.int count))
  | distinct source ih =>
      exact exec_around .distinct (ih hr hl.1) fun v t hv _ => exec_lazily hv (.distinct v)
  | reverse source ih =>
      exact exec_around .reverse (ih hr hl) fun v t hv _ => exec_lazily hv (.reverse v)
  | ordered source f descending cmp ih =>
      refine exec_around (.ordered · [(f, descending)]) (ih hr hl.1) fun v t hv _ => ?_
      cases descending <;> exact exec_lazily hv (.ordered v [(f, _)])

end Plan

end Enumeration

end BaseLib
