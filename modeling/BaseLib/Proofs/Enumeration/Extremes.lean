import BaseLib.Proofs.Enumeration.Ordering
import BaseLib.Proofs.Value.Families

namespace BaseLib.Enumeration

open Session Library Sorting

variable {D K : Type} {m : Meaning D} {s t u : Session} {n k : Nat} {v q : Value} {w : Walk} {d : D}
  {ds : List D}

section

variable {c : D → D → Int} {e : D} {es : List D}

def IsFirstLeast (c : D → D → Int) (ds : List D) (d : D) : Prop :=
  ∃ before after, ds = before ++ d :: after ∧ (∀ e ∈ before, c d e < 0) ∧ ∀ e ∈ after, c d e ≤ 0

theorem IsFirstLeast.unique (h : TotalPreorder c) (hd : IsFirstLeast c ds d) (he : IsFirstLeast c ds e) : d = e := by
  obtain ⟨before, after, rfl, hbefore, hafter⟩ := hd
  obtain ⟨before', after', heq, hbefore', hafter'⟩ := he
  have hne {x y : D} (hyx : c y x < 0) (hxy : c x y ≤ 0) : False :=
    Int.not_lt.mpr hxy ((h.neg_iff y x).mp hyx)
  rcases List.append_eq_append_iff.mp heq with ⟨mid, rfl, hmid⟩ | ⟨mid, rfl, hmid⟩
  · cases mid with
    | nil => exact (List.cons.inj hmid).1
    | cons x mid =>
        obtain ⟨rfl, rfl⟩ := List.cons.inj hmid
        exact (hne (hbefore' d (by simp)) (hafter e (by simp))).elim
  · cases mid with
    | nil => exact (List.cons.inj hmid).1.symm
    | cons x mid =>
        obtain ⟨rfl, rfl⟩ := List.cons.inj hmid
        exact (hne (hbefore e (by simp)) (hafter' d (by simp))).elim

def improved (c : D → D → Int) : Option D → D → Option D
  | none, d => some d
  | some b, d => some (if c d b < 0 then d else b)

theorem IsFirstLeast.improved (h : TotalPreorder c) (hd : IsFirstLeast c ds d) (e : D) :
    IsFirstLeast c (ds ++ [e]) (if c e d < 0 then e else d) := by
  obtain ⟨before, after, rfl, hbefore, hafter⟩ := hd
  split
  · rename_i hlt
    refine ⟨before ++ d :: after, [], rfl, fun x hx => ?_, by simp⟩
    rcases List.mem_append.mp hx with hx | hx
    · exact h.neg_of_neg_of_nonpos hlt (Int.le_of_lt (hbefore x hx))
    · rcases List.mem_cons.mp hx with rfl | hx
      · exact hlt
      · exact h.neg_of_neg_of_nonpos hlt (hafter x hx)
  · rename_i hge
    refine ⟨before, after ++ [e], by simp, hbefore, fun x hx => ?_⟩
    rcases List.mem_append.mp hx with hx | hx
    · exact hafter x hx
    · obtain rfl := List.mem_singleton.mp hx
      exact (h.nonpos_iff d x).mpr (Int.not_lt.mp hge)

theorem foldl_improved (h : TotalPreorder c) (hd : IsFirstLeast c ds d) :
    ∃ e, es.foldl (Enumeration.improved c) (some d) = some e ∧ IsFirstLeast c (ds ++ es) e := by
  induction es generalizing ds d with
  | nil => exact ⟨d, rfl, by rwa [List.append_nil]⟩
  | cons e es ih =>
      obtain ⟨x, hx, hleast⟩ := ih (hd.improved h e)
      exact ⟨x, hx, by rwa [List.append_assoc] at hleast⟩

theorem exists_firstLeast (h : TotalPreorder c) (hds : ds ≠ []) :
    ∃ d, ds.foldl (Enumeration.improved c) none = some d ∧ IsFirstLeast c ds d := by
  cases ds with
  | nil => exact absurd rfl hds
  | cons d ds =>
      have hd : IsFirstLeast c [d] d := ⟨[], [], rfl, by simp, by simp⟩
      exact foldl_improved h hd

theorem firstLeast_of_sorted (h : TotalPreorder c) (hs : StablySorted c ds (d :: es)) : IsFirstLeast c ds d := by
  have hmem : ∀ e ∈ ds, c d e ≤ 0 := fun e he => by
    have hin : e ∈ d :: es := (hs.perm h).mem_iff.mpr he
    exact h.head_le hs.ordered (mem_classOf.mpr ⟨hin, h.self e⟩)
  have hclass := hs.stable d
  rw [classOf, List.filter_cons_of_pos (by simp [h.self])] at hclass
  obtain ⟨before, after, rfl, hbefore, -⟩ := List.filter_eq_cons_iff.mp hclass.symm
  refine ⟨before, after, rfl, fun e he => ?_, fun e he => hmem e (by simp [he])⟩
  have hle := hmem e (by simp [he])
  have hne : c d e ≠ 0 := by simpa using hbefore e he
  omega

end

/-- Called for values of a datum, a function gives values of a key and changes no object. -/
def Meaning.Gives (m : Meaning D) (keys : Meaning K) (s : Session) (f : Value) (d : D) (a : K) : Prop :=
  ∀ t x, Later s t → m.rel t x d → ∃ y u, t.exec (apply f [x]) = (.ok y, u) ∧ Extends t u ∧ keys.rel u y a

/-- The default comparison of values goes by a total preorder of the keys that they stand for. -/
structure Meaning.Ranked (keys : Meaning K) (s : Session) (cmp : K → K → Int) : Prop where
  order : TotalPreorder cmp
  compares : ∀ {t : Session} {y z : Value} {a b : K}, Later s t → keys.rel t y a → keys.rel t z b →
    t.Compares y z (cmp a b)

section

variable {keys : Meaning K} {f : Value} {g : D → K} {cmp : K → K → Int} {a b : K} {y z : Value}

theorem Meaning.Ranked.later (h : keys.Ranked s cmp) (hst : Later s t) : keys.Ranked t cmp :=
  ⟨h.order, fun hu => h.compares (hst.trans hu)⟩

theorem Meaning.Ranked.compare3 (h : keys.Ranked s cmp) (hy : keys.rel s y a) (hz : keys.rel s z b) :
    s.compare3 y z = .ok (cmp a b) := by
  have hcompares := h.compares (.refl s) hy hz
  rw [Session.Compares, exec_defaultCompare] at hcompares
  cases hc : s.compare3 y z with
  | ok n =>
      rw [hc] at hcompares
      cases hcompares
      rfl
  | error e =>
      rw [hc] at hcompares
      cases hcompares

def byKey (g : D → K) (cmp : K → K → Int) (d e : D) : Int := cmp (g d) (g e)

theorem totalPreorder_byKey (h : TotalPreorder cmp) (g : D → K) : TotalPreorder (byKey g cmp) :=
  ⟨fun d e => h.neg_iff (g d) (g e), fun hab hbc => h.trans hab hbc⟩

theorem Meaning.Ranked.compares_byKey {e : D} (h : keys.Ranked s cmp) (hd : m.Gives keys s f d (g d))
    (he : m.Gives keys s f e (g e)) : m.Compares s f (byKey g cmp) d e := by
  intro t x x' ht hx hx'
  obtain ⟨y, u, hu, hext, hy⟩ := hd t x ht hx
  obtain ⟨z, v, hv, hext', hz⟩ := he u x' (ht.trans hext.later) (m.stable hext.later hx')
  exact ⟨y, z, u, v, hu, hext, hv, hext',
    (h.later ((ht.trans hext.later).trans hext'.later)).compare3 (keys.stable hext'.later hy) hz⟩

def direction (descending : Bool) : Int := if descending then 1 else -1

theorem directed_neg_iff (descending : Bool) (c : D → D → Int) (d e : D) :
    directed (descending, c) d e < 0 ↔ 0 < c d e * direction descending := by
  cases descending <;> simp [directed, direction]

def Kept (keys : Meaning K) (g : D → K) (s : Session) : Option Value → Option D → Prop :=
  Option.Rel fun y d => keys.rel s y (g d)

theorem Kept.later {best : Option Value} {kept : Option D} (h : Kept keys g s best kept) (hst : Later s t) :
    Kept keys g t best kept := by
  cases h with
  | none => exact .none
  | some hy => exact .some (keys.stable hst hy)

theorem exec_better (descending : Bool) {best : Option Value} {kept : Option D} (hkeys : keys.Ranked s cmp)
    (hbest : Kept keys g s best kept) (hy : keys.rel s y (g d)) :
    ∃ z, s.exec (Queries.better (direction descending) best y) = (.ok z, s) ∧
      Kept keys g s (some z) (improved (directed (descending, byKey g cmp)) kept d) := by
  cases hbest with
  | none => exact ⟨y, rfl, .some hy⟩
  | @some b e hb =>
      have hcompare : s.exec (comparison y b) = (.ok (cmp (g d) (g e)), s) := by
        rw [comparison, exec_get_bind, hkeys.compare3 hy hb]
        rfl
      have hless : directed (descending, byKey g cmp) d e < 0 ↔ 0 < cmp (g d) (g e) * direction descending :=
        directed_neg_iff ..
      refine ⟨_, (exec_bind_ok hcompare _).trans rfl, .some ?_⟩
      by_cases hlt : 0 < cmp (g d) (g e) * direction descending
      · rw [if_pos hlt, if_pos (hless.mpr hlt)]
        exact hy
      · rw [if_neg hlt, if_neg (mt hless.mp hlt)]
        exact hb

theorem exec_search (descending : Bool) (hw : Comes m n s (.pending v) ds) (hn : n + ds.length + 1 ≤ s.steps)
    (hkeys : keys.Ranked s cmp) (hgives : ∀ d ∈ ds, m.Gives keys s f d (g d)) :
    ∃ best u, Kept keys g u best (ds.foldl (improved (directed (descending, byKey g cmp))) none) ∧
      s.exec (foldSource v none fun best x => do
        pure (true, some (← Queries.better (direction descending) best (← Queries.selected f x)))) =
          (.ok best, u) := by
  rw [foldSource, exec_get_bind]
  obtain ⟨best, u, hu, -, hbest⟩ := exec_foldWalk (fun hst hkept => hkept.later hst) hw hn
    (show Kept keys g s none none from .none) fun t best kept x d hd hst hkept hx => by
      obtain ⟨y, u, hu, hext, hy⟩ := hgives d hd t x hst hx
      obtain ⟨z, hz, hkept'⟩ :=
        exec_better descending (hkeys.later (hst.trans hext.later)) (hkept.later hext.later) hy
      have hselected : t.exec (Queries.selected f x) = (.ok y, u) := by
        rw [Queries.selected, if_neg (by simpa using ne_null_of_apply hu)]
        exact hu
      exact ⟨some z, u, (exec_bind_ok hselected _).trans ((exec_bind_ok hz _).trans rfl), hext, hkept'⟩
  exact ⟨best, u, hbest, hu⟩

theorem exec_extreme (descending : Bool) (hw : Comes m n s (.pending v) ds) (hn : n + ds.length + 1 ≤ s.steps)
    (hkeys : keys.Ranked s cmp) (hgives : ∀ d ∈ ds, m.Gives keys s f d (g d)) :
    ∃ best u, Kept keys g u best (ds.foldl (improved (directed (descending, byKey g cmp))) none) ∧
      s.exec (Queries.extreme (direction descending) v f) =
        (match best with
          | some z => .ok z
          | none => .error (.failure .noElements), u) := by
  have hnull := exec_notNull hw.reads.ne_null s "source"
  obtain ⟨best, u, hbest, hu⟩ := exec_search descending hw hn hkeys hgives
  refine ⟨best, u, hbest, (exec_bind_ok hnull _).trans ((exec_bind_ok hu _).trans ?_)⟩
  cases best <;> rfl

theorem exec_first_give {x : Value} {w' : Walk} (hq : q ≠ .null) (hk : s.steps = k + 1)
    (h : s.exec (pull k (.pending q)) = (.ok (.give x w'), t)) (hw : Quiet w') :
    s.exec (Catalogue.call "Enumerable.First" [q]) = (.ok x, t) := by
  have hnull := exec_notNull hq s "source"
  have hfind : s.exec (Queries.findFirst q .null) = (.ok (some x), t) := by
    refine (exec_bind_ok hnull _).trans ?_
    rw [foldSource, exec_get_bind, hk]
    exact exec_foldWalk_stop h rfl hw
  exact (exec_bind_ok hfind _).trans rfl

def ordering (descending : Bool) : String :=
  if descending then "Enumerable.OrderByDescending" else "Enumerable.OrderBy"

theorem arrangeBy_head {c : D → D → Int} (hc : TotalPreorder c) (descending : Bool)
    (hd : IsFirstLeast (directed (descending, c)) ds d) : ∃ es, arrangeBy [(descending, c)] ds = d :: es := by
  have hsorted : StablySorted (directed (descending, c)) ds (arrangeBy [(descending, c)] ds) := by
    have hkeys : ∀ key ∈ [(descending, c)], TotalPreorder key.2 := List.forall_mem_singleton.mpr hc
    have h := stablySorted_arrangeBy hkeys ds
    have hsingle : lexicographic [directed (descending, c)] = directed (descending, c) := by
      funext a b
      simp only [lexicographic]
      split <;> simp_all
    rwa [List.map_singleton, hsingle] at h
  have hdirected : TotalPreorder (directed (descending, c)) := totalPreorder_directed hc
  cases harranged : arrangeBy [(descending, c)] ds with
  | nil =>
      obtain ⟨before, after, rfl, -⟩ := hd
      have hperm := hsorted.perm hdirected
      simp [harranged] at hperm
  | cons e es =>
      rw [harranged] at hsorted
      exact ⟨es, by rw [hd.unique hdirected (firstLeast_of_sorted hdirected hsorted)]⟩

theorem exec_first_ordered (descending : Bool) (hw : Comes m n s (.pending v) ds)
    (hn : n + ds.length + 5 ≤ s.steps) (hkeys : keys.Ranked s cmp) (hgives : ∀ d ∈ ds, m.Gives keys s f d (g d))
    (hd : IsFirstLeast (directed (descending, byKey g cmp)) ds d) :
    ∃ q t x u, s.exec (Catalogue.call (ordering descending) [v, f]) = (.ok q, t) ∧
      t.exec (Catalogue.call "Enumerable.First" [q]) = (.ok x, u) ∧ Later s u ∧ m.rel u x d := by
  let key : Key D := (f, descending, byKey g cmp)
  let ordered : Object := .sequence (.ordered v [(f, descending)])
  have hcall : s.exec (Catalogue.call (ordering descending) [v, f]) =
      (.ok (.ref s.store.size), s.grow ordered) := by
    cases descending <;> exact Plan.exec_lazily hw.reads.ne_null _
  have hgrow : Extends s (s.grow ordered) := extends_grow s ordered
  have hcompares : ∀ key' ∈ [key], ∀ d ∈ ds, ∀ e ∈ ds, m.Compares (s.grow ordered) key'.1 key'.2.2 d e := by
    rw [List.forall_mem_singleton]
    exact fun d hd e he => (hkeys.compares_byKey (hgives d hd) (hgives e he)).later hgrow.later
  obtain ⟨k, hk⟩ : ∃ k, s.steps = k + 4 := ⟨s.steps - 4, by omega⟩
  have hobject : (s.grow ordered).object? (.ref s.store.size) =
      some (.sequence (.ordered v ([key].map Key.clause))) := object?_grow s ordered
  obtain ⟨ys, u, hopen, hlater, hys⟩ := (hw.reads.extends hgrow).exec_openWalk_ordered hobject hcompares
    (.refl _) (show n + ds.length + 1 ≤ k by omega)
  obtain ⟨es, harranged⟩ := arrangeBy_head (totalPreorder_byKey hkeys.order g) descending hd
  rw [show arrangeBy ([key].map (·.2)) ds = d :: es from harranged] at hys
  obtain ⟨-, hpull⟩ := yields_guarded (yields_items hys)
  obtain ⟨x, w', t, ht, hext, hx, hw'⟩ := hpull u (.refl u) (k + 2) (by omega)
  refine ⟨_, _, x, t, hcall, ?_, (hgrow.later.trans hlater).trans hext.later, hx⟩
  exact exec_first_give (by simp) hk ((exec_pull_pending hopen).trans ht) hw'.quiet

/-- The function's value for the first element of an ordering by it. -/
def firstKey (member : String) (v f : Value) : Action Value := do
  let q ← Catalogue.call member [v, f]
  apply f [← Catalogue.call "Enumerable.First" [q]]

def Meaning.Exact (keys : Meaning K) : Prop :=
  ∀ {s t : Session} {y z : Value} {a : K}, keys.rel s y a → keys.rel t z a → y = z

/-- Two actions give values of one key, and the very same value where each key has one only. -/
def Meaning.Agree (keys : Meaning K) (s : Session) (p q : Action Value) : Prop :=
  ∃ y t z u, s.exec p = (.ok y, t) ∧ s.exec q = (.ok z, u) ∧ (∃ a, keys.rel t y a ∧ keys.rel u z a) ∧
    (keys.Exact → y = z)

/-- An action fails, as the sequence has no elements. -/
def FailsEmpty (s : Session) (p : Action Value) : Prop :=
  ∃ failure t, s.exec p = (.error (.failure failure), t) ∧ failure.kind = .invalidOperation

theorem firstKey_agrees (descending : Bool) (hw : Comes m n s (.pending v) ds)
    (hn : n + ds.length + 5 ≤ s.steps) (hkeys : keys.Ranked s cmp) (hgives : ∀ d ∈ ds, m.Gives keys s f d (g d))
    (hds : ds ≠ []) :
    keys.Agree s (firstKey (ordering descending) v f) (Queries.extreme (direction descending) v f) := by
  have hc : TotalPreorder (directed (descending, byKey g cmp)) :=
    totalPreorder_directed (totalPreorder_byKey hkeys.order g)
  obtain ⟨d, hkept, hleast⟩ := exists_firstLeast hc hds
  have hd : d ∈ ds := by
    obtain ⟨before, after, rfl, -⟩ := hleast
    simp
  obtain ⟨q, t, x, u, ht, hu, hlater, hx⟩ := exec_first_ordered descending hw hn hkeys hgives hleast
  obtain ⟨y, w, hw', -, hy⟩ := hgives d hd u x hlater hx
  obtain ⟨best, u', hbest, hextreme⟩ := exec_extreme descending hw (by omega) hkeys hgives
  rw [hkept] at hbest
  cases hbest with
  | @some z _ hz =>
      exact ⟨y, w, z, u', (exec_bind_ok ht _).trans ((exec_bind_ok hu _).trans hw'), hextreme, ⟨g d, hy, hz⟩,
        fun hexact => hexact hy hz⟩

theorem exec_foldSource_nil {σ : Type} (hw : Comes m n s (.pending v) []) (hn : n + 1 ≤ s.steps) (state : σ)
    (step : σ → Value → Action (Bool × σ)) : ∃ u, s.exec (foldSource v state step) = (.ok state, u) := by
  obtain ⟨k, hk⟩ : ∃ k, s.steps = k + 1 := ⟨s.steps - 1, by omega⟩
  obtain ⟨u, hu, -⟩ := hw s (.refl s) k (by omega)
  refine ⟨u, ?_⟩
  rw [foldSource, exec_get_bind, hk]
  exact exec_foldWalk_finish hu

theorem extreme_failsEmpty (direction : Int) (f : Value) (hw : Comes m n s (.pending v) [])
    (hn : n + 1 ≤ s.steps) : FailsEmpty s (Queries.extreme direction v f) := by
  have hnull := exec_notNull hw.reads.ne_null s "source"
  obtain ⟨u, hu⟩ := exec_foldSource_nil hw hn none _
  exact ⟨_, u, (exec_bind_ok hnull _).trans ((exec_bind_ok hu _).trans rfl), rfl⟩

theorem first_failsEmpty (hw : Comes m n s (.pending v) []) (hn : n + 1 ≤ s.steps) :
    FailsEmpty s (Catalogue.call "Enumerable.First" [v]) := by
  have hnull := exec_notNull hw.reads.ne_null s "source"
  obtain ⟨u, hu⟩ := exec_foldSource_nil hw hn none _
  have hfind : s.exec (Queries.findFirst v .null) = (.ok none, u) := (exec_bind_ok hnull _).trans hu
  exact ⟨_, u, (exec_bind_ok hfind _).trans rfl, rfl⟩

/-- The least and the greatest key of a source are those of the first elements of its orderings by the key, also
where other keys are equal to them; a source without elements has none of the three. -/
theorem extremes_as_orderings (f : Value) (hw : Comes m n s (.pending v) ds)
    (hn : n + ds.length + 5 ≤ s.steps) :
    (ds ≠ [] → ∀ {K : Type} {keys : Meaning K} {cmp : K → K → Int} (g : D → K),
      keys.Ranked s cmp → (∀ d ∈ ds, m.Gives keys s f d (g d)) →
      keys.Agree s (firstKey "Enumerable.OrderBy" v f) (Catalogue.call "Enumerable.Min" [v, f]) ∧
      keys.Agree s (firstKey "Enumerable.OrderByDescending" v f) (Catalogue.call "Enumerable.Max" [v, f])) ∧
    (ds = [] → FailsEmpty s (Catalogue.call "Enumerable.Min" [v, f]) ∧
      FailsEmpty s (Catalogue.call "Enumerable.Max" [v, f]) ∧
      FailsEmpty s (Catalogue.call "Enumerable.First" [v])) := by
  refine ⟨fun hds _ _ _ g hkeys hgives => ?_, ?_⟩
  · exact ⟨firstKey_agrees false hw hn hkeys hgives hds, firstKey_agrees true hw hn hkeys hgives hds⟩
  · rintro rfl
    have hsteps : n + 1 ≤ s.steps := by
      rw [List.length_nil] at hn
      omega
    exact ⟨extreme_failsEmpty (-1) f hw hsteps, extreme_failsEmpty 1 f hw hsteps, first_failsEmpty hw hsteps⟩

end

section

open Datum (Family)

/-- A value that the default comparison has a place for: null, or one of a family but NaN. -/
structure Comparable (family : Family) where
  value : Value
  datum : Datum
  has : datum = .null ∨ family.Has datum
  notNaN : datum.isNaN = false

variable {family : Family} {x y : Comparable family}

def Comparable.compare (offset : Int) (x y : Comparable family) : Int :=
  (x.datum.compare3 offset y.datum).toOption.getD 0

theorem Comparable.compare3 (offset : Int) (x y : Comparable family) :
    x.datum.compare3 offset y.datum = .ok (x.compare offset y) := by
  obtain ⟨n, _, _, hn, -⟩ := Datum.compare3_family offset family x.has y.has y.has
  rw [Comparable.compare, hn]
  rfl

theorem totalPreorder_compare (offset : Int) :
    TotalPreorder fun x y : Comparable family => x.compare offset y := by
  refine ⟨fun x y => ?_, fun {x y z} hxy hyz => ?_⟩
  · obtain ⟨n, _, _, hn, hback, -⟩ := Datum.compare3_family offset family x.has y.has y.has
    rw [Comparable.compare, Comparable.compare, hn, hback]
    show n < 0 ↔ 0 < -n
    omega
  · obtain ⟨xy, yz, xz, hn, -, hn', hn'', htrans⟩ := Datum.compare3_family offset family x.has y.has z.has
    rw [Comparable.compare, hn] at hxy
    rw [Comparable.compare, hn'] at hyz
    rw [Comparable.compare, hn'']
    exact htrans y.notNaN hxy hyz

theorem object_of_family {id : Nat} (h : family.Has (s.view (.ref id))) :
    (∃ a, s.store[id]? = some (.timeSpan a)) ∨ ∃ a, s.store[id]? = some (.dateTime a) := by
  simp only [view, depth, viewAt] at h
  cases ho : s.store[id]? with
  | none =>
      rw [ho] at h
      cases family with
      | times =>
          obtain ⟨_, -, h⟩ := h
          cases h
      | _ =>
          obtain ⟨_, h⟩ := h
          cases h
  | some o =>
      rw [ho] at h
      cases o with
      | timeSpan a => exact .inl ⟨a, rfl⟩
      | dateTime a => exact .inr ⟨a, rfl⟩
      | _ =>
          cases family with
          | times =>
              obtain ⟨_, -, h⟩ := h
              cases h
          | _ =>
              obtain ⟨_, h⟩ := h
              cases h

theorem view_later (h : family.Has (s.view v)) (hst : Later s t) : t.view v = s.view v := by
  cases v with
  | ref id =>
      rcases object_of_family h with ⟨a, ho⟩ | ⟨a, ho⟩ <;>
        simp only [view, depth, viewAt, ho, hst.kept_of_still ho rfl]
  | _ => rfl

/-- Each such value is a key of its own, with null as such only. -/
def comparables (family : Family) : Meaning (Comparable family) where
  rel s v x := v = x.value ∧ s.view v = x.datum ∧ (x.datum = .null → v = .null)
  stable := by
    rintro s t v x hst ⟨hv, hview, hnull⟩
    refine ⟨hv, ?_, hnull⟩
    rcases x.has with hx | hx
    · obtain rfl := hnull hx
      exact hview
    · rw [view_later (hview ▸ hx) hst, hview]
  same x y := x.value == y.value

theorem exact_comparables (family : Family) : (comparables family).Exact :=
  fun hy hz => hy.1.trans hz.1.symm

theorem ranked_comparables (family : Family) (s : Session) :
    (comparables family).Ranked s (Comparable.compare s.offset) := by
  refine ⟨totalPreorder_compare s.offset, fun {t y z a b} hst hy hz => compares_of_eq ?_⟩
  rw [Session.compare3, hy.2.1, hz.2.1, hst.offset]
  exact a.compare3 s.offset b

def oneDouble : Double := ⟨0x3FF0000000000000⟩

def threeDouble : Double := ⟨0x4008000000000000⟩

/-- Two keys as integers and as doubles, in a sequence that comes once, and a function that gives them as they
are. -/
def mixed : Session :=
  { start 0 with
    store := #[.generator [.int 3, .double oneDouble, .int 1, .double threeDouble] 0,
      .function ⟨.id, .null, false⟩, .array []] }

def integerKey (n : Int) : Comparable .numbers :=
  ⟨.int n, .number (.int n), .inr ⟨_, rfl⟩, rfl⟩

def doubleKey (d : Double) (h : d.isNaN = false) : Comparable .numbers :=
  ⟨.double d, .number (.double d), .inr ⟨_, rfl⟩, h⟩

def mixedKeys : List (Comparable .numbers) :=
  [integerKey 3, doubleKey oneDouble (by decide), integerKey 1, doubleKey threeDouble (by decide)]

theorem gives_itself (hf : s.object? f = some (.function ⟨.id, .null, false⟩)) (hs : 0 < s.steps)
    (x : Comparable family) : (comparables family).Gives (comparables family) s f x x := by
  intro t v ht hv
  refine ⟨v, t, ?_, .refl t, hv⟩
  rw [exec_apply (ht.object?_of_still hf rfl) (by rw [ht.steps]; exact hs)]
  rfl

theorem extremes_as_orderings_mixed :
    Comes (comparables .numbers) 3 mixed (.pending (.ref 0)) mixedKeys ∧
      Comes (comparables .numbers) 4 mixed (.pending (.ref 2)) [] ∧ 3 + mixedKeys.length + 5 ≤ mixed.steps ∧
      (comparables .numbers).Ranked mixed (Comparable.compare mixed.offset) ∧
      (∀ x ∈ mixedKeys, (comparables .numbers).Gives (comparables .numbers) mixed (.ref 1) x x) ∧
      mixedKeys ≠ [] ∧
      (∃ t u, mixed.exec (firstKey "Enumerable.OrderBy" (.ref 0) (.ref 1)) = (.ok (.double oneDouble), t) ∧
        mixed.exec (Catalogue.call "Enumerable.Min" [.ref 0, .ref 1]) = (.ok (.double oneDouble), u)) ∧
      (∃ t u, mixed.exec (firstKey "Enumerable.OrderByDescending" (.ref 0) (.ref 1)) = (.ok (.int 3), t) ∧
        mixed.exec (Catalogue.call "Enumerable.Max" [.ref 0, .ref 1]) = (.ok (.int 3), u)) ∧
      FailsEmpty mixed (Catalogue.call "Enumerable.Min" [.ref 2, .ref 1]) ∧
      FailsEmpty mixed (Catalogue.call "Enumerable.Max" [.ref 2, .ref 1]) ∧
      FailsEmpty mixed (Catalogue.call "Enumerable.First" [.ref 2]) := by
  have hkeys : List.Forall₂ ((comparables .numbers).rel mixed)
      [.int 3, .double oneDouble, .int 1, .double threeDouble] mixedKeys :=
    .cons ⟨rfl, rfl, nofun⟩ (.cons ⟨rfl, rfl, nofun⟩ (.cons ⟨rfl, rfl, nofun⟩ (.cons ⟨rfl, rfl, nofun⟩ .nil)))
  have hw : Comes (comparables .numbers) 3 mixed (.pending (.ref 0)) mixedKeys :=
    comes_once (show mixed.store[0]? = some (.generator _ 0) from rfl) hkeys
  have hw' : Comes (comparables .numbers) 4 mixed (.pending (.ref 2)) [] :=
    (Plan.opens_items (.array rfl) .nil).comes
  have hranked := ranked_comparables .numbers mixed
  have hgives : ∀ x, (comparables .numbers).Gives (comparables .numbers) mixed (.ref 1) x x :=
    gives_itself rfl (by decide)
  obtain ⟨⟨y, t, z, u, hy, hz, -, hsame⟩, ⟨y', t', z', u', hy', hz', -, hsame'⟩⟩ :=
    (extremes_as_orderings (.ref 1) hw (by decide)).1 nofun id hranked fun x _ => hgives x
  obtain ⟨hmin, hmax, hfirst⟩ := (extremes_as_orderings (.ref 1) hw' (by decide)).2 rfl
  obtain rfl := hsame (exact_comparables _)
  obtain rfl := hsame' (exact_comparables _)
  have hleast : (mixed.exec (Catalogue.call "Enumerable.Min" [.ref 0, .ref 1])).1 = .ok (.double oneDouble) := rfl
  have hgreatest : (mixed.exec (Catalogue.call "Enumerable.Max" [.ref 0, .ref 1])).1 = .ok (.int 3) := rfl
  rw [hz] at hleast
  rw [hz'] at hgreatest
  cases hleast
  cases hgreatest
  exact ⟨hw, hw', by decide, hranked, fun x _ => hgives x, nofun, ⟨t, u, hy, hz⟩, ⟨t', u', hy', hz'⟩,
    hmin, hmax, hfirst⟩

end

end BaseLib.Enumeration
