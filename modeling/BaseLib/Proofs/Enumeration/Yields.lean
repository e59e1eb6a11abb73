import BaseLib.Proofs.Session.Advance
import BaseLib.Proofs.Session.Later

namespace BaseLib.Enumeration

open Session

/-- What values stand for. A value stands for a datum as long as nothing but cursors changes; `same`
tells which data are one key. -/
structure Meaning (D : Type) where
  rel : Session → Value → D → Prop
  stable : ∀ {s t : Session} {v : Value} {d : D}, Later s t → rel s v d → rel t v d
  same : D → D → Bool

def Quiet (w : Walk) : Prop := ∀ s : Session, s.exec w.close = (.ok (), s)

variable {D : Type} {m : Meaning D} {s t : Session} {w inner outer : Walk} {n k : Nat} {d : D}
  {ds es : List D}

namespace Meaning

/-- Called for values of some data, a function gives a value of another datum and changes no object. -/
def Maps (m : Meaning D) (s : Session) (f : Value) (ds : List D) (e : D) : Prop :=
  ∀ t xs, Later s t → List.Forall₂ (m.rel t) xs ds →
    ∃ y u, t.exec (apply f xs) = (.ok y, u) ∧ Extends t u ∧ m.rel u y e

/-- Asked about a value of a datum, a predicate gives an answer and changes no object. -/
def Tests (m : Meaning D) (s : Session) (p : Value) (d : D) (b : Bool) : Prop :=
  ∀ t x, Later s t → m.rel t x d → ∃ u, t.exec (holds p [x]) = (.ok b, u) ∧ Extends t u

theorem Maps.later {f : Value} (h : m.Maps s f ds d) (hst : Later s t) : m.Maps t f ds d :=
  fun u xs hu hxs => h u xs (hst.trans hu) hxs

theorem Tests.later {p : Value} {b : Bool} (h : m.Tests s p d b) (hst : Later s t) : m.Tests t p d b :=
  fun u x hu hx => h u x (hst.trans hu) hx

theorem stable_all (h : Later s t) {xs : List Value} (hxs : List.Forall₂ (m.rel s) xs ds) :
    List.Forall₂ (m.rel t) xs ds := hxs.imp fun _ _ => m.stable h

end Meaning

/-- Pulled with `n` steps or more, a walk gives values for the data one after the other and then ends. -/
def Yields (m : Meaning D) (n : Nat) : Session → Walk → List D → Prop
  | s, w, [] => Quiet w ∧ ∀ t, Later s t → ∀ k, n ≤ k →
      ∃ u, t.exec (pull k w) = (.ok .finish, u) ∧ Extends t u
  | s, w, d :: ds => Quiet w ∧ ∀ t, Later s t → ∀ k, n ≤ k →
      ∃ x w' u, t.exec (pull k w) = (.ok (.give x w'), u) ∧ Extends t u ∧ m.rel u x d ∧
        Yields m n u w' ds

/-- Opened with `n` steps or more, a source has a walk that yields the data. -/
def Opens (m : Meaning D) (n : Nat) (s : Session) (v : Value) (ds : List D) : Prop :=
  ∀ t, Later s t → ∀ k, n ≤ k →
    ∃ w u, t.exec (openWalk k v) = (.ok w, u) ∧ Extends t u ∧ Yields m n u w ds

theorem Yields.quiet (h : Yields m n s w ds) : Quiet w := by
  cases ds <;> exact h.1

theorem Yields.later (h : Yields m n s w ds) (hst : Later s t) : Yields m n t w ds := by
  cases ds <;> exact ⟨h.1, fun u hu => h.2 u (hst.trans hu)⟩

theorem Yields.mono (h : Yields m n s w ds) (hn : n ≤ k) : Yields m k s w ds := by
  induction ds generalizing s w with
  | nil => exact ⟨h.1, fun t ht i hi => h.2 t ht i (hn.trans hi)⟩
  | cons d ds ih =>
      refine ⟨h.1, fun t ht i hi => ?_⟩
      obtain ⟨x, w', u, hu, hext, hx, hw'⟩ := h.2 t ht i (hn.trans hi)
      exact ⟨x, w', u, hu, hext, hx, ih hw'⟩

theorem Opens.later {v : Value} (h : Opens m n s v ds) (hst : Later s t) : Opens m n t v ds :=
  fun u hu => h u (hst.trans hu)

theorem Opens.mono {k : Nat} (h : Opens m n s v ds) (hn : n ≤ k) : Opens m k s v ds := by
  intro t ht i hi
  obtain ⟨w, u, hu, hext, hw⟩ := h t ht i (hn.trans hi)
  exact ⟨w, u, hu, hext, hw.mono hn⟩

theorem yields_ended (m : Meaning D) (s : Session) : Yields m 1 s .ended [] := by
  refine ⟨fun _ => rfl, fun t ht k hk => ?_⟩
  obtain ⟨k, rfl⟩ := Nat.exists_eq_add_of_le' hk
  exact ⟨t, rfl, Extends.refl t⟩

theorem yields_items {xs : List Value} (hxs : List.Forall₂ (m.rel s) xs ds) :
    Yields m 1 s (.items xs) ds := by
  induction ds generalizing s xs with
  | nil =>
      obtain rfl := List.forall₂_nil_right_iff.mp hxs
      refine ⟨fun _ => rfl, fun t ht k hk => ?_⟩
      obtain ⟨k, rfl⟩ := Nat.exists_eq_add_of_le' hk
      exact ⟨t, rfl, Extends.refl t⟩
  | cons d ds ih =>
      obtain ⟨x, xs, hx, hxs', rfl⟩ := List.forall₂_cons_right_iff.mp hxs
      refine ⟨fun _ => rfl, fun t ht k hk => ?_⟩
      obtain ⟨k, rfl⟩ := Nat.exists_eq_add_of_le' hk
      exact ⟨x, .items xs, t, rfl, Extends.refl t, m.stable ht hx, ih (m.stable_all ht hxs')⟩

theorem yields_live {array next : Nat} {xs : List Value} (h : s.store[array]? = some (.array xs))
    (hxs : List.Forall₂ (m.rel s) (xs.drop next) ds) : Yields m 1 s (.live array next) ds := by
  have hstill {s t : Session} (ht : Later s t) (h : s.store[array]? = some (.array xs)) :
      t.store[array]? = some (.array xs) := ht.kept_of_still h rfl
  induction ds generalizing s next with
  | nil =>
      have hnone : xs[next]? = none :=
        List.getElem?_eq_none (List.drop_eq_nil_iff.mp (List.forall₂_nil_right_iff.mp hxs))
      refine ⟨fun _ => rfl, fun t ht k hk => ?_⟩
      obtain ⟨k, rfl⟩ := Nat.exists_eq_add_of_le' hk
      refine ⟨t, ?_, Extends.refl t⟩
      rw [exec_pull_live, items_eq (hstill ht h), hnone]
  | cons d ds ih =>
      obtain ⟨x, xs', hx, hxs', hdrop⟩ := List.forall₂_cons_right_iff.mp hxs
      have hsome : xs[next]? = some x := by
        rw [← List.head?_drop, hdrop, List.head?_cons]
      have hrest : xs.drop (next + 1) = xs' := by
        rw [← List.tail_drop, hdrop, List.tail_cons]
      refine ⟨fun _ => rfl, fun t ht k hk => ?_⟩
      obtain ⟨k, rfl⟩ := Nat.exists_eq_add_of_le' hk
      refine ⟨x, .live array (next + 1), t, ?_, Extends.refl t, m.stable ht hx, ?_⟩
      · rw [exec_pull_live, items_eq (hstill ht h), hsome]
      · exact ih (hstill ht h) (hrest ▸ m.stable_all ht hxs')

theorem yields_nil {N : Nat} {w' : Walk} (h : Yields m n s w []) (hq : Quiet w') (hn : n + 1 ≤ N)
    (hp : ∀ {t u : Session} {k : Nat}, t.exec (pull k w) = (.ok .finish, u) →
      t.exec (pull (k + 1) w') = (.ok .finish, u)) : Yields m N s w' [] := by
  refine ⟨hq, fun t ht k hk => ?_⟩
  obtain ⟨k, rfl⟩ : ∃ i, k = i + 1 := ⟨k - 1, by omega⟩
  obtain ⟨u, hu, hext⟩ := h.2 t ht k (by omega)
  exact ⟨u, hp hu, hext⟩

theorem yields_cons {N : Nat} {w' : Walk} (wrap : Walk → Walk) (h : Yields m n s w (d :: ds))
    (hq : Quiet w') (hn : n + 1 ≤ N)
    (hp : ∀ {t u : Session} {k : Nat} {x : Value} {w'' : Walk},
      t.exec (pull k w) = (.ok (.give x w''), u) →
        t.exec (pull (k + 1) w') = (.ok (.give x (wrap w'')), u))
    (hrest : ∀ {t : Session} {w'' : Walk}, Later s t → Yields m n t w'' ds →
      Yields m N t (wrap w'') es) : Yields m N s w' (d :: es) := by
  refine ⟨hq, fun t ht k hk => ?_⟩
  obtain ⟨k, rfl⟩ : ∃ i, k = i + 1 := ⟨k - 1, by omega⟩
  obtain ⟨x, w'', u, hu, hext, hx, hw''⟩ := h.2 t ht k (by omega)
  exact ⟨x, wrap w'', u, hp hu, hext, hx, hrest (ht.trans hext.later) hw''⟩

theorem yields_of_passing {j : Nat} (hq : Quiet w) (hj : j + 1 ≤ n)
    (h : ∀ t, Later s t → ∀ k, j ≤ k → ∃ w' u, t.exec (pull (k + 1) w) = u.exec (pull k w') ∧
      Extends t u ∧ Yields m j u w' ds) : Yields m n s w ds := by
  have hpass {t : Session} (ht : Later s t) {k : Nat} (hk : n ≤ k) :
      ∃ i w' u, j ≤ i ∧ t.exec (pull k w) = u.exec (pull i w') ∧ Extends t u ∧ Yields m j u w' ds := by
    obtain ⟨k, rfl⟩ : ∃ i, k = i + 1 := ⟨k - 1, by omega⟩
    obtain ⟨w', u, hu⟩ := h t ht k (by omega)
    exact ⟨k, w', u, by omega, hu⟩
  cases ds with
  | nil =>
      refine ⟨hq, fun t ht k hk => ?_⟩
      obtain ⟨i, w', u, hi, heq, hext, hw'⟩ := hpass ht hk
      obtain ⟨v, hv, hext'⟩ := hw'.2 u (.refl u) i hi
      exact ⟨v, heq.trans hv, hext.trans hext'⟩
  | cons d ds =>
      refine ⟨hq, fun t ht k hk => ?_⟩
      obtain ⟨i, w', u, hi, heq, hext, hw'⟩ := hpass ht hk
      obtain ⟨x, w'', v, hv, hext', hx, hw''⟩ := hw'.2 u (.refl u) i hi
      exact ⟨x, w'', v, heq.trans hv, hext.trans hext', hx, hw''.mono (by omega)⟩

theorem yields_guarded (h : Yields m n s w ds) : Yields m (n + 1) s (.guarded w) ds := by
  induction ds generalizing s w with
  | nil => exact yields_nil h h.quiet le_rfl fun hu => (exec_bind_ok hu _).trans rfl
  | cons d ds ih =>
      exact yields_cons .guarded h h.quiet le_rfl (fun hu => (exec_bind_ok hu _).trans rfl)
        fun _ hw => ih hw

theorem yields_pending {v : Value} (h : Opens m n s v ds) : Yields m (n + 2) s (.pending v) ds := by
  refine yields_of_passing (j := n + 1) (fun _ => rfl) le_rfl fun t ht k hk => ?_
  obtain ⟨w, u, hu, hext, hw⟩ := h t ht k (by omega)
  exact ⟨.guarded w, u, (exec_bind_ok (exec_outcome hu) _).trans rfl, hext, yields_guarded hw⟩

theorem yields_select {f : Value} {g : D → D} (h : Yields m n s w ds)
    (hf : ∀ d ∈ ds, m.Maps s f [d] (g d)) : Yields m (n + 1) s (.select f w) (ds.map g) := by
  induction ds generalizing s w with
  | nil => exact yields_nil h h.quiet le_rfl fun hu => (exec_bind_ok hu _).trans rfl
  | cons d ds ih =>
      refine ⟨h.quiet, fun t ht k hk => ?_⟩
      obtain ⟨k, rfl⟩ : ∃ i, k = i + 1 := ⟨k - 1, by omega⟩
      obtain ⟨x, w', u, hu, hext, hx, hw'⟩ := h.2 t ht k (by omega)
      have hsu := ht.trans hext.later
      obtain ⟨y, v, hv, hext', hy⟩ := hf d (by simp) u [x] hsu (.cons hx .nil)
      have hsv := hsu.trans hext'.later
      refine ⟨y, .select f w', v, ?_, hext.trans hext', hy, ?_⟩
      · exact (exec_bind_ok hu _).trans ((exec_bind_ok (exec_outcome hv) _).trans rfl)
      · exact ih (hw'.later hext'.later) fun e he => (hf e (by simp [he])).later hsv

theorem yields_filter {p : Value} {q : D → Bool} (h : Yields m n s w ds)
    (hp : ∀ d ∈ ds, m.Tests s p d (q d)) :
    Yields m (n + 1 + ds.length) s (.filter p w) (ds.filter q) := by
  induction ds generalizing s w with
  | nil => exact yields_nil h h.quiet le_rfl fun hu => (exec_bind_ok hu _).trans rfl
  | cons d ds ih =>
      have hstep {t : Session} (ht : Later s t) {k : Nat} (hk : n ≤ k) :
          ∃ x w' u, t.exec (pull (k + 1) (.filter p w)) = u.exec (if q d then
              pure (.give x (.filter p w')) else pull k (.filter p w')) ∧
            Extends t u ∧ m.rel u x d ∧
            Yields m (n + 1 + ds.length) u (.filter p w') (ds.filter q) := by
        obtain ⟨x, w', u, hu, hext, hx, hw'⟩ := h.2 t ht k hk
        have hsu := ht.trans hext.later
        obtain ⟨v, hv, hext'⟩ := hp d (by simp) u x hsu hx
        have hrest := ih (hw'.later hext'.later) fun e he =>
          (hp e (by simp [he])).later (hsu.trans hext'.later)
        refine ⟨x, w', v, ?_, hext.trans hext', m.stable hext'.later hx, hrest⟩
        refine (exec_bind_ok hu _).trans ((exec_bind_ok (exec_outcome hv) _).trans ?_)
        cases q d <;> rfl
      rw [List.length_cons]
      cases hq : q d with
      | true =>
          rw [List.filter_cons_of_pos hq]
          refine ⟨h.quiet, fun t ht k hk => ?_⟩
          obtain ⟨k, rfl⟩ : ∃ i, k = i + 1 := ⟨k - 1, by omega⟩
          obtain ⟨x, w', u, hu, hext, hx, hw'⟩ := hstep ht (k := k) (by omega)
          rw [hq] at hu
          exact ⟨x, .filter p w', u, hu, hext, hx, hw'.mono (by omega)⟩
      | false =>
          rw [List.filter_cons_of_neg (by simp [hq])]
          refine yields_of_passing (j := n + 1 + ds.length) h.quiet le_rfl fun t ht k hk => ?_
          obtain ⟨x, w', u, hu, hext, -, hw'⟩ := hstep ht (k := k) (by omega)
          rw [hq] at hu
          exact ⟨.filter p w', u, hu, hext, hw'⟩

theorem yields_chain (h : Yields m n s inner ds) (h' : Yields m n s outer es) :
    Yields m (n + 1) s (.chain inner outer) (ds ++ es) := by
  have hquiet {w : Walk} (hw : Quiet w) : Quiet (.chain w outer) :=
    fun s => (exec_bind_ok (hw s) _).trans (h'.quiet s)
  induction ds generalizing s inner with
  | nil =>
      refine yields_of_passing (hquiet h.quiet) le_rfl fun t ht k hk => ?_
      obtain ⟨u, hu, hext⟩ := h.2 t ht k hk
      exact ⟨outer, u, (exec_bind_ok hu _).trans rfl, hext, h'.later (ht.trans hext.later)⟩
  | cons d ds ih =>
      exact yields_cons (.chain · outer) h (hquiet h.quiet) le_rfl
        (fun hu => (exec_bind_ok hu _).trans rfl) fun ht hw => ih hw (h'.later ht)

theorem yields_take (h : Yields m n s w ds) (count : Nat) :
    Yields m (n + 1) s (.take count w) (ds.take count) := by
  induction count generalizing s w ds with
  | zero =>
      rw [List.take_zero]
      refine ⟨h.quiet, fun t ht k hk => ?_⟩
      obtain ⟨k, rfl⟩ : ∃ i, k = i + 1 := ⟨k - 1, by omega⟩
      exact ⟨t, (exec_bind_ok (h.quiet t) _).trans rfl, .refl t⟩
  | succ count ih =>
      cases ds with
      | nil => exact yields_nil h h.quiet le_rfl fun hu => (exec_bind_ok hu _).trans rfl
      | cons d ds =>
          exact yields_cons (.take count) h h.quiet le_rfl (fun hu => (exec_bind_ok hu _).trans rfl)
            fun _ hw => ih hw

theorem yields_skip (h : Yields m n s w ds) (count : Nat) :
    Yields m (n + 1 + ds.length) s (.skip count w) (ds.drop count) := by
  induction ds generalizing s w count with
  | nil =>
      rw [List.drop_nil]
      exact yields_nil h h.quiet le_rfl fun hu => (exec_bind_ok hu _).trans rfl
  | cons d ds ih =>
      rw [List.length_cons]
      cases count with
      | zero =>
          exact yields_cons (.skip 0) h h.quiet (by omega) (fun hu => (exec_bind_ok hu _).trans rfl)
            fun _ hw => (ih hw 0).mono (by omega)
      | succ count =>
          refine yields_of_passing (j := n + 1 + ds.length) h.quiet le_rfl fun t ht k hk => ?_
          obtain ⟨x, w', u, hu, hext, -, hw'⟩ := h.2 t ht k (by omega)
          exact ⟨.skip count w', u, (exec_bind_ok hu _).trans rfl, hext, ih hw' count⟩

/-- A function that combines an element with one of those it leads to; null keeps the latter. -/
def Meaning.Combines (m : Meaning D) (s : Session) (f : Value) (c : D → D → D) (d e : D) : Prop :=
  (f = .null → c d e = e) ∧ (f ≠ .null → m.Maps s f [d, e] (c d e))

theorem Meaning.Combines.later {f : Value} {c : D → D → D} {e : D} (h : m.Combines s f c d e)
    (hst : Later s t) : m.Combines t f c d e :=
  ⟨h.1, fun hf => (h.2 hf).later hst⟩

def Meaning.Leads (m : Meaning D) (n : Nat) (s : Session) (f : Value) (indexed : Bool) (d : D) (i : Nat)
    (es : List D) : Prop :=
  ∀ t x, Later s t → m.rel t x d → ∃ y u,
    t.exec (apply f (if indexed then [x, .int i] else [x])) = (.ok y, u) ∧ Extends t u ∧ Opens m n u y es

theorem Meaning.Leads.later {f : Value} {indexed : Bool} {i : Nat} (h : m.Leads n s f indexed d i es)
    (hst : Later s t) : m.Leads n t f indexed d i es :=
  fun u x hu hx => h u x (hst.trans hu) hx

section

variable {f combine item : Value} {indexed : Bool} {index N : Nat} {c : D → D → D} {e : D}

theorem quiet_flatten (h : Quiet inner) (h' : Quiet outer) :
    Quiet (.flatten f indexed combine index item inner outer) :=
  fun s => (exec_bind_ok (h s) _).trans (h' s)

/-- While the walk inside has elements, they are given, combined with the element that led to them. -/
theorem yields_flatten_inner {rest : List D} (hn : n + 1 ≤ N) (h : Yields m n s inner ds)
    (houter : Quiet outer) (hitem : m.rel s item e) (hc : ∀ d ∈ ds, m.Combines s combine c e d)
    (hend : ∀ {t : Session} {w : Walk}, Later s t → Yields m n t w [] →
      Yields m N t (.flatten f indexed combine index item w outer) rest) :
    Yields m N s (.flatten f indexed combine index item inner outer) (ds.map (c e) ++ rest) := by
  induction ds generalizing s inner with
  | nil => exact hend (.refl s) h
  | cons d ds ih =>
      refine ⟨quiet_flatten h.quiet houter, fun t ht k hk => ?_⟩
      obtain ⟨k, rfl⟩ : ∃ i, k = i + 1 := ⟨k - 1, by omega⟩
      obtain ⟨y, w', u, hu, hext, hy, hw'⟩ := h.2 t ht k (by omega)
      have hsu := ht.trans hext.later
      have hrest {v : Session} (hv : Extends u v) : Yields m N v
          (.flatten f indexed combine index item w' outer) (ds.map (c e) ++ rest) := by
        have hsv := hsu.trans hv.later
        exact ih (hw'.later hv.later) (m.stable hsv hitem)
          (fun d hd => (hc d (by simp [hd])).later hsv) fun ht => hend (hsv.trans ht)
      by_cases hnull : combine = .null
      · refine ⟨y, _, u, (exec_bind_ok hu _).trans ?_, hext, ?_, hrest (.refl u)⟩
        · exact congrArg u.exec (if_pos (by simpa using hnull))
        · rw [(hc d (by simp)).1 hnull]
          exact hy
      · obtain ⟨z, v, hv, hext', hz⟩ :=
          (hc d (by simp)).2 hnull u [item, y] hsu (.cons (m.stable hsu hitem) (.cons hy .nil))
        refine ⟨z, _, v, (exec_bind_ok hu _).trans ?_, hext.trans hext', hz, hrest hext'⟩
        refine (congrArg u.exec (if_neg (by simpa using hnull))).trans ?_
        exact (exec_bind_ok (exec_outcome hv) _).trans rfl

theorem yields_flatten {h : D → Nat → List D} (hs : Yields m n s outer ds)
    (hinner : Yields m n s inner []) {N : Nat} (hN : N + 2 ≤ n)
    (hf : ∀ x ∈ ds.zipIdx index, m.Leads N s f indexed x.1 x.2 (h x.1 x.2))
    (hc : ∀ x ∈ ds.zipIdx index, ∀ d ∈ h x.1 x.2, m.Combines s combine c x.1 d) :
    Yields m (n + 1 + ds.length) s (.flatten f indexed combine index item inner outer)
      ((ds.zipIdx index).flatMap fun x => (h x.1 x.2).map (c x.1)) := by
  induction ds generalizing s inner outer index item with
  | nil =>
      refine ⟨quiet_flatten hinner.quiet hs.quiet, fun t ht k hk => ?_⟩
      obtain ⟨k, rfl⟩ : ∃ i, k = i + 1 := ⟨k - 1, by omega⟩
      obtain ⟨u, hu, hext⟩ := hinner.2 t ht k (by omega)
      obtain ⟨v, hv, hext'⟩ := hs.2 u (ht.trans hext.later) k (by omega)
      exact ⟨v, (exec_bind_ok hu _).trans ((exec_bind_ok hv _).trans rfl), hext.trans hext'⟩
  | cons d ds ih =>
      rw [List.zipIdx_cons] at hf hc ⊢
      rw [List.flatMap_cons, List.length_cons]
      refine yields_of_passing (j := n + 1 + ds.length) (quiet_flatten hinner.quiet hs.quiet) le_rfl
        fun t ht k hk => ?_
      obtain ⟨u, hu, hext⟩ := hinner.2 t ht k (by omega)
      obtain ⟨x, w', v, hv, hext', hx, hw'⟩ := hs.2 u (ht.trans hext.later) k (by omega)
      have hsv := (ht.trans hext.later).trans hext'.later
      obtain ⟨y, z, hz, hext'', hy⟩ := hf (d, index) (by simp) v x hsv hx
      have hsz := hsv.trans hext''.later
      refine ⟨.flatten f indexed combine (index + 1) x (.pending y) w', z, ?_,
        (hext.trans hext').trans hext'', ?_⟩
      · refine (exec_bind_ok hu _).trans ((exec_bind_ok hv _).trans ?_)
        exact (exec_bind_ok (exec_outcome hz) _).trans rfl
      · refine yields_flatten_inner (by omega) ((yields_pending hy).mono hN) hw'.quiet
          (m.stable hext''.later hx) (fun e he => (hc (d, index) (by simp) e he).later hsz) fun ht hw => ?_
        exact ih (hw'.later (hext''.later.trans ht)) hw
          (fun x hx => (hf x (by simp [hx])).later (hsz.trans ht))
          fun x hx e he => (hc x (by simp [hx]) e he).later (hsz.trans ht)

end

/-- Keys of values are told apart as the data are, also when one key was taken earlier. -/
def Meaning.Tells (m : Meaning D) (s : Session) (ds : List D) : Prop :=
  ∀ d ∈ ds, ∀ e ∈ ds, ∀ t u x y, Later s t → Later t u → m.rel t x d → m.rel u y e →
    u.keying.answers (t.keying.token x) (u.keying.token y) = m.same d e

theorem Meaning.Tells.later (h : m.Tells s ds) (hst : Later s t) : m.Tells t ds :=
  fun d hd e he u v x y hu => h d hd e he u v x y (hst.trans hu)

def distinctFrom (same : D → D → Bool) (seen : List D) : List D → List D
  | [] => []
  | d :: ds =>
    if seen.any (same · d) then distinctFrom same seen ds
    else d :: distinctFrom same (seen ++ [d]) ds

def Meaning.Seen (m : Meaning D) (base s : Session) (all : List D) (seen : Table Value Value)
    (es : List D) : Prop :=
  List.Forall₂ (fun x e => e ∈ all ∧ ∃ t v, Later base t ∧ Later t s ∧ m.rel t v e ∧
    x.1 = t.keying.token v) seen.entries es

theorem Meaning.Seen.later {base : Session} {all : List D} {seen : Table Value Value}
    (h : m.Seen base s all seen es) (hst : Later s t) : m.Seen base t all seen es := by
  refine h.imp fun x e he => ?_
  obtain ⟨hall, u, v, hu, hus, hv, hx⟩ := he
  exact ⟨hall, u, v, hu, hus.trans hst, hv, hx⟩

theorem Meaning.Seen.contains {base : Session} {all : List D} {seen : Table Value Value} {x : Value}
    (h : m.Seen base s all seen es) (hall : m.Tells base all) (hd : d ∈ all) (hx : m.rel s x d) :
    seen.contains s.keying x = es.any (m.same · d) := by
  obtain ⟨entries⟩ := seen
  change List.Forall₂ _ entries es at h
  change (entries.any fun y => s.keying.answers y.1 (s.keying.token x)) = _
  induction h with
  | nil => rfl
  | cons hy _ ih =>
      obtain ⟨he, u, v, hu, hus, hv, htoken⟩ := hy
      rw [List.any_cons, List.any_cons, ih, htoken, hall _ he d hd u s v x hu hus hv hx]

/-- A step of a distinct walk passes over an element that has been seen, and remembers a new one. -/
theorem exec_pull_distinct {base : Session} {all seen : List D} {table : Table Value Value}
    (h : Yields m n s w (d :: ds)) (hall : m.Tells base all) (hd : d ∈ all)
    (hseen : m.Seen base s all table seen) (hst : Later s t) (hk : n ≤ k) :
    ∃ x w' u, t.exec (pull (k + 1) (.distinct table w)) = u.exec (
        if seen.any (m.same · d) then pull k (.distinct table w')
        else pure (.give x (.distinct ⟨table.entries ++ [(u.keying.token x, x)]⟩ w'))) ∧
      Extends t u ∧ m.rel u x d ∧ Yields m n u w' ds := by
  obtain ⟨x, w', u, hu, hext, hx, hw'⟩ := h.2 t hst k hk
  have hcontains := (hseen.later (hst.trans hext.later)).contains hall hd hx
  refine ⟨x, w', u, (exec_bind_ok hu _).trans ?_, hext, hx, hw'⟩
  refine (exec_get_bind u _).trans ?_
  rw [Table.add?, hcontains]
  cases seen.any (m.same · d) <;> simp only [Bool.false_eq_true, if_true, if_false]

theorem yields_distinct {base : Session} {all seen : List D} {table : Table Value Value}
    (h : Yields m n s w ds) (hall : m.Tells base all) (hs : Later base s) (hds : ∀ d ∈ ds, d ∈ all)
    (hseen : m.Seen base s all table seen) :
    Yields m (n + 1 + ds.length) s (.distinct table w) (distinctFrom m.same seen ds) := by
  induction ds generalizing s w table seen with
  | nil => exact yields_nil h h.quiet le_rfl fun hu => (exec_bind_ok hu _).trans rfl
  | cons d ds ih =>
      have hd := hds d (by simp)
      have hrest : ∀ e ∈ ds, e ∈ all := fun e he => hds e (by simp [he])
      rw [distinctFrom, List.length_cons]
      cases hany : seen.any (m.same · d) with
      | true =>
          rw [if_pos rfl]
          refine yields_of_passing (j := n + 1 + ds.length) h.quiet le_rfl fun t ht k hk => ?_
          obtain ⟨x, w', u, hu, hext, -, hw'⟩ :=
            exec_pull_distinct h hall hd hseen ht (show n ≤ k by omega)
          rw [hany] at hu
          have hsu := ht.trans hext.later
          exact ⟨.distinct table w', u, hu, hext, ih hw' (hs.trans hsu) hrest (hseen.later hsu)⟩
      | false =>
          rw [if_neg (by simp)]
          refine ⟨h.quiet, fun t ht k hk => ?_⟩
          obtain ⟨k, rfl⟩ : ∃ i, k = i + 1 := ⟨k - 1, by omega⟩
          obtain ⟨x, w', u, hu, hext, hx, hw'⟩ :=
            exec_pull_distinct h hall hd hseen ht (show n ≤ k by omega)
          rw [hany] at hu
          have hsu := ht.trans hext.later
          have hnew : m.Seen base u all ⟨table.entries ++ [(u.keying.token x, x)]⟩ (seen ++ [d]) :=
            List.rel_append (hseen.later hsu)
              (.cons ⟨hd, u, x, hs.trans hsu, .refl u, hx, rfl⟩ .nil)
          exact ⟨x, _, u, hu, hext, hx, (ih hw' (hs.trans hsu) hrest hnew).mono (by omega)⟩

section

variable {u : Session}

theorem exec_drain_finish (h : s.exec (pull k w) = (.ok .finish, t)) :
    s.exec (drain (k + 1) w) = (.ok [], t) :=
  (exec_bind_ok h _).trans rfl

theorem exec_drain_give {x : Value} {xs : List Value} {w' : Walk}
    (h : s.exec (pull k w) = (.ok (.give x w'), t)) (ht : t.exec (drain k w') = (.ok xs, u)) :
    s.exec (drain (k + 1) w) = (.ok (x :: xs), u) :=
  (exec_bind_ok h _).trans ((exec_bind_ok ht _).trans rfl)

end

theorem exec_drain (h : Yields m n s w ds) (hk : n + ds.length + 1 ≤ k) :
    ∃ xs t, s.exec (drain k w) = (.ok xs, t) ∧ Extends s t ∧ List.Forall₂ (m.rel t) xs ds := by
  induction ds generalizing s w k with
  | nil =>
      obtain ⟨k, rfl⟩ : ∃ i, k = i + 1 := ⟨k - 1, by omega⟩
      obtain ⟨u, hu, hext⟩ := h.2 s (.refl s) k (by simp at hk; omega)
      exact ⟨[], u, exec_drain_finish hu, hext, .nil⟩
  | cons d ds ih =>
      rw [List.length_cons] at hk
      obtain ⟨k, rfl⟩ : ∃ i, k = i + 1 := ⟨k - 1, by omega⟩
      obtain ⟨x, w', u, hu, hext, hx, hw'⟩ := h.2 s (.refl s) k (by omega)
      obtain ⟨xs, v, hv, hext', hxs⟩ := ih hw' (k := k) (by omega)
      exact ⟨x :: xs, v, exec_drain_give hu hv, hext.trans hext',
        .cons (m.stable hext'.later hx) hxs⟩

end BaseLib.Enumeration
