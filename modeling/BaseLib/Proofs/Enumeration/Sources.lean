import BaseLib.Proofs.Enumeration.Yields

namespace BaseLib.Enumeration

open Session

variable {D : Type} {m : Meaning D} {s t u : Session} {n k : Nat} {v : Value} {w : Walk} {d : D} {ds : List D}

/-- Pulled with `n` steps or more, a walk gives values for the data one after the other and then ends. Between
the pulls objects may be added, and nothing changes in a pull but that enumerations go on. -/
def Comes (m : Meaning D) (n : Nat) : Session → Walk → List D → Prop
  | s, w, [] => ∀ t, Extends s t → ∀ k, n ≤ k → ∃ u, t.exec (pull k w) = (.ok .finish, u) ∧ Later t u
  | s, w, d :: ds => ∀ t, Extends s t → ∀ k, n ≤ k →
      ∃ x w' u, t.exec (pull k w) = (.ok (.give x w'), u) ∧ Later t u ∧ m.rel u x d ∧ Comes m n u w' ds

theorem Comes.extends (h : Comes m n s w ds) (hst : Extends s t) : Comes m n t w ds := by
  cases ds <;> exact fun u hu => h u (hst.trans hu)

theorem Comes.mono (h : Comes m n s w ds) (hn : n ≤ k) : Comes m k s w ds := by
  induction ds generalizing s w with
  | nil => exact fun t ht i hi => h t ht i (hn.trans hi)
  | cons d ds ih =>
      intro t ht i hi
      obtain ⟨x, w', u, hu, hlater, hx, hw'⟩ := h t ht i (hn.trans hi)
      exact ⟨x, w', u, hu, hlater, hx, ih hw'⟩

theorem Yields.comes (h : Yields m n s w ds) : Comes m n s w ds := by
  induction ds generalizing s w with
  | nil =>
      intro t ht k hk
      obtain ⟨u, hu, hext⟩ := h.2 t ht.later k hk
      exact ⟨u, hu, hext.later⟩
  | cons d ds ih =>
      intro t ht k hk
      obtain ⟨x, w', u, hu, hext, hx, hw'⟩ := h.2 t ht.later k hk
      exact ⟨x, w', u, hu, hext.later, hx, ih hw'⟩

theorem Opens.comes (h : Opens m n s v ds) : Comes m (n + 2) s (.pending v) ds :=
  (yields_pending h).comes

theorem exec_pull_pending (h : s.exec (openWalk k v) = (.ok w, t)) :
    s.exec (pull (k + 1) (.pending v)) = t.exec (pull k (.guarded w)) :=
  (exec_bind_ok (exec_outcome h) _).trans rfl

section

variable {id count : Nat} {x : Value} {xs : List Value}

theorem exec_openWalk_generator (h : s.store[id]? = some (.generator xs count)) (k : Nat) :
    s.exec (openWalk (k + 1) (.ref id)) = (.ok (.generator id), s) := by
  rw [openWalk, exec_get_bind]
  simp only [object?, h, foreignWalk]
  rw [exec_get_bind]
  simp only [h]
  rfl

theorem exec_pull_generator_nil (h : s.store[id]? = some (.generator [] count)) (k : Nat) :
    s.exec (pull (k + 2) (.guarded (.generator id))) =
      (.ok .finish, s.put id (.generator [] (count + 1))) := by
  have hstep : s.exec (leafStep (.generator id)) = (.ok (.ok none, .generator id), s) := by
    rw [leafStep, exec_get_bind]
    simp only [h]
    rfl
  exact (exec_bind_ok hstep _).trans ((exec_bind_ok (exec_closeGenerator h) _).trans rfl)

theorem exec_pull_generator_cons (h : s.store[id]? = some (.generator (x :: xs) count)) (k : Nat) :
    s.exec (pull (k + 2) (.guarded (.generator id))) =
      (.ok (.give x (.guarded (.generator id))), s.put id (.generator xs count)) := by
  have hstep : s.exec (leafStep (.generator id)) =
      (.ok (.give x (.generator id)), s.put id (.generator xs count)) := by
    rw [leafStep, exec_get_bind]
    simp only [h]
    rfl
  exact (exec_bind_ok hstep _).trans rfl

theorem comes_generator (h : s.store[id]? = some (.generator xs count))
    (hxs : List.Forall₂ (m.rel s) xs ds) : Comes m 2 s (.guarded (.generator id)) ds := by
  induction ds generalizing s xs with
  | nil =>
      obtain rfl := List.forall₂_nil_right_iff.mp hxs
      intro t ht k hk
      obtain ⟨k, rfl⟩ : ∃ i, k = i + 2 := ⟨k - 2, by omega⟩
      exact ⟨_, exec_pull_generator_nil (ht.kept h) k, later_put (ht.kept h) (.generator _ _ _ _)⟩
  | cons d ds ih =>
      obtain ⟨x, tail, hx, htail, rfl⟩ := List.forall₂_cons_right_iff.mp hxs
      intro t ht k hk
      obtain ⟨k, rfl⟩ : ∃ i, k = i + 2 := ⟨k - 2, by omega⟩
      have hlater : Later t (t.put id (.generator tail count)) := later_put (ht.kept h) (.generator _ _ _ _)
      have hput := store_put (ht.kept h) (.generator tail count)
      exact ⟨x, _, _, exec_pull_generator_cons (ht.kept h) k, hlater, m.stable (ht.later.trans hlater) hx,
        ih hput (m.stable_all (ht.later.trans hlater) htail)⟩

theorem comes_once (h : s.store[id]? = some (.generator xs count))
    (hxs : List.Forall₂ (m.rel s) xs ds) : Comes m 3 s (.pending (.ref id)) ds := by
  have hwalk {t : Session} (ht : Extends s t) {k : Nat} :
      t.exec (pull (k + 2) (.pending (.ref id))) = t.exec (pull (k + 1) (.guarded (.generator id))) :=
    exec_pull_pending (exec_openWalk_generator (ht.kept h) k)
  have hcomes := comes_generator h hxs
  cases ds with
  | nil =>
      intro t ht k hk
      obtain ⟨k, rfl⟩ : ∃ i, k = i + 3 := ⟨k - 3, by omega⟩
      rw [hwalk ht]
      exact hcomes t ht (k + 2) (by omega)
  | cons d ds =>
      intro t ht k hk
      obtain ⟨k, rfl⟩ : ∃ i, k = i + 3 := ⟨k - 3, by omega⟩
      rw [hwalk ht]
      obtain ⟨x, w', u, hu, hlater, hx, hw'⟩ := hcomes t ht (k + 2) (by omega)
      exact ⟨x, w', u, hu, hlater, hx, hw'.mono (by omega)⟩

end

theorem Comes.drain (h : Comes m n s w ds) (hk : n + ds.length + 1 ≤ k) :
    ∃ xs u, s.exec (drain k w) = (.ok xs, u) ∧ Later s u ∧ List.Forall₂ (m.rel u) xs ds := by
  induction ds generalizing s w k with
  | nil =>
      obtain ⟨k, rfl⟩ : ∃ i, k = i + 1 := ⟨k - 1, by omega⟩
      obtain ⟨u, hu, hlater⟩ := h s (.refl s) k (by simp at hk; omega)
      exact ⟨[], u, exec_drain_finish hu, hlater, .nil⟩
  | cons d ds ih =>
      rw [List.length_cons] at hk
      obtain ⟨k, rfl⟩ : ∃ i, k = i + 1 := ⟨k - 1, by omega⟩
      obtain ⟨x, w', u, hu, hlater, hx, hw'⟩ := h s (.refl s) k (by omega)
      obtain ⟨xs, y, hy, hlater', hxs⟩ := ih hw' (k := k) (by omega)
      exact ⟨x :: xs, y, exec_drain_give hu hy, hlater.trans hlater', .cons (m.stable hlater' hx) hxs⟩

section

variable {σ A : Type} {step : σ → Value → Action (Bool × σ)} {state state' : σ} {x : Value} {w' : Walk}

theorem exec_foldWalk_finish (h : s.exec (pull k w) = (.ok .finish, t)) :
    s.exec (foldWalk step (k + 1) state w) = (.ok state, t) :=
  (exec_bind_ok h _).trans rfl

theorem exec_foldWalk_go (h : s.exec (pull k w) = (.ok (.give x w'), t))
    (ht : t.exec (step state x) = (.ok (true, state'), u)) :
    s.exec (foldWalk step (k + 1) state w) = u.exec (foldWalk step k state' w') :=
  (exec_bind_ok h _).trans (exec_bind_ok (exec_outcome ht) _)

theorem exec_foldWalk_stop (h : s.exec (pull k w) = (.ok (.give x w'), t))
    (ht : t.exec (step state x) = (.ok (false, state'), u)) (hq : Quiet w') :
    s.exec (foldWalk step (k + 1) state w) = (.ok state', u) :=
  (exec_bind_ok h _).trans ((exec_bind_ok (exec_outcome ht) _).trans ((exec_bind_ok (hq u) _).trans rfl))

theorem exec_foldWalk {R : Session → σ → A → Prop} {next : A → D → A} {a : A}
    (hR : ∀ {s t : Session} {state : σ} {a : A}, Later s t → R s state a → R t state a)
    (hw : Comes m n s w ds) (hk : n + ds.length + 1 ≤ k) (ha : R s state a)
    (hstep : ∀ t state a x, ∀ d ∈ ds, Later s t → R t state a → m.rel t x d →
      ∃ state' u, t.exec (step state x) = (.ok (true, state'), u) ∧ Extends t u ∧ R u state' (next a d)) :
    ∃ state' u, s.exec (foldWalk step k state w) = (.ok state', u) ∧ Later s u ∧ R u state' (ds.foldl next a) := by
  induction ds generalizing s w state a k with
  | nil =>
      obtain ⟨k, rfl⟩ : ∃ i, k = i + 1 := ⟨k - 1, by omega⟩
      obtain ⟨u, hu, hlater⟩ := hw s (.refl s) k (by simp at hk; omega)
      exact ⟨state, u, exec_foldWalk_finish hu, hlater, hR hlater ha⟩
  | cons d ds ih =>
      rw [List.length_cons] at hk
      obtain ⟨k, rfl⟩ : ∃ i, k = i + 1 := ⟨k - 1, by omega⟩
      obtain ⟨x, w', t, ht, hlater, hx, hw'⟩ := hw s (.refl s) k (by omega)
      obtain ⟨state', u, hu, hext, ha'⟩ := hstep t state a x d (by simp) hlater (hR hlater ha) hx
      have hsu := hlater.trans hext.later
      obtain ⟨result, v, hv, hlater', hresult⟩ := ih (hw'.extends hext) (show n + ds.length + 1 ≤ k by omega) ha'
        fun t state a x e he hut => hstep t state a x e (by simp [he]) (hsu.trans hut)
      exact ⟨result, v, (exec_foldWalk_go ht hu).trans hv, hsu.trans hlater', hresult⟩

end

end BaseLib.Enumeration
