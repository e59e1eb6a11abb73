import BaseLib.Proofs.Collection.Sorting
import BaseLib.Proofs.Enumeration.Yields

namespace BaseLib.Enumeration

open Session

variable {D : Type} {m : Meaning D} {s t : Session} {x : Value} {d : D} {xs ys : List Value}
  {ds es : List D}

def Meaning.within (m : Meaning D) (ds : List D) : Meaning D where
  rel s x d := m.rel s x d ∧ d ∈ ds
  stable h hx := ⟨m.stable h hx.1, hx.2⟩
  same := m.same

theorem Meaning.rel_within (h : List.Forall₂ (m.rel s) xs ds) :
    List.Forall₂ ((m.within ds).rel s) xs ds := by
  refine List.forall₂_iff_zip.mpr ⟨h.length_eq, fun {x d} hxd => ?_⟩
  exact ⟨(List.forall₂_iff_zip.mp h).2 hxd, (List.of_mem_zip hxd).2⟩

theorem Meaning.rel_of_within {all : List D} (h : List.Forall₂ ((m.within all).rel s) xs ds) :
    List.Forall₂ (m.rel s) xs ds := h.imp fun _ _ hx => hx.1

abbrev ValueLess := Sorting.Less (StateT Session Id) Value Fault

def LessAs (m : Meaning D) (s : Session) (less : ValueLess) (lt : D → D → Bool) : Prop :=
  ∀ t x y d e, Later s t → m.rel t x d → m.rel t y e →
    ∃ u, less x y t = (.ok (lt d e), u) ∧ Extends t u

theorem LessAs.later {less : ValueLess} {lt : D → D → Bool} (h : LessAs m s less lt) (hst : Later s t) :
    LessAs m t less lt := fun u x y d e hu => h u x y d e (hst.trans hu)

theorem stateT_bind {α β : Type} {a : StateT Session Id α} {r : α} (h : a s = (r, t))
    (f : α → StateT Session Id β) : (a >>= f) s = f r t := by
  show f (a s).1 (a s).2 = _
  rw [h]

theorem forall₂_getElem? {R : Value → D → Prop} (h : List.Forall₂ R xs ds) (i : Nat) :
    xs[i]? = none ∧ ds[i]? = none ∨ ∃ x d, xs[i]? = some x ∧ ds[i]? = some d ∧ R x d := by
  induction h generalizing i with
  | nil => exact .inl ⟨rfl, rfl⟩
  | @cons x d _ _ hx _ ih =>
      cases i with
      | zero => exact .inr ⟨x, d, rfl, rfl, hx⟩
      | succ i => exact ih i

theorem forall₂_insertIdx {R : Value → D → Prop} (h : List.Forall₂ R xs ds) (hx : R x d) (i : Nat) :
    List.Forall₂ R (xs.insertIdx i x) (ds.insertIdx i d) := by
  induction h generalizing i with
  | nil => cases i <;> simp [hx]
  | cons hy hys ih =>
      cases i with
      | zero => exact .cons hx (.cons hy hys)
      | succ i => simpa using ⟨hy, ih i⟩

section

variable {less : ValueLess} {lt : D → D → Bool}

theorem run_runLength (h : LessAs m s less lt) (descending : Bool) (hx : m.rel s x d)
    (hxs : List.Forall₂ (m.rel s) xs ds) :
    ∃ t, Sorting.runLength less descending x xs s = (.ok (Sorting.ascent lt descending d ds), t) ∧
      Extends s t := by
  induction ds generalizing s x d xs with
  | nil =>
      obtain rfl := List.forall₂_nil_right_iff.mp hxs
      exact ⟨s, rfl, .refl s⟩
  | cons e ds ih =>
      obtain ⟨y, ys, hy, hys, rfl⟩ := List.forall₂_cons_right_iff.mp hxs
      obtain ⟨t, ht, hext⟩ := h s y x e d (.refl s) hy hx
      rw [Sorting.runLength, Sorting.ascent]
      by_cases hb : lt e d == descending
      · obtain ⟨u, hu, hext'⟩ := ih (h.later hext.later) (m.stable hext.later hy)
          (m.stable_all hext.later hys)
        refine ⟨u, (stateT_bind ht _).trans ?_, hext.trans hext'⟩
        simp only [hb, if_true]
        exact (stateT_bind hu _).trans rfl
      · refine ⟨t, (stateT_bind ht _).trans ?_, hext⟩
        simp only [hb]
        rfl

theorem run_firstRun (h : LessAs m s less lt) (hxs : List.Forall₂ (m.rel s) xs ds) :
    ∃ run rest t, Sorting.firstRun less xs s = (.ok (run, rest), t) ∧ Extends s t ∧
      List.Forall₂ (m.rel t) run (Sorting.splitRun lt ds).1 ∧
      List.Forall₂ (m.rel t) rest (Sorting.splitRun lt ds).2 := by
  match ds with
  | [] =>
      obtain rfl := List.forall₂_nil_right_iff.mp hxs
      exact ⟨[], [], s, rfl, .refl s, .nil, .nil⟩
  | [d] =>
      obtain ⟨x, _, hx, hnil, rfl⟩ := List.forall₂_cons_right_iff.mp hxs
      obtain rfl := List.forall₂_nil_right_iff.mp hnil
      exact ⟨[x], [], s, rfl, .refl s, .cons hx .nil, .nil⟩
  | d :: e :: ds =>
      obtain ⟨x, _, hx, hys, rfl⟩ := List.forall₂_cons_right_iff.mp hxs
      obtain ⟨y, ys, hy, hzs, rfl⟩ := List.forall₂_cons_right_iff.mp hys
      obtain ⟨t, ht, hext⟩ := h s y x e d (.refl s) hy hx
      obtain ⟨u, hu, hext'⟩ := run_runLength (h.later hext.later) (lt e d)
        (m.stable hext.later hy) (m.stable_all hext.later hzs)
      have hall := m.stable_all (hext.trans hext').later hxs
      let n := Sorting.ascent lt (lt e d) e ds + 2
      let run := (x :: y :: ys).take n
      refine ⟨if lt e d then run.reverse else run, (x :: y :: ys).drop n, u, ?_, hext.trans hext',
        ?_, List.forall₂_drop n hall⟩
      · rw [Sorting.firstRun]
        exact (stateT_bind ht _).trans ((stateT_bind hu _).trans rfl)
      · have hrun := List.forall₂_take n hall
        show List.Forall₂ _ _
          (if lt e d then ((d :: e :: ds).take n).reverse else (d :: e :: ds).take n)
        split
        · exact List.rel_reverse hrun
        · exact hrun

theorem run_bisect (h : LessAs m s less lt) (hx : m.rel s x d) (hxs : List.Forall₂ (m.rel s) xs ds)
    (low width : Nat) :
    ∃ t, Sorting.bisect less xs x low width s = (.ok (Sorting.place lt ds d low width), t) ∧
      Extends s t := by
  induction width using Nat.strongRecOn generalizing s low with
  | _ width ih =>
      cases width with
      | zero =>
          rw [Sorting.bisect, Sorting.place]
          exact ⟨s, rfl, .refl s⟩
      | succ width =>
          rw [Sorting.bisect, Sorting.place]
          rcases forall₂_getElem? hxs (low + (width + 1) / 2) with ⟨hnone, hnone'⟩ | ⟨y, e, hy, he, hye⟩
          · simp only [hnone, hnone']
            exact ⟨s, rfl, .refl s⟩
          · obtain ⟨t, ht, hext⟩ := h s x y d e (.refl s) hx hye
            have hrec (low' width' : Nat) (hw : width' < width + 1) := ih width' hw
              (h.later hext.later) (m.stable hext.later hx) (m.stable_all hext.later hxs) low'
            simp only [hy, he]
            cases hlt : lt d e with
            | true =>
                obtain ⟨u, hu, hext'⟩ := hrec low ((width + 1) / 2) (by omega)
                rw [hlt] at ht
                exact ⟨u, (stateT_bind ht _).trans hu, hext.trans hext'⟩
            | false =>
                obtain ⟨u, hu, hext'⟩ := hrec (low + (width + 1) / 2 + 1) (width - (width + 1) / 2)
                  (by omega)
                rw [hlt] at ht
                exact ⟨u, (stateT_bind ht _).trans hu, hext.trans hext'⟩

theorem run_insertAll (h : LessAs m s less lt) (hxs : List.Forall₂ (m.rel s) xs ds)
    (hys : List.Forall₂ (m.rel s) ys es) :
    ∃ zs t, Sorting.insertAll less xs ys s = ((none, zs), t) ∧ Extends s t ∧
      List.Forall₂ (m.rel t) zs (Sorting.insertEach lt ds es) := by
  induction es generalizing s xs ds ys with
  | nil =>
      obtain rfl := List.forall₂_nil_right_iff.mp hys
      exact ⟨xs, s, rfl, .refl s, hxs⟩
  | cons e es ih =>
      obtain ⟨y, ys, hy, hrest, rfl⟩ := List.forall₂_cons_right_iff.mp hys
      obtain ⟨t, ht, hext⟩ := run_bisect h hy hxs 0 xs.length
      have hplaced := forall₂_insertIdx (m.stable_all hext.later hxs) (m.stable hext.later hy)
        (Sorting.place lt ds e 0 ds.length)
      obtain ⟨zs, u, hu, hext', hzs⟩ := ih (h.later hext.later) hplaced (m.stable_all hext.later hrest)
      rw [hxs.length_eq] at ht
      refine ⟨zs, u, ?_, hext.trans hext', hzs⟩
      rw [Sorting.insertAll, hxs.length_eq]
      exact (stateT_bind ht _).trans hu

theorem run_sort (h : LessAs m s less lt) (hxs : List.Forall₂ (m.rel s) xs ds) :
    ∃ zs t, Sorting.sort less xs s = ((none, zs), t) ∧ Extends s t ∧
      List.Forall₂ (m.rel t) zs (Sorting.arrange lt ds) := by
  obtain ⟨run, rest, t, ht, hext, hrun, hrest⟩ := run_firstRun h hxs
  obtain ⟨zs, u, hu, hext', hzs⟩ := run_insertAll (h.later hext.later) hrun hrest
  exact ⟨zs, u, (stateT_bind ht _).trans hu, hext.trans hext', hzs⟩

theorem run_sortDescending (h : LessAs m s less lt) (hxs : List.Forall₂ (m.rel s) xs ds) :
    ∃ zs t, Sorting.sortDescending less xs s = ((none, zs), t) ∧ Extends s t ∧
      List.Forall₂ (m.rel t) zs (Sorting.arrange lt ds.reverse).reverse := by
  obtain ⟨zs, t, ht, hext, hzs⟩ := run_sort h (List.rel_reverse hxs)
  exact ⟨zs.reverse, t, (stateT_bind ht _).trans rfl, hext, List.rel_reverse hzs⟩

end

theorem order_int (s : Session) (op : OrderOp) (a b : Int) :
    s.order op (.int a) (.int b) = .ok (op.holds (compare a b)) := rfl

theorem order_lt_int (s : Session) (a b : Int) : s.order .lt (.int a) (.int b) = .ok (decide (a < b)) := by
  rw [order_int]
  exact congrArg _ (Bool.eq_iff_iff.mpr (by simp [OrderOp.holds, compare_lt_iff_lt]))

theorem order_gt_int (s : Session) (a b : Int) : s.order .gt (.int a) (.int b) = .ok (decide (b < a)) := by
  rw [order_int]
  exact congrArg _ (Bool.eq_iff_iff.mpr (by simp [OrderOp.holds, compare_gt_iff_gt]))

/-- The keys that a function gives for values of two data compare as the data do. -/
def Meaning.Compares (m : Meaning D) (s : Session) (f : Value) (cmp : D → D → Int) (d e : D) : Prop :=
  ∀ t x y, Later s t → m.rel t x d → m.rel t y e → ∃ a b u v, t.exec (apply f [x]) = (.ok a, u) ∧
    Extends t u ∧ u.exec (apply f [y]) = (.ok b, v) ∧ Extends u v ∧ v.compare3 a b = .ok (cmp d e)

theorem Meaning.Compares.later {f : Value} {cmp : D → D → Int} {e : D}
    (h : m.Compares s f cmp d e) (hst : Later s t) : m.Compares t f cmp d e :=
  fun u x y hu => h u x y (hst.trans hu)

/-- A key of an ordering: its function, whether it is descending, and the comparison of its values. -/
abbrev Key (D : Type) := Value × Bool × (D → D → Int)

theorem keyLess_as {f : Value} {cmp : D → D → Int}
    (h : ∀ d ∈ ds, ∀ e ∈ ds, m.Compares s f cmp d e) :
    LessAs (m.within ds) s (keyLess f) fun d e => cmp d e < 0 := by
  intro t x y d e ht hx hy
  obtain ⟨a, b, u, v, hu, hext, hv, hext', hcmp⟩ := h d hx.2 e hy.2 t x y ht hx.1 hy.1
  refine ⟨v, ?_, hext.trans hext'⟩
  have hcomparison : v.exec (comparison a b) = (.ok (cmp d e), v) := by
    rw [comparison, exec_get_bind, hcmp]
    rfl
  show t.exec _ = _
  exact (exec_bind_ok hu _).trans ((exec_bind_ok hv _).trans ((exec_bind_ok hcomparison _).trans rfl))

theorem exec_sortByKeys_cons {f : Value} {descending : Bool} {rest : List (Value × Bool)} {u : Session}
    {zs : List Value} (ht : s.exec (sortByKeys xs rest) = (.ok ys, t))
    (hu : (if descending then Sorting.sortDescending else Sorting.sort) (keyLess f) ys t =
      ((none, zs), u)) : s.exec (sortByKeys xs ((f, descending) :: rest)) = (.ok zs, u) := by
  refine (exec_bind_ok ht _).trans ((exec_bind_ok (t := u) (x := (none, zs)) ?_ _).trans rfl)
  show (Except.ok ((if descending then Sorting.sortDescending else Sorting.sort) (keyLess f) ys t).1,
    ((if descending then Sorting.sortDescending else Sorting.sort) (keyLess f) ys t).2) = _
  rw [hu]

theorem exec_sortByKeys {keys : List (Key D)}
    (h : ∀ key ∈ keys, ∀ d ∈ ds, ∀ e ∈ ds, m.Compares s key.1 key.2.2 d e)
    (hxs : List.Forall₂ (m.rel s) xs ds) :
    ∃ ys t, s.exec (sortByKeys xs (keys.map fun key => (key.1, key.2.1))) = (.ok ys, t) ∧
      Extends s t ∧ List.Forall₂ ((m.within ds).rel t) ys (Sorting.arrangeBy (keys.map (·.2)) ds) := by
  induction keys with
  | nil => exact ⟨xs, s, rfl, .refl s, m.rel_within hxs⟩
  | cons key keys ih =>
      obtain ⟨f, descending, cmp⟩ := key
      obtain ⟨ys, t, ht, hext, hys⟩ := ih fun k hk => h k (by simp [hk])
      have hless := (keyLess_as (h (f, descending, cmp) (by simp))).later hext.later
      cases descending with
      | true =>
          obtain ⟨zs, u, hu, hext', hzs⟩ := run_sortDescending hless hys
          exact ⟨zs, u, exec_sortByKeys_cons ht hu, hext.trans hext', hzs⟩
      | false =>
          obtain ⟨zs, u, hu, hext', hzs⟩ := run_sort hless hys
          exact ⟨zs, u, exec_sortByKeys_cons ht hu, hext.trans hext', hzs⟩

end BaseLib.Enumeration
