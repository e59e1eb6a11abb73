import BaseLib.Proofs.Enumeration.Integers
import BaseLib.Proofs.Enumeration.Sources

namespace BaseLib.Enumeration

open Session Library Sorting

variable {D : Type} {m : Meaning D} {s t u : Session} {n k : Nat} {v q : Value} {w : Walk}
  {ds : List D} {keys : List (Key D)}

/-- A finite source, be it one that comes once: read with `n` steps or more, in a session that has all
objects of this one, it gives values of the data, and nothing changes but that enumerations go on. -/
def Reads (m : Meaning D) (n : Nat) (s : Session) (v : Value) (ds : List D) : Prop :=
  ∀ t, Extends s t → ∀ k, n ≤ k →
    ∃ xs u, t.exec (drain k (.pending v)) = (.ok xs, u) ∧ Later t u ∧ List.Forall₂ (m.rel u) xs ds

theorem Reads.extends (h : Reads m n s v ds) (hst : Extends s t) : Reads m n t v ds :=
  fun u hu => h u (hst.trans hu)

theorem Reads.mono (h : Reads m n s v ds) (hn : n ≤ k) : Reads m k s v ds :=
  fun t ht i hi => h t ht i (hn.trans hi)

theorem Comes.reads (h : Comes m n s (.pending v) ds) : Reads m (n + ds.length + 1) s v ds :=
  fun _ ht _ hk => (h.extends ht).drain hk

theorem exec_drain_opened (h : s.exec (openWalk k v) = (.ok w, t)) (hw : Yields m n t w ds)
    (hk : n + ds.length + 1 ≤ k) :
    ∃ xs u, s.exec (drain (k + 2) (.pending v)) = (.ok xs, u) ∧ Extends t u ∧
      List.Forall₂ (m.rel u) xs ds := by
  have hguarded := yields_guarded hw
  have hpull := exec_pull_pending h
  cases ds with
  | nil =>
      obtain ⟨u, hu, hext⟩ := hguarded.2 t (.refl t) k (by simpa using hk)
      exact ⟨[], u, exec_drain_finish (hpull.trans hu), hext, .nil⟩
  | cons d ds =>
      rw [List.length_cons] at hk
      obtain ⟨x, w', u, hu, hext, hx, hw'⟩ := hguarded.2 t (.refl t) k (by omega)
      obtain ⟨xs, y, hy, hext', hxs⟩ := exec_drain hw' (show n + 1 + ds.length + 1 ≤ k + 1 by omega)
      exact ⟨x :: xs, y, exec_drain_give (hpull.trans hu) hy, hext.trans hext',
        .cons (m.stable hext'.later hx) hxs⟩

theorem reads_generator {id count : Nat} {xs : List Value} (h : s.store[id]? = some (.generator xs count))
    (hxs : List.Forall₂ (m.rel s) xs ds) : Reads m (ds.length + 5) s (.ref id) ds :=
  (comes_once h hxs).reads.mono (by omega)

def Key.clause (key : Key D) : Value × Bool := (key.1, key.2.1)

/-- The comparison by all keys of a chain. -/
def compareBy (keys : List (Key D)) : D → D → Int := lexicographic ((keys.map (·.2)).map directed)

theorem totalPreorder_pairs (h : ∀ key ∈ keys, TotalPreorder key.2.2) :
    ∀ pair ∈ keys.map (·.2), TotalPreorder pair.2 := by
  intro pair hpair
  obtain ⟨key, hkey, rfl⟩ := List.mem_map.mp hpair
  exact h key hkey

/-- An ordering with more keys, each of which counts for less than those before it. -/
def thenBy (q : Value) : List (Value × Bool) → Action Value
  | [] => pure q
  | (f, descending) :: rest => do
    let member := if descending then "Enumerable.ThenByDescending" else "Enumerable.ThenBy"
    thenBy (← Catalogue.call member [q, f]) rest

def orderBy (source : Value) (first : Value × Bool) (rest : List (Value × Bool)) : Action Value := do
  let member := if first.2 then "Enumerable.OrderByDescending" else "Enumerable.OrderBy"
  thenBy (← Catalogue.call member [source, first.1]) rest

theorem exec_thenBy {clauses : List (Value × Bool)}
    (h : s.object? q = some (.sequence (.ordered v clauses))) (rest : List (Value × Bool)) :
    ∃ q' t, s.exec (thenBy q rest) = (.ok q', t) ∧ Extends s t ∧
      t.object? q' = some (.sequence (.ordered v (clauses ++ rest))) := by
  induction rest generalizing s q clauses with
  | nil => exact ⟨q, s, rfl, .refl s, by simpa using h⟩
  | cons clause rest ih =>
      obtain ⟨f, descending⟩ := clause
      let longer : Object := .sequence (.ordered v (clauses ++ [(f, descending)]))
      have hmember : s.exec (Queries.thenBy descending q f) =
          (.ok (.ref s.store.size), s.grow longer) := by
        rw [Queries.thenBy, exec_get_bind]
        simp only [h, exec_alloc, longer]
      have hcall : s.exec (Catalogue.call
          (if descending then "Enumerable.ThenByDescending" else "Enumerable.ThenBy") [q, f]) =
            (.ok (.ref s.store.size), s.grow longer) := by
        cases descending <;> exact hmember
      obtain ⟨q', t, ht, hext, hq'⟩ := ih (object?_grow s longer)
      refine ⟨q', t, (exec_bind_ok hcall _).trans ht, (extends_grow s _).trans hext, ?_⟩
      simpa using hq'

theorem exec_orderBy (hv : v ≠ .null) (first : Value × Bool) (rest : List (Value × Bool)) :
    ∃ q t, s.exec (orderBy v first rest) = (.ok q, t) ∧ Extends s t ∧
      t.object? q = some (.sequence (.ordered v (first :: rest))) := by
  obtain ⟨f, descending⟩ := first
  let ordered : Object := .sequence (.ordered v [(f, descending)])
  have hcall : s.exec (Catalogue.call
      (if descending then "Enumerable.OrderByDescending" else "Enumerable.OrderBy") [v, f]) =
        (.ok (.ref s.store.size), s.grow ordered) := by
    cases descending <;> exact Plan.exec_lazily hv _
  obtain ⟨q, t, ht, hext, hq⟩ := exec_thenBy (object?_grow s ordered) rest
  exact ⟨q, t, (exec_bind_ok hcall _).trans ht, (extends_grow s _).trans hext, hq⟩

theorem Reads.exec_openWalk_ordered (hv : Reads m n s v ds)
    (hq : s.object? q = some (.sequence (.ordered v (keys.map Key.clause))))
    (hcmp : ∀ key ∈ keys, ∀ d ∈ ds, ∀ e ∈ ds, m.Compares s key.1 key.2.2 d e) (ht : Extends s t) (hk : n ≤ k) :
    ∃ ys u, t.exec (openWalk (k + 2) q) = (.ok (.items ys), u) ∧ Later t u ∧
      List.Forall₂ (m.rel u) ys (arrangeBy (keys.map (·.2)) ds) := by
  obtain ⟨xs, u, hu, hlater, hxs⟩ := hv t ht k hk
  obtain ⟨ys, w, hw, hext, hys⟩ := exec_sortByKeys
    (fun key hkey d hd e he => (hcmp key hkey d hd e he).later (ht.later.trans hlater)) hxs
  refine ⟨ys, w, ?_, hlater.trans hext.later, m.rel_of_within hys⟩
  rw [Plan.exec_openWalk (ht.later.object?_of_still hq rfl)]
  exact (exec_bind_ok hu _).trans ((exec_bind_ok hw _).trans rfl)

theorem Reads.ordered (hv : Reads m n s v ds)
    (hq : s.object? q = some (.sequence (.ordered v (keys.map Key.clause))))
    (hcmp : ∀ key ∈ keys, ∀ d ∈ ds, ∀ e ∈ ds, m.Compares s key.1 key.2.2 d e) :
    Reads m (n + (arrangeBy (keys.map (·.2)) ds).length + 6) s q (arrangeBy (keys.map (·.2)) ds) := by
  intro t ht k hk
  obtain ⟨k, rfl⟩ : ∃ i, k = i + 4 := ⟨k - 4, by omega⟩
  obtain ⟨ys, u, hopen, hlater, hys⟩ := hv.exec_openWalk_ordered hq hcmp ht (show n ≤ k by omega)
  obtain ⟨zs, x, hx, hext, hzs⟩ := exec_drain_opened hopen (yields_items hys) (by omega)
  exact ⟨zs, x, hx, hlater.trans hext.later, hzs⟩

theorem Reads.source (hv : Reads m n s v ds) : (∃ id, v = .ref id) ∨ (∃ c, v = .text c) ∨ ∃ c, v = .broken c := by
  obtain ⟨xs, u, hu, -⟩ := hv s (.refl s) (n + 3) (by omega)
  have hfail (h : s.exec (openWalk (n + 1) v) = (.error (.misuse .wrongType), s)) :
      s.exec (drain (n + 3) (.pending v)) = (.error (.misuse .wrongType), s) := by
    have hpull : s.exec (pull (n + 2) (.pending v)) = (.ok (.error (.misuse .wrongType), .ended), s) :=
      (exec_bind_ok (exec_outcome h) _).trans rfl
    exact (exec_bind_ok hpull _).trans rfl
  cases v with
  | ref id => exact .inl ⟨id, rfl⟩
  | text c => exact .inr (.inl ⟨c, rfl⟩)
  | broken c => exact .inr (.inr ⟨c, rfl⟩)
  | _ => cases hu.symm.trans (hfail rfl)

theorem Reads.ne_null (hv : Reads m n s v ds) : v ≠ .null := by
  rcases hv.source with ⟨_, rfl⟩ | ⟨_, rfl⟩ | ⟨_, rfl⟩ <;> simp

theorem exec_elements (hv : Reads m n s v ds) (hn : n ≤ s.steps) :
    ∃ xs t, s.exec (elements v) = (.ok xs, t) ∧ Later s t ∧ List.Forall₂ (m.rel t) xs ds := by
  obtain ⟨xs, t, ht, h⟩ := hv s (.refl s) s.steps hn
  refine ⟨xs, t, ?_, h⟩
  rw [elements, exec_get_bind, ht]

theorem exec_newList (hv : Reads m n s v ds) (hn : n ≤ s.steps) :
    ∃ id storage xs t, s.exec (Types.construct "List" [v]) = (.ok (.ref id), t) ∧ Later s t ∧
      t.store[id]? = some (.list .list storage) ∧ t.store[storage]? = some (.array xs) ∧
      List.Forall₂ (m.rel t) xs ds := by
  obtain ⟨xs, t, ht, hlater, hxs⟩ := exec_elements hv hn
  let list : Object := .list .list t.store.size
  have hnew : s.exec (Collections.newList .list v) =
      (.ok (.ref (t.grow (.array xs)).store.size), (t.grow (.array xs)).grow list) := by
    rcases hv.source with ⟨_, rfl⟩ | ⟨_, rfl⟩ | ⟨_, rfl⟩ <;> exact (exec_bind_ok ht _).trans rfl
  have hgrow := (extends_grow t (.array xs)).trans (extends_grow _ list)
  exact ⟨_, _, xs, _, hnew, hlater.trans hgrow.later, store_grow _ list,
    store_grow_of_some (store_grow t _) list, m.stable_all hgrow.later hxs⟩

/-- Called for values of two data, a comparison tells by an integer which comes first. -/
def Meaning.Orders (m : Meaning D) (s : Session) (c : Value) (cmp : D → D → Int) (d e : D) : Prop :=
  ∀ t x y, Later s t → m.rel t x d → m.rel t y e → ∃ r u, t.exec (apply c [x, y]) = (.ok (.int r), u) ∧
    Extends t u ∧ (r < 0 ↔ cmp d e < 0)

def Meaning.since (m : Meaning D) (s : Session) : Meaning D where
  rel t x d := m.rel s x d ∧ m.rel t x d
  stable h hx := ⟨hx.1, m.stable h hx.2⟩
  same := m.same

theorem ne_null_of_apply {f y : Value} {xs : List Value} (h : s.exec (apply f xs) = (.ok y, u)) :
    f ≠ .null := by
  rintro rfl
  rw [apply, exec_get_bind] at h
  cases hsteps : s.steps <;> rw [hsteps] at h <;> cases h

theorem ne_null_of_orders {c : Value} {cmp : D → D → Int} {d e : D} {x y : Value}
    (h : m.Orders s c cmp d e) (hx : m.rel s x d) (hy : m.rel s y e) : c ≠ .null := by
  obtain ⟨r, u, hu, -⟩ := h s x y (.refl s) hx hy
  exact ne_null_of_apply hu

theorem comparedLess_as {c : Value} {cmp : D → D → Int}
    (h : ∀ d ∈ ds, ∀ e ∈ ds, m.Orders s c cmp d e) :
    LessAs (m.within ds) s (Collections.comparedLess c) fun d e => cmp d e < 0 := by
  intro t x y d e ht hx hy
  have hall := h d hx.2 e hy.2
  have hc : c ≠ .null := by
    have hcall : m.Orders t c cmp d e := fun u x y hu => hall u x y (ht.trans hu)
    exact ne_null_of_orders hcall hx.1 hy.1
  obtain ⟨r, u, hu, hext, hr⟩ := hall t x y ht hx.1 hy.1
  refine ⟨u, ?_, hext⟩
  have horder : u.exec (orderOf .lt (.int r) (.int 0)) = (.ok (decide (cmp d e < 0)), u) := by
    rw [orderOf, exec_get_bind, order_lt_int]
    simp only [hr]
    rfl
  show t.exec (if c == .null then _ else _) = _
  rw [if_neg (by simpa using hc)]
  exact (exec_bind_ok hu _).trans horder

theorem exec_sort {id storage : Nat} {kind : ListKind} {xs : List Value} {c : Value} {cmp : D → D → Int}
    (hlist : s.store[id]? = some (.list kind storage)) (harray : s.store[storage]? = some (.array xs))
    (hxs : List.Forall₂ (m.rel s) xs ds) (hc : ∀ d ∈ ds, ∀ e ∈ ds, m.Orders s c cmp d e) :
    ∃ ys t, s.exec (Methods.call (.ref id) "Sort" [c]) = (.ok .null, t) ∧ t.Holds (.ref id) ys ∧
      List.Forall₂ (m.rel s) ys (arrange (fun d e => cmp d e < 0) ds) := by
  have hc' : ∀ d ∈ ds, ∀ e ∈ ds, (m.since s).Orders s c cmp d e :=
    fun d hd e he t x y ht hx hy => hc d hd e he t x y ht hx.2 hy.2
  have hxs' : List.Forall₂ ((m.since s).rel s) xs ds := hxs.imp fun _ _ hx => ⟨hx, hx⟩
  obtain ⟨ys, t, ht, hext, hys⟩ := run_sort (comparedLess_as hc') (Meaning.rel_within hxs')
  have hitems : s.items storage = xs := by simp only [Session.items, harray]
  have hcall : s.exec (Collections.sort storage c) = (.ok .null, t.put storage (.array ys)) := by
    rw [Collections.sort, exec_get_bind, hitems]
    refine (exec_bind_ok (t := t) (x := (none, ys)) ?_ _).trans rfl
    show (Except.ok (Sorting.sort (Collections.comparedLess c) xs s).1,
      (Sorting.sort (Collections.comparedLess c) xs s).2) = _
    rw [ht]
  have hid : id ≠ storage := by
    rintro rfl
    cases hlist.symm.trans harray
  have hm : (Methods.of id (.list kind storage)).lookup "Sort" =
      some (.unary (Collections.sort storage) [.null]) := rfl
  have hkept : (t.put storage (.array ys)).store[id]? = some (.list kind storage) := by
    rw [store_put_ne hid]
    exact hext.kept hlist
  exact ⟨ys, _, (exec_call hlist hm _).trans hcall, .list hkept (store_put (hext.kept harray) _),
    hys.imp fun _ _ hy => hy.1.1⟩

def andThen : Program → (Value → Program) → Program
  | .ends (.ok x), f => f x
  | .ends (.error e), _ => .ends (.error e)
  | .uses o args next, f => .uses o args fun r => andThen (next r) f

theorem exec_andThen {p : Program} {x : Value} (h : s.exec p.run = (.ok x, t)) (f : Value → Program) :
    s.exec (andThen p f).run = t.exec (f x).run := by
  induction p generalizing s with
  | ends r =>
      cases (exec_ofExcept s r).symm.trans h
      rfl
  | uses o args next ih =>
      have hrun : s.exec (Program.uses o args next).run =
          (s.exec (o.apply args)).2.exec (next (s.exec (o.apply args)).1).run :=
        exec_bind_ok (exec_outcome rfl) _
      refine (exec_bind_ok (exec_outcome rfl) _).trans ?_
      exact ih _ (hrun.symm.trans h)

/-- The comparison by the values that programs make of what is compared, one after the other. -/
def byKeys : List ((List Value → Program) × Bool) → Value → Value → Program
  | [], _, _ => .ends (.ok (.int 0))
  | (body, descending) :: rest, x, y =>
    andThen (body [x]) fun a => andThen (body [y]) fun b => andThen (.uses .compare [a, b] .ends) fun r =>
      match r with
      | .int 0 => byKeys rest x y
      | .int n => .ends (.ok (.int (if descending then -n else n)))
      | _ => .ends (.error Misuse.wrongType)

def comparingBy (clauses : List ((List Value → Program) × Bool)) : List Value → Program
  | [x, y] => byKeys clauses x y
  | _ => .ends (.error Misuse.wrongType)

/-- The function of a key is a program. -/
def Runs (s : Session) (key : Key D) (clause : (List Value → Program) × Bool) : Prop :=
  s.object? key.1 = some (.function ⟨.program 1 clause.1, .null, false⟩) ∧ key.2.1 = clause.2

theorem exec_compare {a b : Value} {n : Int} (h : s.compare3 a b = .ok n) :
    s.exec (Program.uses .compare [a, b] .ends).run = (.ok (.int n), s) := by
  have hcompare : s.exec (Operator.compare.apply [a, b]) = (.ok (.int n), s) := by
    show s.exec (do pure (Value.int (← ofExcept (s.compare3 a b)))) = _
    rw [h]
    rfl
  exact (exec_bind_ok (exec_outcome hcompare) _).trans rfl

theorem exec_program {f : Value} {body : List Value → Program} {x : Value}
    (h : s.object? f = some (.function ⟨.program 1 body, .null, false⟩)) (hs : 0 < s.steps) :
    s.exec (apply f [x]) = s.exec (body [x]).run := by
  rw [exec_apply h hs]
  rfl

theorem exec_byKeys {clauses : List ((List Value → Program) × Bool)} {d e : D} {x y : Value} (hs : 0 < s.steps)
    (hruns : List.Forall₂ (Runs s) keys clauses) (hcmp : ∀ key ∈ keys, m.Compares s key.1 key.2.2 d e)
    (ht : Later s t) (hx : m.rel t x d) (hy : m.rel t y e) :
    ∃ u, t.exec (byKeys clauses x y).run = (.ok (.int (compareBy keys d e)), u) ∧ Extends t u := by
  induction hruns generalizing t with
  | nil => exact ⟨t, rfl, .refl t⟩
  | @cons key clause keys clauses hkey hkeys ih =>
      obtain ⟨f, descending, cmp⟩ := key
      obtain ⟨body, _⟩ := clause
      obtain ⟨hf, rfl⟩ := hkey
      obtain ⟨hfirst, hrest⟩ := List.forall_mem_cons.mp hcmp
      obtain ⟨a, b, u, v, hu, htu, hv, huv, hcompare⟩ := hfirst t x y ht hx hy
      have hsu := ht.trans htu.later
      rw [exec_program (ht.object?_of_still hf rfl) (by rw [ht.steps]; exact hs)] at hu
      rw [exec_program (hsu.object?_of_still hf rfl) (by rw [hsu.steps]; exact hs)] at hv
      have htv := htu.trans huv
      obtain ⟨w, hw, hvw⟩ := ih hrest (ht.trans htv.later) (m.stable htv.later hx) (m.stable htv.later hy)
      rw [byKeys, exec_andThen hu, exec_andThen hv, exec_andThen (exec_compare hcompare)]
      have hlexicographic : compareBy ((f, descending, cmp) :: keys) d e =
          if directed (descending, cmp) d e = 0 then compareBy keys d e else directed (descending, cmp) d e := rfl
      have hdirected : directed (descending, cmp) d e = if descending then -cmp d e else cmp d e := rfl
      rw [hlexicographic, hdirected]
      by_cases hzero : cmp d e = 0
      · refine ⟨w, ?_, htv.trans hvw⟩
        simp only [hzero, Int.neg_zero, ite_self, if_true]
        exact hw
      · have hne : (if descending then -cmp d e else cmp d e) ≠ 0 := by
          split <;> omega
        refine ⟨v, ?_, htv⟩
        rw [if_neg hne]
        split
        · rename_i heq
          exact absurd (Value.int.inj heq) hzero
        · rename_i heq
          cases heq
          rfl
        · rename_i hother
          exact absurd rfl (hother _)

/-- A program can make the comparison by all keys of a chain out of the programs that give them. -/
theorem orders_byKeys {clauses : List ((List Value → Program) × Bool)} {c : Value} {d e : D} (hs : 0 < s.steps)
    (hc : s.object? c = some (.function ⟨.program 2 (comparingBy clauses), .null, false⟩))
    (hruns : List.Forall₂ (Runs s) keys clauses) (hcmp : ∀ key ∈ keys, m.Compares s key.1 key.2.2 d e) :
    m.Orders s c (compareBy keys) d e := by
  intro t x y ht hx hy
  obtain ⟨u, hu, hext⟩ := exec_byKeys hs hruns hcmp ht hx hy
  refine ⟨_, u, ?_, hext, .rfl⟩
  rw [exec_apply (ht.object?_of_still hc rfl) (by rw [ht.steps]; exact hs)]
  exact hu

/-- A finite source that is ordered by a chain of keys comes in the order of the comparison by all of them, with
equal elements in the order of the source. A list of its elements that is sorted by a function for this comparison
comes to hold the same. -/
theorem orders_as_sort {first : Key D} {rest : List (Key D)} (hv : Reads m n s v ds)
    (hn : n + ds.length + 6 ≤ s.steps) (hkeys : ∀ key ∈ first :: rest, TotalPreorder key.2.2)
    (hcmp : ∀ key ∈ first :: rest, ∀ d ∈ ds, ∀ e ∈ ds, m.Compares s key.1 key.2.2 d e) :
    ∃ es : List D,
      (∃ q t xs u, s.exec (orderBy v first.clause (rest.map Key.clause)) = (.ok q, t) ∧
        t.exec (elements q) = (.ok xs, u) ∧ List.Forall₂ (m.rel u) xs es) ∧
      es.Perm ds ∧ es.Pairwise (fun d e => compareBy (first :: rest) d e ≤ 0) ∧
      (∀ d, es.filter (fun e => compareBy (first :: rest) d e = 0) =
        ds.filter fun e => compareBy (first :: rest) d e = 0) ∧
      ∀ c, (∀ d ∈ ds, ∀ e ∈ ds, m.Orders s c (compareBy (first :: rest)) d e) →
        ∃ l t ys u, s.exec (Types.construct "List" [v]) = (.ok l, t) ∧
          t.exec (Methods.call l "Sort" [c]) = (.ok .null, u) ∧ u.Holds l ys ∧ List.Forall₂ (m.rel t) ys es := by
  have hpairs := totalPreorder_pairs hkeys
  have hsorted : StablySorted (compareBy (first :: rest)) ds _ := stablySorted_arrangeBy hpairs ds
  have hperm := hsorted.perm (totalPreorder_directions hpairs)
  refine ⟨_, ?_, hperm, hsorted.ordered, hsorted.stable, fun c hc => ?_⟩
  · obtain ⟨q, t, ht, hext, hq⟩ := exec_orderBy hv.ne_null first.clause (rest.map Key.clause) (s := s)
    have hlaws : ∀ key ∈ first :: rest, ∀ d ∈ ds, ∀ e ∈ ds, m.Compares t key.1 key.2.2 d e :=
      fun key hkey d hd e he => (hcmp key hkey d hd e he).later hext.later
    have hreads := (hv.extends hext).ordered hq hlaws
    obtain ⟨xs, u, hu, -, hxs⟩ :=
      exec_elements hreads (by rw [hperm.length_eq, hext.steps]; exact hn)
    exact ⟨q, t, xs, u, ht, hu, hxs⟩
  · obtain ⟨id, storage, xs, t, ht, hlater, hlist, harray, hxs⟩ := exec_newList hv (by omega)
    have hlaws : ∀ d ∈ ds, ∀ e ∈ ds, m.Orders t c (compareBy (first :: rest)) d e :=
      fun d hd e he u x y hu => hc d hd e he u x y (hlater.trans hu)
    obtain ⟨ys, u, hu, hys, hrel⟩ := exec_sort hlist harray hxs hlaws
    refine ⟨.ref id, t, ys, u, ht, hu, hys, ?_⟩
    rw [arrangeBy_eq_arrange hpairs]
    exact hrel

def lastDigit (args : List Value) : Program := .uses .modulo (args ++ [.int 10]) .ends

def aboveFifteen (args : List Value) : Program := .uses .less (.int 15 :: args) .ends

/-- Descending by the last digit, and then those above 15 after the others. -/
def digitClauses : List ((List Value → Program) × Bool) := [(lastDigit, true), (aboveFifteen, false)]

/-- A sequence that comes once, the functions to order it by, and the comparison by both. -/
def stream : Session :=
  { start 0 with
    store := #[.generator [.int 21, .int 11, .int 12, .int 1, .int 31] 0,
      .function ⟨.program 1 lastDigit, .null, false⟩, .function ⟨.program 1 aboveFifteen, .null, false⟩,
      .function ⟨.program 2 (comparingBy digitClauses), .null, false⟩] }

def digitKeys : List (Key Int) :=
  [(.ref 1, true, fun a b => (a.fmod 10 - b.fmod 10).sign),
    (.ref 2, false, fun a b => ((decide (15 < a)).toNat : Int) - (decide (15 < b)).toNat)]

/-- Four of the numbers end in the same digit, and two of them are above 15: 11 stays before 1, and 21 before 31. -/
theorem orders_as_sort_stream :
    Reads integers 10 stream (.ref 0) [21, 11, 12, 1, 31] ∧
      ∃ es : List Int,
        (∃ q t xs u, stream.exec (orderBy (.ref 0) (.ref 1, true) [(.ref 2, false)]) = (.ok q, t) ∧
          t.exec (elements q) = (.ok xs, u) ∧ List.Forall₂ (integers.rel u) xs es) ∧
        (∃ l t ys u, stream.exec (Types.construct "List" [.ref 0]) = (.ok l, t) ∧
          t.exec (Methods.call l "Sort" [.ref 3]) = (.ok .null, u) ∧ u.Holds l ys ∧
          List.Forall₂ (integers.rel t) ys es) ∧
        es.Perm [21, 11, 12, 1, 31] ∧ es.Pairwise (fun d e => compareBy digitKeys d e ≤ 0) ∧
        es.filter (fun e => compareBy digitKeys 1 e = 0) = [11, 1] ∧
        es.filter (fun e => compareBy digitKeys 21 e = 0) = [21, 31] := by
  have hv : Reads integers 10 stream (.ref 0) [21, 11, 12, 1, 31] :=
    reads_generator (show stream.store[0]? = some (.generator _ 0) from rfl)
      (.cons rfl (.cons rfl (.cons rfl (.cons rfl (.cons rfl .nil)))))
  have hkeys : ∀ key ∈ digitKeys, TotalPreorder key.2.2 := by
    rw [digitKeys, List.forall_mem_cons, List.forall_mem_singleton]
    exact ⟨(totalPreorder_sub fun a : Int => a.fmod 10).sign, totalPreorder_sub fun a => ((decide (15 < a)).toNat : Int)⟩
  have hcmp : ∀ key ∈ digitKeys, ∀ d e : Int, integers.Compares stream key.1 key.2.2 d e := by
    rw [digitKeys, List.forall_mem_cons, List.forall_mem_singleton]
    have hcompare (t : Session) (p q : Bool) : t.compare3 (.bool p) (.bool q) = .ok ((p.toNat : Int) - q.toNat) := by
      cases p <;> cases q <;> rfl
    have hdigit (t : Session) (a : Int) : t.exec (lastDigit [.int a]).run = (.ok (.int (a.fmod 10)), t) := rfl
    have habove (t : Session) (a : Int) :
        t.exec (aboveFifteen [.int a]).run = (.ok (.bool (decide (15 < a))), t) := by
      have hless : t.exec (Operator.less.apply [.int 15, .int a]) = (.ok (.bool (decide (15 < a))), t) := by
        show t.exec (do pure (Value.bool (← ofExcept (t.order .lt (.int 15) (.int a))))) = _
        rw [order_lt_int]
        rfl
      exact (exec_bind_ok (exec_outcome hless) _).trans rfl
    exact ⟨fun d e => compares_program rfl (by decide) hdigit (fun t a b => compare3_int t _ _) d e,
      fun d e => compares_program rfl (by decide) habove (fun t a b => hcompare t _ _) d e⟩
  have hruns : List.Forall₂ (Runs stream) digitKeys digitClauses := .cons ⟨rfl, rfl⟩ (.cons ⟨rfl, rfl⟩ .nil)
  obtain ⟨es, hordered, hperm, horder, hstable, hsorted⟩ :=
    orders_as_sort hv (by decide) hkeys fun key hkey d _ e _ => hcmp key hkey d e
  refine ⟨hv, es, hordered, hsorted (.ref 3) fun d _ e _ => ?_, hperm, horder, hstable 1, hstable 21⟩
  exact orders_byKeys (by decide) rfl hruns fun key hkey => hcmp key hkey d e

end BaseLib.Enumeration
