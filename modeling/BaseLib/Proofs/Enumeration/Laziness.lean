import BaseLib.Proofs.Enumeration.Chains
import BaseLib.Proofs.Session.Delivery
import BaseLib.Proofs.Session.Runs

namespace BaseLib.Demand

open Session Library Enumeration

variable {plain : Prop} {base n k d : Nat} {s t u : Session} {w w' source source' : Walk} {v q x y : Value}
  {xs ys left left' : List Value} {es es' : List Event} {r : Found} {op : Operator} {chain : List Operator}
  {sts sts' sts'' : List Stage}

theorem exec_place (hq : q ≠ .null) (op : Operator) :
    s.exec (op.place q) = (.ok (.ref s.store.size), s.grow (.sequence (op.query q))) := by
  cases op <;> exact Plan.exec_lazily hq _

theorem exec_build (hv : v ≠ .null) (s : Session) (hfits : ∀ op ∈ chain, op.Fits) :
    ∃ q t, s.exec (build v chain) = (.ok q, t) ∧ Extends s t ∧ Untold s t ∧ s.store.size ≤ t.store.size ∧
      q ≠ .null ∧ Feeds t chain (.pending q) (.pending v) := by
  induction chain with
  | nil => exact ⟨v, s, rfl, .refl s, rfl, Nat.le_refl _, hv, rfl⟩
  | cons op chain ih =>
      obtain ⟨q, t, hrun, hext, huntold, hsize, hq, hfeeds⟩ := ih fun op hop => hfits op (by simp [hop])
      have hgrow := extends_grow t (.sequence (op.query q))
      refine ⟨.ref t.store.size, t.grow (.sequence (op.query q)), (exec_bind_ok hrun _).trans (exec_place hq op),
        hext.trans hgrow, huntold, ?_, by simp, ?_⟩
      · exact hsize.trans (by simp [grow])
      · exact .inl ⟨_, q, rfl, hfits op (by simp), store_grow t _, hfeeds.stays hgrow.stays⟩

def admits (p : Value) : Stage := if p == .null then .any else .keep p

inductive Question
  | first (p : Option Value)
  | firstOrDefault (p : Option Value)
  | any (p : Option Value)
  | contains (v : Value)

namespace Question

def ask (source : Value) : Question → Action Value
  | first p => Catalogue.call "Enumerable.First" (source :: p.toList)
  | firstOrDefault p => Catalogue.call "Enumerable.FirstOrDefault" (source :: p.toList)
  | any p => Catalogue.call "Enumerable.Any" (source :: p.toList)
  | contains v => Catalogue.call "Enumerable.Contains" [source, v]

def test : Question → Stage
  | first p | firstOrDefault p | any p => admits (p.getD .null)
  | contains v => .equal v

/-- The answer, from the element that decides it, or from there being none. -/
def answer : Question → Option Value → Except Fault Value
  | first _, some x => .ok x
  | first p, none => .error (.failure (Queries.complaint (p.getD .null)))
  | firstOrDefault _, x => .ok (x.getD .null)
  | any _, x | contains _, x => .ok (.bool x.isSome)

end Question

structure Tests (st : Stage) (test : Value → Action Bool) : Prop where
  ne_limit : st ≠ .limit 0
  next : st.next = st
  run : ∀ (s : Session) (x : Value),
    s.exec (st.run x) = ((s.exec (test x)).1.map fun b => if b then some x else none, (s.exec (test x)).2)

theorem tests_admits (p : Value) : Tests (admits p) (Queries.satisfies p) := by
  constructor
  · rw [admits]
    split <;> simp
  · rw [admits]
    split <;> rfl
  · intro s x
    rw [admits, Queries.satisfies]
    split
    · rfl
    · rw [Stage.run, exec_map]

theorem tests_equal (v : Value) : Tests (.equal v) (fun x => do pure ((← get).equals x v)) :=
  ⟨by simp, rfl, fun _ _ => rfl⟩

theorem Question.test_ne (question : Question) (f : Value) :
    question.test ≠ .map f ∧ ¬∃ count, question.test = .limit count := by
  have hadmits (p : Value) : admits p ≠ .map f ∧ ¬∃ count, admits p = .limit count := by
    rw [admits]
    split <;> simp
  cases question with
  | contains v => simp [test]
  | first p | firstOrDefault p | any p => exact hadmits _

theorem exec_foldWalk_search {σ : Type} {test : Value → Action Bool} {st : Stage} (hst : Tests st test)
    {f : σ → Value → Action (Bool × σ)} {a : σ} {g : Value → σ}
    (hf : ∀ x, f a x = do if ← test x then pure (false, g x) else pure (true, a))
    (hlen : chain.length = d) (hw : Feeds s chain w source) (hxs : Supplies plain base n s source xs)
    (hk : reach n d xs.length + xs.length + 1 ≤ k) :
    ∃ es r sts left source' u, s.exec (foldWalk f k a w) = (r.map fun r => r.elim a g, u) ∧
      Search (stages chain ++ [st]) xs es r sts left ∧ Performs plain s source es u source' := by
  have hstep (s : Session) (x : Value) : s.exec (f a x) =
      ((s.exec (st.run x)).1.map fun r => r.elim (true, a) fun y => (false, g y), (s.exec (st.run x)).2) := by
    rw [hf, hst.run, exec_bind]
    rcases s.exec (test x) with ⟨e | b, t⟩
    · rfl
    · cases b <;> rfl
  generalize hm : xs.length = m at hk
  induction m using Nat.strongRecOn generalizing s chain w source xs k with
  | _ m ih =>
      obtain ⟨k, rfl⟩ : ∃ i, k = i + 1 := ⟨k - 1, by omega⟩
      obtain ⟨p, t, hrun, hp⟩ := pulls plain base n d hlen hw hxs (hm ▸ by omega : reach n d xs.length ≤ k)
      cases hp with
      | @ended t sts source' es r left hs hr hperforms =>
          refine ⟨es, r, _, left, source', t, ?_, hs.under hr hst.ne_limit, hperforms⟩
          rcases r with e | _ | y
          · exact (exec_bind_ok hrun _).trans rfl
          · exact (exec_bind_ok hrun _).trans rfl
          · exact absurd rfl (hr y)
      | @found t chain' source' w' es y left hs hperforms hlen' hw' hxs' =>
          have hrun' := hstep t y
          rcases hr : t.exec (st.run y) with ⟨r, u⟩
          rw [hr] at hrun'
          obtain ⟨hc, hcall, hfeeds, hsupplies⟩ := at_work hr hperforms hw' hxs'
          rcases r with e | _ | z
          · obtain ⟨u', hclose, hsilent⟩ := exec_close w' u
            refine ⟨_, _, _, left, source', u', ?_, hs.snoc hst.ne_limit hc (by simp), hcall.silent hsilent⟩
            exact (exec_bind_ok hrun _).trans
              ((exec_bind_ok (exec_outcome hrun') _).trans ((exec_bind_ok hclose _).trans rfl))
          · have hlt : left.length < m := hm ▸ hs.length_lt
            have hle := reach_mono n d hlt.le
            obtain ⟨es', r, sts, left', source'', u', hfold, hs', hp'⟩ :=
              ih _ hlt (hlen'.trans hlen) hfeeds hsupplies rfl (k := k) (by omega)
            rw [← hst.next] at hs'
            refine ⟨_, r, sts, left', source'', u', ?_, hs.again hst.ne_limit hc hs', hcall.append hp'⟩
            exact (exec_foldWalk_go hrun hrun').trans hfold
          · obtain ⟨u', hclose, hsilent⟩ := exec_close w' u
            refine ⟨_, _, _, left, source', u', ?_, hs.snoc hst.ne_limit hc (by simp), hcall.silent hsilent⟩
            exact (exec_bind_ok hrun _).trans
              ((exec_bind_ok (exec_outcome hrun') _).trans ((exec_bind_ok hclose _).trans rfl))

section

variable (hq : q ≠ .null) (hw : Feeds s chain (.pending q) source) (hxs : Supplies plain base n s source xs)
  (hk : reach n chain.length xs.length + xs.length + 1 ≤ s.steps)

include hq hw hxs hk

theorem exec_findFirst (p : Value) : ∃ es r sts left source' u, s.exec (Queries.findFirst q p) = (r, u) ∧
    Search (stages chain ++ [admits p]) xs es r sts left ∧ Performs plain s source es u source' := by
  obtain ⟨es, r, sts, left, source', u, hrun, hs, hp⟩ :=
    exec_foldWalk_search (tests_admits p)
      (f := fun _ x => do if ← Queries.satisfies p x then pure (false, some x) else pure (true, none))
      (a := none) (g := some) (fun _ => rfl) rfl hw hxs hk
  refine ⟨es, r, sts, left, source', u, ?_, hs, hp⟩
  have hr : r.map (fun r => r.elim none some) = r := by rcases r with e | _ | y <;> rfl
  rw [hr] at hrun
  exact (exec_bind_ok (exec_notNull hq s "source") _).trans hrun

theorem exec_exists {test : Value → Action Bool} {st : Stage} (hst : Tests st test) :
    ∃ es r sts left source' u, s.exec (Queries.exists_ q true test) = (r.map Option.isSome, u) ∧
      Search (stages chain ++ [st]) xs es r sts left ∧ Performs plain s source es u source' := by
  obtain ⟨es, r, sts, left, source', u, hrun, hs, hp⟩ :=
    exec_foldWalk_search hst
      (f := fun _ x => do if (← test x) == true then pure (false, true) else pure (true, false))
      (a := false) (g := fun _ => true) (fun x => by simp only [beq_true]) rfl hw hxs hk
  refine ⟨es, r, sts, left, source', u, ?_, hs, hp⟩
  have hr : r.map (fun r => r.elim false fun _ => true) = r.map Option.isSome := by
    rcases r with e | _ | y <;> rfl
  rw [hr] at hrun
  exact (exec_bind_ok (exec_notNull hq s "source") _).trans hrun

theorem exec_ask (question : Question) : ∃ es r sts left source' u,
    s.exec (question.ask q) = (r.bind question.answer, u) ∧
      Search (stages chain ++ [question.test]) xs es r sts left ∧ Performs plain s source es u source' := by
  cases question with
  | first p =>
      obtain ⟨es, r, sts, left, source', u, hrun, hs, hp⟩ := exec_findFirst hq hw hxs hk (p.getD .null)
      refine ⟨es, r, sts, left, source', u, ?_, hs, hp⟩
      obtain ⟨give, hask, hnone, hsome⟩ : ∃ give,
          (Question.first p).ask q = Queries.findFirst q (p.getD .null) >>= give ∧
          give none = fail (Queries.complaint (p.getD .null)) ∧ ∀ x, give (some x) = pure x := by
        cases p <;> exact ⟨_, rfl, rfl, fun _ => rfl⟩
      rw [hask]
      rcases r with e | _ | y
      · exact exec_bind_error hrun _
      · rw [exec_bind_ok hrun, hnone]
        rfl
      · rw [exec_bind_ok hrun, hsome]
        rfl
  | firstOrDefault p =>
      obtain ⟨es, r, sts, left, source', u, hrun, hs, hp⟩ := exec_findFirst hq hw hxs hk (p.getD .null)
      refine ⟨es, r, sts, left, source', u, ?_, hs, hp⟩
      have hask : (Question.firstOrDefault p).ask q = (do
          pure ((← Queries.findFirst q (p.getD .null)).getD .null)) := by cases p <;> rfl
      rw [hask, exec_bind, hrun]
      rcases r with e | _ | y <;> rfl
  | any p =>
      obtain ⟨es, r, sts, left, source', u, hrun, hs, hp⟩ := exec_exists hq hw hxs hk (tests_admits (p.getD .null))
      refine ⟨es, r, sts, left, source', u, ?_, hs, hp⟩
      have hask : (Question.any p).ask q = (do
          yes (← Queries.exists_ q true (Queries.satisfies (p.getD .null)))) := by cases p <;> rfl
      rw [hask, exec_bind, hrun]
      rcases r with e | _ | y <;> rfl
  | contains v =>
      obtain ⟨es, r, sts, left, source', u, hrun, hs, hp⟩ := exec_exists hq hw hxs hk (tests_equal v)
      refine ⟨es, r, sts, left, source', u, ?_, hs, hp⟩
      have hask : (Question.contains v).ask q = (do
          yes (← Queries.exists_ q true fun x => do pure ((← get).equals x v))) := rfl
      rw [hask, exec_bind, hrun]
      rcases r with e | _ | y <;> rfl

end

theorem exec_drain_chain (hlen : chain.length = d) (hw : Feeds s chain w source)
    (hxs : Supplies plain base n s source xs) (hk : reach n d xs.length + xs.length + 1 ≤ k) :
    ∃ es r source' u, s.exec (drain k w) = (r, u) ∧ Collects (stages chain) xs es r ∧
      Performs plain s source es u source' := by
  generalize hm : xs.length = m at hk
  induction m using Nat.strongRecOn generalizing s chain w source xs k with
  | _ m ih =>
      obtain ⟨k, rfl⟩ : ∃ i, k = i + 1 := ⟨k - 1, by omega⟩
      obtain ⟨p, t, hrun, hp⟩ := pulls plain base n d hlen hw hxs (hm ▸ by omega : reach n d xs.length ≤ k)
      cases hp with
      | @ended t sts source' es r left hs hr hperforms =>
          rcases r with e | _ | y
          · exact ⟨es, .error e, source', t, (exec_bind_ok hrun _).trans rfl, .failed .nil hs, hperforms⟩
          · exact ⟨es, .ok [], source', t, (exec_bind_ok hrun _).trans rfl, .all .nil hs, hperforms⟩
          · exact absurd rfl (hr y)
      | @found t chain' source' w' es y left hs hperforms hlen' hw' hxs' =>
          have hlt : left.length < m := hm ▸ hs.length_lt
          have hle := reach_mono n d hlt.le
          obtain ⟨es', r, source'', u, hdrain, hcollects, hperforms'⟩ :=
            ih _ hlt (hlen'.trans hlen) hw' hxs' rfl (k := k) (by omega)
          refine ⟨es ++ es', r.map (y :: ·), source'', u, ?_, hcollects.cons hs, hperforms.append hperforms'⟩
          have hmap := exec_map t (drain k w') (y :: ·)
          rw [hdrain] at hmap
          exact (exec_bind_ok hrun _).trans hmap

def Outcome (t : Session) (a : Except Fault Value) : Except Fault (List Value) → Prop
  | .ok ys => ∃ id, a = .ok (.ref id) ∧ t.store[id]? = some (.array ys)
  | .error e => a = .error e

theorem silent_grow (s : Session) (o : Object) : Silent s (s.grow o) := ⟨(extends_grow s o).stays, rfl⟩

theorem exec_toArray (hq : q ≠ .null) (hw : Feeds s chain (.pending q) source)
    (hxs : Supplies plain base n s source xs)
    (hk : reach n chain.length xs.length + xs.length + 1 ≤ s.steps) :
    ∃ es r a source' u, s.exec (Catalogue.call "Enumerable.ToArray" [q]) = (a, u) ∧ Outcome u a r ∧
      Collects (stages chain) xs es r ∧ Performs plain s source es u source' := by
  obtain ⟨es, r, source', u, hdrain, hcollects, hperforms⟩ := exec_drain_chain rfl hw hxs hk
  have hcall : Catalogue.call "Enumerable.ToArray" [q] = (do
      notNull q "source"
      newArray (← elements q)) := rfl
  have helements : s.exec (elements q) = (r, u) := hdrain
  rw [hcall, exec_bind_ok (exec_notNull hq s "source")]
  cases r with
  | error e => exact ⟨es, .error e, .error e, source', u, exec_bind_error helements _, rfl, hcollects, hperforms⟩
  | ok ys =>
      exact ⟨es, .ok ys, .ok (.ref u.store.size), source', u.grow (.array ys), (exec_bind_ok helements _).trans rfl,
        ⟨_, rfl, store_grow u _⟩, hcollects, hperforms.silent (silent_grow u _)⟩

theorem exec_take_refused {count : Int} (hq : q ≠ .null) (hcount : 2 ^ 63 ≤ count) (hk : 4 ≤ s.steps) :
    ∃ q' t, s.exec ((Operator.take count).place q) = (.ok q', t) ∧
      t.exec (Catalogue.call "Enumerable.ToArray" [q']) = (.error (.misuse .badValue), t) ∧ Silent s t := by
  refine ⟨_, _, exec_place hq _, ?_, silent_grow s _⟩
  generalize ht : s.grow (.sequence ((Operator.take count).query q)) = t
  have hquery : t.object? (.ref s.store.size) = some (.sequence (.take q (.int count))) := ht ▸ object?_grow s _
  have hsteps : t.steps = s.steps := ht ▸ rfl
  obtain ⟨k, hk⟩ : ∃ k, t.steps = k + 4 := ⟨t.steps - 4, by omega⟩
  have hcount : t.exec (ofExcept (elementCount t (.int count))) = (.error (.misuse .badValue), t) := by
    rw [exec_ofExcept, Plan.elementCount_int, if_neg (Int.not_lt.mpr hcount)]
  have hopen : t.exec (openWalk (k + 2) (.ref s.store.size)) = (.error (.misuse .badValue), t) := by
    rw [Plan.exec_openWalk hquery]
    exact exec_bind_error hcount _
  have hpull : t.exec (pull (k + 3) (.pending (.ref s.store.size))) =
      (.ok (.error (.misuse .badValue), .ended), t) :=
    (exec_bind_ok (exec_outcome hopen) _).trans rfl
  have helements : t.exec (elements (.ref s.store.size)) = (.error (.misuse .badValue), t) := by
    rw [elements, exec_get_bind, hk]
    exact (exec_bind_ok hpull _).trans rfl
  exact (exec_bind_ok (exec_notNull (by simp) t "source") _).trans (exec_bind_error helements _)

def moves (id : Nat) : Protocol Unit where
  run _ := Methods.call (.ref id) "MoveNext" []
  allowed _ _ := True
  quiet s t := Aside (id + 1) s t ∧ Stays s t

/-- How far a cursor has come: what has happened in its moves, the elements that it has given, what is left, and
how it ended, if it has. -/
structure Progress where
  events : List Event
  given : List Value
  stages : List Stage
  source : Walk
  left : List Value
  ending : Option (Except Fault Unit)

/-- What happens between two sessions, with what is recorded if `plain` holds. -/
structure Happens (plain : Prop) (s : Session) (w : Walk) (es : List Event) (t : Session) (w' : Walk) : Prop where
  performs : Performs plain s w es t w'
  trace : plain → t.trace = s.trace ++ (calls es).flatMap Call.told

theorem Happens.of_calls (hp : Performs plain s w es t w')
    (hc : ∀ c ∈ calls es, c.stage.function? ∈ sts.map Stage.function?) (hsteps : 0 < s.steps)
    (hf : plain → ∀ f, some f ∈ sts.map Stage.function? → s.Unary f) : Happens plain s w es t w' :=
  ⟨hp, fun hplain => hp.trace hplain hsteps fun c hcalls f hcf => hf hplain f (hcf ▸ hc c hcalls)⟩

inductive Move (plain : Prop) (id : Nat) : Progress → Invocation Unit → Progress → Prop
  | found {p : Progress} {s t : Session} {es : List Event} {y : Value} {sts : List Stage} {left : List Value}
      {source : Walk} (hp : p.ending = none) (hs : Search p.stages p.left es (.ok (some y)) sts left)
      (hst : Happens plain s p.source es t source)
      (hy : t.exec (Properties.read (.ref id) "Current") = (.ok y, t)) :
      Move plain id p ⟨s, (), .ok (.bool true), t⟩
        ⟨p.events ++ es, p.given ++ [y], sts, source, left, none⟩
  | finished {p : Progress} {s t : Session} {es : List Event} {sts : List Stage} {left : List Value} {source : Walk}
      (hp : p.ending = none) (hs : Search p.stages p.left es (.ok none) sts left)
      (hst : Happens plain s p.source es t source) :
      Move plain id p ⟨s, (), .ok (.bool false), t⟩ ⟨p.events ++ es, p.given, sts, source, left, some (.ok ())⟩
  | failed {p : Progress} {s t : Session} {es : List Event} {e : Fault} {sts : List Stage} {left : List Value}
      {source : Walk} (hp : p.ending = none) (hs : Search p.stages p.left es (.error e) sts left)
      (hst : Happens plain s p.source es t source) :
      Move plain id p ⟨s, (), .error e, t⟩ ⟨p.events ++ es, p.given, sts, source, left, some (.error e)⟩
  | ended {p : Progress} {s t : Session} (hp : p.ending ≠ none) (hst : Silent s t) :
      Move plain id p ⟨s, (), .ok (.bool false), t⟩ p

/-- The events are what giving the elements takes, and what it takes to find that there are no more. -/
def Progress.Demanded (sts : List Stage) (xs : List Value) (p : Progress) : Prop :=
  match p.ending with
  | none => Gathers sts xs p.events p.given p.stages p.left
  | some r => Collects sts xs p.events (r.map fun _ => p.given)

theorem Move.demanded {id : Nat} {p p' : Progress} {e : Invocation Unit} (h : Move plain id p e p')
    (hp : p.Demanded sts xs) : p'.Demanded sts xs := by
  cases h with
  | found he hs =>
      rw [Progress.Demanded, he] at hp
      exact hp.snoc hs
  | finished he hs =>
      rw [Progress.Demanded, he] at hp
      exact .all hp hs
  | failed he hs =>
      rw [Progress.Demanded, he] at hp
      exact .failed hp hs
  | ended => exact hp

theorem demanded_of_follows {id : Nat} {p p' : Progress} {es : List (Invocation Unit)}
    (h : Follows (Move plain id) p es p') (hp : p.Demanded sts xs) : p'.Demanded sts xs := by
  induction h with
  | nil => exact hp
  | cons h _ ih => exact ih (h.demanded hp)

structure Draws (plain : Prop) (n id : Nat) (s : Session) (c : Cursor) (p : Progress) : Prop where
  live : c.state ≠ .exhausted
  opened : ∃ chain, stages chain = p.stages ∧ Opened s chain c.walk p.source ∧
    reach n chain.length p.left.length ≤ s.steps
  supplies : Supplies plain id n s p.source p.left
  unary : plain → ∀ f, some f ∈ p.stages.map Stage.function? → s.Unary f

def Stands (plain : Prop) (n id : Nat) (s : Session) (p : Progress) : Prop :=
  3 ≤ s.steps ∧ ∃ c, s.store[id]? = some (.cursor c) ∧
    match p.ending with
    | none => Draws plain n id s c p
    | some _ => c.state = .exhausted ∨ c.walk = .ended

theorem Opened.stays (h : Opened s chain w source) (hst : Stays s t) : Opened t chain w source := by
  cases chain with
  | nil => exact h
  | cons op chain =>
      obtain ⟨w', hw, h⟩ := h
      exact ⟨w', hw, h.stays hst⟩

theorem Draws.stays {id : Nat} {c : Cursor} {p : Progress} (h : Draws plain n id s c p) (hst : Stays s t)
    (haside : Aside id s t) : Draws plain n id t c p := by
  obtain ⟨hlive, ⟨chain, hstages, hopened, hk⟩, hsupplies, hunary⟩ := h
  exact ⟨hlive, ⟨chain, hstages, hopened.stays hst, hst.steps ▸ hk⟩, hsupplies.aside haside,
    fun hp f hf => (hunary hp f hf).stays hst⟩

theorem Stands.quiet {id : Nat} {p : Progress} (hst : (moves id).quiet s t) (h : Stands plain n id s p) :
    Stands plain n id t p := by
  obtain ⟨hsteps, c, hc, h⟩ := h
  refine ⟨hst.2.steps ▸ hsteps, c, hst.1.kept (Nat.lt_succ_self id) hc rfl, ?_⟩
  cases he : p.ending with
  | some _ =>
      rw [he] at h
      exact h
  | none =>
      rw [he] at h
      exact Draws.stays h hst.2 (hst.1.mono (Nat.le_succ id))

theorem silent_put {id : Nat} {c : Cursor} (h : s.store[id]? = some (.cursor c)) (o : Object) :
    Silent s (s.put id o) := by
  have hne {i : Nat} {o : Object} (ho : s.store[i]? = some o) (hcursor : o ≠ .cursor c) : i ≠ id := by
    rintro rfl
    exact hcursor (Option.some.inj (ho.symm.trans h))
  exact ⟨⟨rfl, fun hg => (store_put_ne (hne hg (by simp)) o).trans hg,
    fun hq => (store_put_ne (hne hq (by simp)) o).trans hq⟩, rfl⟩

theorem cursor_of_pull {id : Nat} {c : Cursor} {p : Except Fault Pulled}
    (h : s.store[id]? = some (.cursor c)) (hp : s.exec (pull k w) = (p, t)) :
    ∃ c', t.store[id]? = some (.cursor c') := by
  obtain ⟨o, ho, hobject⟩ := (drift_pull hp).kept h
  cases hobject with
  | same => exact ⟨c, ho⟩
  | cursor _ _ => exact ⟨_, ho⟩
  | array hfree => cases hfree

theorem Draws.move {id : Nat} {c : Cursor} {p : Progress} (h : Draws plain n id s c p) (hsteps : 3 ≤ s.steps)
    (hc : s.store[id]? = some (.cursor c)) (hp : p.ending = none) :
    ∃ p', Move plain id p ((moves id).call s ()) p' ∧ Stands plain n id ((moves id).call s ()).after p' := by
  -- the cursor is busy while its walk is pulled
  have hbusy := silent_put hc (.cursor c.moving)
  obtain ⟨hlive, ⟨chain, hstages, hopened, hk⟩, hsupplies, -⟩ :=
    h.stays hbusy.stays (aside_put s (Nat.le_refl id) _)
  obtain ⟨d, hd⟩ : ∃ d, chain.length = d + 1 := by
    cases chain with
    | nil => exact hopened.elim
    | cons op chain => exact ⟨chain.length, rfl⟩
  obtain ⟨k, hsucc⟩ : ∃ k, s.steps = k + 1 := ⟨s.steps - 1, by omega⟩
  have hreach : reach n d p.left.length + p.left.length + 1 ≤ k := by
    have hle : reach n chain.length p.left.length ≤ s.steps := hk
    rw [hd, reach_succ] at hle
    omega
  obtain ⟨pulled, t, hrun, hgives⟩ := pulls_opened (pulls plain id n d) hd hopened hsupplies hreach
  obtain ⟨c', hc'⟩ := cursor_of_pull (store_put hc _) hrun
  have hback (o : Object) : Silent t (t.put id o) := silent_put hc' o
  have hst := hbusy.stays.trans (drift_pull hrun).stays
  cases hgives with
  | @found t chain' source' w' es y left hs hperforms hlen hw hxs =>
      rw [hstages] at hs
      have hdone := hback (.cursor (c.positioned y w'))
      have hperforms' := (hperforms.after_silent hbusy).silent hdone
      have hst' := hst.trans hdone.stays
      rw [Protocol.call_of (exec_moveNext hc (hsucc ▸ exec_advance_give hc hlive hrun))]
      have hhappens := Happens.of_calls hperforms' (hs.kept Stage.function?_next).2 (by omega) h.unary
      refine ⟨_, .found hp hs hhappens (exec_current (store_put hc' _) rfl), hst'.steps ▸ hsteps, _,
        store_put hc' _, ?_⟩
      refine ⟨by simp [Cursor.positioned], ⟨chain', rfl, hw.stays hdone.stays, ?_⟩,
        hxs.aside (aside_put t (Nat.le_refl id) _), fun hplain f hf => ?_⟩
      · rw [hlen, hst'.steps]
        exact (reach_mono n chain.length hs.length_lt.le).trans hk
      · exact (h.unary hplain f ((hs.kept Stage.function?_next).1 ▸ hf)).stays hst'
  | @ended t sts source' es r left hs hr hperforms =>
      rw [hstages] at hs
      rcases r with e | _ | y
      · have hdone := hback (.cursor { c with walk := .ended })
        have hperforms' := (hperforms.after_silent hbusy).silent hdone
        rw [Protocol.call_of (exec_moveNext_error hc (hsucc ▸ exec_advance_error hc hlive hrun))]
        exact ⟨_, .failed hp hs (.of_calls hperforms' (hs.kept Stage.function?_next).2 (by omega) h.unary),
          (hst.trans hdone.stays).steps ▸ hsteps, _, store_put hc' _, .inr rfl⟩
      · have hdone := hback (.cursor c.finished)
        have hperforms' := (hperforms.after_silent hbusy).silent hdone
        rw [Protocol.call_of (exec_moveNext hc (hsucc ▸ exec_advance_finish hc hlive hrun rfl))]
        exact ⟨_, .finished hp hs (.of_calls hperforms' (hs.kept Stage.function?_next).2 (by omega) h.unary),
          (hst.trans hdone.stays).steps ▸ hsteps, _, store_put hc' _, .inl rfl⟩
      · exact absurd rfl (hr y)

theorem exec_advance_ended {id : Nat} {c : Cursor} (h : s.store[id]? = some (.cursor c)) (hsteps : 3 ≤ s.steps)
    (hc : c.state = .exhausted ∨ c.walk = .ended) :
    ∃ t c', s.exec (advance s.steps id) = (.ok none, t) ∧ Silent s t ∧ t.store[id]? = some (.cursor c') ∧
      c'.state = .exhausted := by
  obtain ⟨k, hk⟩ : ∃ k, s.steps = k + 2 := ⟨s.steps - 2, by omega⟩
  by_cases hstate : c.state = .exhausted
  · exact ⟨s, c, hk ▸ exec_advance_exhausted h hstate (k + 1), .refl s, h, hstate⟩
  · have hwalk := hc.resolve_left hstate
    have hpull : (s.put id (.cursor c.moving)).exec (pull (k + 1) c.walk) =
        (.ok (.ok none, .ended), s.put id (.cursor c.moving)) := by
      rw [hwalk]
      rfl
    have hadvance := exec_advance_finish h hstate hpull (u := _) rfl
    rw [put_put] at hadvance
    exact ⟨_, _, hk ▸ hadvance, silent_put h _, store_put h _, rfl⟩

theorem Stands.move {id : Nat} {p : Progress} (h : Stands plain n id s p) :
    ∃ p', Move plain id p ((moves id).call s ()) p' ∧ Stands plain n id ((moves id).call s ()).after p' := by
  obtain ⟨hsteps, c, hc, hcursor⟩ := h
  cases he : p.ending with
  | none =>
      rw [he] at hcursor
      exact Draws.move hcursor hsteps hc he
  | some r =>
      rw [he] at hcursor
      obtain ⟨t, c', hadvance, hsilent, hc', hstate⟩ := exec_advance_ended hc hsteps hcursor
      rw [Protocol.call_of (exec_moveNext hc hadvance)]
      refine ⟨p, .ended (by simp [he]) hsilent, hsilent.stays.steps ▸ hsteps, c', hc', ?_⟩
      rw [he]
      exact .inl hstate

theorem Stands.follows {id : Nat} {p : Progress} {calls : List (Invocation Unit)} (h : Stands plain n id s p)
    (hr : (moves id).Runs s calls t) : ∃ p', Follows (Move plain id) p calls p' ∧ Stands plain n id t p' :=
  Protocol.Runs.follows (fun hst h => h.quiet hst) (fun _ h => h.move) hr h

def Collected (plain : Prop) (s : Session) (q v : Value) (sts : List Stage) (xs : List Value) : Prop :=
  ∃ es r a source t, s.exec (Catalogue.call "Enumerable.ToArray" [q]) = (a, t) ∧ Outcome t a r ∧
    Collects sts xs es r ∧ Happens plain s (.pending v) es t source ∧
    ∀ f count ys, sts = [.map f, .limit count] → r = .ok ys → arguments f es = xs.take count

/-- Asked a question, the query asks for what finding the first element takes that decides it. -/
def Answered (plain : Prop) (s : Session) (q v : Value) (sts : List Stage) (xs : List Value)
    (question : Question) : Prop :=
  ∃ es r sts' left source t, s.exec (question.ask q) = (r.bind question.answer, t) ∧
    Search (sts ++ [question.test]) xs es r sts' left ∧ Happens plain s (.pending v) es t source ∧
    ∀ f, sts = [.map f] → xs = arguments f es ++ left ∧ (r = .ok none → left = [])

/-- Each cursor over the query asks, move by move, for what giving the next element takes. -/
def Enumerated (plain : Prop) (s : Session) (q v : Value) (sts : List Stage) (xs : List Value) : Prop :=
  ∃ id t, s.exec (Catalogue.call "get_enumerator" [q]) = (.ok (.ref id), t) ∧ Extends s t ∧ Untold s t ∧
    ∀ calls u, (moves id).Runs t calls u →
      ∃ p, Follows (Move plain id) ⟨[], [], sts, .pending v, xs, none⟩ calls p ∧ p.Demanded sts xs ∧
        ∀ f count, sts = [.map f, .limit count] → p.ending = some (.ok ()) →
          arguments f p.events = xs.take count

theorem enumerated_chain (hq : Feeds s (op :: chain) (.pending q) (.pending v))
    (hxs : Supplies plain s.store.size n s (.pending v) xs)
    (hunary : plain → ∀ f, some f ∈ (stages (op :: chain)).map Stage.function? → s.Unary f)
    (hk : reach n (op :: chain).length xs.length ≤ s.steps) :
    Enumerated plain s q v (stages (op :: chain)) xs := by
  obtain ⟨id, inner, heq, hfits, hquery, hw⟩ | ⟨_, heq, _⟩ := hq
  · obtain rfl := Walk.pending.inj heq
    have hsteps : 3 ≤ s.steps := by
      rw [List.length_cons, reach_succ] at hk
      omega
    obtain ⟨k, hk'⟩ : ∃ k, s.steps = k + 2 := ⟨s.steps - 2, by omega⟩
    have hopen := exec_openWalk_operator hquery hfits k
    let o : Object := .cursor (.start (s.cursorKind (.ref id)) (op.walk (.pending inner)))
    have hcall : s.exec (Catalogue.call "get_enumerator" [.ref id]) = (.ok (.ref s.store.size), s.grow o) := by
      show s.exec (newCursor (.ref id)) = _
      rw [newCursor, exec_get_bind, hk']
      exact (exec_bind_ok hopen _).trans rfl
    have hext := extends_grow s o
    refine ⟨_, _, hcall, hext, rfl, fun calls u hruns => ?_⟩
    have hstands : Stands plain n s.store.size (s.grow o)
        ⟨[], [], stages (op :: chain), .pending v, xs, none⟩ := by
      have hopened : Opened (s.grow o) (op :: chain) (op.walk (.pending inner)) (.pending v) :=
        ⟨_, rfl, hw.stays hext.stays⟩
      exact ⟨hsteps, _, store_grow s o, by simp [Cursor.start], ⟨op :: chain, rfl, hopened, hk⟩,
        hxs.aside (aside_of_extends _ hext), fun hplain f hf => (hunary hplain f hf).stays hext.stays⟩
    obtain ⟨p, hfollows, -⟩ := hstands.follows hruns
    have hdemanded := demanded_of_follows hfollows (.nil : Gathers _ _ _ _ _ _)
    refine ⟨p, hfollows, hdemanded, fun f count hsts hend => ?_⟩
    rw [Progress.Demanded, hend, hsts] at hdemanded
    exact hdemanded.taken
  · cases heq

/-- The chain asks its source, which has these elements, for no more than it needs: it is built without a call, and
it is collected, asked and enumerated as far as that takes. A count that is too large is refused. -/
def Frugal (plain : Prop) (s : Session) (v : Value) (xs : List Value) (chain : List Operator) : Prop :=
  ∃ q t, s.exec (build v chain) = (.ok q, t) ∧ Extends s t ∧ Untold s t ∧
    Collected plain t q v (stages chain) xs ∧
    (∀ question : Question, (plain → ∀ f, question.test.function? = some f → s.Unary f) →
      Answered plain t q v (stages chain) xs question) ∧
    (chain ≠ [] → Enumerated plain t q v (stages chain) xs) ∧
    ∀ count : Int, 2 ^ 63 ≤ count → ∃ q' u, t.exec ((Operator.take count).place q) = (.ok q', u) ∧
      u.exec (Catalogue.call "Enumerable.ToArray" [q']) = (.error (.misuse .badValue), u) ∧ Untold t u

/-- An array, a sequence that comes once and functions that keep a record. -/
def ledger : Session :=
  { start 0 with
    store := #[.array [.int 1, .int 2, .int 3], .generator [.int 1, .int 2, .int 3] 0,
      .function ⟨.add, .int 1, true⟩, .function ⟨.gt, .int 2, true⟩] }

theorem unary_ledger : ledger.Unary (.ref 2) ∧ ledger.Unary (.ref 3) := ⟨⟨_, rfl, rfl⟩, ⟨_, rfl, rfl⟩⟩

end BaseLib.Demand
