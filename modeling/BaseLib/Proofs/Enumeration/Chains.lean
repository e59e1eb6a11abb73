import BaseLib.Proofs.Enumeration.Demand
import BaseLib.Proofs.Enumeration.Reading

namespace BaseLib.Demand

open Session Library Enumeration

variable {plain : Prop} {base n k : Nat} {s t u : Session} {w w' source : Walk} {x y : Value}
  {xs left : List Value} {es : List Event} {r : Found}

/-- Pulled with `n` steps or more, the source gives the elements one after the other and then ends, whatever becomes
of events and of objects from a place on between the pulls. If `plain` holds, it records nothing. -/
def Supplies (plain : Prop) (base n : Nat) : Session → Walk → List Value → Prop
  | s, w, [] => ∀ t, Aside base s t → ∀ k, n ≤ k →
      ∃ u, t.exec (pull k w) = (.ok .finish, u) ∧ (plain → Untold t u)
  | s, w, x :: xs => ∀ t, Aside base s t → ∀ k, n ≤ k →
      ∃ w' u, t.exec (pull k w) = (.ok (.give x w'), u) ∧ (plain → Untold t u) ∧ Supplies plain base n u w' xs

theorem Supplies.aside (h : Supplies plain base n s w xs) (hst : Aside base s t) :
    Supplies plain base n t w xs := by
  cases xs <;> exact fun u hu => h u (hst.trans hu)

theorem Supplies.mono {base' : Nat} (h : Supplies plain base n s w xs) (hb : base ≤ base') :
    Supplies plain base' n s w xs := by
  induction xs generalizing s w with
  | nil => exact fun t ht => h t (ht.mono hb)
  | cons x xs ih =>
      intro t ht k hk
      obtain ⟨w', u, hu, hm, hw'⟩ := h t (ht.mono hb) k hk
      exact ⟨w', u, hu, hm, ih hw'⟩

theorem Supplies.more {m : Nat} (h : Supplies plain base n s w xs) (hn : n ≤ m) :
    Supplies plain base m s w xs := by
  induction xs generalizing s w with
  | nil => exact fun t ht k hk => h t ht k (hn.trans hk)
  | cons x xs ih =>
      intro t ht k hk
      obtain ⟨w', u, hu, hm, hw'⟩ := h t ht k (hn.trans hk)
      exact ⟨w', u, hu, hm, ih hw'⟩

theorem supplies_items (s : Session) (xs : List Value) : Supplies plain base 2 s (.guarded (.items xs)) xs := by
  induction xs generalizing s with
  | nil =>
      intro t _ k hk
      obtain ⟨k, rfl⟩ : ∃ i, k = i + 2 := ⟨k - 2, by omega⟩
      exact ⟨t, rfl, fun _ => rfl⟩
  | cons x xs ih =>
      intro t _ k hk
      obtain ⟨k, rfl⟩ : ∃ i, k = i + 2 := ⟨k - 2, by omega⟩
      exact ⟨.guarded (.items xs), t, rfl, fun _ => rfl, ih t⟩

theorem supplies_live {array : Nat} {ys : List Value} (h : s.store[array]? = some (.array ys))
    (ha : array < base) (next : Nat) :
    Supplies plain base 2 s (.guarded (.live array next)) (ys.drop next) := by
  generalize hxs : ys.drop next = xs
  induction xs generalizing s next with
  | nil =>
      intro t ht k hk
      obtain ⟨k, rfl⟩ : ∃ i, k = i + 2 := ⟨k - 2, by omega⟩
      have hpull : t.exec (pull (k + 1) (.live array next)) = (.ok .finish, t) := by
        rw [exec_pull_live, items_eq (ht.kept ha h rfl), List.getElem?_eq_none (List.drop_eq_nil_iff.mp hxs)]
      exact ⟨t, exec_bind_ok hpull _, fun _ => rfl⟩
  | cons x xs ih =>
      intro t ht k hk
      obtain ⟨k, rfl⟩ : ∃ i, k = i + 2 := ⟨k - 2, by omega⟩
      have hx : ys[next]? = some x := by rw [← List.head?_drop, hxs, List.head?_cons]
      have hrest : ys.drop (next + 1) = xs := by rw [← List.tail_drop, hxs, List.tail_cons]
      have hpull : t.exec (pull (k + 1) (.live array next)) = (.ok (.give x (.live array (next + 1))), t) := by
        rw [exec_pull_live, items_eq (ht.kept ha h rfl), hx]
      exact ⟨_, t, exec_bind_ok hpull _, fun _ => rfl, ih (ht.kept ha h rfl) (next + 1) hrest⟩

theorem supplies_pending {v : Value} (hopen : ∀ t, Aside base s t → ∀ k, ∃ w,
      t.exec (openWalk (k + 2) v) = (.ok w, t) ∧ Supplies plain base 2 t (.guarded w) xs) :
    Supplies plain base 3 s (.pending v) xs := by
  cases xs with
  | nil =>
      intro t ht k hk
      obtain ⟨k, rfl⟩ : ∃ i, k = i + 3 := ⟨k - 3, by omega⟩
      obtain ⟨w, hw, hsupplies⟩ := hopen t ht k
      obtain ⟨u, hu, hm⟩ := hsupplies t (.refl base t) (k + 2) (by omega)
      exact ⟨u, (exec_pull_pending hw).trans hu, hm⟩
  | cons x xs =>
      intro t ht k hk
      obtain ⟨k, rfl⟩ : ∃ i, k = i + 3 := ⟨k - 3, by omega⟩
      obtain ⟨w, hw, hsupplies⟩ := hopen t ht k
      obtain ⟨w', u, hu, hm, hrest⟩ := hsupplies t (.refl base t) (k + 2) (by omega)
      exact ⟨w', u, (exec_pull_pending hw).trans hu, hm, hrest.more (by omega)⟩

theorem exec_openWalk_aside {v : Value} (hv : s.Holds v xs) (hst : Aside s.store.size s t) (k : Nat) :
    ∃ w, t.exec (openWalk (k + 2) v) = (.ok w, t) ∧
      (w = .items xs ∨ ∃ b, b < s.store.size ∧ w = .live b 0 ∧ t.store[b]? = some (.array xs)) := by
  obtain ⟨hv', hapart⟩ := holds_aside hv hst
  obtain ⟨w, hw, rfl | ⟨b, -, rfl, hb⟩⟩ | ⟨hk, -⟩ :=
    Feedback.exec_openWalk_holds hv' (hapart _ (Nat.le_refl _)) (k + 1)
  · exact ⟨_, hw, .inl rfl⟩
  · refine ⟨_, hw, .inr ⟨b, ?_, rfl, hb⟩⟩
    -- an array from that place on is not what is opened
    by_contra hlt
    obtain ⟨w', hw', rfl | ⟨b', hne, rfl, -⟩⟩ | ⟨hk, -⟩ :=
      Feedback.exec_openWalk_holds hv' (hapart b (Nat.le_of_not_lt hlt)) (k + 1)
    · cases hw.symm.trans hw'
    · cases hw.symm.trans hw'
      exact hne rfl
    · cases hk
  · cases hk

theorem supplies_source {v : Value} (hv : s.Holds v xs) : Supplies plain s.store.size 3 s (.pending v) xs := by
  refine supplies_pending fun t ht k => ?_
  obtain ⟨w, hw, rfl | ⟨b, hb, rfl, hxs⟩⟩ := exec_openWalk_aside hv ht k
  · exact ⟨_, hw, supplies_items t xs⟩
  · exact ⟨_, hw, supplies_live hxs hb 0⟩

theorem supplies_generator {id closings : Nat} (h : s.store[id]? = some (.generator xs closings))
    (hid : id < base) : Supplies plain base 3 s (.pending (.ref id)) xs := by
  refine supplies_pending fun t ht k => ⟨.generator id, exec_openWalk_generator (ht.kept hid h rfl) _, ?_⟩
  replace h := ht.kept hid h rfl
  clear ht
  induction xs generalizing t closings with
  | nil =>
      intro u hu k hk
      obtain ⟨k, rfl⟩ : ∃ i, k = i + 2 := ⟨k - 2, by omega⟩
      exact ⟨_, exec_pull_generator_nil (hu.kept hid h rfl) k, fun _ => rfl⟩
  | cons x xs ih =>
      intro u hu k hk
      obtain ⟨k, rfl⟩ : ∃ i, k = i + 2 := ⟨k - 2, by omega⟩
      exact ⟨_, _, exec_pull_generator_cons (hu.kept hid h rfl) k, fun _ => rfl,
        ih _ (store_put (hu.kept hid h rfl) _)⟩

inductive Operator
  | select (f : Value)
  | filter (p : Value)
  | take (count : Int)
  | skip (count : Int)

namespace Operator

def stage : Operator → Stage
  | select f => .map f
  | filter p => .keep p
  | take count => .limit count.toNat
  | skip count => .skip count.toNat

def next : Operator → Operator
  | take count => take (count - 1)
  | skip count => skip (count - 1)
  | op => op

def query (source : Value) : Operator → Query
  | select f => .select source f
  | filter p => .filter source p
  | take count => .take source (.int count)
  | skip count => .skip source (.int count)

def walk (w : Walk) : Operator → Walk
  | select f => .select f w
  | filter p => .filter p w
  | take count => .take count.toNat w
  | skip count => .skip count.toNat w

def Fits : Operator → Prop
  | take count | skip count => count < 2 ^ 63
  | _ => True

def place (source : Value) : Operator → Action Value
  | select f => Catalogue.call "Enumerable.Select" [source, f]
  | filter p => Catalogue.call "Enumerable.Where" [source, p]
  | take count => Catalogue.call "Enumerable.Take" [source, .int count]
  | skip count => Catalogue.call "Enumerable.Skip" [source, .int count]

theorem stage_next (op : Operator) : op.next.stage = op.stage.next := by
  cases op with
  | take count | skip count => simp [next, stage, Stage.next]
  | _ => rfl

end Operator

/-- The stages of a chain, whose outermost operator comes first, as elements go through them. -/
def stages (chain : List Operator) : List Stage := (chain.map Operator.stage).reverse

theorem stages_cons (op : Operator) (chain : List Operator) :
    stages (op :: chain) = stages chain ++ [op.stage] := by
  simp [stages]

def build (source : Value) : List Operator → Action Value
  | [] => pure source
  | op :: chain => do op.place (← build source chain)

/-- The walk draws on the source through the chain: its outermost query is yet to be opened, or it has been. -/
def Feeds (s : Session) : List Operator → Walk → Walk → Prop
  | [], w, source => w = source
  | op :: chain, w, source =>
    (∃ id inner, w = .pending (.ref id) ∧ op.Fits ∧ s.store[id]? = some (.sequence (op.query inner)) ∧
      Feeds s chain (.pending inner) source) ∨
    ∃ w', w = .guarded (op.walk w') ∧ Feeds s chain w' source

def Opened (s : Session) : List Operator → Walk → Walk → Prop
  | [], _, _ => False
  | op :: chain, w, source => ∃ w', w = op.walk w' ∧ Feeds s chain w' source

/-- Steps that are enough for a pull of so many operators over a source that has so many elements left. -/
def reach (n operators left : Nat) : Nat := n + operators * (left + 3)

variable {op : Operator} {chain : List Operator}

theorem Feeds.stays (h : Feeds s chain w source) (hst : Stays s t) : Feeds t chain w source := by
  induction chain generalizing w with
  | nil => exact h
  | cons op chain ih =>
      obtain ⟨id, inner, hw, hfits, hquery, h⟩ | ⟨w', hw, h⟩ := h
      · exact .inl ⟨id, inner, hw, hfits, hst.sequence hquery, ih h⟩
      · exact .inr ⟨w', hw, ih h⟩

theorem reach_succ (n d m : Nat) : reach n (d + 1) m = reach n d m + m + 3 := by
  simp only [reach]
  ring

theorem reach_mono {m m' : Nat} (n d : Nat) (h : m ≤ m') : reach n d m ≤ reach n d m' :=
  Nat.add_le_add_left (Nat.mul_le_mul_left d (Nat.add_le_add_right h 3)) n

theorem at_work {st : Stage} {source' : Walk} (hr : t.exec (st.run y) = (r, u))
    (hp : Performs plain s source es t source') (hw : Feeds t chain w source')
    (hxs : Supplies plain base n t source' left) :
    Call.outcome ⟨t, st, y⟩ = r ∧ Performs plain s source (es ++ [.call ⟨t, st, y⟩]) u source' ∧
      Feeds u chain w source' ∧ Supplies plain base n u source' left := by
  have haside : Aside base t u := of_run hr
  have hdrift : Drift true none t u := of_run hr
  have hcall : Performs plain s source (es ++ [.call ⟨t, st, y⟩]) (Call.after ⟨t, st, y⟩) source' := hp.snoc
  rw [Call.after, hr] at hcall
  exact ⟨congrArg Prod.fst hr, hcall, hw.stays hdrift.stays, hxs.aside haside⟩

theorem exec_pull_operator (h : s.exec (pull k w) = (.ok (.give x w'), t)) (hop : op.stage ≠ .limit 0) :
    s.exec (pull (k + 1) (op.walk w)) =
      match t.exec (op.stage.run x) with
      | (.ok (some y), u) => (.ok (.give y (op.next.walk w')), u)
      | (.ok none, u) => u.exec (pull k (op.next.walk w'))
      | (.error e, u) => u.exec (Pulled.failWith e w') := by
  cases op with
  | select f =>
      rcases hr : t.exec (apply f [x]) with ⟨e | y, u⟩
      · have hrun : t.exec ((Operator.select f).stage.run x) = (.error e, u) := exec_bind_error hr _
        rw [hrun]
        exact (exec_bind_ok h _).trans (exec_bind_ok (exec_outcome hr) _)
      · have hrun : t.exec ((Operator.select f).stage.run x) = (.ok (some y), u) := exec_bind_ok hr _
        rw [hrun]
        exact (exec_bind_ok h _).trans (exec_bind_ok (exec_outcome hr) _)
  | filter p =>
      rcases hr : t.exec (holds p [x]) with ⟨e | b, u⟩
      · have hrun : t.exec ((Operator.filter p).stage.run x) = (.error e, u) := exec_bind_error hr _
        rw [hrun]
        exact (exec_bind_ok h _).trans (exec_bind_ok (exec_outcome hr) _)
      · have hrun : t.exec ((Operator.filter p).stage.run x) = (.ok (if b then some x else none), u) :=
          exec_bind_ok hr _
        rw [hrun]
        cases b <;> exact (exec_bind_ok h _).trans (exec_bind_ok (exec_outcome hr) _)
  | take count =>
      obtain ⟨m, hm⟩ : ∃ m, count.toNat = m + 1 :=
        Nat.exists_eq_succ_of_ne_zero fun h0 => hop (congrArg Stage.limit h0)
      have hnext : (count - 1).toNat = m := by omega
      simp only [Operator.walk, Operator.next, Operator.stage, hm, hnext]
      exact (exec_bind_ok h _).trans rfl
  | skip count =>
      have hnext : (count - 1).toNat = count.toNat - 1 := by omega
      simp only [Operator.walk, Operator.next, Operator.stage, hnext]
      generalize count.toNat = m
      cases m <;> exact (exec_bind_ok h _).trans rfl

theorem exec_pull_operator_ended (h : s.exec (pull k w) = (.ok (r, .ended), t)) (hr : ∀ y, r ≠ .ok (some y))
    (hop : op.stage ≠ .limit 0) : s.exec (pull (k + 1) (op.walk w)) = (.ok (r, .ended), t) := by
  cases op with
  | select | filter | skip => rcases r with e | _ | y <;> first
      | exact (exec_bind_ok h _).trans rfl
      | exact absurd rfl (hr y)
  | take count =>
      obtain ⟨m, hm⟩ : ∃ m, count.toNat = m + 1 :=
        Nat.exists_eq_succ_of_ne_zero fun h0 => hop (congrArg Stage.limit h0)
      simp only [Operator.walk, hm]
      rcases r with e | _ | y <;> first
      | exact (exec_bind_ok h _).trans rfl
      | exact absurd rfl (hr y)

theorem exec_pull_operator_enough (s : Session) (k : Nat) (w : Walk) (hop : op.stage = .limit 0) :
    ∃ t, s.exec (pull (k + 1) (op.walk w)) = (.ok .finish, t) ∧ Silent s t := by
  cases op with
  | take count =>
      obtain ⟨t, ht, hsilent⟩ := exec_close w s
      refine ⟨t, ?_, hsilent⟩
      rw [Operator.walk, Stage.limit.inj hop]
      exact (exec_bind_ok ht _).trans rfl
  | select | filter | skip => cases hop

theorem exec_openWalk_operator {id : Nat} {inner : Value}
    (h : s.store[id]? = some (.sequence (op.query inner))) (hop : op.Fits) (k : Nat) :
    s.exec (openWalk (k + 2) (.ref id)) = (.ok (op.walk (.pending inner)), s) := by
  rw [Plan.exec_openWalk (v := .ref id) h]
  cases op with
  | select | filter => rfl
  | take | skip => exact (exec_bind_ok (Plan.exec_elementCount hop s) _).trans rfl

/-- What is found through a chain: an element, and a walk that goes on from there, or the end or a failure. -/
inductive Gives (plain : Prop) (base n : Nat) (walk : Session → List Operator → Walk → Walk → Prop) (s : Session)
    (chain : List Operator) (source : Walk) (xs : List Value) : Pulled → Session → Prop
  | found {t : Session} {chain' : List Operator} {source' w : Walk} {es : List Event} {y : Value}
      {left : List Value} (hs : Search (stages chain) xs es (.ok (some y)) (stages chain') left)
      (hp : Performs plain s source es t source') (hlen : chain'.length = chain.length)
      (hw : walk t chain' w source') (hxs : Supplies plain base n t source' left) :
      Gives plain base n walk s chain source xs (.give y w) t
  | ended {t : Session} {sts : List Stage} {source' : Walk} {es : List Event} {r : Found} {left : List Value}
      (hs : Search (stages chain) xs es r sts left) (hr : ∀ y, r ≠ .ok (some y))
      (hp : Performs plain s source es t source') :
      Gives plain base n walk s chain source xs (r, .ended) t

theorem Gives.after {walk : Session → List Operator → Walk → Walk → Prop} {chain' : List Operator}
    {source' : Walk} {p : Pulled} (h : Gives plain base n walk t chain' source' left p u)
    (hs : ∀ {es' r sts left'}, Search (stages chain') left es' r sts left' →
      Search (stages chain) xs (es ++ es') r sts left')
    (hp : Performs plain s source es t source') (hlen : chain'.length = chain.length) :
    Gives plain base n walk s chain source xs p u := by
  cases h with
  | found hs' hp' hlen' hw hxs => exact .found (hs hs') (hp.append hp') (hlen'.trans hlen) hw hxs
  | ended hs' hr hp' => exact .ended (hs hs') hr (hp.append hp')

def Pulls (plain : Prop) (base n operators : Nat) (steps : Nat → Nat)
    (walk : Session → List Operator → Walk → Walk → Prop) : Prop :=
  ∀ ⦃s : Session⦄ ⦃chain : List Operator⦄ ⦃w source : Walk⦄ ⦃xs : List Value⦄ ⦃k : Nat⦄,
    chain.length = operators → walk s chain w source → Supplies plain base n s source xs →
      steps xs.length ≤ k → ∃ p t, s.exec (pull k w) = (.ok p, t) ∧
        Gives plain base n walk s chain source xs p t

theorem pulls_source : Pulls plain base n 0 (reach n 0) Feeds := by
  intro s chain w source xs k hlen hw hxs hk
  obtain rfl := List.length_eq_zero_iff.mp hlen
  obtain rfl : w = source := hw
  have hn : n ≤ k := by simpa [reach] using hk
  cases xs with
  | nil =>
      obtain ⟨u, hu, hm⟩ := hxs s (.refl base s) k hn
      exact ⟨.finish, u, hu, .ended (.finish (by simp [stages])) (by simp)
        (.finish (.refl s) hu hm (.done (.refl u)))⟩
  | cons x xs =>
      obtain ⟨w', u, hu, hm, hrest⟩ := hxs s (.refl base s) k hn
      have hsearch : Search (stages []) (x :: xs) [.read x] (.ok (some x)) (stages []) xs :=
        .found (by simp) (.through x)
      exact ⟨.give x w', u, hu, .found hsearch (.read (.refl s) hu hm (.done (.refl u))) rfl rfl hrest⟩

/-- The outermost operator, once it has been opened: each element that is found below goes through its stage. -/
theorem pulls_opened {d : Nat} (h : Pulls plain base n d (reach n d) Feeds) :
    Pulls plain base n (d + 1) (fun m => reach n d m + m + 1) Opened := by
  intro s chain w source xs k hlen hw hxs hk
  generalize hm : xs.length = m at hk
  induction m using Nat.strongRecOn generalizing s chain w source xs k with
  | _ m ih =>
      -- an element that the operator drops leaves less of the source
      replace hk : reach n d m + m + 1 ≤ k := hk
      obtain ⟨op, rest, rfl⟩ := List.exists_cons_of_length_eq_add_one hlen
      obtain ⟨w, rfl, hfeeds⟩ := hw
      obtain ⟨k, rfl⟩ : ∃ i, k = i + 1 := ⟨k - 1, by omega⟩
      by_cases hop : op.stage = .limit 0
      · obtain ⟨t, ht, hsilent⟩ := exec_pull_operator_enough s k w hop
        refine ⟨.finish, t, ht, .ended (.enough ?_) (by simp) (.done hsilent)⟩
        rw [stages_cons, hop]
        exact List.mem_append_right _ (List.mem_singleton_self _)
      · obtain ⟨p, t, hrun, hp⟩ := h (Nat.succ.inj hlen) hfeeds hxs (hm ▸ by omega : reach n d xs.length ≤ k)
        cases hp with
        | ended hs hr hperforms =>
            have hsearch := hs.under hr hop
            rw [← stages_cons] at hsearch
            exact ⟨_, t, exec_pull_operator_ended hrun hr hop, .ended hsearch hr hperforms⟩
        | @found _ chain' source' w' es y left hs hperforms hlen' hw' hxs' =>
            have hlen'' : (op.next :: chain').length = (op :: rest).length := congrArg (· + 1) hlen'
            rw [exec_pull_operator hrun hop]
            rcases hr : t.exec (op.stage.run y) with ⟨r, u⟩
            obtain ⟨hc, hcall, hfeeds', hsupplies⟩ := at_work hr hperforms hw' hxs'
            have hopened : Opened u (op.next :: chain') (op.next.walk w') source' := ⟨w', rfl, hfeeds'⟩
            have hstages : stages (op.next :: chain') = stages chain' ++ [op.stage.next] := by
              rw [stages_cons, op.stage_next]
            rcases r with e | _ | z
            · obtain ⟨v, hv, hsilent⟩ := exec_failWith e w' u
              have hsearch := hs.snoc hop hc (by simp)
              rw [← stages_cons] at hsearch
              exact ⟨_, v, hv, .ended hsearch (by simp) (hcall.silent hsilent)⟩
            · have hlt : left.length < m := hm ▸ hs.length_lt
              have hle := reach_mono n d hlt.le
              obtain ⟨p, v, hrun', hp⟩ := ih _ hlt (hlen''.trans hlen) hopened hsupplies rfl
                (show reach n d left.length + left.length + 1 ≤ k by omega)
              refine ⟨p, v, hrun', hp.after (fun hs' => ?_) hcall hlen''⟩
              rw [hstages] at hs'
              rw [stages_cons]
              exact hs.again hop hc hs'
            · have hsearch := hs.snoc hop hc (by simp)
              rw [← stages_cons, ← hstages] at hsearch
              exact ⟨_, u, rfl, .found hsearch hcall hlen'' hopened hsupplies⟩

theorem Gives.guarded {p : Pulled} (h : Gives plain base n Opened s chain source xs p t)
    (hrun : s.exec (pull k w) = (.ok p, t)) :
    ∃ p, s.exec (pull (k + 1) (.guarded w)) = (.ok p, t) ∧
      Gives plain base n Feeds s chain source xs p t := by
  cases h with
  | @found t chain' source' w' es y left hs hp hlen hw hxs =>
      refine ⟨.give y (.guarded w'), (exec_bind_ok hrun _).trans rfl, .found hs hp hlen ?_ hxs⟩
      cases chain' with
      | nil => exact hw.elim
      | cons op chain' =>
          obtain ⟨w', rfl, hw⟩ := hw
          exact .inr ⟨w', rfl, hw⟩
  | @ended t sts source' es r left hs hr hp =>
      refine ⟨(r, .ended), ?_, .ended hs hr hp⟩
      rcases r with e | _ | y
      · exact (exec_bind_ok hrun _).trans rfl
      · exact (exec_bind_ok hrun _).trans rfl
      · exact absurd rfl (hr y)

theorem pulls_succ {d : Nat} (h : Pulls plain base n d (reach n d) Feeds) :
    Pulls plain base n (d + 1) (reach n (d + 1)) Feeds := by
  intro s chain w source xs k hlen hw hxs hk
  rw [reach_succ] at hk
  obtain ⟨k, rfl⟩ : ∃ i, k = i + 3 := ⟨k - 3, by omega⟩
  have hguarded {w : Walk} {j : Nat} (hw : Opened s chain w source)
      (hj : reach n d xs.length + xs.length + 1 ≤ j) :
      ∃ p t, s.exec (pull (j + 1) (.guarded w)) = (.ok p, t) ∧
        Gives plain base n Feeds s chain source xs p t := by
    obtain ⟨p, t, hrun, hp⟩ := pulls_opened h hlen hw hxs hj
    obtain ⟨p, hrun, hp⟩ := hp.guarded hrun
    exact ⟨p, t, hrun, hp⟩
  obtain ⟨op, rest, rfl⟩ := List.exists_cons_of_length_eq_add_one hlen
  obtain ⟨id, inner, rfl, hfits, hquery, hw⟩ | ⟨w', rfl, hw⟩ := hw
  · rw [exec_pull_pending (exec_openWalk_operator hquery hfits k)]
    exact hguarded ⟨_, rfl, hw⟩ (by omega)
  · exact hguarded ⟨w', rfl, hw⟩ (by omega)

theorem pulls (plain : Prop) (base n d : Nat) : Pulls plain base n d (reach n d) Feeds := by
  induction d with
  | zero => exact pulls_source
  | succ d ih => exact pulls_succ ih

end BaseLib.Demand
