import BaseLib.Proofs.Enumeration.Calls

namespace BaseLib.Demand

open Session Library Enumeration

theorem exec_map {α β : Type} (s : Session) (a : Action α) (g : α → β) :
    s.exec (do pure (g (← a))) = ((s.exec a).1.map g, (s.exec a).2) := by
  rw [exec_bind]
  rcases s.exec a with ⟨_ | _, t⟩ <;> rfl

/-- What elements go through: a function is applied to each, a predicate or a value decides whether they are kept,
so many are let through at most, the first are left out, or all are kept. -/
inductive Stage
  | map (f : Value)
  | keep (p : Value)
  | limit (count : Nat)
  | skip (count : Nat)
  | equal (v : Value)
  | any
  deriving DecidableEq

namespace Stage

def run : Stage → Value → Action (Option Value)
  | map f, x => do pure (some (← apply f [x]))
  | keep p, x => do pure (if ← holds p [x] then some x else none)
  | skip (_ + 1), _ => pure none
  | equal v, x => do pure (if (← get).equals x v then some x else none)
  | _, x => pure (some x)

def next : Stage → Stage
  | limit count => limit (count - 1)
  | skip count => skip (count - 1)
  | st => st

def function? : Stage → Option Value
  | map f | keep f => some f
  | _ => none

theorem function?_next (st : Stage) : st.next.function? = st.function? := by
  cases st <;> rfl

end Stage

structure Call where
  before : Session
  stage : Stage
  value : Value

abbrev Found := Except Fault (Option Value)

namespace Call

def outcome (c : Call) : Found := (c.before.exec (c.stage.run c.value)).1

def after (c : Call) : Session := (c.before.exec (c.stage.run c.value)).2

def told (c : Call) : List Report :=
  match c.stage.function? with
  | some f => c.before.told f c.value
  | none => []

end Call

/-- What happens in an enumeration: an element is taken from the source, the source ends, or a stage is at work. -/
inductive Event
  | read (x : Value)
  | finish
  | call (c : Call)

def calls (events : List Event) : List Call :=
  events.filterMap fun
    | .call c => some c
    | _ => none

def arguments (f : Value) (events : List Event) : List Value :=
  (calls events).filterMap fun c => if c.stage = .map f then some c.value else none

/-- What becomes of one element: it goes from stage to stage, until one drops it or fails. -/
inductive Passes : List Stage → Value → List Call → Found → List Stage → Prop
  | through (x : Value) : Passes [] x [] (.ok (some x)) []
  | on {sts sts' : List Stage} {c : Call} {y : Value} {cs : List Call} {r : Found}
      (h : c.outcome = .ok (some y)) (hr : Passes sts y cs r sts') :
      Passes (c.stage :: sts) c.value (c :: cs) r (c.stage.next :: sts')
  | dropped {sts : List Stage} {c : Call} (h : c.outcome = .ok none) :
      Passes (c.stage :: sts) c.value [c] (.ok none) (c.stage.next :: sts)
  | failed {sts : List Stage} {c : Call} {e : Fault} (h : c.outcome = .error e) :
      Passes (c.stage :: sts) c.value [c] (.error e) (c.stage.next :: sts)

/-- The next element that passes all stages, from those that are left of the source. Each is read when those
before it have been dropped; the source is asked for no more once an element has passed, or when a stage lets no
more through. -/
inductive Search : List Stage → List Value → List Event → Found → List Stage → List Value → Prop
  | enough {sts : List Stage} {xs : List Value} (h : .limit 0 ∈ sts) : Search sts xs [] (.ok none) sts xs
  | finish {sts : List Stage} (h : .limit 0 ∉ sts) : Search sts [] [.finish] (.ok none) sts []
  | found {sts sts' : List Stage} {x y : Value} {xs : List Value} {cs : List Call} (h : .limit 0 ∉ sts)
      (hp : Passes sts x cs (.ok (some y)) sts') :
      Search sts (x :: xs) (.read x :: cs.map .call) (.ok (some y)) sts' xs
  | failed {sts sts' : List Stage} {x : Value} {xs : List Value} {cs : List Call} {e : Fault}
      (h : .limit 0 ∉ sts) (hp : Passes sts x cs (.error e) sts') :
      Search sts (x :: xs) (.read x :: cs.map .call) (.error e) sts' xs
  | next {sts sts' sts'' : List Stage} {x : Value} {xs left : List Value} {cs : List Call} {es : List Event}
      {r : Found} (h : .limit 0 ∉ sts) (hp : Passes sts x cs (.ok none) sts')
      (hr : Search sts' xs es r sts'' left) :
      Search sts (x :: xs) (.read x :: cs.map .call ++ es) r sts'' left

/-- Elements that are found one after the other, and what is left after them. -/
inductive Gathers (sts : List Stage) (xs : List Value) :
    List Event → List Value → List Stage → List Value → Prop
  | nil : Gathers sts xs [] [] sts xs
  | snoc {sts' sts'' : List Stage} {left left' ys : List Value} {es es' : List Event} {y : Value}
      (h : Gathers sts xs es ys sts' left) (hs : Search sts' left es' (.ok (some y)) sts'' left') :
      Gathers sts xs (es ++ es') (ys ++ [y]) sts'' left'

inductive Collects (sts : List Stage) (xs : List Value) : List Event → Except Fault (List Value) → Prop
  | all {sts' sts'' : List Stage} {left left' ys : List Value} {es es' : List Event}
      (h : Gathers sts xs es ys sts' left) (hs : Search sts' left es' (.ok none) sts'' left') :
      Collects sts xs (es ++ es') (.ok ys)
  | failed {sts' sts'' : List Stage} {left left' ys : List Value} {es es' : List Event} {e : Fault}
      (h : Gathers sts xs es ys sts' left) (hs : Search sts' left es' (.error e) sts'' left') :
      Collects sts xs (es ++ es') (.error e)

variable {sts sts' sts'' : List Stage} {st : Stage} {c : Call} {x y : Value} {xs ys left left' : List Value}
  {cs : List Call} {es es' : List Event} {r : Found} {e : Fault}

theorem Passes.snoc (h : Passes sts x cs (.ok (some c.value)) sts')
    (hc : Passes [c.stage] c.value [c] r [c.stage.next]) :
    Passes (sts ++ [c.stage]) x (cs ++ [c]) r (sts' ++ [c.stage.next]) := by
  generalize hr : (.ok (some c.value) : Found) = r' at h
  induction h with
  | through x =>
      cases hr
      exact hc
  | on h _ ih => exact .on h (ih hr)
  | dropped | failed => cases hr

theorem Passes.under (h : Passes sts x cs r sts') (hr : ∀ y, r ≠ .ok (some y)) (st : Stage) :
    Passes (sts ++ [st]) x cs r (sts' ++ [st]) := by
  induction h with
  | through x => exact absurd rfl (hr x)
  | on h _ ih => exact .on h (ih hr)
  | dropped h => exact .dropped h
  | failed h => exact .failed h

theorem no_limit_snoc (h : .limit 0 ∉ sts) (hst : st ≠ .limit 0) : .limit 0 ∉ sts ++ [st] := by
  simp [h, hst.symm]

theorem Search.under (h : Search sts xs es r sts' left) (hr : ∀ y, r ≠ .ok (some y)) (hst : st ≠ .limit 0) :
    Search (sts ++ [st]) xs es r (sts' ++ [st]) left := by
  induction h with
  | enough h => exact .enough (List.mem_append_left _ h)
  | finish h => exact .finish (no_limit_snoc h hst)
  | found => exact absurd rfl (hr _)
  | failed h hp => exact .failed (no_limit_snoc h hst) (hp.under (by simp) st)
  | next h hp _ ih => exact .next (no_limit_snoc h hst) (hp.under (by simp) st) (ih hr)

theorem Search.snoc (h : Search sts xs es (.ok (some c.value)) sts' left) (hst : c.stage ≠ .limit 0)
    (hr : c.outcome = r) (hn : r ≠ .ok none) :
    Search (sts ++ [c.stage]) xs (es ++ [.call c]) r (sts' ++ [c.stage.next]) left := by
  generalize hv : (.ok (some c.value) : Found) = r' at h
  induction h with
  | enough | finish | failed => cases hv
  | @found sts sts' x y xs cs h hp =>
      cases hv
      have hevents : .read x :: cs.map Event.call ++ [.call c] = .read x :: (cs ++ [c]).map Event.call := by simp
      rw [hevents]
      rcases r with e | _ | z
      · exact .failed (no_limit_snoc h hst) (hp.snoc (.failed hr))
      · exact absurd rfl hn
      · exact .found (no_limit_snoc h hst) (hp.snoc (.on hr (.through z)))
  | next h hp _ ih =>
      rw [List.append_assoc]
      exact .next (no_limit_snoc h hst) (hp.under (by simp) _) (ih hv)

theorem Search.again (h : Search sts xs es (.ok (some c.value)) sts' left) (hst : c.stage ≠ .limit 0)
    (hc : c.outcome = .ok none) (hr : Search (sts' ++ [c.stage.next]) left es' r sts'' left') :
    Search (sts ++ [c.stage]) xs (es ++ [.call c] ++ es') r sts'' left' := by
  generalize hv : (.ok (some c.value) : Found) = r' at h
  induction h with
  | enough | finish | failed => cases hv
  | @found sts sts' x y xs cs h hp =>
      cases hv
      have hevents : .read x :: cs.map Event.call ++ [.call c] ++ es' =
          .read x :: (cs ++ [c]).map Event.call ++ es' := by simp
      rw [hevents]
      exact .next (no_limit_snoc h hst) (hp.snoc (.dropped hc)) hr
  | next h hp _ ih =>
      rw [List.append_assoc, List.append_assoc, ← List.append_assoc _ [_]]
      exact .next (no_limit_snoc h hst) (hp.under (by simp) _) (ih hr hv)

theorem Search.length_lt (h : Search sts xs es (.ok (some y)) sts' left) : left.length < xs.length := by
  generalize hr : (.ok (some y) : Found) = r at h
  induction h with
  | enough | finish | failed => cases hr
  | found => exact Nat.lt_succ_self _
  | next _ _ _ ih => exact Nat.lt_succ_of_lt (ih hr)

theorem Gathers.cons (hs : Search sts xs es (.ok (some y)) sts' left)
    (h : Gathers sts' left es' ys sts'' left') : Gathers sts xs (es ++ es') (y :: ys) sts'' left' := by
  induction h with
  | nil => simpa using Gathers.nil.snoc hs
  | snoc _ hs' ih =>
      rw [← List.append_assoc]
      exact ih.snoc hs'

theorem Collects.cons {r : Except Fault (List Value)} (hs : Search sts xs es (.ok (some y)) sts' left)
    (h : Collects sts' left es' r) : Collects sts xs (es ++ es') (r.map (y :: ·)) := by
  cases h with
  | all h hs' =>
      rw [← List.append_assoc]
      exact .all (h.cons hs) hs'
  | failed h hs' =>
      rw [← List.append_assoc]
      exact .failed (h.cons hs) hs'

theorem calls_append (es es' : List Event) : calls (es ++ es') = calls es ++ calls es' :=
  List.filterMap_append

theorem calls_read (x : Value) (cs : List Call) : calls (.read x :: cs.map .call) = cs := by
  simp [calls, List.filterMap_map]

section

variable {α : Type} {g : Stage → α} (hg : ∀ st : Stage, g st.next = g st)

include hg

theorem Passes.kept (h : Passes sts x cs r sts') :
    sts'.map g = sts.map g ∧ ∀ c ∈ cs, g c.stage ∈ sts.map g := by
  induction h with
  | through => simp
  | on _ _ ih =>
      obtain ⟨hsame, hmem⟩ := ih
      refine ⟨by simp [hsame, hg], fun c hc => ?_⟩
      rcases List.mem_cons.mp hc with rfl | hc
      · simp
      · exact List.mem_cons_of_mem _ (hmem c hc)
  | dropped | failed => simp [hg]

theorem Search.kept (h : Search sts xs es r sts' left) :
    sts'.map g = sts.map g ∧ ∀ c ∈ calls es, g c.stage ∈ sts.map g := by
  induction h with
  | enough | finish => simp [calls]
  | found _ hp | failed _ hp =>
      rw [calls_read]
      exact hp.kept hg
  | next _ hp _ ih =>
      obtain ⟨hsame, hmem⟩ := hp.kept hg
      obtain ⟨hsame', hmem'⟩ := ih
      refine ⟨hsame'.trans hsame, fun c hc => ?_⟩
      rw [calls_append, calls_read] at hc
      rcases List.mem_append.mp hc with hc | hc
      · exact hmem c hc
      · exact hsame ▸ hmem' c hc

theorem Gathers.kept (h : Gathers sts xs es ys sts' left) :
    sts'.map g = sts.map g ∧ ∀ c ∈ calls es, g c.stage ∈ sts.map g := by
  induction h with
  | nil => simp [calls]
  | snoc _ hs ih =>
      obtain ⟨hsame, hmem⟩ := ih
      obtain ⟨hsame', hmem'⟩ := hs.kept hg
      refine ⟨hsame'.trans hsame, fun c hc => ?_⟩
      rw [calls_append] at hc
      rcases List.mem_append.mp hc with hc | hc
      · exact hmem c hc
      · exact hsame ▸ hmem' c hc

theorem Collects.kept {r : Except Fault (List Value)} (h : Collects sts xs es r) :
    ∀ c ∈ calls es, g c.stage ∈ sts.map g := by
  cases h with
  | all h hs | failed h hs =>
      intro c hc
      rw [calls_append] at hc
      rcases List.mem_append.mp hc with hc | hc
      · exact (h.kept hg).2 c hc
      · exact (h.kept hg).1 ▸ (hs.kept hg).2 c hc

end

theorem outcome_map {c : Call} {f : Value} (h : c.stage = .map f) : c.outcome ≠ .ok none := by
  rw [Call.outcome, h, Stage.run, exec_map]
  rcases (c.before.exec (apply f [c.value])).1 with e | z <;> simp [Except.map]

theorem outcome_limit {c : Call} {count : Nat} (h : c.stage = .limit count) :
    c.outcome = .ok (some c.value) := by
  rw [Call.outcome, h]
  rfl

theorem arguments_append (f : Value) (es es' : List Event) :
    arguments f (es ++ es') = arguments f es ++ arguments f es' := by
  rw [arguments, calls_append, List.filterMap_append]
  rfl

theorem arguments_read (f x : Value) (cs : List Call) :
    arguments f (.read x :: cs.map .call) =
      cs.filterMap fun c => if c.stage = .map f then some c.value else none := by
  rw [arguments, calls_read]

theorem Passes.none_of {cs : List Call} {P : Stage → Prop} (hP : ∀ st : Stage, P st.next ↔ P st)
    (h : Passes sts x cs r sts') (hsts : ∀ st ∈ sts, ¬P st) :
    (∀ c ∈ cs, ¬P c.stage) ∧ ∀ st ∈ sts', ¬P st := by
  obtain ⟨hsame, hcalls⟩ := h.kept (g := P) fun st => propext (hP st)
  have hnot {p : Prop} (hp : p ∈ sts.map P) : ¬p := by
    obtain ⟨st, hst, rfl⟩ := List.mem_map.mp hp
    exact hsts st hst
  exact ⟨fun c hc => hnot (hcalls c hc), fun st hst => hnot (hsame ▸ List.mem_map_of_mem hst)⟩

theorem next_eq_map_iff (f : Value) (st : Stage) : st.next = .map f ↔ st = .map f := by
  cases st <;> simp [Stage.next]

theorem Passes.first {cs : List Call} {f : Value} {sts₀ : List Stage} (h : Passes sts₀ x cs r sts')
    (h₀ : sts₀ = .map f :: sts) (hf : ∀ st ∈ sts, st ≠ .map f) :
    arguments f (.read x :: cs.map .call) = [x] ∧
      ∃ sts'', sts' = .map f :: sts'' ∧ ∀ st ∈ sts'', st ≠ .map f := by
  rw [arguments_read]
  cases h with
  | through => cases h₀
  | @on _ sts'' c y cs _ _ hr =>
      obtain ⟨hc, rfl⟩ := List.cons.inj h₀
      obtain ⟨hcs, hsts⟩ := hr.none_of (next_eq_map_iff f) hf
      refine ⟨?_, sts'', by rw [hc]; rfl, hsts⟩
      have hrest : (cs.filterMap fun c => if c.stage = .map f then some c.value else none) = [] :=
        List.filterMap_eq_nil_iff.mpr fun c hc => if_neg (hcs c hc)
      rw [List.filterMap_cons, if_pos hc, hrest]
  | @dropped _ c _ | @failed _ c _ _ =>
      obtain ⟨hc, rfl⟩ := List.cons.inj h₀
      exact ⟨by simp [hc], _, by rw [hc]; rfl, hf⟩

theorem Search.first {f : Value} {sts₀ : List Stage} (h : Search sts₀ xs es r sts' left)
    (h₀ : sts₀ = .map f :: sts) (hf : ∀ st ∈ sts, st ≠ .map f) : xs = arguments f es ++ left := by
  induction h generalizing sts with
  | enough | finish => rfl
  | found _ hp | failed _ hp =>
      rw [(hp.first h₀ hf).1]
      rfl
  | next _ hp _ ih =>
      obtain ⟨hx, sts'', hsts, hf'⟩ := hp.first h₀ hf
      rw [arguments_append, hx]
      exact congrArg (_ :: ·) (ih hsts hf')

theorem Search.exhausts (h : Search sts xs es r sts' left) (hr : r = .ok none)
    (hsts : ∀ st ∈ sts, ¬∃ count, st = .limit count) : left = [] := by
  induction h with
  | enough h => exact absurd ⟨0, rfl⟩ (hsts _ h)
  | finish => rfl
  | found | failed => cases hr
  | next _ hp _ ih =>
      have hnext (st : Stage) : (∃ count, st.next = .limit count) ↔ ∃ count, st = .limit count := by
        cases st <;> simp [Stage.next]
      exact ih hr (hp.none_of hnext hsts).2

theorem Passes.counted {cs : List Call} {f : Value} {count : Nat} (h : Passes sts x cs r sts')
    (hsts : sts = [.map f, .limit count]) :
    r ≠ .ok none ∧ ∀ y, r = .ok (some y) → sts' = [.map f, .limit (count - 1)] := by
  cases h with
  | through => cases hsts
  | @on sts sts' c y cs _ _ hr =>
      obtain ⟨hc, rfl⟩ := List.cons.inj hsts
      generalize hlimit : [Stage.limit count] = limit at hr
      cases hr with
      | through => cases hlimit
      | @on _ _ c' _ _ _ _ hr =>
          obtain ⟨hc', rfl⟩ := List.cons.inj hlimit
          cases hr
          exact ⟨by simp, fun _ _ => by rw [hc, ← hc']; rfl⟩
      | @dropped _ c' h | @failed _ c' _ h =>
          obtain ⟨hc', -⟩ := List.cons.inj hlimit
          cases (outcome_limit hc'.symm).symm.trans h
  | @dropped _ c h => exact absurd h (outcome_map (List.cons.inj hsts).1)
  | failed => simp

theorem Search.counted {f : Value} {count : Nat} (h : Search sts xs es r sts' left)
    (hsts : sts = [.map f, .limit count]) :
    (r = .ok none → arguments f es = [] ∧ (count = 0 ∨ xs = [])) ∧
      ∀ y, r = .ok (some y) → 0 < count ∧ (arguments f es).length = 1 ∧ sts' = [.map f, .limit (count - 1)] := by
  have hlimit : ∀ st ∈ [Stage.limit count], st ≠ .map f := by simp
  cases h with
  | enough h =>
      rw [hsts] at h
      exact ⟨fun _ => ⟨rfl, .inl (by simpa [eq_comm] using h)⟩, by simp⟩
  | finish => exact ⟨fun _ => ⟨rfl, .inr rfl⟩, by simp⟩
  | found h hp =>
      have hcount : count ≠ 0 := by
        rintro rfl
        exact h (by simp [hsts])
      refine ⟨by simp, fun y hy => ⟨Nat.pos_of_ne_zero hcount, ?_, (hp.counted hsts).2 y hy⟩⟩
      rw [(hp.first hsts hlimit).1, List.length_singleton]
  | failed => simp
  | next _ hp => exact absurd rfl (hp.counted hsts).1

theorem Gathers.counted {f : Value} {count : Nat} (h : Gathers [.map f, .limit count] xs es ys sts left) :
    sts = [.map f, .limit (count - ys.length)] ∧ ys.length ≤ count ∧ xs = arguments f es ++ left ∧
      (arguments f es).length = ys.length := by
  induction h with
  | nil => exact ⟨rfl, Nat.zero_le _, rfl, rfl⟩
  | @snoc sts' sts'' left left' ys es es' y h hs ih =>
      obtain ⟨hsts, hle, hxs, hlen⟩ := ih
      obtain ⟨hpos, hone, hsts'⟩ := (hs.counted hsts).2 y rfl
      have hleft := hs.first hsts (by simp)
      refine ⟨?_, ?_, ?_, ?_⟩
      · rw [hsts', List.length_append, List.length_singleton, Nat.sub_sub]
      · rw [List.length_append, List.length_singleton]
        omega
      · rw [arguments_append, List.append_assoc, ← hleft]
        exact hxs
      · rw [arguments_append, List.length_append, List.length_append, hlen, hone, List.length_singleton]

theorem Collects.taken {f : Value} {count : Nat} (h : Collects [.map f, .limit count] xs es (.ok ys)) :
    arguments f es = xs.take count := by
  cases h with
  | @all sts' sts'' left left' ys es es' h hs =>
      obtain ⟨hsts, hle, hxs, hlen⟩ := h.counted
      obtain ⟨hnone, hend⟩ := (hs.counted hsts).1 rfl
      rw [arguments_append, hnone, List.append_nil, hxs]
      rcases hend with hcount | rfl
      · exact (List.take_left' (by omega)).symm
      · rw [List.append_nil, List.take_of_length_le (by omega)]

structure Silent (s t : Session) : Prop where
  stays : Stays s t
  untold : Untold s t

/-- Between two sessions, the events happen one after the other and nothing else does that is recorded; the source
is pulled for each element that is read. If `plain` holds, the source records nothing itself. -/
inductive Performs (plain : Prop) : Session → Walk → List Event → Session → Walk → Prop
  | done {s t : Session} {w : Walk} (h : Silent s t) : Performs plain s w [] t w
  | read {s r u t : Session} {w w' w'' : Walk} {x : Value} {es : List Event} {k : Nat} (h : Silent s r)
      (hp : r.exec (pull k w) = (.ok (.give x w'), u)) (hm : plain → Untold r u)
      (hr : Performs plain u w' es t w'') : Performs plain s w (.read x :: es) t w''
  | finish {s r u t : Session} {w w' : Walk} {es : List Event} {k : Nat} (h : Silent s r)
      (hp : r.exec (pull k w) = (.ok .finish, u)) (hm : plain → Untold r u)
      (hr : Performs plain u .ended es t w') : Performs plain s w (.finish :: es) t w'
  | call {s t : Session} {w w' : Walk} {c : Call} {es : List Event} (h : Silent s c.before)
      (hr : Performs plain c.after w es t w') : Performs plain s w (.call c :: es) t w'

variable {plain : Prop} {s t u : Session} {w w' w'' : Walk}

theorem Silent.refl (s : Session) : Silent s s := ⟨.refl s, rfl⟩

theorem Silent.trans (h : Silent s t) (h' : Silent t u) : Silent s u :=
  ⟨h.stays.trans h'.stays, Eq.trans h'.untold h.untold⟩

theorem exec_close (w : Walk) (s : Session) : ∃ t, s.exec w.close = (.ok (), t) ∧ Silent s t := by
  obtain ⟨_, t, ht⟩ := answers_close w s
  have hdrift : Within (Drift true none) w.close := within_close w
  have hsilent : Silent s (s.exec w.close).2 := ⟨(hdrift s).stays, untold_close w s⟩
  rw [ht] at hsilent
  exact ⟨t, ht, hsilent⟩

theorem exec_failWith (e : Fault) (w : Walk) (s : Session) :
    ∃ t, s.exec (Pulled.failWith e w) = (.ok (.error e, .ended), t) ∧ Silent s t := by
  obtain ⟨t, ht, hsilent⟩ := exec_close w s
  exact ⟨t, (exec_bind_ok ht _).trans rfl, hsilent⟩

theorem Performs.after_silent (h : Performs plain t w es u w') (hst : Silent s t) :
    Performs plain s w es u w' := by
  cases h with
  | done h => exact .done (hst.trans h)
  | read h hp hm hr => exact .read (hst.trans h) hp hm hr
  | finish h hp hm hr => exact .finish (hst.trans h) hp hm hr
  | call h hr => exact .call (hst.trans h) hr

theorem Performs.append (h : Performs plain s w es t w') (h' : Performs plain t w' es' u w'') :
    Performs plain s w (es ++ es') u w'' := by
  induction h with
  | done h => exact h'.after_silent h
  | read h hp hm _ ih => exact .read h hp hm (ih h')
  | finish h hp hm _ ih => exact .finish h hp hm (ih h')
  | call h _ ih => exact .call h (ih h')

theorem Performs.silent (h : Performs plain s w es t w') (htu : Silent t u) : Performs plain s w es u w' := by
  rw [← List.append_nil es]
  exact h.append (.done htu)

theorem Performs.snoc (h : Performs plain s w es c.before w') :
    Performs plain s w (es ++ [.call c]) c.after w' :=
  h.append (.call (.refl _) (.done (.refl _)))

theorem exec_holds_snd (s : Session) (p x : Value) : (s.exec (holds p [x])).2 = (s.exec (apply p [x])).2 := by
  rw [holds, exec_bind]
  rcases s.exec (apply p [x]) with ⟨_ | _, t⟩ <;> rfl

theorem within_run {R : Session → Session → Prop} [CoversCalls R] (st : Stage) (x : Value) :
    Within R (st.run x) := by
  fun_cases Stage.run st x <;> grind

theorem of_run {R : Session → Session → Prop} [CoversCalls R] (h : s.exec (st.run x) = (r, t)) : R s t := by
  have hrun : Within R (st.run x) := within_run st x
  have hst := hrun s
  rwa [h] at hst

theorem drift_pull {k : Nat} {p : Except Fault Pulled} (h : s.exec (pull k w) = (p, t)) :
    Drift true none s t := by
  have hpull : Within (Drift true none) (pull k w) := (enumerationWithin k).pull w
  have hst := hpull s
  rwa [h] at hst

theorem Call.trace_after (c : Call) (hs : 0 < c.before.steps)
    (hf : ∀ f, c.stage.function? = some f → c.before.Unary f) :
    c.after.trace = c.before.trace ++ c.told := by
  obtain ⟨s, st, x⟩ := c
  cases st with
  | map f =>
      rw [after, Stage.run, exec_map]
      exact trace_apply (hf f rfl) hs x
  | keep p =>
      rw [after, Stage.run, exec_map]
      exact (congrArg Session.trace (exec_holds_snd s p x)).trans (trace_apply (hf p rfl) hs x)
  | skip count => cases count <;> exact (List.append_nil _).symm
  | limit | equal | any => exact (List.append_nil _).symm

theorem Performs.trace (h : Performs plain s w es t w') (hp : plain) (hs : 0 < s.steps)
    (hf : ∀ c ∈ calls es, ∀ f, c.stage.function? = some f → s.Unary f) :
    t.trace = s.trace ++ (calls es).flatMap Call.told := by
  induction h with
  | done h => exact Eq.trans h.untold (List.append_nil _).symm
  | read h hpull hm _ ih =>
      have hsu := h.stays.trans (drift_pull hpull).stays
      rw [ih (hsu.steps ▸ hs) fun c hc f hcf => (hf c hc f hcf).stays hsu, hm hp, h.untold]
      rfl
  | finish h hpull hm _ ih =>
      have hsu := h.stays.trans (drift_pull hpull).stays
      rw [ih (hsu.steps ▸ hs) fun c hc f hcf => (hf c hc f hcf).stays hsu, hm hp, h.untold]
      rfl
  | @call s t w w' c es h _ ih =>
      have hrun : Within (Drift true none) (c.stage.run c.value) := within_run c.stage c.value
      have hst := h.stays.trans (hrun c.before).stays
      have hcalls : calls (.call c :: es) = c :: calls es := rfl
      rw [hcalls] at hf ⊢
      have hc := c.trace_after (h.stays.steps ▸ hs) fun f hcf => (hf c (by simp) f hcf).stays h.stays
      rw [ih (hst.steps ▸ hs) fun c' hc' f hcf => (hf c' (by simp [hc']) f hcf).stays hst]
      rw [hc, h.untold, List.flatMap_cons, List.append_assoc]

end BaseLib.Demand
