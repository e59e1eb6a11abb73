import BaseLib.Proofs.Regex.Escape

namespace BaseLib.Regex.Reader

variable {α β : Type} {st st' A E A' E' : State} {d e u v : List Char}

theorem run_bind_eq_ok {f : Reading α} {g : α → Reading β} {y : β} :
    (f >>= g).run st = .ok (y, st') ↔
      ∃ x st₁, f.run st = .ok (x, st₁) ∧ (g x).run st₁ = .ok (y, st') := by
  rw [StateT.run_bind]
  cases f.run st with
  | error r =>
      constructor
      · intro h
        cases h
      · rintro ⟨_, _, h, -⟩
        cases h
  | ok p =>
      constructor
      · intro h
        exact ⟨p.1, p.2, rfl, h⟩
      · rintro ⟨x, st₁, h, hg⟩
        cases h
        exact hg

def Fails (f : Reading α) (st : State) : Prop := ∀ x st', f.run st ≠ .ok (x, st')

theorem Fails.bind {f : Reading α} (h : Fails f st) (g : α → Reading β) : Fails (f >>= g) st := by
  intro y st' hrun
  obtain ⟨x, st₁, hf, -⟩ := run_bind_eq_ok.mp hrun
  exact h x st₁ hf

theorem Fails.bind_right {f : Reading α} {g : α → Reading β} (h : ∀ x st', Fails (g x) st') :
    Fails (f >>= g) st := by
  intro y st' hrun
  obtain ⟨x, st₁, -, hg⟩ := run_bind_eq_ok.mp hrun
  exact h x st₁ y st' hg

theorem fails_throw (r : Refusal) (st : State) : Fails (throw r : Reading α) st := by
  intro x st' h
  cases h

theorem fails_refuse (f : Flaw) (back : Nat) (st : State) : Fails (refuse f back : Reading α) st := by
  intro x st' h
  cases h

def tokenOf : List Char → Option Token
  | [] => none
  | '\\' :: c :: _ => some (.escaped c)
  | c :: _ => some (.plain c)

theorem run_peek (st : State) : peek.run st = .ok (tokenOf st.rest, st) := by
  rw [peek, run_bind_ok (run_get st)]
  generalize st.rest = u
  fun_cases tokenOf u with
  | case1 => rfl
  | case2 c u => rfl
  | case3 c u hc =>
      split
      · cases ‹c :: u = []›
      · rename_i h
        exact (hc _ _ (List.cons.inj h).1 (List.cons.inj h).2).elim
      · rename_i h
        rw [← (List.cons.inj h).1]
        rfl

theorem next_eq_ok {t : Option Token} :
    next.run st = .ok (t, st') ↔
      (tokenOf st.rest = none ∧ t = none ∧ st' = st) ∨
        ∃ t₁, tokenOf st.rest = some t₁ ∧ t = some t₁ ∧ (st.past t₁.size).rest ≠ ['\\'] ∧
          st' = st.past t₁.size := by
  have hpeek := run_peek st
  cases htoken : tokenOf st.rest with
  | none =>
      rw [htoken] at hpeek
      rw [next, run_bind_ok hpeek]
      constructor
      · intro h
        cases h
        exact .inl ⟨rfl, rfl, rfl⟩
      · rintro (⟨-, rfl, rfl⟩ | ⟨_, h, -⟩)
        · rfl
        · cases h
  | some t₁ =>
      rw [htoken] at hpeek
      by_cases hend : (st.past t₁.size).rest = ['\\']
      · have hcheck : checkEnd (st.past t₁.size) =
            .error (.flaw .trailingBackslash (some (st.past t₁.size).position)) := if_pos hend
        have hnext : next.run st = .error (.flaw .trailingBackslash (some (st.past t₁.size).position)) := by
          rw [next, run_bind_ok hpeek]
          change StateT.run (do
            liftM (checkEnd (st.past t₁.size))
            (pure (some t₁) : Reading (Option Token))) (st.past t₁.size) = _
          rw [hcheck]
          rfl
        rw [hnext]
        constructor
        · intro h
          cases h
        · rintro (⟨h, -⟩ | ⟨_, h, -, hne, -⟩)
          · cases h
          · cases h
            exact absurd hend hne
      · rw [run_next hpeek hend]
        constructor
        · intro h
          cases h
          exact .inr ⟨t₁, rfl, rfl, hend, rfl⟩
        · rintro (⟨h, -⟩ | ⟨_, h, rfl, -, rfl⟩)
          · cases h
          · cases h
            rfl

theorem next_some {t : Token} {x : Option Token} (h : tokenOf st.rest = some t)
    (hnext : next.run st = .ok (x, st')) :
    x = some t ∧ st' = st.past t.size ∧ (st.past t.size).rest ≠ ['\\'] := by
  rcases next_eq_ok.mp hnext with ⟨hnone, -⟩ | ⟨t₁, ht₁, rfl, hend, rfl⟩
  · rw [h] at hnone
    cases hnone
  · rw [h] at ht₁
    cases ht₁
    exact ⟨rfl, rfl, hend⟩

theorem accept_true {c : Char} (h : tokenOf st.rest = some (.plain c)) {x : Bool}
    (hrun : (accept c).run st = .ok (x, st')) :
    x = true ∧ next.run st = .ok (some (.plain c), st') := by
  rw [accept, run_bind_ok (run_peek st), if_pos h] at hrun
  obtain ⟨t, st₁, hnext, hrun⟩ := run_bind_eq_ok.mp hrun
  cases hrun
  obtain ⟨rfl, rfl, -⟩ := next_some h hnext
  exact ⟨rfl, hnext⟩

theorem accept_false {c : Char} (h : tokenOf st.rest ≠ some (.plain c)) :
    (accept c).run st = .ok (false, st) := by
  rw [accept, run_bind_ok (run_peek st), if_neg h]
  rfl

/-- Two texts begin with the same tokens, up to where they have `d` and `e` left. Before a `\k` in
which the common part ends there is a closing parenthesis. -/
inductive Along (d e : List Char) : List Char → List Char → Prop
  | here : Along d e d e
  | token {t : Token} {u v : List Char} (hu : tokenOf u = some t) (hv : tokenOf v = some t)
    (last : tokenOf d = some (.escaped 'k') → u.drop t.size = d → t = .plain ')')
    (h : Along d e (u.drop t.size) (v.drop t.size)) : Along d e u v

theorem tokenOf_size {t : Token} (h : tokenOf u = some t) : 0 < t.size ∧ t.size ≤ u.length := by
  rw [tokenOf.eq_def] at h
  split at h
  · cases h
  · cases h
    simp [Token.size, Token.text]
  · cases h
    simp [Token.size, Token.text]

theorem Along.length_le (h : Along d e u v) : d.length ≤ u.length := by
  induction h with
  | here => exact Nat.le_refl _
  | token hu _ _ _ ih =>
      rw [List.length_drop] at ih
      omega

theorem Along.of_left (h : Along d e d v) : v = e := by
  cases h with
  | here => rfl
  | token hu _ _ h =>
      have hlen := h.length_le
      have hsize := tokenOf_size hu
      rw [List.length_drop] at hlen
      omega

theorem Along.cases (h : Along d e u v) :
    (u = d ∧ v = e) ∨
      ∃ t, tokenOf u = some t ∧ tokenOf v = some t ∧
        (tokenOf d = some (.escaped 'k') → u.drop t.size = d → t = .plain ')') ∧
        Along d e (u.drop t.size) (v.drop t.size) := by
  cases h with
  | here => exact .inl ⟨rfl, rfl⟩
  | token hu hv last h => exact .inr ⟨_, hu, hv, last, h⟩

/-- States that differ in the rest of the pattern and in what only errors depend on. -/
structure Beside (d e : List Char) (A E : State) : Prop where
  along : Along d e A.rest E.rest
  flags : A.flags = E.flags
  characters : A.characters = E.characters
  groups : A.groups = E.groups
  names : A.names = E.names
  closed : A.closed = E.closed
  lookbehind : A.lookbehind = E.lookbehind
  /-- No token ends just before a last single backslash. -/
  intact : d = ['\\'] → A.rest ≠ d

/-- The tokens at which the common part of two patterns can end. None of them begins or goes on with
anything that is read without looking at groups. -/
def fences : List (Option Token) :=
  [none, some (.plain '('), some (.plain '\\'), some (.escaped 'k'), some (.plain ')')]

structure Fence (d e : List Char) : Prop where
  left : tokenOf d ∈ fences ∧ tokenOf d ≠ some (.plain ')')
  right : tokenOf e ∈ fences
  bracket : ']' ∉ d
  angle : '>' ∉ d
  paren : ')' ∈ d → tokenOf d = some (.escaped 'k')

/-- The two readings, where both succeed, have the same result and move forward by the same tokens. -/
structure Agree (d e : List Char) (f g : Reading α) (A E : State) : Prop where
  of_runs : ∀ {x y : α} {A' E' : State}, f.run A = .ok (x, A') → g.run E = .ok (y, E') →
    x = y ∧ (∃ n, A' = A.past n ∧ E' = E.past n) ∧ Beside d e A' E'

theorem Beside.past (h : Beside d e A E) {n : Nat} (along : Along d e (A.past n).rest (E.past n).rest)
    (intact : (A.past n).rest ≠ ['\\']) : Beside d e (A.past n) (E.past n) :=
  ⟨along, h.flags, h.characters, h.groups, h.names, h.closed, h.lookbehind, fun hd => hd ▸ intact⟩

theorem Beside.next_ok (h : Beside d e A E) (hd : A.rest ≠ d) {x y : Option Token}
    (hA : next.run A = .ok (x, A')) (hE : next.run E = .ok (y, E')) :
    ∃ t, tokenOf A.rest = some t ∧ x = some t ∧ y = some t ∧
      A' = A.past t.size ∧ E' = E.past t.size ∧
      (tokenOf d = some (.escaped 'k') → (A.past t.size).rest = d → t = .plain ')') ∧
      Beside d e (A.past t.size) (E.past t.size) := by
  obtain ⟨t, htA, htE, last, along⟩ := h.along.cases.resolve_left fun hhere => hd hhere.1
  obtain ⟨rfl, rfl, hend⟩ := next_some htA hA
  obtain ⟨rfl, rfl, -⟩ := next_some htE hE
  exact ⟨t, htA, rfl, rfl, rfl, rfl, last, h.past along hend⟩

namespace Agree

variable {f g : Reading α} {F G : α → Reading β}

theorem of_fails (h : Fails f A) : Agree d e f g A E :=
  ⟨fun hf _ => absurd hf (h _ _)⟩

theorem of_fails_right (h : Fails g E) : Agree d e f g A E :=
  ⟨fun _ hg => absurd hg (h _ _)⟩

theorem pure (h : Beside d e A E) (x : α) : Agree d e (pure x : Reading α) (pure x) A E := by
  constructor
  intro x y A' E' hf hg
  cases hf
  cases hg
  exact ⟨rfl, ⟨0, rfl, rfl⟩, h⟩

theorem bind (hfg : Agree d e f g A E)
    (hFG : ∀ x n, Beside d e (A.past n) (E.past n) → Agree d e (F x) (G x) (A.past n) (E.past n)) :
    Agree d e (f >>= F) (g >>= G) A E := by
  constructor
  intro x y A' E' hf hg
  obtain ⟨x₁, A₁, hf₁, hf₂⟩ := run_bind_eq_ok.mp hf
  obtain ⟨y₁, E₁, hg₁, hg₂⟩ := run_bind_eq_ok.mp hg
  obtain ⟨rfl, ⟨n, rfl, rfl⟩, h⟩ := hfg.of_runs hf₁ hg₁
  obtain ⟨hxy, ⟨m, rfl, rfl⟩, h'⟩ := (hFG x₁ n h).of_runs hf₂ hg₂
  exact ⟨hxy, ⟨n + m, past_past _ n m, past_past _ n m⟩, h'⟩

theorem get {F G : State → Reading β} (h : Agree d e (F A) (G E) A E) :
    Agree d e (get >>= F) (get >>= G) A E := by
  constructor
  intro x y A' E' hf hg
  rw [run_bind_ok (run_get A)] at hf
  rw [run_bind_ok (run_get E)] at hg
  exact h.of_runs hf hg

theorem ite {c : Prop} [Decidable c] {f' g' : Reading α} (h : c → Agree d e f g A E)
    (h' : ¬c → Agree d e f' g' A E) : Agree d e (if c then f else f') (if c then g else g') A E := by
  by_cases hc : c
  · rw [if_pos hc, if_pos hc]
    exact h hc
  · rw [if_neg hc, if_neg hc]
    exact h' hc

theorem next {F G : Option Token → Reading β} (h : Beside d e A E)
    (same : ∀ t, tokenOf A.rest = some t → A.rest ≠ d →
      (tokenOf d = some (.escaped 'k') → (A.past t.size).rest = d → t = .plain ')') →
      Beside d e (A.past t.size) (E.past t.size) →
        Agree d e (F (some t)) (G (some t)) (A.past t.size) (E.past t.size))
    (fence : A.rest = d → Agree d e (next >>= F) (next >>= G) A E) :
    Agree d e (next >>= F) (next >>= G) A E := by
  constructor
  intro x y A' E' hf hg
  by_cases hd : A.rest = d
  · exact (fence hd).of_runs hf hg
  · obtain ⟨x₁, A₁, hf₁, hf₂⟩ := run_bind_eq_ok.mp hf
    obtain ⟨y₁, E₁, hg₁, hg₂⟩ := run_bind_eq_ok.mp hg
    obtain ⟨t, ht, rfl, rfl, rfl, rfl, last, h'⟩ := h.next_ok hd hf₁ hg₁
    obtain ⟨hxy, ⟨n, rfl, rfl⟩, h''⟩ := (same t ht hd last h').of_runs hf₂ hg₂
    exact ⟨hxy, ⟨t.size + n, past_past _ _ _, past_past _ _ _⟩, h''⟩

theorem advance (h : Beside d e A E) (hd : A.rest ≠ d) : Agree d e Reader.next Reader.next A E := by
  rw [← bind_pure Reader.next]
  exact next h (fun t _ _ _ h' => Agree.pure h' _) fun hA => absurd hA hd

theorem peek {F G : Option Token → Reading β} (h : Beside d e A E)
    (same : ∀ t, tokenOf A.rest = some t → A.rest ≠ d → Agree d e (F (some t)) (G (some t)) A E)
    (fence : A.rest = d → E.rest = e → Agree d e (F (tokenOf d)) (G (tokenOf e)) A E) :
    Agree d e (peek >>= F) (peek >>= G) A E := by
  constructor
  intro x y A' E' hf hg
  rw [run_bind_ok (run_peek A)] at hf
  rw [run_bind_ok (run_peek E)] at hg
  by_cases hd : A.rest = d
  · have hE : E.rest = e := (hd ▸ h.along).of_left
    rw [hd] at hf
    rw [hE] at hg
    exact (fence hd hE).of_runs hf hg
  · obtain ⟨t, hA, hE, -, -⟩ := h.along.cases.resolve_left fun hhere => hd hhere.1
    rw [hA] at hf
    rw [hE] at hg
    exact (same t hA hd).of_runs hf hg

theorem test {c : Char} (hc : some (.plain c) ∉ fences) (hd : Fence d e) (h : Beside d e A E)
    {f f' g g' : Reading α} (hthen : A.rest ≠ d → Agree d e f g A E) (helse : Agree d e f' g' A E) :
    Agree d e (Reader.peek >>= fun t => if t = some (.plain c) then f else f')
      (Reader.peek >>= fun t => if t = some (.plain c) then g else g') A E := by
  refine peek h (fun t _ hne => ite (fun _ => hthen hne) fun _ => helse) fun _ _ => ?_
  have hleft : tokenOf d ≠ some (.plain c) := fun heq => hc (heq ▸ hd.left.1)
  have hright : tokenOf e ≠ some (.plain c) := fun heq => hc (heq ▸ hd.right)
  rw [if_neg hleft, if_neg hright]
  exact helse

/-- Looking at a token to decide between readings, where at the end of the common part there is only
one. -/
theorem peek_or {F : Option Token → Reading β} {f : Reading β} (hd : Fence d e) (h : Beside d e A E)
    (same : ∀ t, tokenOf A.rest = some t → A.rest ≠ d → Agree d e (F (some t)) (F (some t)) A E)
    (fence : ∀ t ∈ fences, F t = f) (hf : Agree d e f f A E) :
    Agree d e (Reader.peek >>= F) (Reader.peek >>= F) A E := by
  refine peek h same fun _ _ => ?_
  rw [fence _ hd.left.1, fence _ hd.right]
  exact hf

end Agree

/-- What a reading does depends only on the tokens that it takes and the groups so far. -/
def Steady (f : Reading α) : Prop :=
  ∀ {d e : List Char} {A E : State}, Fence d e → Beside d e A E → Agree d e f f A E

section

variable {f : Reading α} {F : α → Reading β}

theorem Steady.bind (hf : Steady f) (hF : ∀ x, Steady (F x)) : Steady (f >>= F) :=
  fun hd h => Agree.bind (hf hd h) fun x _ h' => hF x hd h'

theorem Steady.pure (x : α) : Steady (pure x : Reading α) := fun _ h => Agree.pure h x

theorem Steady.of_fails (h : ∀ st, Fails f st) : Steady f := fun _ _ => Agree.of_fails (h _)

theorem steady_refuse (flaw : Flaw) (back : Nat) : Steady (refuse flaw back : Reading α) :=
  Steady.of_fails (fails_refuse flaw back)

theorem Steady.ite {c : Prop} [Decidable c] {g : Reading α} (hf : c → Steady f) (hg : ¬c → Steady g) :
    Steady (if c then f else g) :=
  fun hd h => Agree.ite (fun hc => hf hc hd h) fun hc => hg hc hd h

end

theorem Along.self (u : List Char) : Along [] [] u u := by
  induction hn : u.length using Nat.strong_induction_on generalizing u with
  | _ n ih =>
      cases htoken : tokenOf u with
      | none =>
          rw [tokenOf.eq_def] at htoken
          split at htoken
          · exact .here
          · cases htoken
          · cases htoken
      | some t =>
          have hsize := tokenOf_size htoken
          refine .token htoken htoken (fun h => ?_) (ih _ ?_ _ rfl)
          · cases h
          · rw [List.length_drop]
            omega

def Torn (u : List Char) : Prop := Along ['\\'] ['\\'] u u ∧ u ≠ ['\\']

theorem fence_nil : Fence [] [] where
  left := by simp [tokenOf, fences]
  right := by simp [tokenOf, fences]
  bracket := by simp
  angle := by simp
  paren := by simp

theorem fence_backslash : Fence ['\\'] ['\\'] where
  left := by simp [tokenOf, fences]
  right := by simp [tokenOf, fences]
  bracket := by simp
  angle := by simp
  paren := by simp

section

variable {f : Reading α} {F : α → Reading β} {x : α} {c : Char}

theorem Steady.forward (hf : Steady f) (h : f.run st = .ok (x, st')) : ∃ n, st' = st.past n := by
  have hself : Beside [] [] st st := ⟨Along.self st.rest, rfl, rfl, rfl, rfl, rfl, rfl, by simp⟩
  obtain ⟨-, ⟨n, hn, -⟩, -⟩ := (hf fence_nil hself).of_runs h h
  exact ⟨n, hn⟩

theorem Steady.torn (hf : Steady f) (h : f.run st = .ok (x, st')) (ht : Torn st.rest) :
    Torn st'.rest := by
  have hself : Beside ['\\'] ['\\'] st st := ⟨ht.1, rfl, rfl, rfl, rfl, rfl, rfl, fun _ => ht.2⟩
  obtain ⟨-, -, h'⟩ := (hf fence_backslash hself).of_runs h h
  exact ⟨h'.along, h'.intact rfl⟩

theorem Fails.bind_steady (hf : Steady f) (h : c ∉ st.rest)
    (hF : ∀ x n, c ∉ (st.past n).rest → Fails (F x) (st.past n)) : Fails (f >>= F) st := by
  intro y st' hrun
  obtain ⟨x, st₁, hfirst, hsecond⟩ := run_bind_eq_ok.mp hrun
  obtain ⟨n, rfl⟩ := hf.forward hfirst
  exact hF x n (fun hc => h (List.mem_of_mem_drop hc)) y st' hsecond

end

theorem mem_of_tokenOf {c : Char} (h : tokenOf u = some (.plain c)) : c ∈ u := by
  rw [tokenOf.eq_def] at h
  split at h
  · cases h
  · cases h
  · cases h
    exact List.mem_cons_self

theorem Fails.next_without {F : Option Token → Reading β} {c : Char} (h : c ∉ st.rest)
    (hnone : Fails (F none) st)
    (hsome : ∀ t n, t ≠ .plain c → c ∉ (st.past n).rest → Fails (F (some t)) (st.past n)) :
    Fails (next >>= F) st := by
  intro y st' hrun
  obtain ⟨x, st₁, hfirst, hsecond⟩ := run_bind_eq_ok.mp hrun
  rcases next_eq_ok.mp hfirst with ⟨-, rfl, rfl⟩ | ⟨t, ht, rfl, -, rfl⟩
  · exact hnone y st' hsecond
  · refine hsome t t.size ?_ (fun hc => h (List.mem_of_mem_drop hc)) y st' hsecond
    rintro rfl
    exact h (mem_of_tokenOf ht)

end BaseLib.Regex.Reader
