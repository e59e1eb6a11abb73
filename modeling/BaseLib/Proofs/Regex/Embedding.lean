import BaseLib.Proofs.Regex.Numbering

namespace BaseLib.Regex.Reader

variable {α β : Type} {st st' A E A' E' : State} {d e u v : List Char}

structure Parting (d e : List Char) : Prop extends Fence d e where
  line : '\n' ∉ e
  ends : tokenOf d = none → tokenOf e = some (.plain ')')
  opens : tokenOf d = some (.plain '(') → d = ['(', '?', '<']
  intact : tokenOf d ≠ some (.plain '\\')

/-- The two readings, where both succeed, have the same result and leave states beside each other, with
the flags as before. -/
structure Same (d e : List Char) (f g : Reading α) (A E : State) : Prop where
  of_runs : ∀ {x y : α} {A' E' : State}, f.run A = .ok (x, A') → g.run E = .ok (y, E') →
    x = y ∧ Beside d e A' E' ∧ E'.flags = E.flags

theorem Agree.same {f g : Reading α} (h : Agree d e f g A E) : Same d e f g A E := by
  constructor
  intro x y A' E' hf hg
  obtain ⟨hxy, ⟨n, -, rfl⟩, h'⟩ := h.of_runs hf hg
  exact ⟨hxy, h', rfl⟩

namespace Same

variable {f g : Reading α} {F G : α → Reading β}

theorem of_fails (h : Fails f A) : Same d e f g A E := (Agree.of_fails h).same

theorem of_fails_right (h : Fails g E) : Same d e f g A E := (Agree.of_fails_right h).same

theorem pure (h : Beside d e A E) (x : α) : Same d e (pure x : Reading α) (pure x) A E :=
  (Agree.pure h x).same

theorem bind (hfg : Same d e f g A E)
    (hFG : ∀ x A' E', Beside d e A' E' → Same d e (F x) (G x) A' E') :
    Same d e (f >>= F) (g >>= G) A E := by
  constructor
  intro x y A' E' hf hg
  obtain ⟨x₁, A₁, hf₁, hf₂⟩ := run_bind_eq_ok.mp hf
  obtain ⟨y₁, E₁, hg₁, hg₂⟩ := run_bind_eq_ok.mp hg
  obtain ⟨rfl, h, hflags⟩ := hfg.of_runs hf₁ hg₁
  rw [← hflags]
  exact (hFG x₁ A₁ E₁ h).of_runs hf₂ hg₂

theorem get {F G : State → Reading β} (h : Same d e (F A) (G E) A E) :
    Same d e (get >>= F) (get >>= G) A E := by
  constructor
  intro x y A' E' hf hg
  rw [run_bind_ok (run_get A)] at hf
  rw [run_bind_ok (run_get E)] at hg
  exact h.of_runs hf hg

theorem peek {F G : Option Token → Reading β}
    (h : Same d e (F (tokenOf A.rest)) (G (tokenOf E.rest)) A E) :
    Same d e (peek >>= F) (peek >>= G) A E := by
  constructor
  intro x y A' E' hf hg
  rw [run_bind_ok (run_peek A)] at hf
  rw [run_bind_ok (run_peek E)] at hg
  exact h.of_runs hf hg

theorem modify {φ ψ : State → State} {F G : PUnit → Reading β} (hflags : (ψ E).flags = E.flags)
    (h : Same d e (F ⟨⟩) (G ⟨⟩) (φ A) (ψ E)) : Same d e (modify φ >>= F) (modify ψ >>= G) A E := by
  constructor
  intro x y A' E' hf hg
  obtain ⟨_, _, hset, hf⟩ := run_bind_eq_ok.mp hf
  cases hset
  obtain ⟨_, _, hset, hg⟩ := run_bind_eq_ok.mp hg
  cases hset
  rw [← hflags]
  exact h.of_runs hf hg

theorem ite {c : Prop} [Decidable c] {f' g' : Reading α} (h : c → Same d e f g A E)
    (h' : ¬c → Same d e f' g' A E) : Same d e (if c then f else f') (if c then g else g') A E := by
  by_cases hc : c
  · rw [if_pos hc, if_pos hc]
    exact h hc
  · rw [if_neg hc, if_neg hc]
    exact h' hc

theorem next {F G : Option Token → Reading β} (h : Beside d e A E)
    (same : ∀ t, tokenOf A.rest = some t → A.rest ≠ d →
      (tokenOf d = some (.escaped 'k') → (A.past t.size).rest = d → t = .plain ')') →
      Beside d e (A.past t.size) (E.past t.size) →
        Same d e (F (some t)) (G (some t)) (A.past t.size) (E.past t.size))
    (fence : A.rest = d → Same d e (next >>= F) (next >>= G) A E) :
    Same d e (next >>= F) (next >>= G) A E := by
  constructor
  intro x y A' E' hf hg
  by_cases hd : A.rest = d
  · exact (fence hd).of_runs hf hg
  · obtain ⟨x₁, A₁, hf₁, hf₂⟩ := run_bind_eq_ok.mp hf
    obtain ⟨y₁, E₁, hg₁, hg₂⟩ := run_bind_eq_ok.mp hg
    obtain ⟨t, ht, rfl, rfl, rfl, rfl, last, h'⟩ := h.next_ok hd hf₁ hg₁
    exact (same t ht hd last h').of_runs hf₂ hg₂

end Same

def Inside (d : List Char) (A : State) : Prop := tokenOf d = some (.escaped 'k') → A.rest ≠ d

theorem Inside.ending (h : Inside d A) (hd : Fence d e) : Ending ')' d A := by
  by_cases hc : ')' ∈ d
  · exact .inr ⟨rfl, h (hd.paren hc)⟩
  · exact .inl hc

theorem Inside.of_last {t : Token} (ht : t ≠ .plain ')')
    (last : tokenOf d = some (.escaped 'k') → (A.past t.size).rest = d → t = .plain ')') :
    Inside d (A.past t.size) := fun hk hrest => ht (last hk hrest)

theorem Same.accept {c : Char} (hc : some (.plain c) ∉ fences) (hd : Fence d e) (h : Beside d e A E)
    {F G : Bool → Reading β}
    (htrue : ∀ A' E', Beside d e A' E' → Inside d A' → Same d e (F true) (G true) A' E')
    (hfalse : Same d e (F false) (G false) A E) :
    Same d e (accept c >>= F) (accept c >>= G) A E := by
  constructor
  intro x y A' E' hf hg
  obtain ⟨b, A₁, hf₁, hf⟩ := run_bind_eq_ok.mp hf
  obtain ⟨b', E₁, hg₁, hg⟩ := run_bind_eq_ok.mp hg
  by_cases hA : A.rest = d
  · have hE : E.rest = e := (hA ▸ h.along).of_left
    rw [accept_false fun htoken => hc (htoken ▸ hA ▸ hd.left.1)] at hf₁
    rw [accept_false fun htoken => hc (htoken ▸ hE ▸ hd.right)] at hg₁
    cases hf₁
    cases hg₁
    exact hfalse.of_runs hf hg
  · obtain ⟨t, htA, htE, -, -⟩ := h.along.cases.resolve_left fun hhere => hA hhere.1
    by_cases ht : t = .plain c
    · subst ht
      obtain ⟨rfl, hnext⟩ := accept_true htA hf₁
      obtain ⟨rfl, hnext'⟩ := accept_true htE hg₁
      obtain ⟨t, ht, -, -, rfl, rfl, last, h'⟩ := h.next_ok hA hnext hnext'
      rw [htA] at ht
      cases ht
      refine (htrue _ _ h' (Inside.of_last (fun hclose => hc ?_) last)).of_runs hf hg
      rw [hclose]
      decide
    · rw [accept_false fun htoken => ht (Option.some.inj (htA.symm.trans htoken))] at hf₁
      rw [accept_false fun htoken => ht (Option.some.inj (htE.symm.trans htoken))] at hg₁
      cases hf₁
      cases hg₁
      exact hfalse.of_runs hf hg

/-- The same, unless the second reading has come to the end of its pattern in a comment to the end of the
line. -/
structure Body (d e : List Char) (f g : Reading α) : Prop where
  of_runs : ∀ {A E : State}, Beside d e A E → ∀ {x y : α} {A' E' : State}, f.run A = .ok (x, A') →
    g.run E = .ok (y, E') →
      (x = y ∧ Beside d e A' E' ∧ E'.flags = E.flags) ∨ (E'.rest = [] ∧ E.flags.verbose = true)

theorem close_fails_nil {start : Nat} (h : st.rest = []) : Fails (close start) st :=
  close_fails (by simp [h, tokenOf])

theorem Fails.modify {φ : State → State} {F : PUnit → Reading β} (h : Fails (F ⟨⟩) (φ st)) :
    Fails (modify φ >>= F) st := by
  intro x st' hrun
  obtain ⟨_, _, hset, hrun⟩ := run_bind_eq_ok.mp hrun
  cases hset
  exact h x st' hrun

theorem Same.under {f g : Reading Pattern} {F G : Pattern → Reading β} (hbody : Body d e f g)
    (h : Beside d e A E) {flags flags' : Flags} (hflags : flags = flags')
    (hFG : ∀ p A' E', Beside d e A' E' → Same d e (F p) (G p) A' E')
    (hspent : ∀ p E', E'.rest = [] → Fails (G p) E') :
    Same d e (under flags f >>= F) (under flags' g >>= G) A E := by
  subst hflags
  constructor
  intro x y A' E' hf hg
  obtain ⟨p, A₁, hf₁, hf⟩ := run_bind_eq_ok.mp hf
  obtain ⟨q, E₁, hg₁, hg⟩ := run_bind_eq_ok.mp hg
  obtain ⟨A₂, hread, rfl⟩ := under_ok hf₁
  obtain ⟨E₂, hread', rfl⟩ := under_ok hg₁
  have hbefore : Beside d e { A with flags := flags } { E with flags := flags } :=
    { h with flags := rfl }
  rcases hbody.of_runs hbefore hread hread' with ⟨rfl, h', -⟩ | ⟨hrest, -⟩
  · have hafter : Beside d e { A₂ with flags := A.flags } { E₂ with flags := E.flags } :=
      { h' with flags := h.flags }
    exact (hFG p _ _ hafter).of_runs hf hg
  · exact absurd hg (hspent q { E₂ with flags := E.flags } hrest y E')

theorem agree_close (hd : Fence d e) (h : Beside d e A E) (start start' : Nat) :
    Agree d e (close start) (close start') A E := by
  by_cases hA : A.rest = d
  · exact Agree.of_fails (close_fails (hA ▸ hd.left.2))
  · unfold close accept
    refine Agree.bind (f := accept ')') (g := accept ')') ?_ fun closed _ h => ?_
    · refine Agree.peek h (fun t _ _ => ?_) fun hd => absurd hd hA
      exact Agree.ite (fun _ => Agree.bind (Agree.advance h hA) fun _ _ h => Agree.pure h _)
        fun _ => Agree.pure h _
    · exact Agree.ite (fun _ => Agree.pure h _) fun _ => Agree.of_fails (fails_throw _ _)

theorem same_openGroup (h : Beside d e A E) (name : Option (List Char)) :
    Same d e (openGroup name) (openGroup name) A E := by
  constructor
  intro x y A' E' hf hg
  obtain ⟨rfl, -, rfl⟩ := openGroup_ok hf
  obtain ⟨rfl, -, rfl⟩ := openGroup_ok hg
  refine ⟨h.groups, ⟨h.along, h.flags, h.characters, ?_, ?_, h.closed, h.lookbehind, h.intact⟩, rfl⟩
  · exact congrArg (· + 1) h.groups
  · simp only [h.groups, h.names]

theorem same_closeGroup (h : Beside d e A E) (group : Nat) (p : Pattern) :
    Same d e (closeGroup group p) (closeGroup group p) A E := by
  constructor
  intro x y A' E' hf hg
  cases hf
  cases hg
  have hwidths : widths A = widths E := by
    unfold widths
    rw [h.closed]
  refine ⟨rfl, { h with closed := ?_ }, rfl⟩
  dsimp only
  rw [hwidths, h.closed]

theorem same_capturing {f g : Reading Pattern} (hd : Fence d e) (hbody : Body d e f g)
    (h : Beside d e A E) (start start' : Nat) (name : Option (List Char)) :
    Same d e (capturing f start name) (capturing g start' name) A E := by
  unfold capturing
  refine Same.bind (same_openGroup h name) fun group A' E' h => Same.get ?_
  refine Same.under hbody h h.flags (fun p A' E' h => ?_) fun p E' hE => (close_fails_nil hE).bind _
  refine Same.bind (agree_close hd h start start').same fun _ A' E' h => ?_
  exact Same.bind (same_closeGroup h group p) fun _ A' E' h => Same.pure h _

theorem same_namedForm {f g : Reading Pattern} (hd : Fence d e) (hbody : Body d e f g)
    (h : Beside d e A E) (start start' : Nat) :
    Same d e (namedForm f start) (namedForm g start') A E := by
  rw [namedForm_eq, namedForm_eq]
  refine Same.accept (by decide) hd h (fun A E h _ => ?_) ?_
  · refine Same.bind (agree_takeName hd h (.inl hd.angle) _).same fun name A E h => ?_
    refine Same.bind (steady_checkName name hd h).same fun _ A E h => ?_
    exact same_capturing hd hbody h start start' _
  · refine Same.accept (by decide) hd h (fun A E h hin => ?_) ?_
    · exact (agree_namedReference hd h (hin.ending hd)).same
    · refine Same.of_fails (Fails.bind_right fun t A => ?_)
      split
      · exact fails_refuse _ _ _
      · exact fails_refuse _ _ _

theorem same_lookbehind (h : Beside d e A E) (negated : Bool) (p : Pattern) :
    Same d e (lookbehind negated p) (lookbehind negated p) A E := by
  have hwidths : widths A = widths E := by
    unfold widths
    rw [h.closed]
  unfold lookbehind
  refine Same.get ?_
  rw [hwidths]
  refine Same.modify rfl (Same.pure ?_ _)
  exact ⟨h.along, h.flags, h.characters, h.groups, h.names, h.closed, h.lookbehind, h.intact⟩

theorem same_lookaround {f g : Reading Pattern} (hd : Fence d e) (hbody : Body d e f g)
    (h : Beside d e A E) (start start' : Nat) (isBehind negated : Bool) :
    Same d e (lookaround f start isBehind negated) (lookaround g start' isBehind negated) A E := by
  unfold lookaround
  refine Same.get ?_
  cases isBehind with
  | false =>
      dsimp only
      rw [if_neg Bool.false_ne_true, if_neg Bool.false_ne_true]
      refine Same.get ?_
      refine Same.under hbody h h.flags (fun p A E h => ?_) fun p E hE => ?_
      · rw [if_neg Bool.false_ne_true, if_neg Bool.false_ne_true]
        exact Same.bind (agree_close hd h start start').same fun _ A E h => Same.pure h _
      · rw [if_neg Bool.false_ne_true]
        exact (close_fails_nil hE).bind _
  | true =>
      dsimp only
      rw [if_pos rfl, if_pos rfl]
      refine Same.modify rfl (Same.get ?_)
      have hbefore : Beside d e { A with lookbehind := A.lookbehind.or (some A.groups) }
          { E with lookbehind := E.lookbehind.or (some E.groups) } := by
        refine { h with lookbehind := ?_ }
        rw [h.lookbehind, h.groups]
      have hflags := h.flags
      have houter := h.lookbehind
      refine Same.under hbody hbefore hflags (fun p A E h => ?_) fun p E hE => ?_
      · rw [if_pos rfl, if_pos rfl]
        refine Same.modify rfl ?_
        have hafter {outer outer'} (houter : outer = outer') :
            Beside d e { A with lookbehind := outer } { E with lookbehind := outer' } :=
          { h with lookbehind := houter }
        exact Same.bind (agree_close hd (hafter houter) start start').same fun _ A E h =>
          same_lookbehind h negated p
      · rw [if_pos rfl]
        refine Fails.modify (Fails.bind ?_ _)
        exact close_fails_nil hE

theorem same_conditionGroup (hd : Fence d e) (h : Beside d e A E) (hin : Inside d A) :
    Same d e conditionGroup conditionGroup A E := by
  unfold conditionGroup
  refine Same.bind (agree_takeName hd h (hin.ending hd) _).same fun name A E h => ?_
  refine Same.ite (fun _ => Same.get ?_) fun _ => ?_
  · rw [h.names]
    split
    · exact Same.pure h _
    · exact Same.of_fails (fails_refuse _ _ _)
  · split
    · exact Same.of_fails (fails_refuse _ _ _)
    · refine Same.ite (fun _ => Same.of_fails (fails_refuse _ _ _)) fun _ => Same.get ?_
      refine Same.modify (by split <;> rfl) (Same.pure ?_ _)
      split <;> split <;>
        exact ⟨h.along, h.flags, h.characters, h.groups, h.names, h.closed, h.lookbehind, h.intact⟩
    · exact Same.of_fails (fails_refuse _ _ _)

theorem same_conditional {f g : Reading Pattern} (hd : Fence d e) (hbranch : Body d e f g)
    (h : Beside d e A E) (hin : Inside d A) (start start' : Nat) :
    Same d e (conditional f start) (conditional g start') A E := by
  unfold conditional
  refine Same.bind (same_conditionGroup hd h hin) fun group A E h => ?_
  refine Same.bind (steady_checkLookbehind group hd h).same fun _ A E h => Same.get ?_
  refine Same.under hbranch h h.flags (fun yes A E h => ?_) fun yes E hE => ?_
  · refine Same.accept (by decide) hd h (fun A E h _ => Same.get ?_) ?_
    · refine Same.under hbranch h h.flags (fun no A E h => ?_) fun no E hE => ?_
      · refine Same.peek ?_
        by_cases hA : tokenOf A.rest = some (.plain '|')
        · rw [if_pos hA]
          exact Same.of_fails (fails_refuse _ _ _)
        · by_cases hE : tokenOf E.rest = some (.plain '|')
          · rw [if_pos hE]
            exact Same.of_fails_right (fails_refuse _ _ _)
          · rw [if_neg hA, if_neg hE]
            exact Same.bind (agree_close hd h start start').same fun _ A E h => Same.pure h _
      · intro x E' hrun
        rw [run_bind_ok (run_peek E), if_neg (by simp [hE, tokenOf])] at hrun
        exact (close_fails_nil hE).bind _ _ _ hrun
    · exact Same.bind (agree_close hd h start start').same fun _ A E h => Same.pure h _
  · intro x E' hrun
    rw [run_bind_ok (accept_false (by simp [hE, tokenOf]))] at hrun
    exact (close_fails_nil hE).bind _ _ _ hrun

theorem same_grouped {f g : Reading Pattern} (hd : Fence d e) (hbody : Body d e f g)
    (h : Beside d e A E) (start start' : Nat) (flags : Flags) :
    Same d e (group.grouped f start flags) (group.grouped g start' flags) A E := by
  unfold group.grouped
  refine Same.under hbody h rfl (fun p A E h => ?_) fun p E hE => (close_fails_nil hE).bind _
  exact Same.bind (agree_close hd h start start').same fun _ A E h => Same.pure h _

theorem same_inline {f g : Reading Pattern} (hd : Fence d e) (hbody : Body d e f g)
    (h : Beside d e A E) (start start' : Nat) (atStart : Bool) (on : List Char) (inl : Option Inline) :
    Same d e (group.inline f start atStart on inl) (group.inline g start' false on inl) A E := by
  unfold group.inline
  split
  · refine Same.get ?_
    rw [h.flags]
    exact Same.bind (same_grouped hd hbody h start start' _) fun p A E h => Same.pure h _
  · refine Same.of_fails_right (Fails.bind_right fun _ E => ?_)
    exact fails_throw _ _

theorem same_wrapped {f g : Reading Pattern} (h : Same d e f g A E) (wrap : Pattern → Pattern) :
    Same d e (f >>= fun p => Pure.pure (some (wrap p))) (g >>= fun p => Pure.pure (some (wrap p))) A E :=
  Same.bind h fun _ _ _ h => Same.pure h _

theorem Fails.next_past {F : Option Token → Reading β} {t : Token} (ht : tokenOf st.rest = some t)
    (h : Fails (F (some t)) (st.past t.size)) : Fails (next >>= F) st := by
  intro y st' hrun
  obtain ⟨x, st₁, hfirst, hsecond⟩ := run_bind_eq_ok.mp hrun
  obtain ⟨rfl, rfl, -⟩ := next_some ht hfirst
  exact h y st' hsecond

theorem takeName_fails {terminator : Char} (h : terminator ∉ st.rest) (what : String) :
    Fails (takeName terminator what) st := by
  intro x st' hrun
  rw [takeName, run_bind_ok (run_get st)] at hrun
  exact takeUntil_fails h x st' hrun

theorem conditional_fails {f : Reading Pattern} {start : Nat} (h : ')' ∉ st.rest) :
    Fails (conditional f start) st := by
  unfold conditional conditionGroup
  exact Fails.bind (Fails.bind (takeName_fails h _) _) _

theorem same_group {f g f' g' : Reading Pattern} (hd : Parting d e) (hbody : Body d e f g)
    (hbranch : Body d e f' g') (h : Beside d e A E) (start start' : Nat) (atStart : Bool) :
    Same d e (group f f' start atStart) (group g g' start' false) A E := by
  have hfence := hd.toFence
  unfold group
  refine Same.accept (by decide) hfence h (fun A E h _ => ?_) ?_
  · refine Same.next h (fun t _ _ last h => ?_) fun hA => Same.of_fails ?_
    · split
      · exact Same.of_fails (fails_refuse _ _ _)
      · exact same_wrapped (same_namedForm hfence hbody h start start') id
      · refine Same.get ?_
        rw [h.flags]
        exact same_wrapped (same_grouped hfence hbody h start start' _) .wrap
      · cases ‹some t = some (Token.plain '#')›
        refine Same.get (Same.bind (agree_skipComment hfence h ?_).same fun _ A E h => Same.pure h _)
        exact (Inside.of_last (by decide) last).ending hfence
      · exact same_wrapped (same_lookaround hfence hbody h start start' false false) id
      · exact same_wrapped (same_lookaround hfence hbody h start start' false true) id
      · refine Same.next h (fun t _ _ _ h => ?_) fun hA => Same.of_fails ?_
        · split
          · exact Same.of_fails (fails_refuse _ _ _)
          · exact same_wrapped (same_lookaround hfence hbody h start start' true false) id
          · exact same_wrapped (same_lookaround hfence hbody h start start' true true) id
          · exact Same.of_fails (fails_refuse _ _ _)
        · exact Fails.next_fence hfence hA (fails_refuse _ _) (fails_refuse _ _) (fails_refuse _ _)
            (fails_refuse _ _)
      · cases ‹some t = some (Token.plain '(')›
        refine same_wrapped (same_conditional hfence hbranch h ?_ start start') id
        exact Inside.of_last (by decide) last
      · refine Same.get ?_
        rw [h.flags]
        exact same_wrapped (same_grouped hfence hbody h start start' _) .atomic
      · split
        · refine Same.bind (steady_flagsEnd _ _ hfence h).same fun inl A E h => ?_
          exact same_inline hfence hbody h start start' atStart [] inl
        · refine Same.ite (fun _ => Same.get ?_) fun _ => Same.of_fails (fails_refuse _ _ _)
          refine Same.bind (agree_flagsOn hfence h).same fun r A E h => ?_
          exact same_inline hfence hbody h start start' atStart r.1 r.2
        · exact Same.of_fails (fails_refuse _ _ _)
    · rcases hfence.left_cases with hleft | hleft | hleft | hleft
      · refine Fails.next_token fun st => ?_
        rw [hA, hleft]
        exact fails_refuse _ _ _
      · refine Fails.next_past (hA ▸ hleft) (Fails.bind (conditional_fails ?_) _)
        simp [State.past, Token.size, Token.text, hA, hd.opens hleft]
      · exact absurd hleft hd.intact
      · refine Fails.next_token fun st => ?_
        rw [hA, hleft]
        exact fails_refuse _ _ _
  · exact same_wrapped (same_capturing hfence hbody h start start' none) id

theorem skipLine_spent {n : Nat} {x : Unit} (h : '\n' ∉ st.rest)
    (hrun : (skipLine n).run st = .ok (x, st')) :
    st'.rest = [] := by
  induction n generalizing st with
  | zero => exact absurd hrun (fails_throw _ _ _ _)
  | succ n ih =>
      rw [skipLine] at hrun
      obtain ⟨t, st₁, hnext, hafter⟩ := run_bind_eq_ok.mp hrun
      rcases next_eq_ok.mp hnext with ⟨hnone, rfl, rfl⟩ | ⟨t, ht, rfl, -, rfl⟩
      · cases hafter
        exact tokenOf_eq_none hnone
      · split at hafter
        · cases ‹some t = none›
        · cases ‹some t = some (Token.plain '\n')›
          exact absurd (mem_of_tokenOf ht) h
        · exact ih (fun hc => h (List.mem_of_mem_drop hc)) hafter

theorem beside_skipLine (hd : Parting d e) (h : Beside d e A E) {n m : Nat} {x y : Unit}
    (hf : (skipLine n).run A = .ok (x, A')) (hg : (skipLine m).run E = .ok (y, E')) :
    Beside d e A' E' ∨ E'.rest = [] := by
  induction n generalizing A E m with
  | zero => exact absurd hf (fails_throw _ _ _ _)
  | succ n ih =>
      cases m with
      | zero => exact absurd hg (fails_throw _ _ _ _)
      | succ m =>
          by_cases hA : A.rest = d
          · have hE : E.rest = e := (hA ▸ h.along).of_left
            exact .inr (skipLine_spent (hE ▸ hd.line) hg)
          · rw [skipLine] at hf hg
            obtain ⟨t, A₁, hf₁, hf⟩ := run_bind_eq_ok.mp hf
            obtain ⟨t', E₁, hg₁, hg⟩ := run_bind_eq_ok.mp hg
            obtain ⟨t, -, rfl, rfl, rfl, rfl, -, h'⟩ := h.next_ok hA hf₁ hg₁
            split at hf
            · cases ‹some t = none›
            · cases ‹some t = some (Token.plain '\n')›
              cases hf
              cases hg
              exact .inl h'
            · rename_i hline heq
              cases heq
              split at hg
              · cases ‹some t = none›
              · exact absurd (Option.some.inj ‹some t = some (Token.plain '\n')›) (by simpa using hline)
              · exact ih h' hf hg

theorem same_item {f g f' g' : Reading Pattern} (hd : Parting d e) (hbody : Body d e f g)
    (hbranch : Body d e f' g') (h : Beside d e A E) (start start' : Nat) (atStart : Bool) {flags : Flags}
    (done : List Pattern) {t : Token} (ht : t = .plain '#' → flags.verbose = false) :
    Same d e (item f f' start atStart flags done t) (item g g' start' false flags done t) A E := by
  have hfence := hd.toFence
  have hone {f : Reading Pattern} (hf : Steady f) :
      Same d e (f >>= fun p => pure (p :: done)) (f >>= fun p => pure (p :: done)) A E :=
    Same.bind (hf hfence h).same fun _ _ _ h => Same.pure h _
  cases t with
  | escaped c => exact hone (steady_escape c)
  | plain c =>
      unfold item
      refine Same.ite (fun _ => Same.pure h _) fun _ => ?_
      refine Same.ite (fun hline => ?_) fun _ => ?_
      · simp only [Bool.and_eq_true, decide_eq_true_eq] at hline
        rw [ht (congrArg _ hline.2)] at hline
        exact absurd hline.1 Bool.false_ne_true
      refine Same.ite (fun _ => hone steady_set) fun _ => ?_
      refine Same.ite (fun _ => Same.pure h _) fun _ => ?_
      refine Same.ite (fun _ => Same.pure h _) fun _ => ?_
      refine Same.ite (fun _ => Same.pure h _) fun _ => ?_
      refine Same.ite (fun _ => ?_) fun _ => ?_
      · refine Same.bind (same_group hd hbody hbranch h start start' atStart) fun p _ _ h => ?_
        cases p with
        | none => exact Same.pure h _
        | some p => exact Same.pure h _
      refine Same.ite (fun _ => ?_) fun _ => hone (steady_literal _)
      refine Same.bind (steady_counts c hfence h).same fun r _ _ h => ?_
      cases r with
      | none => exact Same.bind (steady_literal _ hfence h).same fun _ _ _ h => Same.pure h _
      | some r => exact (agree_repeated hfence h start start' r.1 r.2 done).same

theorem item_comment {f f' : Reading Pattern} {flags : Flags} (h : flags.verbose = true) (start : Nat)
    (atStart : Bool) (done : List Pattern) :
    item f f' start atStart flags done (.plain '#') = (do
      skipLine ((← get).rest.length + 1)
      return done) := by
  have hspace : isVerboseSpace '#' = false := by decide
  simp [item, h, hspace]

theorem body_item {f g f' g' : Reading Pattern} (hd : Parting d e) (hbody : Body d e f g)
    (hbranch : Body d e f' g') (h : Beside d e A E) {start start' : Nat} {atStart : Bool}
    {done x y : List Pattern} {t : Token}
    (hf : (item f f' start atStart A.flags done t).run A = .ok (x, A'))
    (hg : (item g g' start' false E.flags done t).run E = .ok (y, E')) :
    (x = y ∧ Beside d e A' E' ∧ E'.flags = E.flags) ∨ (E'.rest = [] ∧ E.flags.verbose = true) := by
  rw [h.flags] at hf
  by_cases ht : t = .plain '#' ∧ E.flags.verbose = true
  · obtain ⟨rfl, hverbose⟩ := ht
    rw [item_comment hverbose, run_bind_ok (run_get _)] at hf hg
    obtain ⟨_, A₁, hf₁, hf⟩ := run_bind_eq_ok.mp hf
    obtain ⟨_, E₁, hg₁, hg⟩ := run_bind_eq_ok.mp hg
    cases hf
    cases hg
    obtain ⟨n, rfl⟩ := (moves_skipLine _ hg₁).1
    exact (beside_skipLine hd h hf₁ hg₁).imp (fun h' => ⟨rfl, h', rfl⟩)
      fun hspent => ⟨hspent, hverbose⟩
  · have ht' : t = .plain '#' → E.flags.verbose = false := by simpa using ht
    exact .inl ((same_item hd hbody hbranch h start start' atStart done ht').of_runs hf hg)

theorem item_group (f f' : Reading Pattern) (flags : Flags) (start : Nat) (atStart : Bool)
    (done : List Pattern) :
    item f f' start atStart flags done (.plain '(') = (do
      match ← group f f' start atStart with
      | some p => return p :: done
      | none => return done) := by
  have hspace : isVerboseSpace '(' = false := by decide
  unfold item
  dsimp only
  rw [hspace, Bool.and_false, if_neg Bool.false_ne_true, if_neg (by simp), if_neg (by decide),
    if_neg (by decide), if_neg (by decide), if_neg (by decide)]
  exact (if_pos rfl).trans (bind_congr fun p => by cases p <;> rfl)

theorem repeated_nonempty {start low : Nat} {high : Option Nat} {done done' : List Pattern}
    (h : (repeated start low high done).run st = .ok (done', st')) : done'.isEmpty = false := by
  unfold repeated at h
  split at h
  · exact absurd h (fails_throw _ _ _ _)
  · exact absurd h (fails_throw _ _ _ _)
  · exact absurd h (fails_throw _ _ _ _)
  · obtain ⟨g, st₁, -, h⟩ := run_bind_eq_ok.mp h
    cases h
    rfl

theorem item_nonempty {f f' : Reading Pattern} {start : Nat} {atStart : Bool} {flags : Flags}
    {done done' : List Pattern} {t : Token} (hdone : done.isEmpty = false)
    (h : (item f f' start atStart flags done t).run st = .ok (done', st')) : done'.isEmpty = false := by
  cases item_ok h with
  | escaped | set | any | anchor | counts | literal => rfl
  | space | comment => exact hdone
  | @group p =>
      cases p with
      | none => exact hdone
      | some p => rfl
  | repeated _ _ hrepeated => exact repeated_nonempty hrepeated

theorem escape_reference_fails (st : State) : Fails (escape 'k') st := by
  intro x st' h
  cases h

theorem items_reference_fails {first : Bool} {done : List Pattern} {n : Nat}
    (h : tokenOf st.rest = some (.escaped 'k')) : Fails (items first done n) st := by
  intro p st' hrun
  cases n with
  | zero => exact items_zero_fails _ _ _ _ hrun
  | succ n =>
      obtain ⟨done', st₁, -, hitem, -⟩ := items_more h (by decide) hrun
      exact Fails.bind (escape_reference_fails _) _ _ _ hitem

theorem group_fails_angle {f g : Reading Pattern} {start : Nat} {atStart : Bool}
    (h : st.rest = ['?', '<']) : Fails (group f g start atStart) st := by
  obtain ⟨rest, position, flags, _⟩ := st
  obtain rfl : rest = ['?', '<'] := h
  intro x st' hrun
  cases hrun

theorem body_items_end (hd : Parting d e) (h : Beside d e A E) (hA : A.rest = d) {n m : Nat}
    {first first' : Bool} {done : List Pattern} {p q : Pattern}
    (hf : (items first done (n + 1)).run A = .ok (p, A'))
    (hg : (items first' done (m + 1)).run E = .ok (q, E')) :
    p = q ∧ Beside d e A' E' ∧ E'.flags = E.flags := by
  have hE : E.rest = e := (hA ▸ h.along).of_left
  rcases hd.toFence.left_cases with hleft | hleft | hleft | hleft
  · obtain ⟨rfl, rfl⟩ := items_end (by simp [hA, hleft]) hf
    obtain ⟨rfl, rfl⟩ := items_end (by simp [hE, hd.ends hleft]) hg
    exact ⟨rfl, h, rfl⟩
  · obtain ⟨done', A₁, -, hitem, -⟩ := items_more (hA ▸ hleft) (by decide) hf
    have hgroup : (A.past 1).rest = ['?', '<'] := by simp [State.past, hA, hd.opens hleft]
    rw [item_group] at hitem
    exact absurd hitem (Fails.bind (group_fails_angle hgroup) _ _ _)
  · exact absurd hleft hd.intact
  · exact absurd hf (items_reference_fails (hA ▸ hleft) _ _)

theorem body_branches (hd : Parting d e) {n m : Nat} {nested nested' : Bool} {done : List Pattern}
    (hdone : (!nested' && done.isEmpty) = false)
    (hitems : ∀ first, Body d e (items first [] n) (items false [] m))
    (hbranches : ∀ p, Body d e (branches nested (p :: done) n) (branches nested' (p :: done) m)) :
    Body d e (branches nested done (n + 1)) (branches nested' done (m + 1)) := by
  constructor
  intro A E h x y A' E' hf hg
  obtain ⟨p, A₁, b, A₂, hf₁, hf₂, hf⟩ := branches_ok hf
  obtain ⟨q, E₁, b', E₂, hg₁, hg₂, hg⟩ := branches_ok hg
  rw [hdone] at hg₁
  rcases (hitems _).of_runs h hf₁ hg₁ with ⟨rfl, h', hflags⟩ | ⟨hspent, hverbose⟩
  · obtain ⟨rfl, h'', hflags'⟩ := (steady_accept (by decide) hd.toFence h').same.of_runs hf₂ hg₂
    rw [← hflags, ← hflags']
    cases b with
    | false =>
        cases hf
        cases hg
        exact .inl ⟨rfl, h'', rfl⟩
    | true => exact (hbranches p).of_runs h'' hf hg
  · cases (accept_false (by simp [hspent, tokenOf])).symm.trans hg₂
    cases hg
    exact .inr ⟨hspent, hverbose⟩

theorem body_items (hd : Parting d e) {n m : Nat} {first first' : Bool} {done : List Pattern}
    (hdone : (first' && done.isEmpty) = false)
    (hbranches : Body d e (branches true [] n) (branches true [] m))
    (hbranch : Body d e (items false [] n) (items false [] m))
    (hitems : ∀ {done'}, (first' && List.isEmpty done') = false →
      Body d e (items first done' n) (items first' done' m)) :
    Body d e (items first done (n + 1)) (items first' done (m + 1)) := by
  constructor
  intro A E h x y A' E' hf hg
  by_cases hA : A.rest = d
  · exact .inl (body_items_end hd h hA hf hg)
  obtain ⟨t, htA, htE, -, -⟩ := h.along.cases.resolve_left fun hhere => hA hhere.1
  by_cases hend : t = .plain '|' ∨ t = .plain ')'
  · obtain ⟨rfl, rfl⟩ := items_end (by simpa [htA] using hend) hf
    obtain ⟨rfl, rfl⟩ := items_end (by simpa [htE] using hend) hg
    exact .inl ⟨rfl, h, rfl⟩
  obtain ⟨done', A₂, hf₁, hf₂, hf⟩ := items_more htA hend hf
  obtain ⟨done'', E₂, hg₁, hg₂, hg⟩ := items_more htE hend hg
  obtain ⟨_, -, ht, -, -, -, -, h'⟩ := h.next_ok hA hf₁ hg₁
  cases ht
  have hdone' : (first' && done''.isEmpty) = false := by
    rcases Bool.and_eq_false_iff.mp hdone with hfirst | hne
    · rw [hfirst, Bool.false_and]
    · rw [item_nonempty hne hg₂, Bool.and_false]
  rw [hdone] at hg₂
  rcases body_item hd hbranches hbranch h' hf₂ hg₂ with ⟨rfl, h'', hflags⟩ | ⟨hspent, hverbose⟩
  · change E₂.flags = E.flags at hflags
    rw [← hflags]
    exact (hitems hdone').of_runs h'' hf hg
  · rw [(items_nil_ok hspent hg).2]
    exact .inr ⟨hspent, hverbose⟩

/-- A pattern is read inside a longer one as it is alone. In the longer one nothing is at the beginning
of the whole pattern. -/
theorem body_read (hd : Parting d e) (n m : Nat) :
    (∀ {nested nested' done}, (!nested' && List.isEmpty done) = false →
      Body d e (branches nested done n) (branches nested' done m)) ∧
    ∀ {first first' done}, (first' && List.isEmpty done) = false →
      Body d e (items first done n) (items first' done m) := by
  induction n generalizing m with
  | zero =>
      exact ⟨fun _ => ⟨fun _ _ _ _ _ hf => absurd hf (branches_zero_fails _ _ _ _)⟩,
        fun _ => ⟨fun _ _ _ _ _ hf => absurd hf (items_zero_fails _ _ _ _)⟩⟩
  | succ n ih =>
      cases m with
      | zero =>
          exact ⟨fun _ => ⟨fun _ _ _ _ _ _ hg => absurd hg (branches_zero_fails _ _ _ _)⟩,
            fun _ => ⟨fun _ _ _ _ _ _ hg => absurd hg (items_zero_fails _ _ _ _)⟩⟩
      | succ m =>
          obtain ⟨hbranches, hitems⟩ := ih m
          exact ⟨fun hdone => body_branches hd hdone (fun _ => hitems rfl)
              fun _ => hbranches (Bool.and_false _),
            fun hdone => body_items hd hdone (hbranches rfl) (hitems rfl) hitems⟩

end BaseLib.Regex.Reader
