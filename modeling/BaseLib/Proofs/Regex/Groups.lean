import BaseLib.Proofs.Regex.Steady

namespace BaseLib.Regex.Reader

variable {st st' : State} {body branch : Reading Pattern} {start : Nat} {p : Pattern}

theorem openGroup_ok {name : Option (List Char)} {g : Nat} (h : (openGroup name).run st = .ok (g, st')) :
    g = st.groups ∧ (∀ n ∈ name, String.ofList n ∉ st.names.map Prod.fst) ∧
      st' = { st with groups := st.groups + 1,
                      names := st.names ++ name.toList.map fun n => (String.ofList n, st.groups) } := by
  unfold openGroup at h
  rw [run_bind_ok (run_get st)] at h
  cases name with
  | none =>
      cases h
      exact ⟨rfl, by simp, by simp⟩
  | some n =>
      dsimp only at h
      cases hlookup : st.names.lookup (String.ofList n) with
      | some earlier =>
          rw [hlookup] at h
          exact absurd h (Fails.bind (fails_refuse _ _ _) _ _ _)
      | none =>
          rw [hlookup] at h
          cases h
          refine ⟨rfl, ?_, rfl⟩
          rintro _ ⟨rfl⟩ hmem
          obtain ⟨e, he, hkey⟩ := List.mem_map.mp hmem
          have hne := List.lookup_eq_none_iff.mp hlookup e he
          rw [← hkey, bne_self_eq_false] at hne
          exact Bool.false_ne_true hne

theorem close_fails (h : tokenOf st.rest ≠ some (.plain ')')) : Fails (close start) st := by
  intro x st' hrun
  rw [close, run_bind_ok (accept_false h)] at hrun
  exact fails_throw _ _ _ _ hrun

theorem close_ok {x : Unit} (h : (close start).run st = .ok (x, st')) :
    tokenOf st.rest = some (.plain ')') ∧ st' = st.past 1 := by
  by_cases hclose : tokenOf st.rest = some (.plain ')')
  · rw [close] at h
    obtain ⟨b, st₁, haccept, h⟩ := run_bind_eq_ok.mp h
    obtain ⟨rfl, hnext⟩ := accept_true hclose haccept
    obtain ⟨-, rfl, -⟩ := next_some hclose hnext
    cases h
    exact ⟨hclose, rfl⟩
  · exact absurd h (close_fails hclose _ _)

theorem under_ok {flags : Flags} {f : Reading Pattern} (h : (under flags f).run st = .ok (p, st')) :
    ∃ st₁, f.run { st with flags := flags } = .ok (p, st₁) ∧ st' = { st₁ with flags := st.flags } := by
  unfold under at h
  rw [run_bind_ok (run_get st)] at h
  obtain ⟨_, _, hset, h⟩ := run_bind_eq_ok.mp h
  cases hset
  obtain ⟨q, st₁, hread, h⟩ := run_bind_eq_ok.mp h
  obtain ⟨_, _, hset, h⟩ := run_bind_eq_ok.mp h
  cases hset
  cases h
  exact ⟨st₁, hread, rfl⟩

theorem isClosed_ok {g : Nat} {x : Bool} (h : (isClosed g).run st = .ok (x, st')) : st' = st := by
  cases h
  rfl

theorem checkLookbehind_ok {g : Nat} {x : Unit} (h : (checkLookbehind g).run st = .ok (x, st')) : st' = st := by
  rw [checkLookbehind, run_bind_ok (run_get st)] at h
  split at h
  · cases h
    rfl
  · obtain ⟨b, st₁, hclosed, hafter⟩ := run_bind_eq_ok.mp h
    rw [isClosed_ok hclosed] at hafter
    split at hafter
    · exact absurd hafter (fails_refuse _ _ _ _ _)
    split at hafter
    · exact absurd hafter (fails_refuse _ _ _ _ _)
    · cases hafter
      rfl

theorem checkName_ok {name : List Char} {x : Unit} (h : (checkName name).run st = .ok (x, st')) :
    Text.isName name = true ∧ st' = st := by
  unfold checkName at h
  split at h
  · cases h
    exact ⟨‹_›, rfl⟩
  · exact absurd h (fails_refuse _ _ _ _ _)

theorem capturing_ok {name : Option (List Char)} (h : (capturing body start name).run st = .ok (p, st')) :
    ∃ g q st₁ st₂ st₃, p = .capture g q ∧ (openGroup name).run st = .ok (g, st₁) ∧
      (under st₁.flags body).run st₁ = .ok (q, st₂) ∧ (close start).run st₂ = .ok ((), st₃) ∧
      st' = { st₃ with closed := (g, q.width (widths st₃)) :: st₃.closed } := by
  unfold capturing at h
  obtain ⟨g, st₁, hopen, h⟩ := run_bind_eq_ok.mp h
  rw [run_bind_ok (run_get st₁)] at h
  obtain ⟨q, st₂, hread, h⟩ := run_bind_eq_ok.mp h
  obtain ⟨_, st₃, hclose, h⟩ := run_bind_eq_ok.mp h
  obtain ⟨_, _, hset, h⟩ := run_bind_eq_ok.mp h
  cases hset
  cases h
  exact ⟨g, q, st₁, st₂, st₃, rfl, hopen, hread, hclose, rfl⟩

theorem grouped_ok {flags : Flags} (h : (group.grouped body start flags).run st = .ok (p, st')) :
    ∃ st₁, (under flags body).run st = .ok (p, st₁) ∧ (close start).run st₁ = .ok ((), st') := by
  unfold group.grouped at h
  obtain ⟨q, st₁, hread, h⟩ := run_bind_eq_ok.mp h
  obtain ⟨_, st₂, hclose, h⟩ := run_bind_eq_ok.mp h
  cases h
  exact ⟨st₁, hread, hclose⟩

theorem namedForm_ok (h : (namedForm body start).run st = .ok (p, st')) :
    (∃ name st₁ st₂, (accept '<').run st = .ok (true, st₁) ∧ (takeName '>' "group name").run st₁ = .ok (name, st₂) ∧
      Text.isName name = true ∧ (capturing body start (some name)).run st₂ = .ok (p, st')) ∨
    ∃ st₁ st₂, (accept '<').run st = .ok (false, st₁) ∧ (accept '=').run st₁ = .ok (true, st₂) ∧
      namedReference.run st₂ = .ok (p, st') := by
  rw [namedForm_eq] at h
  obtain ⟨angle, st₁, hangle, h⟩ := run_bind_eq_ok.mp h
  cases angle with
  | true =>
      obtain ⟨name, st₂, hname, h⟩ := run_bind_eq_ok.mp h
      obtain ⟨_, st₃, hcheck, h⟩ := run_bind_eq_ok.mp h
      obtain ⟨hvalid, hkept⟩ := checkName_ok hcheck
      rw [hkept] at h
      exact .inl ⟨name, st₁, st₂, hangle, hname, hvalid, h⟩
  | false =>
      obtain ⟨equals, st₂, hequals, h⟩ := run_bind_eq_ok.mp h
      cases equals with
      | true => exact .inr ⟨st₁, st₂, hangle, hequals, h⟩
      | false =>
          obtain ⟨t, st₃, -, h⟩ := run_bind_eq_ok.mp h
          cases t with
          | none | some t => exact absurd h (fails_refuse _ _ _ _ _)

theorem lookbehind_ok {negated : Bool} {q : Pattern} (h : (lookbehind negated q).run st = .ok (p, st')) :
    ∃ least bad, p = .behind negated least q ∧ st' = { st with badLookbehind := bad } := by
  unfold lookbehind at h
  rw [run_bind_ok (run_get st)] at h
  obtain ⟨_, _, hset, h⟩ := run_bind_eq_ok.mp h
  cases hset
  cases h
  exact ⟨_, _, rfl, rfl⟩

/-- What is looked for on either side is read as in a group, but for what is kept about looking back. -/
theorem lookaround_ok {isBehind negated : Bool}
    (h : (lookaround body start isBehind negated).run st = .ok (p, st')) :
    ∃ q st₁ st₂ before after bad, (p = .ahead negated q ∨ ∃ least, p = .behind negated least q) ∧
      (under st.flags body).run { st with lookbehind := before } = .ok (q, st₁) ∧
      (close start).run { st₁ with lookbehind := after } = .ok ((), st₂) ∧
      st' = { st₂ with badLookbehind := bad } := by
  unfold lookaround at h
  rw [run_bind_ok (run_get st)] at h
  cases isBehind with
  | false =>
      dsimp only at h
      rw [if_neg Bool.false_ne_true, run_bind_ok (run_get st)] at h
      obtain ⟨q, st₁, hread, h⟩ := run_bind_eq_ok.mp h
      rw [if_neg Bool.false_ne_true] at h
      obtain ⟨_, st₂, hclose, h⟩ := run_bind_eq_ok.mp h
      cases h
      exact ⟨q, st₁, _, _, _, _, .inl rfl, hread, hclose, rfl⟩
  | true =>
      dsimp only at h
      rw [if_pos rfl] at h
      obtain ⟨_, _, hset, h⟩ := run_bind_eq_ok.mp h
      cases hset
      rw [run_bind_ok (run_get _)] at h
      obtain ⟨q, st₁, hread, h⟩ := run_bind_eq_ok.mp h
      rw [if_pos rfl] at h
      obtain ⟨_, _, hset, h⟩ := run_bind_eq_ok.mp h
      cases hset
      obtain ⟨_, st₂, hclose, h⟩ := run_bind_eq_ok.mp h
      rw [if_pos rfl] at h
      obtain ⟨least, bad, rfl, rfl⟩ := lookbehind_ok h
      exact ⟨q, st₁, st₂, _, _, bad, .inr ⟨least, rfl⟩, hread, hclose, rfl⟩

theorem conditionGroup_ok {g : Nat} (h : conditionGroup.run st = .ok (g, st')) :
    ∃ name st₁ conditions, (takeName ')' "group name").run st = .ok (name, st₁) ∧
      st' = { st₁ with conditions := conditions } := by
  unfold conditionGroup at h
  obtain ⟨name, st₁, hname, h⟩ := run_bind_eq_ok.mp h
  refine ⟨name, st₁, ?_⟩
  split at h
  · rw [run_bind_ok (run_get st₁)] at h
    split at h
    · cases h
      exact ⟨_, hname, rfl⟩
    · exact absurd h (fails_refuse _ _ _ _ _)
  · split at h
    · exact absurd h (fails_refuse _ _ _ _ _)
    · split at h
      · exact absurd h (fails_refuse _ _ _ _ _)
      · rw [run_bind_ok (run_get st₁)] at h
        obtain ⟨_, _, hset, h⟩ := run_bind_eq_ok.mp h
        cases hset
        cases h
        dsimp only
        split
        · exact ⟨_, hname, rfl⟩
        · exact ⟨_, hname, rfl⟩
    · exact absurd h (fails_refuse _ _ _ _ _)

theorem conditional_ok (h : (conditional branch start).run st = .ok (p, st')) :
    ∃ g yes second st₁ st₂ st₃, conditionGroup.run st = .ok (g, st₁) ∧
      (under st₁.flags branch).run st₁ = .ok (yes, st₂) ∧ (accept '|').run st₂ = .ok (second, st₃) ∧
      ((∃ no st₄, p = .conditional g yes no ∧ (under st₃.flags branch).run st₃ = .ok (no, st₄) ∧
          (close start).run st₄ = .ok ((), st')) ∨
        p = .conditional g yes .empty ∧ (close start).run st₃ = .ok ((), st')) := by
  unfold conditional at h
  obtain ⟨g, st₁, hgroup, h⟩ := run_bind_eq_ok.mp h
  obtain ⟨_, st₂, hcheck, h⟩ := run_bind_eq_ok.mp h
  rw [checkLookbehind_ok hcheck, run_bind_ok (run_get st₁)] at h
  obtain ⟨yes, st₃, hyes, h⟩ := run_bind_eq_ok.mp h
  obtain ⟨second, st₄, hbar, h⟩ := run_bind_eq_ok.mp h
  refine ⟨g, yes, second, st₁, st₃, st₄, hgroup, hyes, hbar, ?_⟩
  split at h
  · rw [run_bind_ok (run_get st₄)] at h
    obtain ⟨no, st₅, hno, h⟩ := run_bind_eq_ok.mp h
    rw [run_bind_ok (run_peek st₅)] at h
    split at h
    · exact absurd h (fails_refuse _ _ _ _ _)
    · obtain ⟨_, st₆, hclose, h⟩ := run_bind_eq_ok.mp h
      cases h
      exact .inl ⟨no, st₅, rfl, hno, hclose⟩
  · obtain ⟨_, st₅, hclose, h⟩ := run_bind_eq_ok.mp h
    cases h
    exact .inr ⟨rfl, hclose⟩

theorem inline_ok {atStart : Bool} {on : List Char} {inl : Option Inline} {x : Option Pattern}
    (h : (group.inline body start atStart on inl).run st = .ok (x, st')) :
    (∃ own q, inl = some own ∧ x = some (.wrap q) ∧
      (group.grouped body start (own.apply st.flags)).run st = .ok (q, st')) ∨
    inl = none ∧ atStart = true ∧ x = none ∧ (setGlobal on).run st = .ok ((), st') := by
  unfold group.inline at h
  cases inl with
  | some own =>
      dsimp only at h
      rw [run_bind_ok (run_get st)] at h
      obtain ⟨q, st₁, hgrouped, h⟩ := run_bind_eq_ok.mp h
      cases h
      exact .inl ⟨own, q, rfl, rfl, hgrouped⟩
  | none =>
      obtain ⟨_, st₁, hset, h⟩ := run_bind_eq_ok.mp h
      split at h
      · cases h
        exact .inr ⟨rfl, ‹_›, rfl, hset⟩
      · exact absurd h (fails_throw _ _ _ _)

inductive ReadsForm (body branch : Reading Pattern) (start : Nat) (atStart : Bool) (st : State) :
    Token → Option Pattern → State → Prop
  | named {p : Pattern} {st' : State} (h : (namedForm body start).run st = .ok (p, st')) :
      ReadsForm body branch start atStart st (.plain 'P') (some p) st'
  | grouped {p : Pattern} {st' : State} (h : (group.grouped body start st.flags).run st = .ok (p, st')) :
      ReadsForm body branch start atStart st (.plain ':') (some (.wrap p)) st'
  | atomic {p : Pattern} {st' : State} (h : (group.grouped body start st.flags).run st = .ok (p, st')) :
      ReadsForm body branch start atStart st (.plain '>') (some (.atomic p)) st'
  | comment {n : Nat} {st' : State} (h : (skipComment start n).run st = .ok ((), st')) :
      ReadsForm body branch start atStart st (.plain '#') none st'
  | ahead {c : Char} {negated : Bool} {p : Pattern} {st' : State} (hc : c = '=' ∨ c = '!')
      (h : (lookaround body start false negated).run st = .ok (p, st')) :
      ReadsForm body branch start atStart st (.plain c) (some p) st'
  | behind {c : Char} {negated : Bool} {p : Pattern} {st₁ st' : State} (hc : c = '=' ∨ c = '!')
      (hnext : next.run st = .ok (some (.plain c), st₁))
      (h : (lookaround body start true negated).run st₁ = .ok (p, st')) :
      ReadsForm body branch start atStart st (.plain '<') (some p) st'
  | conditional {p : Pattern} {st' : State} (h : (conditional branch start).run st = .ok (p, st')) :
      ReadsForm body branch start atStart st (.plain '(') (some p) st'
  | off {inl : Option Inline} {x : Option Pattern} {st₁ st' : State}
      (hflags : (flagsEnd [] '-').run st = .ok (inl, st₁))
      (h : (group.inline body start atStart [] inl).run st₁ = .ok (x, st')) :
      ReadsForm body branch start atStart st (.plain '-') x st'
  | on {c : Char} {n : Nat} {on : List Char} {inl : Option Inline} {x : Option Pattern} {st₁ st' : State}
      (hc : isFlag c = true) (hflags : (flagsOn [] c n).run st = .ok ((on, inl), st₁))
      (h : (group.inline body start atStart on inl).run st₁ = .ok (x, st')) :
      ReadsForm body branch start atStart st (.plain c) x st'

theorem group_ok {atStart : Bool} {x : Option Pattern}
    (h : (group body branch start atStart).run st = .ok (x, st')) :
    (∃ p, x = some p ∧ tokenOf st.rest ≠ some (.plain '?') ∧ (capturing body start none).run st = .ok (p, st')) ∨
    ∃ t st₁ st₂, next.run st = .ok (some (.plain '?'), st₁) ∧ next.run st₁ = .ok (some t, st₂) ∧
      ReadsForm body branch start atStart st₂ t x st' := by
  have hone {f : Reading Pattern} (wrap : Pattern → Pattern) {st : State}
      (h : (f >>= fun q => pure (some (wrap q))).run st = .ok (x, st')) :
      ∃ q, x = some (wrap q) ∧ f.run st = .ok (q, st') := by
    obtain ⟨q, st₁, hread, h⟩ := run_bind_eq_ok.mp h
    cases h
    exact ⟨q, rfl, hread⟩
  unfold group at h
  obtain ⟨question, st₁, hquestion, h⟩ := run_bind_eq_ok.mp h
  by_cases hmark : tokenOf st.rest = some (.plain '?')
  · obtain ⟨rfl, hnext⟩ := accept_true hmark hquestion
    rw [if_neg (by decide)] at h
    obtain ⟨t, st₂, hnext', h⟩ := run_bind_eq_ok.mp h
    cases t with
    | none => exact absurd h (fails_refuse _ _ _ _ _)
    | some t =>
        refine .inr ⟨t, st₁, st₂, hnext, hnext', ?_⟩
        split at h <;> rename_i heq <;> cases heq
        · obtain ⟨q, rfl, hread⟩ := hone id h
          exact .named hread
        · rw [run_bind_ok (run_get st₂)] at h
          obtain ⟨q, rfl, hread⟩ := hone .wrap h
          exact .grouped hread
        · rw [run_bind_ok (run_get st₂)] at h
          obtain ⟨_, st₃, hskip, h⟩ := run_bind_eq_ok.mp h
          cases h
          exact .comment hskip
        · obtain ⟨q, rfl, hread⟩ := hone id h
          exact .ahead (.inl rfl) hread
        · obtain ⟨q, rfl, hread⟩ := hone id h
          exact .ahead (.inr rfl) hread
        · obtain ⟨u, st₃, hnext'', h⟩ := run_bind_eq_ok.mp h
          split at h
          · exact absurd h (fails_refuse _ _ _ _ _)
          · obtain ⟨q, rfl, hread⟩ := hone id h
            exact .behind (.inl rfl) hnext'' hread
          · obtain ⟨q, rfl, hread⟩ := hone id h
            exact .behind (.inr rfl) hnext'' hread
          · exact absurd h (fails_refuse _ _ _ _ _)
        · obtain ⟨q, rfl, hread⟩ := hone id h
          exact .conditional hread
        · rw [run_bind_ok (run_get st₂)] at h
          obtain ⟨q, rfl, hread⟩ := hone .atomic h
          exact .atomic hread
        · split at h
          · obtain ⟨inl, st₃, hflags, h⟩ := run_bind_eq_ok.mp h
            exact .off hflags h
          · split at h
            · rename_i hflag
              rw [run_bind_ok (run_get st₂)] at h
              obtain ⟨⟨on, inl⟩, st₃, hflags, h⟩ := run_bind_eq_ok.mp h
              exact .on hflag hflags h
            · exact absurd h (fails_refuse _ _ _ _ _)
          · exact absurd h (fails_refuse _ _ _ _ _)
  · cases (accept_false hmark).symm.trans hquestion
    obtain ⟨q, rfl, hread⟩ := hone id h
    exact .inl ⟨q, rfl, hmark, hread⟩

end BaseLib.Regex.Reader
