import BaseLib.Regex.Match
import Mathlib.Tactic.FinCases

namespace BaseLib.Regex

def escapes : List (Char × Char) :=
  [('\\', '\\'), ('*', '*'), ('+', '+'), ('?', '?'), ('|', '|'), ('\x7b', '\x7b'), ('[', '['),
    ('(', '('), (')', ')'), ('^', '^'), ('$', '$'), ('.', '.'), ('#', '#'), (' ', ' '), ('\t', 't'),
    ('\n', 'n'), ('\x0c', 'f'), ('\r', 'r'), ('\x0b', 'v')]

theorem escape_cons (c : Char) (p : List Char) : escape (c :: p) = escape [c] ++ escape p := by
  simp [escape]

theorem escape_of_mem : ∀ e ∈ escapes, escape [e.1] = ['\\', e.2] := by
  decide +kernel

theorem ne_of_not_mem {c : Char} (h : c ∉ escapes.map Prod.fst) :
    ∀ d ∈ escapes.map Prod.fst, c ≠ d := by
  rintro d hd rfl
  exact h hd

theorem escape_of_not_mem {c : Char} (h : c ∉ escapes.map Prod.fst) : escape [c] = [c] := by
  have hne := ne_of_not_mem h
  simp only [escapes, List.map_cons, List.map_nil, List.forall_mem_cons] at hne
  simp [escape, hne]

@[elab_as_elim]
theorem escapeInduction {motive : List Char → Prop} (nil : motive [])
    (escaped : ∀ e ∈ escapes, ∀ p, escape (e.1 :: p) = '\\' :: e.2 :: escape p → motive p →
      motive (e.1 :: p))
    (plain : ∀ c, c ∉ escapes.map Prod.fst → ∀ p, escape (c :: p) = c :: escape p → motive p →
      motive (c :: p)) (p : List Char) : motive p := by
  induction p with
  | nil => exact nil
  | cons c p ih =>
      have hcons := escape_cons c p
      by_cases hc : c ∈ escapes.map Prod.fst
      · obtain ⟨e, he, rfl⟩ := List.mem_map.mp hc
        rw [escape_of_mem e he] at hcons
        exact escaped e he p hcons ih
      · rw [escape_of_not_mem hc] at hcons
        exact plain c hc p hcons ih

theorem length_le_escape (p : List Char) : p.length ≤ (escape p).length := by
  induction p using escapeInduction with
  | nil => exact Nat.zero_le _
  | escaped e he p hp ih =>
      rw [hp, List.length_cons, List.length_cons, List.length_cons]
      omega
  | plain c hc p hp ih =>
      rw [hp, List.length_cons, List.length_cons]
      omega

theorem escape_ne_backslash (p : List Char) : escape p ≠ ['\\'] := by
  induction p using escapeInduction with
  | nil => simp [escape]
  | escaped e he p hp ih => simp [hp]
  | plain c hc p hp ih =>
      have hne := ne_of_not_mem hc '\\' (by decide)
      simp [hp, hne]

namespace Spelling

theorem go_plain {c : Char} (hback : c ≠ '\\') (hbracket : c ≠ '[') (hparen : c ≠ '(')
    (explicit : Bool) (fuel : Nat) (s : List Char) :
    go explicit (fuel + 1) false (c :: s) = c :: go explicit fuel false s := by
  rw [go]
  · rintro _ _ h
    exact absurd h hback
  all_goals simp_all

theorem go_escape (p : List Char) {fuel : Nat} (hfuel : (escape p).length < fuel) :
    go false fuel false (escape p) = escape p := by
  induction p using escapeInduction generalizing fuel with
  | nil =>
      obtain ⟨fuel, rfl⟩ : ∃ k, fuel = k + 1 := ⟨fuel - 1, by omega⟩
      rfl
  | escaped e he p hp ih =>
      obtain ⟨fuel, rfl⟩ : ∃ k, fuel = k + 1 := ⟨fuel - 1, by omega⟩
      rw [hp] at hfuel ⊢
      have hk : ∀ e ∈ escapes, (e.2 == 'k') = false := by decide
      simp only [go, hk e he, Bool.and_false, Bool.false_eq_true, if_false]
      rw [ih (by simp only [List.length_cons] at hfuel; omega)]
  | plain c hc p hp ih =>
      obtain ⟨fuel, rfl⟩ : ∃ k, fuel = k + 1 := ⟨fuel - 1, by omega⟩
      rw [hp] at hfuel ⊢
      have hback := ne_of_not_mem hc '\\' (by decide)
      have hbracket := ne_of_not_mem hc '[' (by decide)
      have hparen := ne_of_not_mem hc '(' (by decide)
      rw [go_plain hback hbracket hparen, ih (Nat.lt_of_succ_lt_succ hfuel)]

theorem normalize_escape (p : List Char) : normalize (escape p) false = escape p :=
  go_escape p (Nat.lt_succ_self _)

end Spelling

def literalOf (c : Char) : Pattern := .char (.literal .exact c.toNat false)

namespace Reader

theorem run_bind_ok {α β : Type} {a : Reading α} {f : α → Reading β} {st st' : State} {x : α}
    (h : a.run st = .ok (x, st')) : (a >>= f).run st = (f x).run st' := by
  rw [StateT.run_bind, h]
  rfl

theorem run_get (st : State) : (get : Reading State).run st = .ok (st, st) := rfl

def State.past (st : State) (n : Nat) : State :=
  { st with rest := st.rest.drop n, position := st.position + n }

theorem past_past (st : State) (m n : Nat) : (st.past m).past n = st.past (m + n) := by
  simp [State.past, Nat.add_assoc]

section

variable {st : State} {rest : List Char} {c x : Char}

theorem run_peek_nil (h : st.rest = []) : peek.run st = .ok (none, st) := by
  rw [peek, run_bind_ok (run_get st), h]
  rfl

theorem run_peek_escaped (h : st.rest = '\\' :: x :: rest) :
    peek.run st = .ok (some (.escaped x), st) := by
  rw [peek, run_bind_ok (run_get st), h]
  rfl

theorem run_peek_plain (h : st.rest = c :: rest) (hc : c ≠ '\\') :
    peek.run st = .ok (some (.plain c), st) := by
  rw [peek, run_bind_ok (run_get st), h]
  simp [hc]
  rfl

theorem run_next {t : Token} (h : peek.run st = .ok (some t, st))
    (hend : (st.past t.size).rest ≠ ['\\']) : next.run st = .ok (some t, st.past t.size) := by
  have hcheck : checkEnd (st.past t.size) = .ok () := if_neg hend
  rw [next, run_bind_ok h]
  show StateT.run (do
    liftM (checkEnd (st.past t.size))
    (pure (some t) : Reading (Option Token))) (st.past t.size) = _
  rw [hcheck]
  rfl

theorem run_escape : ∀ e ∈ escapes, ∀ st : State, st.flags = {} →
    (Reader.escape e.2).run st = .ok (literalOf e.1, st) := by
  intro e he st hst
  obtain ⟨rest, pos, flags, _⟩ := st
  subst hst
  fin_cases he <;> rfl

theorem run_literal (hflags : st.flags = {}) (c : Char) :
    (literal c.toNat).run st = .ok (literalOf c, st) := by
  rw [literal, run_bind_ok (run_get st), hflags]
  rfl

theorem items_nil (hrest : st.rest = []) (first : Bool) (done : List Pattern) (fuel : Nat) :
    (items first done (fuel + 1)).run st = .ok (Pattern.ofList done.reverse, st) := by
  rw [items, run_bind_ok (run_get st), run_bind_ok (run_get st), run_bind_ok (run_peek_nil hrest)]
  rfl

theorem items_escaped {e : Char × Char} (he : e ∈ escapes) (hrest : st.rest = '\\' :: e.2 :: rest)
    (hend : rest ≠ ['\\']) (hflags : st.flags = {}) (first : Bool) (done : List Pattern) (fuel : Nat) :
    (items first done (fuel + 1)).run st =
      (items first (literalOf e.1 :: done) fuel).run (st.past 2) := by
  have hpeek := run_peek_escaped hrest
  have hnext := run_next hpeek (by simpa [State.past, Token.size, Token.text, hrest] using hend)
  have hesc := run_escape e he (st.past 2) hflags
  rw [items, run_bind_ok (run_get st), run_bind_ok (run_get st), run_bind_ok hpeek]
  exact (run_bind_ok hnext).trans (run_bind_ok hesc)

theorem items_plain (hc : c ∉ escapes.map Prod.fst) (hrest : st.rest = c :: rest)
    (hend : rest ≠ ['\\']) (hflags : st.flags = {}) (first : Bool) (done : List Pattern) (fuel : Nat) :
    (items first done (fuel + 1)).run st =
      (items first (literalOf c :: done) fuel).run (st.past 1) := by
  have hne := ne_of_not_mem hc
  simp only [escapes, List.map_cons, List.map_nil, List.forall_mem_cons] at hne
  have hpeek := run_peek_plain hrest hne.1
  have hnext := run_next hpeek (by simpa [State.past, Token.size, Token.text, hrest] using hend)
  have hflags' : (st.past 1).flags = {} := hflags
  rw [items, run_bind_ok (run_get st), run_bind_ok (run_get st), run_bind_ok hpeek]
  split
  · exact absurd ‹_› (by simp)
  · exact absurd ‹_› (by simp [hne])
  · exact absurd ‹_› (by simp [hne])
  · exact absurd ‹_› (by simp)
  · rename_i hplain
    cases hplain
    rw [run_bind_ok hnext]
    simp only [hflags, hne, Bool.false_and, Bool.false_eq_true, if_false, or_false]
    exact run_bind_ok (run_literal hflags' c)

theorem items_escape (p : List Char) (hrest : st.rest = Regex.escape p) (hflags : st.flags = {})
    (first : Bool) (done : List Pattern) {fuel : Nat} (hfuel : p.length < fuel) :
    (items first done fuel).run st =
      .ok (Pattern.ofList (done.reverse ++ p.map literalOf), st.past (Regex.escape p).length) := by
  induction p using escapeInduction generalizing st done fuel with
  | nil =>
      obtain ⟨fuel, rfl⟩ : ∃ k, fuel = k + 1 := ⟨fuel - 1, by omega⟩
      rw [items_nil hrest]
      simp [State.past, Regex.escape]
  | escaped e he p hp ih =>
      obtain ⟨fuel, rfl⟩ : ∃ k, fuel = k + 1 := ⟨fuel - 1, by omega⟩
      rw [hp] at hrest ⊢
      have hrest' : (st.past 2).rest = Regex.escape p := by simp [State.past, hrest]
      rw [items_escaped he hrest (escape_ne_backslash p) hflags,
        ih hrest' hflags _ (by simpa using hfuel), past_past]
      simp [Nat.add_comm 2]
  | plain c hc p hp ih =>
      obtain ⟨fuel, rfl⟩ : ∃ k, fuel = k + 1 := ⟨fuel - 1, by omega⟩
      rw [hp] at hrest ⊢
      have hrest' : (st.past 1).rest = Regex.escape p := by simp [State.past, hrest]
      rw [items_plain hc hrest (escape_ne_backslash p) hflags,
        ih hrest' hflags _ (by simpa using hfuel), past_past]
      simp [Nat.add_comm 1]

theorem branches_escape (p : List Char) (hrest : st.rest = Regex.escape p) (hflags : st.flags = {})
    {fuel : Nat} (hfuel : p.length + 1 < fuel) :
    (branches false [] fuel).run st =
      .ok (Pattern.ofList (p.map literalOf), st.past (Regex.escape p).length) := by
  obtain ⟨fuel, rfl⟩ : ∃ k, fuel = k + 1 := ⟨fuel - 1, by omega⟩
  have hitems := items_escape p hrest hflags true [] (show p.length < fuel by omega)
  have hnil : (st.past (Regex.escape p).length).rest = [] := by simp [State.past, hrest]
  have hpeek := run_peek_nil hnil
  have haccept : (accept '|').run (st.past (Regex.escape p).length) =
      .ok (false, st.past (Regex.escape p).length) := by
    rw [accept, run_bind_ok hpeek]
    rfl
  rw [branches]
  exact (run_bind_ok hitems).trans (run_bind_ok haccept)

end

end Reader

theorem read_escape (known : CharacterNames) (p : List Char) :
    read known (escape p) {} = .ok ⟨Pattern.ofList (p.map literalOf), 0, []⟩ := by
  let st : Reader.State := { rest := escape p, position := 0, flags := {}, characters := known }
  have hlen := length_le_escape p
  have hbranches := Reader.branches_escape p (show st.rest = escape p from rfl) rfl
    (show p.length + 1 < 3 * (escape p).length + 8 by omega)
  have hcheck : Reader.checkEnd st = .ok () := if_neg (escape_ne_backslash p)
  have hnil : (st.past (escape p).length).rest = [] := by simp [Reader.State.past, st]
  have hpeek := Reader.run_peek_nil hnil
  have hwhole : (Reader.whole (3 * (escape p).length + 8)).run st =
      .ok (Pattern.ofList (p.map literalOf), st.past (escape p).length) := by
    rw [Reader.whole, Reader.run_bind_ok hbranches, Reader.run_bind_ok (Reader.run_get _)]
    exact Reader.run_bind_ok hpeek
  simp only [st] at hcheck hwhole
  simp only [read, hcheck, hwhole]
  rfl

end BaseLib.Regex
