import BaseLib.Proofs.Regex.Walks

namespace BaseLib.Regex

variable {r : Regex} {t : List Char} {m : Found}

def splice (t : List Char) : Nat → List (Group × List Char) → List Char
  | last, [] => t.drop last
  | last, (g, x) :: rest =>
    (t.drop last).take (g.index - last) ++ x ++ splice t (g.index + g.length) rest

def Found.replacedWith (m : Found) (r : Regex) (t x : List Char) : Group × List Char :=
  ((⟨r, t, some m⟩ : Match).whole, x)

theorem splice_cons (hm : m.start ≤ m.stop) (last : Nat) (x : List Char)
    (rest : List (Group × List Char)) :
    splice t last (m.replacedWith r t x :: rest) =
      (t.drop last).take (m.start - last) ++ x ++ splice t m.stop rest := by
  simp only [splice, Found.replacedWith, Match.whole, Nat.add_sub_of_le hm]

theorem head?_splice {next : Found → Option Found} {fuel last : Nat} {o : Option Found}
    {x : List Char} (hlast : last < t.length) (ho : ∀ m ∈ o, m.start ≤ m.stop ∧ last < m.start) :
    (splice t last ((walk next fuel o).map fun m => m.replacedWith r t x)).head? = some t[last] := by
  have hdrop := List.drop_eq_getElem_cons hlast
  have hnil : (t.drop last).head? = some t[last] := by rw [hdrop, List.head?_cons]
  cases o with
  | none => cases fuel <;> exact hnil
  | some m =>
      cases fuel with
      | zero => exact hnil
      | succ fuel =>
          obtain ⟨hle, hlt⟩ := ho m rfl
          obtain ⟨k, hk⟩ : ∃ k, m.start - last = k + 1 := ⟨m.start - last - 1, by omega⟩
          rw [walk, List.map_cons, splice_cons hle, hdrop, hk, List.take_succ_cons, List.cons_append,
            List.cons_append, List.head?_cons]

/-- Where one walk goes on with a longer match at the end of an empty one and the other steps over it,
a letter other than the one between them is at the front of only one text. -/
theorem exists_splice_ne_of_longer {fuel fuel' : Nat} (hin : m.Inside t.toArray) (he : m.start = m.stop)
    (hμ : m.turns t.toArray < fuel' + 1)
    (hlonger : r.program.matchAt t.toArray m.stop true ≠ none) :
    ∃ c : Char,
      splice t m.stop ((walk (r.program.resumed t.toArray) fuel' (r.program.resumed t.toArray m)).map
          fun m => m.replacedWith r t [c]) ≠
        splice t m.stop ((walk (r.program.stepped t.toArray) fuel (r.program.stepped t.toArray m)).map
          fun m => m.replacedWith r t [c]) := by
  obtain ⟨m', ha⟩ := Option.ne_none_iff_exists'.mp hlonger
  obtain ⟨⟨-, hle', hsize', hmoves⟩, hstart⟩ := matchAt_lies hin.2 ha
  have hlt : m.stop < t.length := by
    have := hmoves rfl
    rw [List.size_toArray] at hsize'
    omega
  have hnext := resumed_of_longer he hin.2 ha
  obtain ⟨fuel', rfl⟩ : ∃ k, fuel' = k + 1 := by
    have := (resumed_falls r.program t.toArray m m' hin hnext).2
    exact ⟨fuel' - 1, by omega⟩
  have hstepped (x : Found) (hx : x ∈ r.program.stepped t.toArray m) :
      x.start ≤ x.stop ∧ m.stop < x.start :=
    ⟨(stepped_falls r.program t.toArray m x hin hx).1.1, stop_lt_stepped he hx⟩
  obtain ⟨c, hc⟩ : ∃ c : Char, c ≠ t[m.stop] := by
    by_cases hb : t[m.stop] = 'a'
    · exact ⟨'b', by simp [hb]⟩
    · exact ⟨'a', Ne.symm hb⟩
  refine ⟨c, fun h => hc ?_⟩
  have hheads := congrArg List.head? h
  rw [head?_splice hlt hstepped, hnext, walk, List.map_cons, splice_cons (hstart ▸ hle'), hstart,
    Nat.sub_self, List.take_zero, List.nil_append, List.cons_append, List.head?_cons] at hheads
  exact Option.some_inj.mp hheads

theorem exists_splice_ne {fuel fuel' last : Nat} {o : Option Found}
    (ho : ∀ m ∈ o, m.Fueled t.toArray fuel fuel')
    (hne : walk (r.program.resumed t.toArray) fuel' o ≠ walk (r.program.stepped t.toArray) fuel o) :
    ∃ c : Char,
      splice t last ((walk (r.program.resumed t.toArray) fuel' o).map
          fun m => m.replacedWith r t [c]) ≠
        splice t last ((walk (r.program.stepped t.toArray) fuel o).map
          fun m => m.replacedWith r t [c]) := by
  induction fuel generalizing o fuel' last with
  | zero =>
      cases o with
      | none => cases fuel' <;> exact absurd rfl hne
      | some m => exact absurd (ho m rfl).2.1 (Nat.not_lt_zero _)
  | succ fuel ih =>
      cases o with
      | none => cases fuel' <;> exact absurd rfl hne
      | some m =>
          obtain ⟨hin, hμ, hμ'⟩ := ho m rfl
          obtain ⟨fuel', rfl⟩ : ∃ k, fuel' = k + 1 := ⟨fuel' - 1, by omega⟩
          simp only [walk, List.map_cons, splice_cons hin.1] at hne ⊢
          -- Both texts begin alike up to the end of this match; they part here or further on.
          suffices hrest : ∃ c : Char, splice t m.stop _ ≠ splice t m.stop _ by
            obtain ⟨c, hc⟩ := hrest
            exact ⟨c, fun h => hc (List.append_cancel_left h)⟩
          by_cases hone : r.program.resumed t.toArray m = r.program.stepped t.toArray m
          · have hfueled (x : Found) (hx : x ∈ r.program.stepped t.toArray m) :
                x.Fueled t.toArray fuel fuel' := by
              obtain ⟨hxin, hlt⟩ := stepped_falls r.program t.toArray m x hin hx
              have hlt' := (resumed_falls r.program t.toArray m x hin (hone ▸ hx)).2
              exact ⟨hxin, by omega, by omega⟩
            rw [hone] at hne ⊢
            exact ih hfueled fun h => hne (by rw [h])
          · rw [resumed_eq_stepped_iff hin.2] at hone
            obtain ⟨he, hlonger⟩ := Classical.not_imp.mp hone
            exact exists_splice_ne_of_longer hin he hμ' hlonger

end BaseLib.Regex
