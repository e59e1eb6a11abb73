import BaseLib.Proofs.Regex.Replace

namespace BaseLib.Regex

open Library Session

variable {s u : Session} {r : Regex} {t : List Char} {v : Value} {g : Nat} {m : Match}

/-- The properties of a match or a group are those of a span. -/
structure ReadsAs (s : Session) (v : Value) (x : Group) : Prop where
  value : s.exec (Properties.read v "Value") = (.ok (.text x.value), s)
  index : s.exec (Properties.read v "Index") = (.ok (.int x.index), s)
  length : s.exec (Properties.read v "Length") = (.ok (.int x.length), s)
  success : s.exec (Properties.read v "Success") = (.ok (.bool x.success), s)
  name : s.exec (Properties.read v "Name") = (.ok (.text x.name), s)

theorem exec_read_known {o : Object} {name : String} {x : Value} (ho : s.object? v = some o)
    (hx : Properties.known? s v o name = some x) : s.exec (Properties.read v name) = (.ok x, s) := by
  rw [Properties.read, exec_get_bind]
  simp only [ho, hx]
  rfl

theorem readsAs_match (h : s.object? v = some (.match_ m g)) :
    ReadsAs s v m.whole where
  value := exec_read_known h rfl
  index := exec_read_known h rfl
  length := exec_read_known h rfl
  success := exec_read_known h rfl
  name := exec_read_known h rfl

theorem readsAs_group {x : Group} (h : s.object? v = some (.group x)) : ReadsAs s v x where
  value := exec_read_known h rfl
  index := exec_read_known h rfl
  length := exec_read_known h rfl
  success := exec_read_known h rfl
  name := exec_read_known h rfl

/-- Asked for the next match again and again, a match leads through the spans of matches up to the first
one that is unsuccessful. -/
inductive Leads : Session → Value → List Group → Prop
  | stops {s : Session} {v : Value}
    (unsuccessful : s.exec (Properties.read v "Success") = (.ok (.bool false), s)) : Leads s v []
  | goes {s u : Session} {v next : Value} {x : Group} {rest : List Group} (reads : ReadsAs s v x)
    (success : x.success = true) (step : s.exec (Methods.call v "NextMatch" []) = (.ok next, u))
    (leads : Leads u next rest) : Leads s v (x :: rest)

theorem exec_nextMatch {id : Nat} {f : Found} (h : s.store[id]? = some (.match_ ⟨r, t, some f⟩ g)) :
    ∃ next g' u, s.exec (Methods.call (.ref id) "NextMatch" []) = (.ok (.ref next), u) ∧
      u.store[next]? = some (.match_ ⟨r, t, r.program.stepped t.toArray f⟩ g') := by
  obtain ⟨next, g', u, hu, -, hnext⟩ := exec_newMatch s (Match.next ⟨r, t, some f⟩)
  refine ⟨next, g', u, (exec_call h rfl []).trans ?_, ?_⟩
  · exact hu
  · rw [hnext, next_eq]

theorem leads_walk {fuel id : Nat} {o : Option Found}
    (ho : ∀ f ∈ o, f.Inside t.toArray ∧ f.places t.toArray < fuel)
    (h : s.store[id]? = some (.match_ ⟨r, t, o⟩ g)) :
    Leads s (.ref id) ((walk (r.program.stepped t.toArray) fuel o).map fun f =>
      (⟨r, t, some f⟩ : Match).whole) := by
  induction fuel generalizing s g id o with
  | zero =>
      cases o with
      | none => exact .stops (readsAs_match (v := .ref id) h).success
      | some f => exact absurd (ho f rfl).2 (Nat.not_lt_zero _)
  | succ fuel ih =>
      cases o with
      | none => exact .stops (readsAs_match (v := .ref id) h).success
      | some f =>
          obtain ⟨hin, hplaces⟩ := ho f rfl
          obtain ⟨next, g', u, hu, hnext⟩ := exec_nextMatch h
          refine .goes (readsAs_match (v := .ref id) h) rfl hu (ih (fun f' hf' => ?_) hnext)
          obtain ⟨hin', hlt⟩ := stepped_falls r.program t.toArray f f' hin hf'
          exact ⟨hin', by omega⟩

def Found.Behind (f f' : Found) : Prop := f.start < f'.start ∧ f.stop ≤ f'.start

theorem behind_stepped {p : Program} {text : Array Char} {f f' : Found} (hf : f.Inside text)
    (h : p.stepped text f = some f') : f.Behind f' := by
  have hstop := stop_le_stepped h
  refine ⟨?_, hstop⟩
  by_cases he : f.start = f.stop
  · rw [he]
    exact stop_lt_stepped he h
  · have := hf.1
    omega

theorem Found.Behind.trans {f f' f'' : Found} (h : f.Behind f') (h' : f'.Behind f'') : f.Behind f'' :=
  ⟨Nat.lt_trans h.1 h'.1, Nat.le_trans h.2 (Nat.le_of_lt h'.1)⟩

theorem pairwise_walk {p : Program} {text : Array Char} {fuel : Nat} {o : Option Found}
    (ho : ∀ f ∈ o, f.Inside text) : (walk (p.stepped text) fuel o).Pairwise Found.Behind := by
  induction fuel generalizing o with
  | zero => cases o <;> exact .nil
  | succ fuel ih =>
      cases o with
      | none => exact .nil
      | some f =>
          have hin := ho f rfl
          have hnext : ∀ f' ∈ p.stepped text f, f'.Inside text := fun f' hf' =>
            (stepped_falls p text f f' hin hf').1
          rw [walk]
          refine .cons ?_ (ih hnext)
          have hlater : Falls (p.stepped text) (fun f' => f'.Inside text ∧ f.Behind f')
              (Found.places text) := by
            rintro f' f'' ⟨hin', hbehind⟩ hf''
            obtain ⟨hin'', hlt⟩ := stepped_falls p text f' f'' hin' hf''
            exact ⟨⟨hin'', hbehind.trans (behind_stepped hin' hf'')⟩, hlt⟩
          intro f' hf'
          exact (good_of_mem_walk hlater (fun f' hf' => ⟨hnext f' hf', behind_stepped hin hf'⟩) f' hf').2

theorem length_walk (next : Found → Option Found) (fuel : Nat) (o : Option Found) :
    (walk next fuel o).length ≤ fuel := by
  induction fuel generalizing o with
  | zero => cases o <;> exact Nat.le_refl 0
  | succ fuel ih =>
      cases o with
      | none => exact Nat.zero_le _
      | some f => exact Nat.succ_le_succ (ih _)

def Found.span (f : Found) (r : Regex) (t : List Char) : Group := (⟨r, t, some f⟩ : Match).whole

def spans (r : Regex) (t : List Char) (start : Nat) : List Group :=
  (r.matches_ t start).map Match.whole

theorem spans_eq_walk (r : Regex) (t : List Char) (start : Nat) :
    r.spans t start = (walk (r.program.stepped t.toArray) (t.length - start + 1)
      (r.program.search t.toArray start false)).map fun f => f.span r t := by
  rw [spans, matches_eq_walk, List.map_map]
  rfl

theorem Found.Inside.stop_eq {f : Found} {text : Array Char} (h : f.Inside text) :
    f.start + (f.stop - f.start) = f.stop := Nat.add_sub_of_le h.1

theorem exec_matchFrom {id start : Nat} {o : Value} (h : s.store[id]? = some (.regex r o))
    (hs : start ≤ t.length) :
    ∃ m g u, s.exec (Methods.call (.ref id) "Match" [.text t, .int start]) = (.ok (.ref m), u) ∧
      u.store[m]? = some (.match_ (r.matchFrom t start) g) := by
  obtain ⟨m, g, u, hu, -, hm⟩ := exec_newMatch s (r.matchFrom t start)
  refine ⟨m, g, u, (exec_call h rfl _).trans ?_, hm⟩
  exact (exec_bind_ok (exec_checkedInput s hs) _).trans hu

theorem exec_listing {id start : Nat} {o : Value} (h : s.store[id]? = some (.regex r o))
    (hs : start ≤ t.length) :
    ∃ l storage u,
      s.exec (Methods.call (.ref id) "Matches" [.text t, .int start]) = (.ok (.ref l), u) ∧
        u.store[l]? = some (.list .list storage) ∧
        List.Forall₂ (ReadsAs u) (u.items storage) (r.spans t start) := by
  obtain ⟨l, storage, u, hu, hlist, hitems⟩ := exec_matches h hs
  refine ⟨l, storage, u, hu, hlist, List.forall₂_map_right_iff.mpr (hitems.imp ?_)⟩
  rintro v m ⟨g, hg⟩
  exact readsAs_match hg

theorem exec_leads {id start : Nat} {o : Value} (h : s.store[id]? = some (.regex r o))
    (hs : start ≤ t.length) :
    ∃ m u, s.exec (Methods.call (.ref id) "Match" [.text t, .int start]) = (.ok m, u) ∧
      Leads u m (r.spans t start) := by
  obtain ⟨m, g, u, hu, hm⟩ := exec_matchFrom h hs
  refine ⟨.ref m, u, hu, ?_⟩
  rw [spans_eq_walk]
  refine leads_walk (fun f hf => ?_) hm
  obtain ⟨hin, hplaces, -⟩ := search_fueled hf
  exact ⟨hin, by simpa using hplaces⟩

theorem walk_inside (r : Regex) (t : List Char) (start fuel : Nat) :
    ∀ f ∈ walk (r.program.stepped t.toArray) fuel (r.program.search t.toArray start false),
      f.Inside t.toArray ∧ start ≤ f.start := by
  have hfalls : Falls (r.program.stepped t.toArray) (fun f => f.Inside t.toArray ∧ start ≤ f.start)
      (Found.places t.toArray) := by
    rintro f f' ⟨hin, hstart⟩ hf'
    obtain ⟨hin', hlt⟩ := stepped_falls r.program t.toArray f f' hin hf'
    exact ⟨⟨hin', Nat.le_trans hstart (Nat.le_of_lt (behind_stepped hin hf').1)⟩, hlt⟩
  refine good_of_mem_walk hfalls fun f hf => ?_
  obtain ⟨hstart, hle, hsize, -⟩ := search_lies hf
  exact ⟨⟨hle, hsize⟩, hstart⟩

/-- A listing of matches ends. It holds no more matches than there are places from the start on; each lies
in the text behind the one before it, its value is the text there, and the listing is what the first match
leads through, from one to the next. -/
theorem matches_listed {id start : Nat} {o : Value} (h : s.store[id]? = some (.regex r o))
    (hs : start ≤ t.length) :
    ∃ xs : List Group,
      (∃ l storage u,
        s.exec (Methods.call (.ref id) "Matches" [.text t, .int start]) = (.ok (.ref l), u) ∧
          u.store[l]? = some (.list .list storage) ∧
          List.Forall₂ (ReadsAs u) (u.items storage) xs) ∧
        (∃ m u, s.exec (Methods.call (.ref id) "Match" [.text t, .int start]) = (.ok m, u) ∧
          Leads u m xs) ∧
        xs.length ≤ t.length - start + 1 ∧
        (∀ x ∈ xs, x.success = true ∧ start ≤ x.index ∧ x.index + x.length ≤ t.length ∧
          x.value = (t.drop x.index).take x.length) ∧
        xs.Pairwise fun x x' => x.index < x'.index ∧ x.index + x.length ≤ x'.index := by
  refine ⟨r.spans t start, exec_listing h hs, exec_leads h hs, ?_, ?_, ?_⟩
  · rw [spans_eq_walk, List.length_map]
    exact length_walk _ _ _
  · intro x hx
    rw [spans_eq_walk] at hx
    obtain ⟨f, hf, rfl⟩ := List.mem_map.mp hx
    obtain ⟨hin, hstart⟩ := walk_inside r t start _ f hf
    have hstop := hin.stop_eq
    refine ⟨rfl, hstart, ?_, rfl⟩
    calc f.start + (f.stop - f.start) = f.stop := hstop
      _ ≤ t.length := by simpa using hin.2
  · rw [spans_eq_walk, List.pairwise_map]
    have hinside := walk_inside r t start (t.length - start + 1)
    refine (pairwise_walk fun f hf => ?_).imp_of_mem ?_
    · obtain ⟨-, hle, hsize, -⟩ := search_lies hf
      exact ⟨hle, hsize⟩
    · intro f f' hf _ hbehind
      have hstop := (hinside f hf).1.stop_eq
      refine ⟨hbehind.1, ?_⟩
      calc f.start + (f.stop - f.start) = f.stop := hstop
        _ ≤ f'.start := hbehind.2

theorem matches_listed_emptyOrLetter :
    bracketing.store[0]? = some (.regex emptyOrLetter (.int 0)) ∧ 1 ≤ ['b', 'a'].length ∧
      ∃ xs : List Group,
        (∃ m u, bracketing.exec (Methods.call (.ref 0) "Match" [.text ['b', 'a'], .int (1 : Nat)]) =
          (.ok m, u) ∧ Leads u m xs) ∧
        xs.length ≤ 2 := by
  obtain ⟨xs, -, hleads, hlength, -⟩ := matches_listed (s := bracketing) (t := ['b', 'a'])
    (show bracketing.store[0]? = some (.regex emptyOrLetter (.int 0)) from rfl)
    (show 1 ≤ ['b', 'a'].length by decide)
  exact ⟨rfl, by decide, xs, hleads, hlength⟩

end BaseLib.Regex
