import BaseLib.Proofs.Regex.Splice
import BaseLib.Proofs.Session.Exec

namespace BaseLib.Regex

open Library Session

variable {s : Session} {r : Regex} {t : List Char} {f : Value}

/-- The text with the spans of matches replaced by what a replacement gives for them, one after the
other. -/
def replacedBy (t : List Char) (f : Value) (ms : List Match) : Action Value := do
  let vs ← ms.mapM fun m => do pure (m, ← Patterns.substitute f m)
  let spans ← vs.mapM fun x => do pure (x.1.whole, ← needText x.2)
  pure (.text (splice t 0 spans))

def interleave (t : List Char) : Nat → List (Match × Value) → List Value
  | last, [] => [.text (t.drop last)]
  | last, (m, v) :: rest =>
    .text ((t.drop last).take (m.whole.index - last)) :: v ::
      interleave t (m.whole.index + m.whole.length) rest

theorem replacedPieces_eq (last : Nat) (fs : List Found) (hfs : ∀ x ∈ fs, x.start ≤ x.stop) :
    Patterns.replacedPieces r t f last fs = (do
      let vs ← (fs.map fun x => (⟨r, t, some x⟩ : Match)).mapM fun m => do
        pure (m, ← Patterns.substitute f m)
      pure (interleave t last vs)) := by
  induction fs generalizing last with
  | nil => rfl
  | cons x fs ih =>
      have hx : x.start + (x.stop - x.start) = x.stop := Nat.add_sub_of_le (hfs x (by simp))
      have ih := ih x.stop fun y hy => hfs y (by simp [hy])
      simp only [Patterns.replacedPieces, ih, List.map_cons, List.mapM_cons, bind_assoc, pure_bind,
        interleave, Match.whole, hx]

def textsOf : List Value → Except Fault (List (List Char))
  | [] => .ok []
  | .text x :: vs => (textsOf vs).map (x :: ·)
  | .broken _ :: _ => .error (.misuse .surrogate)
  | _ :: _ => .error (.misuse .wrongType)

def spansOf : List (Match × Value) → Except Fault (List (Group × List Char))
  | [] => .ok []
  | (m, .text x) :: vs => (spansOf vs).map ((m.whole, x) :: ·)
  | (_, .broken _) :: _ => .error (.misuse .surrogate)
  | _ :: _ => .error (.misuse .wrongType)

theorem exec_needTexts (s : Session) (vs : List Value) :
    s.exec (vs.mapM needText) = (textsOf vs, s) := by
  induction vs with
  | nil => rfl
  | cons v vs ih =>
      rw [List.mapM_cons, exec_bind]
      cases v with
      | text x =>
          have hx : s.exec (needText (.text x)) = (.ok x, s) := rfl
          simp only [hx, exec_bind, ih, textsOf]
          cases textsOf vs <;> rfl
      | _ => rfl

theorem exec_needSpans (s : Session) (vs : List (Match × Value)) :
    s.exec (vs.mapM fun x => do pure (x.1.whole, ← needText x.2)) = (spansOf vs, s) := by
  induction vs with
  | nil => rfl
  | cons v vs ih =>
      obtain ⟨m, v⟩ := v
      rw [List.mapM_cons, exec_bind]
      cases v with
      | text x =>
          have hx : s.exec (do pure (m.whole, ← needText (.text x))) = (.ok (m.whole, x), s) := rfl
          simp only [hx, exec_bind, ih, spansOf]
          cases spansOf vs <;> rfl
      | _ => rfl

theorem textsOf_interleave (last : Nat) (vs : List (Match × Value)) :
    (textsOf (interleave t last vs)).map List.flatten = (spansOf vs).map (splice t last) := by
  induction vs generalizing last with
  | nil => simp [interleave, textsOf, spansOf, splice, Except.map]
  | cons v vs ih =>
      obtain ⟨m, v⟩ := v
      have ih := ih (m.whole.index + m.whole.length)
      cases v with
      | text x =>
          simp only [interleave, textsOf, spansOf]
          cases ht : textsOf (interleave t (m.whole.index + m.whole.length) vs) <;>
            cases hs : spansOf vs <;> simp_all [Except.map, splice]
      | _ => rfl

theorem exec_checkedInput (s : Session) {start : Nat} (h : start ≤ t.length) :
    s.exec (Patterns.checkedInput (.text t) (.int start)) = (.ok (t, start), s) := by
  have hnull : s.exec (notNull (.text t) "input") = (.ok (), s) := rfl
  have htext : s.exec (needText (.text t)) = (.ok t, s) := rfl
  have hint : s.exec (needInt (.int start)) = (.ok (start : Int), s) := rfl
  have hrange : ¬ ((start : Int) < 0 ∨ (t.length : Int) < start) := by omega
  rw [Patterns.checkedInput, exec_bind_ok hnull, exec_bind_ok htext, exec_bind_ok hint, if_neg hrange]
  rfl

def allowed {α : Type} (n : Int) (ms : List α) : List α := if n < 0 then ms else ms.take n.toNat

theorem map_allowed {α β : Type} (g : α → β) (n : Int) (ms : List α) :
    (allowed n ms).map g = allowed n (ms.map g) := by
  unfold allowed
  split
  · rfl
  · exact List.map_take

theorem mem_of_mem_allowed {α : Type} {n : Int} {ms : List α} {x : α} (h : x ∈ allowed n ms) :
    x ∈ ms := by
  unfold allowed at h
  split at h
  · exact h
  · exact List.mem_of_mem_take h

theorem exec_limited (s : Session) (n : Int) (fs : List Found) :
    s.exec (Patterns.limited (.int n) fs) = (.ok (allowed n fs), s) := by
  cases fs with
  | nil =>
      have hnil : allowed n ([] : List Found) = [] := by simp [allowed]
      rw [hnil]
      rfl
  | cons f fs => rfl

theorem scanned_inside (r : Regex) (t : List Char) (start : Nat) :
    ∀ x ∈ r.program.scan t.toArray start, x.start ≤ x.stop := by
  intro x hx
  rw [Program.scan, scanFrom_eq_walk] at hx
  refine (good_of_mem_walk (resumed_falls r.program t.toArray) (fun m hm => ?_) x hx).1
  obtain ⟨-, hle, hsize, -⟩ := search_lies hm
  exact ⟨hle, hsize⟩

theorem exec_replace (s : Session) {start : Nat} (h : start ≤ t.length) (hf : f ≠ .null) {n : Int}
    (hn : n ≠ 0) :
    s.exec (Patterns.replace r (.text t) f (.int n) (.int start)) =
      s.exec (replacedBy t f (allowed n (r.scanned t start))) := by
  have hnull := exec_notNull hf s "replacement"
  have hview (n : Int) : s.view (.int n) = .number (.int n) := rfl
  have hcount : s.looselyEquals (.int n) (.int 0) = false := by
    simp [Session.looselyEquals, hview, Datum.eqv, Datum.leafEq, Datum.numberEq, Datum.isNullable,
      Datum.bare, Datum.number?, Number.eq, Number.compare?, hn]
  rw [Patterns.replace, exec_bind_ok (exec_checkedInput s h)]
  simp only [exec_bind_ok hnull, exec_get_bind, hcount, Bool.false_eq_true, if_false]
  have hinside := fun x hx => scanned_inside r t start x (mem_of_mem_allowed (n := n) hx)
  rw [exec_bind_ok (exec_limited s n _), replacedPieces_eq 0 _ hinside, replacedBy,
    scanned, ← map_allowed, bind_assoc, exec_bind, exec_bind]
  rcases s.exec (List.mapM _ _) with ⟨e | vs, u⟩
  · rfl
  · have hpieces := textsOf_interleave (t := t) 0 vs
    simp only [pure_bind, exec_bind, exec_needTexts, exec_needSpans]
    cases ht : textsOf (interleave t 0 vs) <;> cases hs : spansOf vs <;>
      simp_all [Except.map]

theorem object?_extends {s t : Session} (h : Extends s t) {v : Value} {o : Object}
    (ho : s.object? v = some o) : t.object? v = some o := by
  cases v with
  | ref id => exact h.kept ho
  | _ => cases ho

theorem exec_newGroups (s : Session) (gs : List Group) :
    ∃ vs t, s.exec (Patterns.newGroups gs) = (.ok vs, t) ∧ Extends s t ∧
      List.Forall₂ (fun v g => t.object? v = some (.group g)) vs gs := by
  induction gs generalizing s with
  | nil => exact ⟨[], s, rfl, Extends.refl s, .nil⟩
  | cons g gs ih =>
      obtain ⟨vs, t, ht, hext, hvs⟩ := ih (s.grow (.group g))
      refine ⟨.ref s.store.size :: vs, t, ?_, (extends_grow s _).trans hext, .cons ?_ hvs⟩
      · rw [Patterns.newGroups, exec_bind_ok (exec_alloc s _), exec_bind_ok ht, exec_pure]
      · exact hext.kept (store_grow s _)

structure MatchObject (s : Session) (v : Value) (m : Match) : Prop where
  objects : ∃ g members items, s.object? v = some (.match_ m g) ∧
    s.store[g]? = some (.groups members m.regex.groupNames) ∧ s.store[members]? = some (.array items) ∧
    List.Forall₂ (fun w x => s.object? w = some (.group x)) items m.groups

theorem MatchObject.extends {s u : Session} {v : Value} {m : Match} (h : MatchObject s v m) (hext : Extends s u) :
    MatchObject u v m := by
  obtain ⟨g, members, items, hv, hg, hmembers, hitems⟩ := h.objects
  exact ⟨g, members, items, object?_extends hext hv, hext.kept hg, hext.kept hmembers,
    hitems.imp fun _ _ hx => object?_extends hext hx⟩

theorem exec_newMatch_object (s : Session) (m : Match) :
    ∃ id t, s.exec (Patterns.newMatch m) = (.ok (.ref id), t) ∧ Extends s t ∧ MatchObject t (.ref id) m := by
  obtain ⟨vs, t, ht, hext, hvs⟩ := exec_newGroups s m.groups
  have hrun : s.exec (Patterns.newMatch m) =
      (.ok (.ref ((t.grow (.array vs)).grow (.groups t.store.size m.regex.groupNames)).store.size),
        ((t.grow (.array vs)).grow (.groups t.store.size m.regex.groupNames)).grow
          (.match_ m (t.grow (.array vs)).store.size)) := by
    rw [Patterns.newMatch, exec_bind_ok ht]
    rfl
  have hlast := extends_grow ((t.grow (.array vs)).grow (.groups t.store.size m.regex.groupNames))
    (.match_ m (t.grow (.array vs)).store.size)
  have hlater := (extends_grow (t.grow (.array vs)) (.groups t.store.size m.regex.groupNames)).trans hlast
  have hall := (extends_grow t (.array vs)).trans hlater
  refine ⟨_, _, hrun, hext.trans hall, ⟨_, t.store.size, vs, object?_grow _ _, ?_, ?_, ?_⟩⟩
  · exact hlast.kept (store_grow _ _)
  · exact hlater.kept (store_grow _ _)
  · exact hvs.imp fun _ _ hx => object?_extends hall hx

theorem exec_newMatch (s : Session) (m : Match) :
    ∃ id g t, s.exec (Patterns.newMatch m) = (.ok (.ref id), t) ∧ Extends s t ∧
      t.store[id]? = some (.match_ m g) := by
  obtain ⟨id, t, ht, hext, hholds⟩ := exec_newMatch_object s m
  obtain ⟨g, -, -, hm, -⟩ := hholds.objects
  exact ⟨id, g, t, ht, hext, hm⟩

theorem exec_newMatches (s : Session) (ms : List Match) :
    ∃ vs t, s.exec (Patterns.newMatches ms) = (.ok vs, t) ∧ Extends s t ∧
      List.Forall₂ (fun v m => ∃ g, t.object? v = some (.match_ m g)) vs ms := by
  induction ms generalizing s with
  | nil => exact ⟨[], s, rfl, Extends.refl s, .nil⟩
  | cons m ms ih =>
      obtain ⟨id, g, t, ht, hext, hm⟩ := exec_newMatch s m
      obtain ⟨vs, u, hu, hext', hvs⟩ := ih t
      refine ⟨.ref id :: vs, u, ?_, hext.trans hext', .cons ⟨g, hext'.kept hm⟩ hvs⟩
      rw [Patterns.newMatches, exec_bind_ok ht, exec_bind_ok hu, exec_pure]

theorem exec_matches {id start : Nat} {o : Value} (hr : s.store[id]? = some (.regex r o))
    (h : start ≤ t.length) :
    ∃ l storage u,
      s.exec (Methods.call (.ref id) "Matches" [.text t, .int start]) = (.ok (.ref l), u) ∧
      u.store[l]? = some (.list .list storage) ∧
      List.Forall₂ (fun v m => ∃ g, u.object? v = some (.match_ m g)) (u.items storage)
        (r.matches_ t start) := by
  obtain ⟨vs, u, hu, -, hvs⟩ := exec_newMatches s (r.matches_ t start)
  obtain ⟨l, storage, w, hw, hext, hlist, hitems⟩ := exec_newListOf u .list vs
  refine ⟨l, storage, w, (exec_call hr rfl _).trans ?_, hlist, ?_⟩
  · refine Eq.trans (exec_bind_ok (exec_checkedInput s h) _) ?_
    exact (exec_bind_ok hu _).trans hw
  · rw [hitems]
    refine hvs.imp fun v m hm => ?_
    obtain ⟨g, hg⟩ := hm
    exact ⟨g, object?_extends hext hg⟩

def constantly (r : Regex) (c : Char) : Session :=
  { Session.start 0 with store := #[.regex r (.int 0), .function ⟨.const, .text [c], false⟩] }

theorem exec_apply_const {i : Nat} {x : List Char}
    (hi : s.store[i]? = some (.function ⟨.const, .text x, false⟩)) (hs : 1 ≤ s.steps)
    (v : Value) :
    s.exec (apply (.ref i) [v]) = (.ok (.text x), s) := by
  obtain ⟨n, hn⟩ : ∃ n, s.steps = n + 1 := ⟨s.steps - 1, by omega⟩
  rw [apply, exec_get_bind, hn, applyAt, callWith, exec_get_bind]
  simp only [object?, hi]
  rfl

theorem exec_substitute_const {i : Nat} {x : List Char}
    (hi : s.store[i]? = some (.function ⟨.const, .text x, false⟩)) (hs : 1 ≤ s.steps)
    (m : Match) :
    ∃ u, s.exec (Patterns.substitute (.ref i) m) = (.ok (.text x), u) ∧ Extends s u := by
  obtain ⟨id, g, u, hu, hext, -⟩ := exec_newMatch s m
  have hi' := hext.kept hi
  refine ⟨u, ?_, hext⟩
  rw [Patterns.substitute, exec_bind_ok hu, exec_get_bind]
  simp only [object?, hi']
  exact exec_apply_const hi' (hext.steps ▸ hs) _

theorem spansOf_const (x : List Char) (ms : List Match) :
    spansOf (ms.map fun m => (m, .text x)) = .ok (ms.map fun m => (m.whole, x)) := by
  induction ms with
  | nil => rfl
  | cons m ms ih => simp [spansOf, ih, Except.map]

theorem exec_replacedBy_of {P : Session → Prop} {x : List Char}
    (hf : ∀ {s m}, P s → ∃ u, s.exec (Patterns.substitute f m) = (.ok (.text x), u) ∧ P u)
    (hs : P s) (ms : List Match) :
    ∃ u, s.exec (replacedBy t f ms) =
      (.ok (.text (splice t 0 (ms.map fun m => (m.whole, x)))), u) := by
  have hvs : ∃ u, s.exec (ms.mapM fun m => do pure (m, ← Patterns.substitute f m)) =
      (.ok (ms.map fun m => (m, .text x)), u) := by
    induction ms generalizing s with
    | nil => exact ⟨s, rfl⟩
    | cons m ms ih =>
        obtain ⟨u, hu, hPu⟩ := hf (m := m) hs
        obtain ⟨w, hw⟩ := ih hPu
        refine ⟨w, ?_⟩
        rw [List.mapM_cons, bind_assoc, exec_bind_ok hu, pure_bind, exec_bind_ok hw]
        rfl
  obtain ⟨u, hu⟩ := hvs
  refine ⟨u, ?_⟩
  rw [replacedBy, exec_bind_ok hu, exec_bind, exec_needSpans, spansOf_const]
  rfl

theorem exec_replacedBy_const {i : Nat} {x : List Char}
    (hi : s.store[i]? = some (.function ⟨.const, .text x, false⟩)) (hs : 1 ≤ s.steps)
    (ms : List Match) :
    ∃ u, s.exec (replacedBy t (.ref i) ms) =
      (.ok (.text (splice t 0 (ms.map fun m => (m.whole, x)))), u) := by
  refine exec_replacedBy_of (P := fun s =>
    s.store[i]? = some (.function ⟨.const, .text x, false⟩) ∧ 1 ≤ s.steps) ?_ ⟨hi, hs⟩ ms
  rintro s m ⟨hi, hs⟩
  obtain ⟨u, hu, hext⟩ := exec_substitute_const hi hs m
  exact ⟨u, hu, hext.kept hi, hext.steps ▸ hs⟩

theorem exists_replaced_ne {start : Nat} (h : ¬ r.NoneLonger t start) :
    ∃ c : Char, splice t 0 ((r.scanned t start).map fun m => (m.whole, [c])) ≠
      splice t 0 ((r.matches_ t start).map fun m => (m.whole, [c])) := by
  rw [← scanned_eq_matches_iff, scanned_eq_walk, matches_eq_walk] at h
  rw [scanned_eq_walk, matches_eq_walk]
  simp only [List.map_map]
  refine exists_splice_ne (fun m hm => ?_) fun heq => h (by rw [heq])
  simpa using search_fueled hm

theorem call_replace {id start : Nat} {o : Value} (hr : s.store[id]? = some (.regex r o))
    (h : start ≤ t.length) (hf : f ≠ .null) :
    s.exec (Methods.call (.ref id) "Replace" [.text t, f, .int (-1), .int start]) =
      s.exec (replacedBy t f (r.scanned t start)) := by
  rw [show r.scanned t start = allowed (-1) (r.scanned t start) from rfl,
    ← exec_replace s h hf (by decide)]
  exact (exec_call hr rfl _).trans rfl

/-- The matches that a regular expression lists are those that it replaces, whatever by, exactly where
no longer match begins at an empty one. -/
theorem replaces_matches_iff {start : Nat} (h : start ≤ t.length) :
    (∀ (s : Session) (id : Nat) (o : Value), s.store[id]? = some (.regex r o) →
      ∃ l storage u,
        s.exec (Methods.call (.ref id) "Matches" [.text t, .int start]) = (.ok (.ref l), u) ∧
          u.store[l]? = some (.list .list storage) ∧
          List.Forall₂ (fun v m => ∃ g, u.object? v = some (.match_ m g)) (u.items storage)
            (r.matches_ t start)) ∧
      ((∀ (s : Session) (id : Nat) (o f : Value), s.store[id]? = some (.regex r o) → f ≠ .null →
        s.exec (Methods.call (.ref id) "Replace" [.text t, f, .int (-1), .int start]) =
          s.exec (replacedBy t f (r.matches_ t start))) ↔ r.NoneLonger t start) := by
  refine ⟨fun s id o hr => exec_matches hr h, fun hall => ?_, fun hnone s id o f hr hf => ?_⟩
  · by_contra hlonger
    obtain ⟨c, hc⟩ := exists_replaced_ne hlonger
    have hf : (constantly r c).store[1]? = some (.function ⟨.const, .text [c], false⟩) := rfl
    have hs : 1 ≤ (constantly r c).steps := (by decide : 1 ≤ 1000000)
    obtain ⟨u, hu⟩ := exec_replacedBy_const (t := t) hf hs (r.scanned t start)
    obtain ⟨w, hw⟩ := exec_replacedBy_const (t := t) hf hs (r.matches_ t start)
    have heq := hall (constantly r c) 0 (.int 0) (.ref 1) rfl (by simp)
    rw [call_replace rfl h (by simp), hu, hw] at heq
    exact hc (by simpa using congrArg Prod.fst heq)
  · rw [call_replace hr h hf, (scanned_eq_matches_iff r t start).mpr hnone]

def emptyOrLetter : Regex :=
  ⟨"|a".toList, ⟨0⟩, ⟨.alt .empty (.char (.literal .exact 97 false)), 0, []⟩⟩

def bracketing : Session :=
  { start 0 with store := #[.regex emptyOrLetter (.int 0), .function ⟨.bracket, .null, false⟩] }

theorem replaces_matches_iff_emptyOrLetter :
    (∀ (s : Session) (id : Nat) (o : Value), s.store[id]? = some (.regex emptyOrLetter o) →
      ∃ l storage u,
        s.exec (Methods.call (.ref id) "Matches" [.text ['b'], .int (0 : Nat)]) = (.ok (.ref l), u) ∧
          u.store[l]? = some (.list .list storage) ∧
          List.Forall₂ (fun v m => ∃ g, u.object? v = some (.match_ m g)) (u.items storage)
            (emptyOrLetter.matches_ ['b'] 0)) ∧
      ((∀ (s : Session) (id : Nat) (o f : Value), s.store[id]? = some (.regex emptyOrLetter o) →
        f ≠ .null →
        s.exec (Methods.call (.ref id) "Replace" [.text ['b'], f, .int (-1), .int (0 : Nat)]) =
          s.exec (replacedBy ['b'] f (emptyOrLetter.matches_ ['b'] 0))) ↔
        emptyOrLetter.NoneLonger ['b'] 0) :=
  replaces_matches_iff (by decide)

/-- The letter behind an empty match is replaced, but no match that is listed holds it. -/
theorem replace_ne_matches :
    (Regex.ofPattern .empty "|a".toList ⟨0⟩).toOption = some emptyOrLetter ∧
      (bracketing.exec (Methods.call (.ref 0) "Replace"
        [.text ['a'], .ref 1, .int (-1), .int 0])).1.toOption = some (.text "[][a][]".toList) ∧
      (bracketing.exec (replacedBy ['a'] (.ref 1) (emptyOrLetter.matches_ ['a'] 0))).1.toOption =
        some (.text "[]a[]".toList) :=
  ⟨by decide +kernel, by decide +kernel, by decide +kernel⟩

end BaseLib.Regex
