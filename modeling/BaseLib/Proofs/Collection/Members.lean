import BaseLib.Library.Types
import BaseLib.Proofs.Enumeration.Cursors
import BaseLib.Proofs.Enumeration.Reading
import BaseLib.Proofs.Session.Runs
import BaseLib.Proofs.Session.Settled

namespace BaseLib

namespace Members

open Library Session Enumeration

/-- The elements that none of those before them equals; `before` stands before the list. -/
def firsts (same : Value → Value → Bool) (before : List Value) : List Value → List Value
  | [] => []
  | x :: xs =>
    if before.any (same · x) then firsts same (before ++ [x]) xs else x :: firsts same (before ++ [x]) xs

abbrev Classed := Value × Content

def sameContent (d e : Classed) : Bool := d.2 == e.2

variable {s t u : Session} {v x k : Value} {xs : List Value} {d : Classed} {ds es : List Classed}
  {members : Table Value Value} {c : Finset Content}

theorem any_sameContent : es.any (sameContent · d) = true ↔ d.2 ∈ es.map Prod.snd := by
  simp [sameContent]

def addNew (es : List Classed) (d : Classed) : List Classed :=
  if es.any (sameContent · d) then es else es ++ [d]

theorem foldl_addNew (es ds : List Classed) :
    ds.foldl addNew es = es ++ distinctFrom sameContent es ds := by
  induction ds generalizing es with
  | nil => rw [List.foldl_nil, distinctFrom, List.append_nil]
  | cons d ds ih =>
      rw [List.foldl_cons, ih, addNew, distinctFrom]
      split <;> simp

theorem mem_addNew {c : Content} : c ∈ (addNew es d).map Prod.snd ↔ c ∈ es.map Prod.snd ∨ c = d.2 := by
  unfold addNew
  split
  · rename_i hany
    refine ⟨.inl, ?_⟩
    rintro (h | rfl)
    · exact h
    · exact any_sameContent.mp hany
  · simp

theorem mem_foldl_addNew {c : Content} :
    c ∈ (ds.foldl addNew es).map Prod.snd ↔ c ∈ es.map Prod.snd ∨ c ∈ ds.map Prod.snd := by
  induction ds generalizing es with
  | nil => simp
  | cons d ds ih => rw [List.foldl_cons, ih, mem_addNew, List.map_cons, List.mem_cons, or_assoc]

theorem distinctFrom_sublist (es ds : List Classed) : (distinctFrom sameContent es ds).Sublist ds := by
  induction ds generalizing es with
  | nil => exact .refl []
  | cons d ds ih =>
      rw [distinctFrom]
      split
      · exact (ih es).cons d
      · exact (ih (es ++ [d])).cons_cons d

def withContent (s : Session) (xs : List Value) : List Classed := xs.map fun x => (x, s.content x)

theorem distinctFrom_withContent {before : List Value} (hxs : ∀ x ∈ xs, s.Settled x)
    (hbefore : ∀ x ∈ before, s.Settled x)
    (hes : ∀ c, c ∈ es.map Prod.snd ↔ c ∈ before.map s.content) :
    (distinctFrom sameContent es (withContent s xs)).map Prod.fst = firsts s.equals before xs := by
  induction xs generalizing before es with
  | nil => rfl
  | cons x xs ih =>
      have hx := hxs x (by simp)
      have hrest : ∀ y ∈ xs, s.Settled y := fun y hy => hxs y (by simp [hy])
      have hbefore' : ∀ y ∈ before ++ [x], s.Settled y := by
        intro y hy
        rcases List.mem_append.mp hy with hy | hy
        · exact hbefore y hy
        · rwa [List.mem_singleton.mp hy]
      have hany : es.any (sameContent · (x, s.content x)) = before.any (s.equals · x) := by
        rw [Bool.eq_iff_iff, any_sameContent, hes, List.any_eq_true, List.mem_map]
        refine exists_congr fun y => and_congr_right fun hy => ?_
        rw [(hbefore y hy).equals_eq hx, beq_iff_eq]
      rw [withContent, List.map_cons, distinctFrom, firsts, hany]
      split
      · rename_i hseen
        refine ih hrest hbefore' fun c => ?_
        have hmem := any_sameContent.mp (hany.trans hseen)
        rw [List.map_append, List.mem_append, ← hes, List.map_singleton, List.mem_singleton]
        refine ⟨.inl, ?_⟩
        rintro (h | rfl)
        · exact h
        · exact hmem
      · rw [List.map_cons]
        refine congrArg (x :: ·) (ih hrest hbefore' fun c => ?_)
        simp only [List.map_append, List.mem_append, hes, List.map_cons, List.map_nil]

structure IsSet (s : Session) (members : Table Value Value) (ds : List Classed) : Prop where
  entries : members.entries = ds.map fun d => (s.keying.token d.1, d.1)
  settled : ∀ d ∈ ds, s.Settled d.1
  content_eq : ∀ d ∈ ds, s.content d.1 = d.2
  nodup : (ds.map Prod.snd).Nodup

theorem empty_isSet (s : Session) : IsSet s .empty [] := ⟨rfl, by simp, by simp, .nil⟩

namespace IsSet

theorem size_eq (h : IsSet s members ds) : members.size = (ds.map Prod.snd).toFinset.card := by
  rw [List.toFinset_card_of_nodup h.nodup, Table.size, h.entries, List.length_map, List.length_map]

theorem similar (h : IsSet s members ds) (hst : Similar s t) : IsSet t members ds where
  entries := by
    rw [h.entries]
    refine List.map_congr_left fun d hd => ?_
    rw [(h.settled d hd).token_eq hst]
  settled d hd := (h.settled d hd).similar hst
  content_eq d hd := ((h.settled d hd).content_eq hst).trans (h.content_eq d hd)
  nodup := h.nodup

theorem contains_eq_any (h : IsSet s members ds) {w : Value} (hw : s.IsThere w) :
    members.contains s.keying w = ds.any fun d => s.equals d.1 w := by
  rw [Table.contains, h.entries, List.any_map, Bool.eq_iff_iff, List.any_eq_true, List.any_eq_true]
  refine exists_congr fun d => and_congr_right fun hd => ?_
  rw [Function.comp_apply, (h.settled d hd).answers_eq hw]

theorem answers_eq (h : IsSet s members ds) (hk : s.Settled k) (hd : d ∈ ds) :
    s.keying.answers (s.keying.token d.1) (s.keying.token k) = (d.2 == s.content k) := by
  rw [(h.settled d hd).answers_eq hk.there, (h.settled d hd).equals_eq hk, h.content_eq d hd]

theorem contains_eq (h : IsSet s members ds) (hk : s.Settled k) :
    members.contains s.keying k = decide (s.content k ∈ (ds.map Prod.snd).toFinset) := by
  rw [Table.contains, h.entries, List.any_map, Bool.eq_iff_iff, List.any_eq_true, decide_eq_true_iff,
    List.mem_toFinset, List.mem_map]
  refine exists_congr fun d => and_congr_right fun hd => ?_
  rw [Function.comp_apply, h.answers_eq hk hd, beq_iff_eq]

theorem append (h : IsSet s members ds) (hk : s.Settled k)
    (hnew : s.content k ∉ (ds.map Prod.snd).toFinset) :
    IsSet s ⟨members.entries ++ [(s.keying.token k, k)]⟩ (ds ++ [(k, s.content k)]) where
  entries := by
    rw [h.entries, List.map_append]
    rfl
  settled := List.forall_mem_append.mpr ⟨h.settled, by simpa using hk⟩
  content_eq := List.forall_mem_append.mpr ⟨h.content_eq, by simp⟩
  nodup := by
    rw [List.mem_toFinset] at hnew
    rw [List.map_append]
    exact List.nodup_append.mpr ⟨h.nodup, by simp, fun a ha b hb hab => hnew (by simp_all)⟩

theorem entries_erase (h : IsSet s members ds) (hk : s.Settled k) :
    members.entries.eraseP (fun e => s.keying.answers e.1 (s.keying.token k)) =
      (ds.eraseP fun d => d.2 == s.content k).map fun d => (s.keying.token d.1, d.1) := by
  have hcongr (es : List Classed) (hes : ∀ d ∈ es, d ∈ ds) :
      es.eraseP ((fun e => s.keying.answers e.1 (s.keying.token k)) ∘ fun d => (s.keying.token d.1, d.1)) =
        es.eraseP fun d => d.2 == s.content k := by
    induction es with
    | nil => rfl
    | cons d es ih =>
        have hd := h.answers_eq hk (hes d (by simp))
        rw [List.eraseP_cons, List.eraseP_cons, ih fun e he => hes e (by simp [he]), Function.comp_apply, hd]
  rw [h.entries, List.eraseP_map, hcongr ds fun _ hd => hd]

theorem erase (h : IsSet s members ds) (hk : s.Settled k) :
    ∃ es, IsSet s (members.erase s.keying k) es ∧
      (es.map Prod.snd).toFinset = (ds.map Prod.snd).toFinset.erase (s.content k) := by
  have hcontents : (ds.eraseP fun d => d.2 == s.content k).map Prod.snd =
      (ds.map Prod.snd).erase (s.content k) := by
    rw [List.erase_eq_eraseP', List.eraseP_map]
    rfl
  refine ⟨_, ⟨h.entries_erase hk, fun d hd => h.settled d (List.mem_of_mem_eraseP hd),
    fun d hd => h.content_eq d (List.mem_of_mem_eraseP hd), ?_⟩, ?_⟩
  · rw [hcontents]
    exact h.nodup.erase _
  · rw [hcontents]
    ext c
    rw [List.mem_toFinset, h.nodup.mem_erase_iff, Finset.mem_erase, List.mem_toFinset]

theorem addMember (h : IsSet s members ds) (hk : s.Settled k) :
    ∃ members' added, s.exec (Collections.addMember members k) = (.ok (members', added), s) ∧
      IsSet s members' (addNew ds (k, s.content k)) ∧
      added = decide (s.content k ∉ (ds.map Prod.snd).toFinset) := by
  have hkeyed : s.exec Collections.keyed = (.ok s.keying, s) := rfl
  have hany : ds.any (sameContent · (k, s.content k)) = true ↔ s.content k ∈ ds.map Prod.snd := any_sameContent
  rw [Collections.addMember, exec_bind_ok hkeyed, Table.add?, h.contains_eq hk, addNew]
  by_cases hin : s.content k ∈ (ds.map Prod.snd).toFinset
  · rw [if_pos (by simpa using hin), if_pos (hany.mpr (List.mem_toFinset.mp hin))]
    exact ⟨members, false, rfl, h, by simpa using hin⟩
  · rw [if_neg (by simpa using hin), if_neg fun h => hin (List.mem_toFinset.mpr (hany.mp h))]
    exact ⟨_, true, rfl, h.append hk hin, by simpa using hin⟩

end IsSet

def included (s : Session) (members : Table Value Value) (x : Value) : Table Value Value :=
  (members.add? s.keying x x).getD members

theorem exec_addMember_included (s : Session) (members : Table Value Value) (x : Value) :
    ∃ added, s.exec (Collections.addMember members x) = (.ok (included s members x, added), s) := by
  have hkeyed : s.exec Collections.keyed = (.ok s.keying, s) := rfl
  rw [Collections.addMember, exec_bind_ok hkeyed, included]
  cases members.add? s.keying x x with
  | some members' => exact ⟨true, rfl⟩
  | none => exact ⟨false, rfl⟩

theorem IsSet.foldl_included (h : IsSet s members ds) (hxs : ∀ x ∈ xs, s.Settled x) :
    IsSet s (foldUntil (fun members x => (true, included s members x)) members xs)
      ((withContent s xs).foldl addNew ds) := by
  induction xs generalizing members ds with
  | nil => exact h
  | cons x xs ih =>
      obtain ⟨members', added, hadd, hset, -⟩ := h.addMember (hxs x (by simp))
      obtain ⟨added', hadd'⟩ := exec_addMember_included s members x
      cases hadd.symm.trans hadd'
      exact ih hset fun y hy => hxs y (by simp [hy])

theorem exec_newSet (hv : s.Holds v xs) (hxs : ∀ x ∈ xs, s.Settled x) (hsteps : xs.length + 4 ≤ s.steps) :
    ∃ members, s.exec (Types.construct "HashSet" [v]) =
        (.ok (.ref s.store.size), s.grow (.hashSet members)) ∧
      IsSet s members ((withContent s xs).foldl addNew []) := by
  have hstep (members : Table Value Value) (x : Value) (_ : x ∈ xs) :
      s.exec (do pure (true, (← Collections.addMember members x).1)) =
        (.ok (true, included s members x), s) := by
    obtain ⟨added, hadd⟩ := exec_addMember_included s members x
    exact (exec_bind_ok hadd _).trans rfl
  have hfold := exec_foldSource hv hsteps hstep .empty
  refine ⟨_, ?_, (empty_isSet s).foldl_included hxs⟩
  have hcall : Types.construct "HashSet" [v] = Collections.newSet v := rfl
  rw [hcall, Collections.newSet, if_neg (by simpa using hv.ne_null), exec_bind_ok hfold, exec_alloc]

theorem exec_newList (hv : s.Holds v xs) (hsteps : xs.length + 4 ≤ s.steps) :
    ∃ list storage t, s.exec (Types.construct "List" [v]) = (.ok (.ref list), t) ∧ Extends s t ∧
      t.store[list]? = some (.list .list storage) ∧ t.items storage = xs := by
  have helements : s.exec (elements v) = (.ok xs, s) := by
    rw [elements, exec_get_bind]
    exact (scans_source hv).drain (by omega)
  obtain ⟨list, storage, t, ht, hext, hlist, hitems⟩ := exec_newListOf s .list xs
  refine ⟨list, storage, t, ?_, hext, hlist, hitems⟩
  have hcall : s.exec (Types.construct "List" [v]) = s.exec (Collections.newList .list v) := rfl
  have hnew : s.exec (Collections.newList .list v) = s.exec (elements v >>= newListOf .list) := by
    cases hv <;> rfl
  rw [hcall, hnew, exec_bind_ok helements, ht]

theorem foldUntil_any (p : Value → Bool) (xs : List Value) :
    foldUntil (fun _ x => if p x == true then (false, true) else (true, false)) false xs = xs.any p := by
  induction xs with
  | nil => rfl
  | cons x xs ih =>
      rw [foldUntil, List.any_cons]
      cases hp : p x with
      | true => simp
      | false => simpa using ih

theorem exec_queryContains (hv : s.Holds v xs) (hsteps : xs.length + 4 ≤ s.steps) (w : Value) :
    s.exec (Catalogue.call "Enumerable.Contains" [v, w]) = (.ok (.bool (xs.any (s.equals · w))), s) := by
  have hstep (_ : Bool) (x : Value) (_ : x ∈ xs) :
      s.exec (do
        if (← (do pure ((← get).equals x w) : Action Bool)) == true then pure (false, true)
        else pure (true, false)) =
        (.ok (if s.equals x w == true then (false, true) else (true, false)), s) := by
    show s.exec (if s.equals x w == true then pure (false, true) else pure (true, false)) = _
    split <;> rfl
  have hfold := exec_foldSource hv hsteps hstep false
  have hrequired := exec_notNull hv.ne_null s "source"
  have hexists : s.exec (Queries.exists_ v true fun x => do pure ((← get).equals x w)) =
      (.ok (xs.any (s.equals · w)), s) := by
    rw [Queries.exists_, exec_bind_ok hrequired, hfold, foldUntil_any (s.equals · w)]
  exact (exec_bind_ok hexists _).trans rfl

theorem exec_listContains {list storage : Nat} (hl : s.store[list]? = some (.list .list storage))
    (hxs : s.items storage = xs) (w : Value) :
    s.exec (Methods.call (.ref list) "Contains" [w]) = (.ok (.bool (xs.any (s.equals · w))), s) := by
  have hrun : s.exec (Methods.call (.ref list) "Contains" [w]) =
      (.ok (.bool (decide (0 ≤ Sequence.indexOf s.equals (s.items storage) w))), s) :=
    (exec_call hl rfl [w]).trans rfl
  rw [hrun, hxs]
  congr 3
  rw [Bool.eq_iff_iff, decide_eq_true_iff, Sequence.indexOf, Sequence.indexOf?]
  cases hfound : xs.findIdx? fun y => s.equals y w with
  | none => simpa using List.findIdx?_eq_none_iff.mp hfound
  | some i =>
      obtain ⟨hi, hequal, -⟩ := List.findIdx?_eq_some_iff_getElem.mp hfound
      simpa using ⟨xs[i], List.getElem_mem hi, hequal⟩

theorem IsSet.any_eq (h : IsSet s members ((withContent s xs).foldl addNew [])) (hxs : ∀ x ∈ xs, s.Settled x)
    (w : Value) :
    ((withContent s xs).foldl addNew []).any (fun d => s.equals d.1 w) = xs.any (s.equals · w) := by
  rw [Bool.eq_iff_iff, List.any_eq_true, List.any_eq_true]
  constructor
  · rintro ⟨d, hd, hequal⟩
    rw [foldl_addNew, List.nil_append] at hd
    obtain ⟨x, hx, rfl⟩ := List.mem_map.mp ((distinctFrom_sublist _ _).subset hd)
    exact ⟨x, hx, hequal⟩
  · rintro ⟨x, hx, hequal⟩
    have hmem : s.content x ∈ ((withContent s xs).foldl addNew []).map Prod.snd := by
      refine mem_foldl_addNew.mpr (.inr ?_)
      simpa [withContent] using ⟨x, hx, rfl⟩
    obtain ⟨d, hd, hcontent⟩ := List.mem_map.mp hmem
    refine ⟨d, hd, ?_⟩
    have hd' := h.settled d hd
    have hsame : s.equals d.1 x = true := by
      rw [hd'.equals_eq (hxs x hx), h.content_eq d hd, hcontent, beq_self_eq_true]
    exact hd'.equals_trans (hxs x hx) hsame hequal

def classes : Meaning Classed where
  rel s v d := v = d.1 ∧ s.Settled v ∧ s.content v = d.2
  stable := by
    rintro s t _ d hst ⟨rfl, hx, hcontent⟩
    exact ⟨rfl, hx.similar hst.similar, (hx.content_eq hst.similar).trans hcontent⟩
  same := sameContent

theorem tells_classes (s : Session) (ds : List Classed) : classes.Tells s ds := by
  rintro d - e - t u _ _ - htu ⟨rfl, hx, hd⟩ ⟨rfl, hy, he⟩
  have hxu := hx.similar htu.similar
  rw [← hx.token_eq htu.similar, hxu.answers_eq hy.there, hxu.equals_eq hy, hx.content_eq htu.similar, hd, he]
  rfl

theorem classes_withContent (hxs : ∀ x ∈ xs, s.Settled x) :
    List.Forall₂ (classes.rel s) xs (withContent s xs) := by
  rw [withContent, List.forall₂_map_right_iff]
  exact List.forall₂_same.mpr fun x hx => ⟨rfl, hxs x hx, rfl⟩

theorem classes_eq_map {ys : List Value} (h : List.Forall₂ (classes.rel s) ys ds) : ys = ds.map Prod.fst := by
  induction h with
  | nil => rfl
  | cons hd _ ih => rw [ih, hd.1, List.map_cons]

theorem exec_distinct (hv : s.Holds v xs) (hxs : ∀ x ∈ xs, s.Settled x)
    (hsteps : 2 * xs.length + 10 ≤ s.steps) :
    ∃ q id t u, s.exec (Catalogue.call "Enumerable.Distinct" [v]) = (.ok q, t) ∧
      t.exec (Catalogue.call "Enumerable.ToArray" [q]) = (.ok (.ref id), u) ∧
      u.store[id]? = some (.array (firsts s.equals [] xs)) := by
  let p : Plan Classed := .distinct (.items v (withContent s xs))
  have hfirsts : (p.toList classes.same).map Prod.fst = firsts s.equals [] xs :=
    distinctFrom_withContent hxs (by simp) (by simp)
  have hsize : (p.toList classes.same).length ≤ xs.length := by
    have hle := (distinctFrom_sublist [] (withContent s xs)).length_le
    rwa [withContent, List.length_map] at hle
  have hsteps' : p.steps classes.same = xs.length + 7 := by
    show 2 + (withContent s xs).length + 5 = _
    rw [withContent, List.length_map]
    omega
  have hlawful : p.Lawful classes s := ⟨trivial, tells_classes s _⟩
  obtain ⟨q, t, ht, hext, hshape⟩ := Plan.exec_build (p := p) ⟨xs, hv, classes_withContent hxs⟩ hlawful
  have hopens := Plan.opens (hlawful.later hext.later) hshape
  obtain ⟨id, ys, u, hu, -, hid, hys⟩ := exec_toArray hopens hshape.ne_null (by rw [hext.steps]; omega)
  exact ⟨q, id, t, u, ht, hu, by rw [hid, classes_eq_map hys, hfirsts]⟩

inductive Op
  | add (k : Value)
  | remove (k : Value)
  | clear
  | contains (k : Value)
  | count

/-- Operations on the set with settled values. In between, the set is left alone and equality goes on seeing
all that it has seen. -/
def protocol (set : Nat) : Protocol Op where
  run
    | .add k => Methods.call (.ref set) "Add" [k]
    | .remove k => Methods.call (.ref set) "Remove" [k]
    | .clear => Methods.call (.ref set) "Clear" []
    | .contains k => Methods.call (.ref set) "Contains" [k]
    | .count => Properties.read (.ref set) "Count"
  allowed
    | s, .add k | s, .remove k | s, .contains k => s.Settled k
    | _, .clear | _, .count => True
  quiet s t := t.store[set]? = s.store[set]? ∧ Similar s t

/-- What an operation does to a finite set of contents, and what it answers. -/
inductive Step : Finset Content → Invocation Op → Finset Content → Prop
  | add {c c' : Finset Content} {s t : Session} {k : Value} (hc : c' = insert (s.content k) c) :
      Step c ⟨s, .add k, .ok (.bool (decide (c' ≠ c))), t⟩ c'
  | remove {c c' : Finset Content} {s t : Session} {k : Value} (hc : c' = c.erase (s.content k)) :
      Step c ⟨s, .remove k, .ok (.bool (decide (c' ≠ c))), t⟩ c'
  | clear {c : Finset Content} {s t : Session} : Step c ⟨s, .clear, .ok .null, t⟩ ∅
  | contains {c : Finset Content} {s t : Session} {k : Value} :
      Step c ⟨s, .contains k, .ok (.bool (decide (s.content k ∈ c))), t⟩ c
  | count {c : Finset Content} {s t : Session} : Step c ⟨s, .count, .ok (.int c.card), t⟩ c

def View (set : Nat) (s : Session) (c : Finset Content) : Prop :=
  ∃ members ds, s.store[set]? = some (.hashSet members) ∧ IsSet s members ds ∧
    (ds.map Prod.snd).toFinset = c

variable {set : Nat}

theorem similar_put_set (h : s.store[set]? = some (.hashSet members)) (members' : Table Value Value) :
    Similar s (s.put set (.hashSet members')) :=
  similar_put h (.hashSet members') rfl (Option.some_ne_none _)

theorem View.put (h : s.store[set]? = some (.hashSet members)) {members' : Table Value Value}
    (hset : IsSet s members' ds) :
    View set (s.put set (.hashSet members')) (ds.map Prod.snd).toFinset :=
  ⟨members', ds, store_put h _, hset.similar (similar_put_set h members'), rfl⟩

theorem View.quiet (h : View set s c) (hst : (protocol set).quiet s t) : View set t c := by
  obtain ⟨members, ds, hs, hset, hc⟩ := h
  exact ⟨members, ds, hst.1.trans hs, hset.similar hst.2, hc⟩

theorem exec_count (h : s.store[set]? = some (.hashSet members)) :
    s.exec (Properties.read (.ref set) "Count") = (.ok (.int members.size), s) := by
  rw [Properties.read, exec_get_bind]
  simp only [object?, h, Properties.known?, Properties.count, length?]
  rfl

theorem add_steps (h : View set s c) (hk : s.Settled k) :
    ∃ c', Step c ((protocol set).call s (.add k)) c' ∧ View set ((protocol set).call s (.add k)).after c' := by
  obtain ⟨members, ds, hs, hset, rfl⟩ := h
  obtain ⟨members', added, hadd, hset', rfl⟩ := hset.addMember hk
  have hrun : s.exec ((protocol set).run (.add k)) =
      (.ok (.bool (decide (s.content k ∉ (ds.map Prod.snd).toFinset))), s.put set (.hashSet members')) :=
    (exec_call hs rfl [k]).trans ((exec_bind_ok hadd _).trans rfl)
  rw [Protocol.call_of hrun]
  have hcontents : ((addNew ds (k, s.content k)).map Prod.snd).toFinset =
      insert (s.content k) (ds.map Prod.snd).toFinset := by
    ext c
    rw [List.mem_toFinset, mem_addNew, Finset.mem_insert, List.mem_toFinset, or_comm]
  have hview := View.put hs hset'
  rw [hcontents] at hview
  refine ⟨_, ?_, hview⟩
  have hchanged : (s.content k ∉ (ds.map Prod.snd).toFinset) ↔
      insert (s.content k) (ds.map Prod.snd).toFinset ≠ (ds.map Prod.snd).toFinset := by
    rw [ne_eq, Finset.insert_eq_self]
  rw [decide_eq_decide.mpr hchanged]
  exact .add rfl

theorem remove_steps (h : View set s c) (hk : s.Settled k) :
    ∃ c', Step c ((protocol set).call s (.remove k)) c' ∧
      View set ((protocol set).call s (.remove k)).after c' := by
  obtain ⟨members, ds, hs, hset, rfl⟩ := h
  obtain ⟨es, hset', hcontents⟩ := hset.erase hk
  have hrun : s.exec ((protocol set).run (.remove k)) =
      (.ok (.bool (members.contains s.keying k)), s.put set (.hashSet (members.erase s.keying k))) :=
    (exec_call hs rfl [k]).trans rfl
  rw [Protocol.call_of hrun, hset.contains_eq hk]
  have hview := View.put hs hset'
  rw [hcontents] at hview
  refine ⟨_, ?_, hview⟩
  have hchanged : (s.content k ∈ (ds.map Prod.snd).toFinset) ↔
      (ds.map Prod.snd).toFinset.erase (s.content k) ≠ (ds.map Prod.snd).toFinset := by
    rw [ne_eq, Finset.erase_eq_self, not_not]
  rw [decide_eq_decide.mpr hchanged]
  exact .remove rfl

theorem steps {op : Op} (ha : (protocol set).allowed s op) (h : View set s c) :
    ∃ c', Step c ((protocol set).call s op) c' ∧ View set ((protocol set).call s op).after c' := by
  cases op with
  | add k => exact add_steps h ha
  | remove k => exact remove_steps h ha
  | clear =>
      obtain ⟨members, ds, hs, -, -⟩ := h
      have hrun : s.exec ((protocol set).run .clear) = (.ok .null, s.put set (.hashSet .empty)) :=
        (exec_call hs rfl []).trans rfl
      rw [Protocol.call_of hrun]
      exact ⟨∅, .clear, View.put hs (empty_isSet s)⟩
  | contains k =>
      have ⟨members, ds, hs, hset, hc⟩ := h
      have hrun : s.exec ((protocol set).run (.contains k)) =
          (.ok (.bool (members.contains s.keying k)), s) := (exec_call hs rfl [k]).trans rfl
      rw [Protocol.call_of hrun, hset.contains_eq ha, hc]
      exact ⟨c, .contains, h⟩
  | count =>
      have ⟨members, ds, hs, hset, hc⟩ := h
      have hrun : s.exec ((protocol set).run .count) = (.ok (.int members.size), s) := exec_count hs
      rw [Protocol.call_of hrun, hset.size_eq, hc]
      exact ⟨c, .count, h⟩

theorem View.follows {calls : List (Invocation Op)} (h : View set s c) (hr : (protocol set).Runs s calls t) :
    ∃ c', Follows Step c calls c' ∧ View set t c' :=
  hr.follows (fun hq h => View.quiet h hq) steps h

theorem withContent_similar (hxs : ∀ x ∈ xs, s.Settled x) (hst : Similar s t) :
    withContent t xs = withContent s xs :=
  List.map_congr_left fun x hx => by rw [(hxs x hx).content_eq hst]

theorem toFinset_foldl_addNew :
    (((withContent s xs).foldl addNew []).map Prod.snd).toFinset = (xs.map s.content).toFinset := by
  ext c
  rw [List.mem_toFinset, mem_foldl_addNew, List.mem_toFinset, withContent, List.map_map]
  simp

/-- Sets, lists and queries over one sequence of settled values. Equality of such values is equality of their
contents. The distinct elements are the first of each class; a set made of the sequence has as many members, and
the set, a list made of the sequence and a query over it find the same values, settled or not. Whatever is done
with the set later, it is a finite set of classes. -/
theorem distinct_as_set (hv : s.Holds v xs) (hxs : ∀ x ∈ xs, s.Settled x)
    (hsteps : 2 * xs.length + 10 ≤ s.steps) :
    (∀ (r : Session) (x y : Value), r.Settled x → r.Settled y →
      (r.Equal x y ↔ r.content x = r.content y)) ∧
    (∃ q id t u, s.exec (Catalogue.call "Enumerable.Distinct" [v]) = (.ok q, t) ∧
      t.exec (Catalogue.call "Enumerable.ToArray" [q]) = (.ok (.ref id), u) ∧
      u.store[id]? = some (.array (firsts s.equals [] xs))) ∧
    ∃ set list r t, s.exec (Types.construct "HashSet" [v]) = (.ok (.ref set), r) ∧
      r.exec (Types.construct "List" [v]) = (.ok (.ref list), t) ∧
      t.exec (Properties.read (.ref set) "Count") = (.ok (.int (firsts s.equals [] xs).length), t) ∧
      (∀ w, t.IsThere w →
        t.exec (Methods.call (.ref set) "Contains" [w]) = (.ok (.bool (xs.any (t.equals · w))), t) ∧
        t.exec (Methods.call (.ref list) "Contains" [w]) = (.ok (.bool (xs.any (t.equals · w))), t) ∧
        t.exec (Catalogue.call "Enumerable.Contains" [v, w]) = (.ok (.bool (xs.any (t.equals · w))), t)) ∧
      ∀ calls u, (protocol set).Runs t calls u →
        ∃ c, Follows Step (xs.map t.content).toFinset calls c := by
  refine ⟨fun r x y hx hy => ?_, exec_distinct hv hxs hsteps, ?_⟩
  · rw [equal_iff, hx.equals_eq hy, beq_iff_eq]
  obtain ⟨members, hnew, hset⟩ := exec_newSet hv hxs (by omega)
  have hgrow := extends_grow s (.hashSet members)
  obtain ⟨list, storage, t, ht, hext, hlist, hitems⟩ := exec_newList (hv.later hgrow.later) (by
    rw [hgrow.steps]
    omega)
  have hst := hgrow.trans hext
  have hmembers := hext.kept (store_grow s (.hashSet members))
  have hxt : ∀ x ∈ xs, t.Settled x := fun x hx => (hxs x hx).similar hst.similar
  have hfirsts : ((withContent s xs).foldl addNew []).map Prod.fst = firsts s.equals [] xs := by
    rw [foldl_addNew]
    exact distinctFrom_withContent hxs (by simp) (by simp)
  have hcount : t.exec (Properties.read (.ref s.store.size) "Count") =
      (.ok (.int (firsts s.equals [] xs).length), t) := by
    rw [exec_count hmembers, Table.size, hset.entries, ← hfirsts, List.length_map, List.length_map]
  have hset := hset.similar hst.similar
  rw [← withContent_similar hxs hst.similar] at hset
  refine ⟨s.store.size, list, _, t, hnew, ht, hcount, fun w hw => ?_, fun calls u hr => ?_⟩
  · have hcontains : t.exec (Methods.call (.ref s.store.size) "Contains" [w]) =
        (.ok (.bool (members.contains t.keying w)), t) := (exec_call hmembers rfl [w]).trans rfl
    rw [hset.contains_eq_any hw, hset.any_eq hxt] at hcontains
    exact ⟨hcontains, exec_listContains hlist hitems w,
      exec_queryContains (hv.later hst.later) (by rw [hst.steps]; omega) w⟩
  · have hview : View s.store.size t (xs.map t.content).toFinset :=
      ⟨members, _, hmembers, hset, toFinset_foldl_addNew⟩
    obtain ⟨c, hc, -⟩ := hview.follows hr
    exact ⟨c, hc⟩

/-- Values of several types, some of them equal. -/
def assorted : List Value :=
  [.int 1, .double ⟨0x3FF0000000000000⟩, .bool true, .day 1, .null, .text [], .double ⟨0x7FF8000000000000⟩,
    .double ⟨0x7FF8000000000001⟩]

def drawer : Session := { start 0 with store := #[.array assorted] }

theorem assorted_settled : ∀ x ∈ assorted, drawer.Settled x := by
  intro x hx
  have hcases : x.isPlain = true ∨ x.isNamed = true := by
    simp only [assorted, List.mem_cons, List.not_mem_nil, or_false] at hx
    rcases hx with rfl | rfl | rfl | rfl | rfl | rfl | rfl | rfl <;> decide
  exact hcases.elim (fun h => IsKey.settled ⟨1, .plain h⟩) settled_of_named

theorem distinct_as_set_assorted :
    (drawer.Holds (.ref 0) assorted ∧ (∀ x ∈ assorted, drawer.Settled x) ∧
      2 * assorted.length + 10 ≤ drawer.steps) ∧
    (∃ q id t u, drawer.exec (Catalogue.call "Enumerable.Distinct" [.ref 0]) = (.ok q, t) ∧
      t.exec (Catalogue.call "Enumerable.ToArray" [q]) = (.ok (.ref id), u) ∧
      u.store[id]? = some (.array [.int 1, .bool true, .null, .text [], .double ⟨0x7FF8000000000000⟩])) ∧
    ∃ set list r t, drawer.exec (Types.construct "HashSet" [.ref 0]) = (.ok (.ref set), r) ∧
      r.exec (Types.construct "List" [.ref 0]) = (.ok (.ref list), t) ∧
      t.exec (Properties.read (.ref set) "Count") = (.ok (.int 5), t) ∧
      (∀ w, t.IsThere w → ∃ b,
        t.exec (Methods.call (.ref set) "Contains" [w]) = (.ok (.bool b), t) ∧
        t.exec (Methods.call (.ref list) "Contains" [w]) = (.ok (.bool b), t) ∧
        t.exec (Catalogue.call "Enumerable.Contains" [.ref 0, w]) = (.ok (.bool b), t)) ∧
      ∀ calls u, (protocol set).Runs t calls u →
        ∃ c, Follows Step (assorted.map t.content).toFinset calls c := by
  have hv : drawer.Holds (.ref 0) assorted := .array rfl
  have hfirsts : firsts drawer.equals [] assorted =
      [.int 1, .bool true, .null, .text [], .double ⟨0x7FF8000000000000⟩] := by decide +kernel
  obtain ⟨-, hdistinct, set, list, r, t, hnew, hlist, hcount, hcontains, hruns⟩ :=
    distinct_as_set hv assorted_settled (by decide)
  rw [hfirsts] at hdistinct hcount
  exact ⟨⟨hv, assorted_settled, by decide⟩, hdistinct, set, list, r, t, hnew, hlist, hcount,
    fun w hw => ⟨_, hcontains w hw⟩, hruns⟩

end Members

end BaseLib
