import BaseLib.Proofs.Regex.BackReference

namespace BaseLib.Regex

open Library Session

variable {s : Session} {r : Regex} {m : Match} {v : Value} {text : List Char} {marks : Marks}
  {table : List (Nat × List Char)} {offset k a b g n : Nat} {x : Group}

theorem Marks.mark_of_span? (h : marks.span? g = some (a, b)) : (some a, some b) ∈ marks ∧ a ≤ b := by
  unfold Marks.span? at h
  split at h
  · rename_i a' b' hmark
    split at h
    · cases h
      exact ⟨List.mem_of_getElem? hmark, ‹a ≤ b›⟩
    · cases h
  · cases h

theorem Marks.EndBy.span?_le (h : marks.EndBy n) (hspan : marks.span? g = some (a, b)) : a ≤ b ∧ b ≤ n :=
  have ⟨hmark, hle⟩ := Marks.mark_of_span? hspan
  ⟨hle, h _ hmark b rfl⟩

theorem matchAt_endBy {text : Array Char} {p : Program} {start : Nat} {advance : Bool} {f : Found}
    (hs : start ≤ text.size) (h : p.matchAt text start advance = some f) : f.marks.EndBy text.size := by
  rw [Program.matchAt] at h
  obtain ⟨r, hr, rfl⟩ := Option.map_eq_some_iff.mp h
  obtain ⟨pos, marks, hmove, hk⟩ := p.body.run_advancing hs hr
  split at hk
  · cases hk
  · cases hk
    exact hmove.marked (Marks.endBy_fresh _ _)

theorem Match.Searched.span?_le {f : Found} (h : m.Searched) (hf : m.found = some f)
    (hspan : f.marks.span? g = some (a, b)) : a ≤ b ∧ b ≤ m.text.length := by
  obtain ⟨start, advance, hsearch⟩ := h
  obtain ⟨start, advance, hs, hat⟩ := matchAt_of_search (hsearch.symm.trans hf)
  simpa using (matchAt_endBy hs hat).span?_le hspan

/-- How much room groups take; those that took no part take none. -/
def extent (xs : List Group) : Nat := ((xs.filter (·.success)).map (·.length)).sum

theorem extent_cons (x : Group) (xs : List Group) :
    extent (x :: xs) = (if x.success = true then x.length else 0) + extent xs := by
  cases h : x.success <;> simp [extent, h]

/-- Each span begins where the one before it ends. -/
def Tiles : Nat → List (Nat × Nat) → Prop
  | _, [] => True
  | start, (a, b) :: rest => a = start ∧ Tiles b rest

/-- A group tells of its span: one that took part has its text and its length, one that did not has none. -/
structure Spans (text : List Char) (x : Group) (span : Option (Nat × Nat)) : Prop where
  success : x.success = span.isSome
  value : x.value = (span.map fun (a, b) => (text.drop a).take (b - a)).getD []
  length : x.length = (span.map fun (a, b) => b - a).getD 0
  absent : span = none → x.index = 0

theorem spans_lay (text : List Char) (marks : Marks) (table : List (Nat × List Char)) (offset : Nat) :
    List.Forall₂ (Spans text) (Match.lay text marks table offset) (table.map fun e => marks.span? e.1) := by
  induction table generalizing offset with
  | nil => exact .nil
  | cons e table ih =>
      rw [Match.lay, List.map_cons]
      cases hspan : marks.span? e.1 with
      | none => exact .cons ⟨rfl, rfl, rfl, fun _ => rfl⟩ (ih offset)
      | some span => exact .cons ⟨rfl, rfl, rfl, fun h => absurd h (Option.some_ne_none _)⟩ (ih _)

theorem index_lay (hx : (Match.lay text marks table offset)[k]? = some x) (hsuccess : x.success = true) :
    x.index = offset + extent ((Match.lay text marks table offset).take k) := by
  induction table generalizing offset k with
  | nil => cases hx
  | cons e table ih =>
      rw [Match.lay] at hx ⊢
      cases hspan : marks.span? e.1 with
      | none =>
          rw [hspan] at hx
          cases k with
          | zero =>
              cases hx
              cases hsuccess
          | succ k =>
              rw [List.take_succ_cons, extent_cons, ih hx]
              simp [Group.absent]
      | some span =>
          rw [hspan] at hx
          cases k with
          | zero =>
              cases hx
              rfl
          | succ k =>
              rw [List.take_succ_cons, extent_cons, ih hx]
              simp [Nat.add_assoc]

def Placed (x : Group) (span : Option (Nat × Nat)) : Prop := ∀ a b, span = some (a, b) → x.index = a

theorem placed_lay_iff (text : List Char) (marks : Marks) (table : List (Nat × List Char)) (offset : Nat) :
    List.Forall₂ Placed (Match.lay text marks table offset) (table.map fun e => marks.span? e.1) ↔
      Tiles offset (table.filterMap fun e => marks.span? e.1) := by
  induction table generalizing offset with
  | nil => exact iff_of_true .nil trivial
  | cons e table ih =>
      rw [Match.lay, List.map_cons, List.filterMap_cons]
      cases hspan : marks.span? e.1 with
      | none =>
          rw [List.forall₂_cons, ih]
          exact and_iff_right fun a b h => absurd h.symm (Option.some_ne_none _)
      | some span =>
          obtain ⟨a, b⟩ := span
          have hle := (Marks.mark_of_span? hspan).2
          rw [List.forall₂_cons, ih, Tiles]
          constructor
          · rintro ⟨hplaced, hrest⟩
            obtain rfl : offset = a := hplaced a b rfl
            rw [Nat.add_sub_cancel' hle] at hrest
            exact ⟨rfl, hrest⟩
          · rintro ⟨rfl, hrest⟩
            refine ⟨fun a' b' h => ?_, ?_⟩
            · cases h
              rfl
            · rwa [Nat.add_sub_cancel' hle]

/-- The spans of the program's groups, in the order of the numbers from 1 on. -/
def Match.spans (m : Match) : List (Option (Nat × Nat)) :=
  m.regex.order.tail.map fun g => m.found.bind fun f => f.marks.span? g

theorem exists_groups {f : Found} (hprogram : m.regex.program.Numbered) (hf : m.found = some f) :
    ∃ table : List (Nat × List Char), table.map Prod.fst = m.regex.order.tail ∧
      m.groups = m.whole :: Match.lay m.text f.marks table f.start := by
  refine ⟨(m.regex.order.zip m.regex.groupNames).drop 1, ?_, ?_⟩
  · rw [List.map_drop, List.map_fst_zip (length_groupNames hprogram).ge, List.drop_one]
  · rw [Match.groups, hf]

structure LaidOut (text : List Char) (start : Nat) (xs : List Group) (spans : List (Option (Nat × Nat))) :
    Prop where
  told : List.Forall₂ (Spans text) xs spans
  index : ∀ {k : Nat} {x : Group}, xs[k]? = some x → x.success = true →
    x.index = start + extent (xs.take k)
  placed_iff : List.Forall₂ Placed xs spans ↔ Tiles start spans.reduceOption

theorem laidOut {f : Found} (hprogram : m.regex.program.Numbered) (hf : m.found = some f) :
    ∃ xs, m.groups = m.whole :: xs ∧ LaidOut m.text f.start xs m.spans := by
  obtain ⟨table, htable, hgroups⟩ := exists_groups hprogram hf
  have hspans : m.spans = table.map fun e => f.marks.span? e.1 := by
    rw [Match.spans, ← htable, hf, List.map_map]
    rfl
  refine ⟨_, hgroups, ?_, index_lay, ?_⟩
  · rw [hspans]
    exact spans_lay _ _ _ _
  · have hsome : (table.map fun e => f.marks.span? e.1).reduceOption =
        table.filterMap fun e => f.marks.span? e.1 := List.filterMap_map
    rw [hspans, placed_lay_iff, hsome]

namespace LaidOut

variable {start : Nat} {xs : List Group} {spans : List (Option (Nat × Nat))}

theorem exists_span (h : LaidOut text start xs spans) (hx : x ∈ xs) :
    ∃ span ∈ spans, Spans text x span := by
  obtain ⟨k, hk⟩ := List.mem_iff_getElem?.mp hx
  obtain ⟨span, hspan, htold⟩ := exists_of_forall₂ (h.told.flip) hk
  exact ⟨span, List.mem_of_getElem? hspan, htold⟩

theorem absent (h : LaidOut text start xs spans) (hx : x ∈ xs) (hsuccess : x.success = false) :
    x.value = [] ∧ x.index = 0 ∧ x.length = 0 := by
  obtain ⟨span, -, htold⟩ := h.exists_span hx
  cases span with
  | none => exact ⟨htold.value, htold.absent rfl, htold.length⟩
  | some span => cases hsuccess.symm.trans htold.success

theorem length_eq (h : LaidOut text start xs spans)
    (hspans : ∀ a b, some (a, b) ∈ spans → a ≤ b ∧ b ≤ text.length) (hx : x ∈ xs) :
    x.length = x.value.length := by
  obtain ⟨span, hmem, htold⟩ := h.exists_span hx
  rw [htold.length, htold.value]
  cases span with
  | none => rfl
  | some span =>
      obtain ⟨a, b⟩ := span
      obtain ⟨hle, hend⟩ := hspans a b hmem
      simp only [Option.map_some, Option.getD_some, List.length_take, List.length_drop]
      omega

theorem value_eq (h : LaidOut text start xs spans) (htiles : Tiles start spans.reduceOption) (hx : x ∈ xs)
    (hsuccess : x.success = true) : x.value = (text.drop x.index).take x.length := by
  obtain ⟨k, hk⟩ := List.mem_iff_getElem?.mp hx
  obtain ⟨span, hspan, htold⟩ := exists_of_forall₂ (h.told.flip) hk
  obtain ⟨x', hx', hplaced⟩ := exists_of_forall₂ (h.placed_iff.mpr htiles) hspan
  obtain rfl : x = x' := Option.some.inj (hk.symm.trans hx')
  cases span with
  | none => cases hsuccess.symm.trans htold.success
  | some span =>
      obtain ⟨a, b⟩ := span
      rw [htold.value, htold.length, hplaced a b rfl]
      rfl

end LaidOut

theorem IsMatchOf.exec_group {xs : List Group} (hm : IsMatchOf r s v m) (hgroups : m.groups = m.whole :: xs) :
    ∃ id, s.exec (Properties.read v "Groups") = (.ok (.ref id), s) ∧
      ∀ {k : Nat} {x : Group}, xs[k]? = some x →
        ∃ item, s.exec (Methods.call (.ref id) "get_Item" [.int (k + 1 : Nat)]) = (.ok item, s) ∧
          ReadsAs s item x := by
  obtain ⟨id, members, items, hread, hid, hitems, hobjects⟩ := Regex.exec_groups hm.matchObject.2
  refine ⟨id, hread, fun {k x} hx => ?_⟩
  have hx' : m.groups[k + 1]? = some x := by
    rw [hgroups]
    exact hx
  obtain ⟨item, hitem, hgroup⟩ := exists_of_forall₂ hobjects hx'
  rw [← hitems] at hitem
  exact ⟨item, exec_item hid hitem, readsAs_group hgroup⟩

/-- The groups of a match from 1 on. One that took part is reported where those before it end, if they are laid
end to end from the start of the match; one that did not has no place and takes no room. They are where the
program has found them exactly if its spans, in the order of the numbers, tile the text from the start on; then
each group is the text at its place. -/
theorem groups_laid_out {known : CharacterNames} {pattern : List Char} {options : RegexOptions}
    (h : ofPattern known pattern options = .ok r) (hm : IsMatchOf r s v m)
    (hsuccess : s.exec (Properties.read v "Success") = (.ok (.bool true), s)) :
    ∃ (start groups : Nat) (xs : List Group),
      s.exec (Properties.read v "Index") = (.ok (.int start), s) ∧
      s.exec (Properties.read v "Groups") = (.ok (.ref groups), s) ∧
      xs.length = r.program.groups ∧
      (∀ {k : Nat} {x : Group}, xs[k]? = some x →
        (∃ item, s.exec (Methods.call (.ref groups) "get_Item" [.int (k + 1 : Nat)]) = (.ok item, s) ∧
          ReadsAs s item x) ∧
        (x.success = true → x.index = start + extent (xs.take k)) ∧
        (x.success = false → x.value = [] ∧ x.index = 0 ∧ x.length = 0) ∧
        (m.Searched → x.length = x.value.length)) ∧
      List.Forall₂ (Spans m.text) xs m.spans ∧
      (List.Forall₂ Placed xs m.spans ↔ Tiles start m.spans.reduceOption) ∧
      (Tiles start m.spans.reduceOption →
        ∀ x ∈ xs, x.success = true → x.value = (m.text.drop x.index).take x.length) := by
  obtain ⟨rfl, hobject⟩ := hm.matchObject
  have hprogram : m.regex.program.Numbered := (read_numbered (read_of_ofPattern h)).1
  obtain ⟨_, _, _, hv, -⟩ := hobject.objects
  have hreads := readsAs_match hv
  cases hf : m.found with
  | none =>
      have hwhole : m.whole.success = false := by rw [Match.whole, hf]; rfl
      have hfalse := congrArg Prod.fst (hreads.success.symm.trans hsuccess)
      rw [hwhole] at hfalse
      cases hfalse
  | some f =>
      obtain ⟨xs, hgroups, hlaid⟩ := laidOut hprogram hf
      obtain ⟨groups, hread, hitem⟩ := hm.exec_group hgroups
      have hstart : m.whole.index = f.start := by rw [Match.whole, hf]
      refine ⟨f.start, groups, xs, hstart ▸ hreads.index, hread, ?_, fun {k x} hx => ?_, hlaid.told,
        hlaid.placed_iff, fun htiles x hx => hlaid.value_eq htiles hx⟩
      · rw [hlaid.told.length_eq, Match.spans, List.length_map, List.length_tail,
          (order_perm m.regex).length_eq, List.length_range, Nat.add_sub_cancel]
      · have hmem := List.mem_of_getElem? hx
        refine ⟨hitem hx, hlaid.index hx, hlaid.absent hmem, fun hsearched => hlaid.length_eq ?_ hmem⟩
        intro a b hspan
        obtain ⟨g, -, hg⟩ := List.mem_map.mp hspan
        rw [hf] at hg
        exact hsearched.span?_le hf hg

/-- A group that may take no part between two that do. -/
def withGap : Regex where
  pattern := "(a)(c)?(b)".toList
  options := ⟨0⟩
  program :=
    ⟨.seq (.capture 1 (.char (.literal .exact 97 false)))
      (.seq (.repetition 0 (some 1) .greedy (.capture 2 (.char (.literal .exact 99 false))))
        (.capture 3 (.char (.literal .exact 98 false)))), 3, []⟩

def gapped : Session := { Session.start 0 with store := #[.regex withGap (.int 0)] }

theorem groups_laid_out_gap :
    ofPattern .empty withGap.pattern withGap.options = .ok withGap ∧
      ∃ v u groups item, gapped.exec (Methods.call (.ref 0) "Match" [.text "zab".toList, .int (0 : Nat)]) =
          (.ok (.ref v), u) ∧
        u.exec (Properties.read (.ref v) "Success") = (.ok (.bool true), u) ∧
        u.exec (Properties.read (.ref v) "Groups") = (.ok (.ref groups), u) ∧
        u.exec (Methods.call (.ref groups) "get_Item" [.int (3 : Nat)]) = (.ok item, u) ∧
        u.exec (Properties.read item "Index") = (.ok (.int (2 : Nat)), u) := by
  have hcompiles : ofPattern .empty withGap.pattern withGap.options = .ok withGap := by decide +kernel
  have hstore : gapped.store[0]? = some (.regex withGap (.int 0)) := rfl
  have hstart : 0 ≤ "zab".toList.length := Nat.zero_le _
  have hwhole : (withGap.matchFrom "zab".toList 0).whole = ⟨['a', 'b'], 1, 2, true, ['0']⟩ := by
    decide +kernel
  have hspans : (withGap.matchFrom "zab".toList 0).spans = [some (1, 2), none, some (2, 3)] := by
    decide +kernel
  obtain ⟨v, g, u, hu, hv⟩ := exec_matchFrom hstore hstart
  have hreads : ReadsAs u (.ref v) _ := readsAs_match hv
  rw [hwhole] at hreads
  obtain ⟨start, groups, xs, hindex, hgroups, -, hxs, -, hplaced, -⟩ :=
    groups_laid_out hcompiles (.found hstore hstart hu) hreads.success
  obtain rfl : start = 1 := by simpa using congrArg Prod.fst (hindex.symm.trans hreads.index)
  rw [hspans] at hplaced
  obtain ⟨x, hx, hplace⟩ := exists_of_forall₂ (hplaced.mpr ⟨rfl, rfl, trivial⟩) (k := 2) rfl
  obtain ⟨⟨item, hitem, hread⟩, -⟩ := hxs hx
  exact ⟨hcompiles, v, u, groups, item, hu, hreads.success, hgroups, hitem, hplace 2 3 rfl ▸ hread.index⟩

end BaseLib.Regex
