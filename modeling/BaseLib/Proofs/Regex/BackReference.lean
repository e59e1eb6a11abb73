import BaseLib.Proofs.Regex.GroupTable
import BaseLib.Proofs.Regex.Referring

namespace BaseLib.Regex

section

variable {text : Array Char} {start pos pos' k : Nat} {advance : Bool} {f : Found} {program : Program}

theorem sameText_exact {part : List Char} (h : sameText text .exact part pos = some pos') :
    pos' = pos + part.length ∧ (text.toList.drop pos).take part.length = part := by
  induction part generalizing pos with
  | nil =>
      cases h
      exact ⟨rfl, rfl⟩
  | cons c part ih =>
      rw [sameText] at h
      split at h
      · rename_i d hd
        split at h
        · rename_i hfold
          obtain ⟨rfl, hpart⟩ := ih h
          have hchar : c = d := Char.toNat_inj.mp hfold
          refine ⟨by rw [List.length_cons]; omega, ?_⟩
          rw [← Array.getElem?_toList] at hd
          obtain ⟨hlt, hget⟩ := List.getElem?_eq_some_iff.mp hd
          rw [List.drop_eq_getElem_cons hlt, List.length_cons, List.take_succ_cons, hpart, hget, hchar]
        · cases h
      · cases h

theorem matchAt_of_search (h : program.search text start advance = some f) :
    ∃ start advance, start ≤ text.size ∧ program.matchAt text start advance = some f := by
  have hfrom {more start : Nat} {advance : Bool} (hs : start + more = text.size)
      (h : program.searchFrom text advance more start = some f) :
      ∃ start advance, start ≤ text.size ∧ program.matchAt text start advance = some f := by
    induction more generalizing start advance with
    | zero => exact ⟨start, advance, by omega, h⟩
    | succ more ih =>
        rcases Option.or_eq_some_iff.mp h with h | ⟨-, h⟩
        · exact ⟨start, advance, by omega, h⟩
        · exact ih (by omega) h
  rw [Program.search] at h
  split at h
  · exact hfrom (by omega) h
  · cases h

theorem search_ends {body : Pattern} (hbody : program.body = .seq (.wrap body) (.wrap (.backref k .exact)))
    (h : program.search text start advance = some f) :
    ∃ a b, f.marks.span? k = some (a, b) ∧
      (text.toList.drop a).take (b - a) <:+ (text.toList.drop f.start).take (f.stop - f.start) := by
  obtain ⟨start, advance, hstart, h⟩ := matchAt_of_search h
  rw [Program.matchAt, hbody] at h
  obtain ⟨r, hr, rfl⟩ := Option.map_eq_some_iff.mp h
  obtain ⟨pos, marks, ⟨hle, hsize, -⟩, hbackref⟩ := body.run_advancing hstart hr
  rw [Pattern.run, Pattern.run] at hbackref
  split at hbackref
  · rename_i a b hspan
    split at hbackref
    · rename_i stop hsame
      obtain ⟨rfl, htext⟩ := sameText_exact hsame
      split at hbackref
      · cases hbackref
      · cases hbackref
        refine ⟨a, b, hspan, ?_⟩
        have hslice : slice text a b = (text.toList.drop a).take (b - a) := by
          simp [slice, List.extract_eq_take_drop]
        rw [hslice] at htext ⊢
        have hlength : pos + ((text.toList.drop a).take (b - a)).length - start =
            (pos - start) + ((text.toList.drop a).take (b - a)).length := by
          omega
        rw [hlength, List.take_add, List.drop_drop, Nat.add_sub_cancel' hle, htext]
        exact List.suffix_append _ _
    · cases hbackref
  · cases hbackref

end

section

open Library Session

variable {r : Regex} {k : Nat}

theorem range'_parts {n : Nat} (hk : 1 ≤ k) (hle : k ≤ n) :
    List.range' 1 n = List.range' 1 (k - 1) ++ k :: List.range' (k + 1) (n - k) := by
  have hn : n = (k - 1) + ((n - k) + 1) := by omega
  have hfirst : 1 + (k - 1) = k := by omega
  conv_lhs => rw [hn, ← List.range'_append_1, hfirst, List.range'_succ]

theorem order_at {i : Nat} (hi : r.order[i]? = some k) : r.order[k]? = some k ↔ i = k := by
  have hnodup : r.order.Nodup := (order_perm r).nodup_iff.mpr List.nodup_range
  constructor
  · intro hk
    have hlt := (List.getElem?_eq_some_iff.mp hi).1
    exact (List.getElem?_inj hlt hnodup).mp (hi.trans hk.symm)
  · rintro rfl
    exact hi

theorem order_unnamed (hk : 1 ≤ k) (hle : k ≤ r.program.groups) (hnamed : r.isNamed k = false) :
    r.order[((List.range' 1 (k - 1)).filter fun g => !r.isNamed g).length + 1]? = some k := by
  have hunnamed := unnamed_eq r
  rw [range'_parts hk hle, List.filter_append, List.filter_cons_of_pos (by simp [hnamed])] at hunnamed
  rw [order_eq, hunnamed]
  simp

theorem order_named (hk : 1 ≤ k) (hle : k ≤ r.program.groups) (hnamed : r.isNamed k = true) :
    r.order[k + ((List.range' (k + 1) (r.program.groups - k)).filter fun g => !r.isNamed g).length]? =
      some k := by
  let before := List.range' 1 (k - 1)
  let after := List.range' (k + 1) (r.program.groups - k)
  have hparts : List.range' 1 r.program.groups = before ++ k :: after := range'_parts hk hle
  have hat : r.order[r.unnamed.length + (before.filter r.isNamed).length + 1]? = some k := by
    rw [order_eq, hparts, List.filter_append, List.filter_cons_of_pos hnamed, List.getElem?_cons_succ,
      List.getElem?_append_right (Nat.le_add_right _ _), Nat.add_sub_cancel_left,
      List.getElem?_append_right le_rfl, Nat.sub_self]
    rfl
  have hunnamed := congrArg List.length (unnamed_eq r)
  rw [hparts, List.filter_append, List.filter_cons_of_neg (by simp [hnamed]),
    List.length_append] at hunnamed
  have hsum := List.length_eq_length_filter_add r.isNamed (l := before)
  have hbefore : before.length = k - 1 := List.length_range'
  have hplace : k + (after.filter fun g => !r.isNamed g).length =
      r.unnamed.length + (before.filter r.isNamed).length + 1 := by
    omega
  rwa [← hplace] at hat

/-- A match reports a group of the program under the program's number exactly if all groups up to it are
unnamed or all from it on are named. -/
theorem order_self_iff (hk : 1 ≤ k) (hle : k ≤ r.program.groups) :
    r.order[k]? = some k ↔
      (∀ g, 1 ≤ g → g ≤ k → r.isNamed g = false) ∨
        ∀ g, k ≤ g → g ≤ r.program.groups → r.isNamed g = true := by
  cases hnamed : r.isNamed k with
  | false =>
      have hlast : ¬∀ g, k ≤ g → g ≤ r.program.groups → r.isNamed g = true := fun hall =>
        Bool.false_ne_true (hnamed.symm.trans (hall k le_rfl hle))
      have hplace (n : Nat) : n + 1 = k ↔ n = (List.range' 1 (k - 1)).length := by
        rw [List.length_range']
        omega
      rw [order_at (order_unnamed hk hle hnamed), or_iff_left hlast, hplace,
        List.length_filter_eq_length_iff]
      constructor
      · intro hall g hg hgk
        rcases Nat.lt_or_eq_of_le hgk with hlt | rfl
        · simpa using hall g (List.mem_range'_1.mpr ⟨hg, by omega⟩)
        · exact hnamed
      · intro hall g hg
        obtain ⟨hpos, hlt⟩ := List.mem_range'_1.mp hg
        simp [hall g hpos (by omega)]
  | true =>
      have hfirst : ¬∀ g, 1 ≤ g → g ≤ k → r.isNamed g = false := fun hall =>
        Bool.false_ne_true ((hall k hk le_rfl).symm.trans hnamed)
      rw [order_at (order_named hk hle hnamed), or_iff_right hfirst, Nat.add_eq_left,
        List.length_eq_zero_iff, List.filter_eq_nil_iff]
      constructor
      · intro hall g hkg hg
        rcases Nat.lt_or_eq_of_le hkg with hlt | rfl
        · simpa using hall g (List.mem_range'_1.mpr ⟨hlt, by omega⟩)
        · exact hnamed
      · intro hall g hg
        obtain ⟨hlt, hle'⟩ := List.mem_range'_1.mp hg
        simp [hall g (by omega) (by omega)]

def Match.Searched (m : Match) : Prop :=
  ∃ start advance, m.found = m.regex.program.search m.text.toArray start advance

theorem searched_matchFrom (r : Regex) (t : List Char) (start : Nat) : (r.matchFrom t start).Searched :=
  ⟨start, false, rfl⟩

theorem Match.Searched.next {m : Match} (h : m.Searched) : m.next.Searched := by
  unfold Match.next
  split
  · exact h
  · split
    · split
      · refine ⟨m.text.toArray.size + 1, false, ?_⟩
        rw [Program.search, if_neg (by simp)]
      · exact searched_matchFrom _ _ _
    · exact searched_matchFrom _ _ _

/-- A reference by number behind a pattern that is in a group: a match ends with what it reports for the
group that the program numbers so. That is the group it reports under this number exactly if all groups up
to it are unnamed or all from it on are named. -/
theorem ends_with_group {known : CharacterNames} {p : List Char} {q : Regex} (hk : 1 ≤ k) (hshort : k < 100)
    (hq : ofPattern known p ⟨0⟩ = .ok q) (hgroups : k ≤ q.program.groups)
    (hr : ofPattern known (referring p k) ⟨0⟩ = .ok r) :
    (r.groupNames = q.groupNames ∧ r.order = q.order) ∧
    (∃ i ≤ q.program.groups, r.order[i]? = some k) ∧
    (r.order[k]? = some k ↔
      (∀ g, 1 ≤ g → g ≤ k → r.isNamed g = false) ∨
        ∀ g, k ≤ g → g ≤ q.program.groups → r.isNamed g = true) ∧
    ∀ {i : Nat} {s : Session} {v : Value} {m : Match}, r.order[i]? = some k → IsMatchOf r s v m →
      m.Searched → m.found.isSome = true →
        ∃ value id item x, s.exec (Properties.read v "Value") = (.ok (.text value), s) ∧
          s.exec (Properties.read v "Groups") = (.ok (.ref id), s) ∧
          s.exec (Methods.call (.ref id) "get_Item" [.int i]) = (.ok item, s) ∧ ReadsAs s item x ∧
          x.success = true ∧ x.value <:+ value := by
  have hread := read_of_ofPattern hq
  have hread' := read_of_ofPattern hr
  have hprogram := read_referring hk hshort hread hread'
  have hnumbered : r.program.Numbered := (read_numbered hread').1
  have hsame : r.program.groups = q.program.groups := by rw [hprogram]
  have hnames : r.program.names = q.program.names := by rw [hprogram]
  have horder : r.order = q.order := by
    unfold order unnamed
    rw [hsame, hnames]
  rw [← hsame] at hgroups ⊢
  refine ⟨⟨?_, horder⟩, ?_, order_self_iff hk hgroups, ?_⟩
  · unfold groupNames nameOf unnamed
    rw [horder, hsame, hnames]
  · have hmem : k ∈ r.order := (order_perm r).mem_iff.mpr (List.mem_range.mpr (by omega))
    obtain ⟨i, hi⟩ := List.mem_iff_getElem?.mp hmem
    have hlt := (List.getElem?_eq_some_iff.mp hi).1
    rw [(order_perm r).length_eq, List.length_range] at hlt
    exact ⟨i, by omega, hi⟩
  · intro i s v m hi hm hsearched hfound
    obtain ⟨id, hread, hgroup⟩ := hm.exec_groups hnumbered
    have hlt := (List.getElem?_eq_some_iff.mp hi).1
    rw [(order_perm r).length_eq, List.length_range] at hlt
    obtain ⟨g, name, item, x, hg, -, hitem, -, hreads, htells⟩ :=
      hgroup (show i ≤ r.program.groups by omega)
    obtain rfl : k = g := Option.some.inj (hi.symm.trans hg)
    obtain ⟨f, hf⟩ := Option.isSome_iff_exists.mp hfound
    obtain ⟨hregex, hobject⟩ := hm.matchObject
    obtain ⟨start, advance, hsearch⟩ := hsearched
    rw [hregex, hf] at hsearch
    have hbody : r.program.body = .seq (.wrap q.program.body) (.wrap (.backref k .exact)) := by rw [hprogram]
    obtain ⟨a, b, hspan, hends⟩ := search_ends hbody hsearch.symm
    have hcaptured : m.captured k = some ((m.text.drop a).take (b - a)) := by
      rw [Match.captured, hf]
      simp [Nat.ne_of_gt hk, hspan]
    have hwhole : m.whole.value = (m.text.drop f.start).take (f.stop - f.start) := by rw [Match.whole, hf]
    obtain ⟨_, _, _, hv, -⟩ := hobject.objects
    refine ⟨m.whole.value, id, item, x, (readsAs_match hv).value, hread, hitem, hreads, ?_, ?_⟩
    · rw [htells.success, hcaptured]
      rfl
    · rw [htells.value, hcaptured, hwhole]
      exact hends

/-- A reference to the first group behind a named and an unnamed group. -/
def namedAgain : Regex where
  pattern := referring nameFirst.pattern 1
  options := ⟨0⟩
  program := ⟨.seq (.wrap nameFirst.program.body) (.wrap (.backref 1 .exact)), 2, [("n", 1)]⟩

def references : Session := { Session.start 0 with store := #[.regex namedAgain (.int 0)] }

theorem ends_with_group_namedAgain :
    (1 ≤ 1 ∧ 1 < 100 ∧ ofPattern .empty nameFirst.pattern ⟨0⟩ = .ok nameFirst ∧ 1 ≤ nameFirst.program.groups ∧
      ofPattern .empty (referring nameFirst.pattern 1) ⟨0⟩ = .ok namedAgain ∧ namedAgain.order[2]? = some 1) ∧
      ∃ v u id item, references.exec (Methods.call (.ref 0) "Match" [.text ['a', 'b', 'a'], .int (0 : Nat)]) =
          (.ok (.ref v), u) ∧
        u.exec (Properties.read (.ref v) "Groups") = (.ok (.ref id), u) ∧
        u.exec (Methods.call (.ref id) "get_Item" [.int (2 : Nat)]) = (.ok item, u) ∧
        ∃ value x, u.exec (Properties.read (.ref v) "Value") = (.ok (.text value), u) ∧
          u.exec (Properties.read item "Value") = (.ok (.text x), u) ∧ x <:+ value := by
  have hcompiles : ofPattern .empty nameFirst.pattern ⟨0⟩ = .ok nameFirst := by decide +kernel
  have hcompiles' : ofPattern .empty (referring nameFirst.pattern 1) ⟨0⟩ = .ok namedAgain := by decide +kernel
  have hstore : references.store[0]? = some (.regex namedAgain (.int 0)) := rfl
  have hstart : 0 ≤ ['a', 'b', 'a'].length := Nat.zero_le _
  have horder : namedAgain.order[2]? = some 1 := by decide +kernel
  have hfound : (namedAgain.matchFrom ['a', 'b', 'a'] 0).found.isSome = true := by decide +kernel
  refine ⟨⟨le_rfl, by decide, hcompiles, by decide, hcompiles', horder⟩, ?_⟩
  obtain ⟨v, g, u, hu, -⟩ := exec_matchFrom hstore hstart
  obtain ⟨-, -, -, hends⟩ := ends_with_group le_rfl (by decide) hcompiles (by decide) hcompiles'
  obtain ⟨value, id, item, x, hvalue, hgroups, hitem, hx, -, hsuffix⟩ :=
    hends horder (.found hstore hstart hu) (searched_matchFrom _ _ _) hfound
  exact ⟨v, u, id, item, hu, hgroups, hitem, value, x.value, hvalue, hx.value, hsuffix⟩

/-- The same match does not end with the group that it reports under the number of the reference. -/
theorem not_ends_with_reported :
    ofPattern .empty nameFirst.pattern ⟨0⟩ = .ok nameFirst ∧ 1 ≤ nameFirst.program.groups ∧
      ofPattern .empty (referring nameFirst.pattern 1) ⟨0⟩ = .ok namedAgain ∧
      ∃ v u id item, references.exec (Methods.call (.ref 0) "Match" [.text ['a', 'b', 'a'], .int (0 : Nat)]) =
          (.ok (.ref v), u) ∧
        u.exec (Properties.read (.ref v) "Success") = (.ok (.bool true), u) ∧
        u.exec (Properties.read (.ref v) "Value") = (.ok (.text ['a', 'b', 'a']), u) ∧
        u.exec (Properties.read (.ref v) "Groups") = (.ok (.ref id), u) ∧
        u.exec (Methods.call (.ref id) "get_Item" [.int (1 : Nat)]) = (.ok item, u) ∧
        u.exec (Properties.read item "Success") = (.ok (.bool true), u) ∧
        u.exec (Properties.read item "Value") = (.ok (.text ['b']), u) ∧ ¬['b'] <:+ ['a', 'b', 'a'] := by
  have hcompiles : ofPattern .empty nameFirst.pattern ⟨0⟩ = .ok nameFirst := by decide +kernel
  have hcompiles' : ofPattern .empty (referring nameFirst.pattern 1) ⟨0⟩ = .ok namedAgain := by decide +kernel
  have hstore : references.store[0]? = some (.regex namedAgain (.int 0)) := rfl
  have hstart : 0 ≤ ['a', 'b', 'a'].length := Nat.zero_le _
  refine ⟨hcompiles, by decide, hcompiles', ?_⟩
  obtain ⟨v, g, u, hu, hv⟩ := exec_matchFrom hstore hstart
  have hm : IsMatchOf namedAgain u (.ref v) (namedAgain.matchFrom ['a', 'b', 'a'] 0) :=
    .found hstore hstart hu
  obtain ⟨-, hobject⟩ := hm.matchObject
  obtain ⟨id, hread, hgroups⟩ := hm.exec_groups (read_numbered (read_of_ofPattern hcompiles')).1
  obtain ⟨g', name, item, x, hg, -, hitem, -, hx, htells⟩ :=
    hgroups (show 1 ≤ namedAgain.program.groups by decide)
  obtain rfl : 2 = g' := Option.some.inj hg
  obtain ⟨_, _, _, hv', -⟩ := hobject.objects
  have hsuccess : x.success = true := htells.success
  have hvalue : x.value = ['b'] := htells.value
  refine ⟨v, u, id, item, hu, (readsAs_match hv').success, (readsAs_match hv').value, hread, hitem,
    ?_, ?_, ?_⟩
  · exact hsuccess ▸ hx.success
  · exact hvalue ▸ hx.value
  · decide

end

end BaseLib.Regex
