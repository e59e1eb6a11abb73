import BaseLib.Text.Search

namespace BaseLib.Text

variable {p : List Char}

theorem find?_nil (hp : p ≠ []) : find? p [] = none := by
  simp [find?, hp]

theorem take_drop_of_find? {s : List Char} {i : Nat} (h : find? p s = some i) :
    (s.drop i).take p.length = p := by
  induction s generalizing i with
  | nil =>
      rw [find?] at h
      split at h
      · rename_i hp
        simp [List.isEmpty_iff.mp hp]
      · cases h
  | cons c s ih =>
      rw [find?] at h
      split at h
      · rename_i hp
        cases h
        exact (List.prefix_iff_eq_take.mp (List.isPrefixOf_iff_prefix.mp hp)).symm
      · obtain ⟨j, hj, rfl⟩ := Option.map_eq_some_iff.mp h
        exact ih hj

theorem replaceAfter_drop (old new : List Char) (skip : Nat) (s : List Char) :
    replaceAfter old new skip s = replaceAfter old new 0 (s.drop skip) := by
  induction skip generalizing s with
  | zero => rfl
  | succ skip ih =>
      cases s with
      | nil => rfl
      | cons c s => rw [replaceAfter, ih, List.drop_succ_cons]

theorem cutAfter_drop (width : List Char → Nat) (skip : Nat) (s : List Char) :
    cutAfter width skip s = cutAfter width 0 (s.drop skip) := by
  induction skip generalizing s with
  | zero => rfl
  | succ skip ih =>
      cases s with
      | nil => rfl
      | cons c s => rw [cutAfter, ih, List.drop_succ_cons]

theorem drop_length_cons (hp : p ≠ []) (c : Char) (s : List Char) :
    (c :: s).drop p.length = s.drop (p.length - 1) := by
  obtain ⟨n, hn⟩ := Nat.exists_eq_succ_of_ne_zero (mt List.length_eq_zero_iff.mp hp)
  rw [hn, List.drop_succ_cons]
  rfl

theorem replaceAfter_eq (hp : p ≠ []) (new s : List Char) :
    replaceAfter p new 0 s =
      match find? p s with
      | none => s
      | some i => s.take i ++ new ++ replaceAfter p new 0 (s.drop (i + p.length)) := by
  induction s with
  | nil => simp [find?_nil hp, replaceAfter]
  | cons c s ih =>
      rw [replaceAfter, find?]
      by_cases h : p.isPrefixOf (c :: s) = true
      · rw [if_pos h, if_pos h, replaceAfter_drop, ← drop_length_cons hp c]
        simp
      · rw [if_neg h, if_neg h, ih]
        cases find? p s with
        | none => rfl
        | some i => simp [Nat.add_right_comm]

def longestAt (separators : List (List Char)) (s : List Char) : Nat :=
  ((separators.filter (·.isPrefixOf s)).map List.length).foldl max 0

theorem longestAt_singleton (p s : List Char) :
    longestAt [p] s = if p.isPrefixOf s then p.length else 0 := by
  by_cases h : p.isPrefixOf s = true <;> simp [longestAt, h]

theorem cut_eq (hp : p ≠ []) (s : List Char) :
    cut (longestAt [p]) s =
      match find? p s with
      | none => [s]
      | some i => s.take i :: cut (longestAt [p]) (s.drop (i + p.length)) := by
  induction s with
  | nil => simp [find?_nil hp, cut, cutAfter]
  | cons c s ih =>
      rw [cut, cutAfter, longestAt_singleton, find?]
      by_cases h : p.isPrefixOf (c :: s) = true
      · obtain ⟨n, hn⟩ := Nat.exists_eq_succ_of_ne_zero (mt List.length_eq_zero_iff.mp hp)
        simp only [if_pos h, hn, cut, cutAfter_drop _ n, Nat.zero_add, Nat.succ_eq_add_one,
          List.drop_succ_cons, List.take_zero]
      · rw [cut] at ih
        simp only [if_neg h]
        -- the first piece of the rest is the one that the character belongs to
        cases hf : find? p s with
        | none => simp_all
        | some i => simp_all [Nat.add_right_comm]

theorem replace_singleton (c : Char) (new s : List Char) :
    replace [c] new s = s.flatMap fun d => if d = c then new else [d] := by
  change replaceAfter [c] new 0 s = _
  induction s with
  | nil => rfl
  | cons d s ih =>
      rw [replaceAfter, List.flatMap_cons, ← ih]
      by_cases hd : d = c
      · rw [if_pos hd, if_pos (by simp [hd])]
        rfl
      · rw [if_neg hd, if_neg (by simp [Ne.symm hd])]
        rfl

theorem replace_singleton_nil (c : Char) (s : List Char) : replace [c] [] s = s.filter (· ≠ c) := by
  rw [replace_singleton]
  induction s with
  | nil => rfl
  | cons d s ih =>
      rw [List.flatMap_cons, ih, List.filter_cons]
      by_cases hd : d = c
      · rw [if_pos hd, if_neg (by simp [hd])]
        rfl
      · rw [if_neg hd, if_pos (by simp [hd])]
        rfl

theorem replace_singleton_singleton (c d : Char) (s : List Char) :
    replace [c] [d] s = s.map fun e => if e = c then d else e := by
  rw [replace_singleton, List.map_eq_flatMap]
  congr 1
  funext e
  split <;> rfl

section

variable {c : Char} {xs r : List Char}

theorem find?_singleton (h : c ∉ xs) : find? [c] (xs ++ c :: r) = some xs.length := by
  induction xs with
  | nil => simp [find?, List.isPrefixOf]
  | cons d xs ih =>
      obtain ⟨hd, hxs⟩ := not_or.mp (mt List.mem_cons.mpr h)
      have hprefix : [c].isPrefixOf (d :: (xs ++ c :: r)) = false := by
        rw [List.isPrefixOf, beq_false_of_ne hd, Bool.false_and]
      rw [List.cons_append, find?, hprefix, ih hxs]
      rfl

theorem find?_singleton_none (h : c ∉ xs) : find? [c] xs = none := by
  induction xs with
  | nil => rfl
  | cons d xs ih =>
      obtain ⟨hd, hxs⟩ := not_or.mp (mt List.mem_cons.mpr h)
      have hprefix : [c].isPrefixOf (d :: xs) = false := by
        rw [List.isPrefixOf, beq_false_of_ne hd, Bool.false_and]
      rw [find?, hprefix, ih hxs]
      rfl

theorem breakOn_singleton (h : c ∉ xs) : breakOn [c] (xs ++ c :: r) = (xs, some r) := by
  simp [breakOn, find?_singleton h]

theorem breakOn_singleton_none (h : c ∉ xs) : breakOn [c] xs = (xs, none) := by
  simp [breakOn, find?_singleton_none h]

theorem findLast?_singleton_none (h : c ∉ xs) : findLast? [c] xs = none := by
  induction xs with
  | nil => rfl
  | cons d xs ih =>
      obtain ⟨hd, hxs⟩ := not_or.mp (mt List.mem_cons.mpr h)
      rw [findLast?, ih hxs, List.isPrefixOf, beq_false_of_ne hd, Bool.false_and]
      rfl

theorem findLast?_singleton (h : c ∉ r) : findLast? [c] (xs ++ c :: r) = some xs.length := by
  induction xs with
  | nil =>
      rw [List.nil_append, findLast?, findLast?_singleton_none h, List.isPrefixOf, beq_self_eq_true]
      rfl
  | cons d xs ih => rw [List.cons_append, findLast?, ih, List.length_cons]

end

end BaseLib.Text
