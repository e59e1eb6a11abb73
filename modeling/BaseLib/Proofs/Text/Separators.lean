import BaseLib.Proofs.Enumeration.Ordering
import BaseLib.Proofs.Text.Occurrence

namespace BaseLib.Text

variable {seps : List (List Char)} {s part rest p q : List Char} {parts : List (List Char)}

theorem longestAt_eq (seps : List (List Char)) (s : List Char) :
    longestAt seps s = ((seps.filter (·.isPrefixOf s)).map List.length).max?.getD 0 :=
  List.foldl_max.trans (Nat.zero_max _)

theorem length_le_longestAt (hq : q ∈ seps) (h : q <+: s) : q.length ≤ longestAt seps s := by
  rw [longestAt_eq]
  exact List.le_max?_getD_of_mem
    (List.mem_map_of_mem (List.mem_filter.mpr ⟨hq, List.isPrefixOf_iff_prefix.mpr h⟩))

theorem exists_longestAt (h : longestAt seps s ≠ 0) :
    ∃ q ∈ seps, q <+: s ∧ q.length = longestAt seps s := by
  rw [longestAt_eq] at h ⊢
  cases hmax : ((seps.filter (·.isPrefixOf s)).map List.length).max? with
  | none =>
      rw [hmax] at h
      exact absurd rfl h
  | some n =>
      obtain ⟨q, hq, hlength⟩ := List.mem_map.mp (List.max?_mem hmax)
      obtain ⟨hmem, hprefix⟩ := List.mem_filter.mp hq
      exact ⟨q, hmem, List.isPrefixOf_iff_prefix.mp hprefix, hlength⟩

theorem firstAt_byLength (seps : List (List Char)) : firstAt (byLength seps) = longestAt seps := by
  funext s
  have hmem {q : List Char} : q ∈ byLength seps ↔ q ∈ seps := (List.mergeSort_perm _ _).mem_iff
  have hsorted : (byLength seps).Pairwise fun p q => decide (q.length ≤ p.length) = true := by
    refine List.pairwise_mergeSort (fun p q r hpq hqr => ?_) (fun p q => ?_) seps
    · simp only [decide_eq_true_eq] at hpq hqr ⊢
      exact hqr.trans hpq
    · simpa using Nat.le_total q.length p.length
  rw [firstAt]
  cases hfound : (byLength seps).find? (·.isPrefixOf s) with
  | none =>
      by_contra hne
      obtain ⟨q, hq, hprefix, -⟩ := exists_longestAt (Ne.symm hne)
      exact List.find?_eq_none.mp hfound q (hmem.mpr hq) (List.isPrefixOf_iff_prefix.mpr hprefix)
  | some p =>
      obtain ⟨hp, before, behind, hsplit, hbefore⟩ := List.find?_eq_some_iff_append.mp hfound
      have hin : p ∈ seps := hmem.mp (List.mem_of_find?_eq_some hfound)
      refine Nat.le_antisymm (length_le_longestAt hin (List.isPrefixOf_iff_prefix.mp hp)) ?_
      by_contra hlong
      have hpositive : longestAt seps s ≠ 0 := by omega
      obtain ⟨q, hq, hprefix, hlength⟩ := exists_longestAt hpositive
      -- a longer separator would have been tried before
      rw [← hmem, hsplit] at hq
      rw [hsplit] at hsorted
      have hbehind := (List.pairwise_cons.mp (List.pairwise_append.mp hsorted).2.1).1
      have hlater : ∀ r ∈ p :: behind, r.length ≤ p.length :=
        List.forall_mem_cons.mpr ⟨le_rfl, fun r hr => of_decide_eq_true (hbehind r hr)⟩
      obtain hq | hq := List.mem_append.mp hq
      · have hnone := hbefore q hq
        rw [List.isPrefixOf_iff_prefix.mpr hprefix] at hnone
        cases hnone
      · rw [← hlength, Option.map_some, Option.getD_some] at hlong
        exact hlong (hlater q hq)

theorem splitOnAny_eq (seps : List (List Char)) (s : List Char) : splitOnAny seps s = cut (longestAt seps) s := by
  rw [splitOnAny, firstAt_byLength]

/-- No separator begins in the part, with the rest after it. Empty ones do not count. -/
def Clear (seps : List (List Char)) (part rest : List Char) : Prop :=
  ∀ i < part.length, ∀ q ∈ seps, q <+: (part ++ rest).drop i → q = []

/-- The parts of a text between separators. Each separator is the first one that begins after the one before,
and the longest that begins there. -/
inductive Cuts (seps : List (List Char)) : List Char → List (List Char) → Prop
  | last {part : List Char} (clear : Clear seps part []) : Cuts seps part [part]
  | cut {part p rest : List Char} {parts : List (List Char)} (clear : Clear seps part (p ++ rest)) (mem : p ∈ seps)
      (ne : p ≠ []) (longest : ∀ q ∈ seps, q <+: p ++ rest → q.length ≤ p.length)
      (tail : Cuts seps rest parts) : Cuts seps (part ++ (p ++ rest)) (part :: parts)

theorem clear_nil (seps : List (List Char)) (rest : List Char) : Clear seps [] rest := fun _ hi => (nomatch hi)

theorem clear_cons_iff {c : Char} :
    Clear seps (c :: part) rest ↔ longestAt seps (c :: (part ++ rest)) = 0 ∧ Clear seps part rest := by
  constructor
  · intro h
    refine ⟨?_, fun i hi q hq hprefix => h (i + 1) (Nat.succ_lt_succ hi) q hq hprefix⟩
    by_contra hlong
    obtain ⟨q, hq, hprefix, hlength⟩ := exists_longestAt hlong
    rw [h 0 (Nat.succ_pos _) q hq hprefix] at hlength
    exact hlong hlength.symm
  · rintro ⟨hzero, h⟩ i hi q hq hprefix
    cases i with
    | zero =>
        have hle := length_le_longestAt hq (show q <+: c :: (part ++ rest) from hprefix)
        exact List.length_eq_zero_iff.mp (by omega)
    | succ i => exact h i (Nat.lt_of_succ_lt_succ hi) q hq hprefix

theorem Cuts.cons {c : Char} (h : Cuts seps s (part :: parts)) (hc : longestAt seps (c :: s) = 0) :
    Cuts seps (c :: s) ((c :: part) :: parts) := by
  cases h with
  | last clear => exact .last (clear_cons_iff.mpr ⟨by rwa [List.append_nil], clear⟩)
  | cut clear mem ne longest tail => exact .cut (clear_cons_iff.mpr ⟨hc, clear⟩) mem ne longest tail

theorem cut_cons_zero {width : List Char → Nat} {c : Char} (h : width (c :: s) = 0) :
    cut width (c :: s) = (cut width s).modifyHead (c :: ·) := by
  rw [cut, cutAfter, h]
  rfl

theorem cut_cons_succ {width : List Char → Nat} {c : Char} {n : Nat} (h : width (c :: s) = n + 1) :
    cut width (c :: s) = [] :: cut width (s.drop n) := by
  rw [cut, cutAfter, h]
  dsimp only
  rw [cutAfter_drop]
  rfl

theorem cuts_cut (seps : List (List Char)) (s : List Char) : Cuts seps s (cut (longestAt seps) s) := by
  induction hn : s.length using Nat.strong_induction_on generalizing s with
  | _ n ih =>
    subst hn
    cases s with
    | nil => exact .last (clear_nil _ _)
    | cons c s =>
        cases hwidth : longestAt seps (c :: s) with
        | zero =>
            rw [cut_cons_zero hwidth]
            exact (ih s.length (Nat.lt_succ_self _) s rfl).cons hwidth
        | succ n =>
            have hlong : longestAt seps (c :: s) ≠ 0 := by omega
            obtain ⟨p, hp, ⟨rest, hrest⟩, hlength⟩ := exists_longestAt hlong
            have hne : p ≠ [] := by
              rintro rfl
              rw [hwidth] at hlength
              cases hlength
            have hdrop : s.drop n = rest := by
              rw [← List.drop_succ_cons (a := c), ← hrest, ← hwidth, ← hlength, List.drop_left]
            have hshort : rest.length < (c :: s).length := by
              have hpos := List.length_pos_of_ne_nil hne
              rw [← hrest, List.length_append]
              omega
            rw [cut_cons_succ hwidth, hdrop, ← hrest]
            refine .cut (clear_nil _ _) hp hne (fun q hq hprefix => ?_) (ih _ hshort rest rfl)
            rw [hrest] at hprefix
            exact hlength ▸ length_le_longestAt hq hprefix

theorem Cuts.of_filter (h : Cuts (seps.filter (!·.isEmpty)) s parts) : Cuts seps s parts := by
  have hkept {q : List Char} (hq : q ∈ seps) : q = [] ∨ q ∈ seps.filter (!·.isEmpty) := by
    by_cases hne : q = []
    · exact .inl hne
    · exact .inr (List.mem_filter.mpr ⟨hq, by simpa using hne⟩)
  have hclear {part rest : List Char} (h : Clear (seps.filter (!·.isEmpty)) part rest) : Clear seps part rest :=
    fun i hi q hq hprefix => (hkept hq).elim id fun hq => h i hi q hq hprefix
  induction h with
  | last clear => exact .last (hclear clear)
  | cut clear mem ne longest _ ih =>
      refine .cut (hclear clear) (List.mem_of_mem_filter mem) ne (fun q hq hprefix => ?_) ih
      rcases hkept hq with rfl | hq
      · exact Nat.zero_le _
      · exact longest q hq hprefix

theorem Clear.not_infix (h : Clear seps part rest) (hq : q ∈ seps) (hne : q ≠ []) : ¬q <:+: part := by
  rintro ⟨a, b, rfl⟩
  have hpos := List.length_pos_of_ne_nil hne
  refine hne (h a.length ?_ q hq ⟨b ++ rest, ?_⟩)
  · rw [List.length_append, List.length_append]
    omega
  · rw [List.append_assoc, List.append_assoc, List.drop_left]

theorem Cuts.not_infix (h : Cuts seps s parts) : ∀ part ∈ parts, ∀ q ∈ seps, q ≠ [] → ¬q <:+: part := by
  induction h with
  | last clear => exact List.forall_mem_singleton.mpr fun q hq hne => clear.not_infix hq hne
  | cut clear _ _ _ _ ih => exact List.forall_mem_cons.mpr ⟨fun q hq hne => clear.not_infix hq hne, ih⟩

theorem Cuts.ne_nil (h : Cuts seps s parts) : parts ≠ [] := by
  cases h <;> exact List.cons_ne_nil _ _

theorem Cuts.length_le (h : Cuts seps s parts) : parts.length ≤ s.length + 1 := by
  induction h with
  | last => exact Nat.succ_le_succ (Nat.zero_le _)
  | cut _ _ ne _ _ ih =>
      have hpos := List.length_pos_of_ne_nil ne
      rw [List.length_cons, List.length_append, List.length_append]
      omega

theorem replaceAfter_clear {new : List Char} (hp : p ≠ []) (h : Clear [p] part rest) :
    replaceAfter p new 0 (part ++ rest) = part ++ replaceAfter p new 0 rest := by
  induction part with
  | nil => rfl
  | cons c part ih =>
      obtain ⟨hzero, hclear⟩ := clear_cons_iff.mp h
      have hprefix : ¬p.isPrefixOf (c :: (part ++ rest)) = true := by
        intro hprefix
        rw [longestAt_singleton, if_pos hprefix] at hzero
        exact hp (List.length_eq_zero_iff.mp hzero)
      rw [List.cons_append, replaceAfter, if_neg hprefix, ih hclear, List.cons_append]

theorem replaceAfter_append (hp : p ≠ []) (new rest : List Char) :
    replaceAfter p new 0 (p ++ rest) = new ++ replaceAfter p new 0 rest := by
  obtain ⟨c, t, rfl⟩ := List.exists_cons_of_ne_nil hp
  have hprefix : (c :: t).isPrefixOf (c :: (t ++ rest)) = true :=
    List.isPrefixOf_iff_prefix.mpr (List.prefix_append (c :: t) rest)
  rw [List.cons_append, replaceAfter, if_pos hprefix, replaceAfter_drop, List.length_cons, Nat.add_sub_cancel,
    List.drop_left]

theorem Cuts.join_eq (hp : p ≠ []) (new : List Char) (h : Cuts [p] s parts) :
    join new parts = replaceAfter p new 0 s := by
  induction h with
  | @last part clear =>
      have hreplace : replaceAfter p new 0 (part ++ []) = part ++ replaceAfter p new 0 [] := replaceAfter_clear hp clear
      rw [List.append_nil] at hreplace
      rw [hreplace]
      exact List.intercalate_singleton.trans (List.append_nil part).symm
  | cut clear mem _ _ tail ih =>
      obtain rfl := List.mem_singleton.mp mem
      rw [replaceAfter_clear hp clear, replaceAfter_append hp, ← ih, join,
        List.intercalate_cons_of_ne_nil tail.ne_nil, List.append_assoc]
      rfl

theorem Cuts.join_self (h : Cuts [p] s parts) : join p parts = s := by
  induction h with
  | last => exact List.intercalate_singleton
  | cut _ mem _ _ tail ih =>
      obtain rfl := List.mem_singleton.mp mem
      rw [join, List.intercalate_cons_of_ne_nil tail.ne_nil, List.append_assoc]
      exact congrArg (fun t => _ ++ (_ ++ t)) ih

end BaseLib.Text

namespace BaseLib.Session

open Library Text

variable {s : Session} {p : List Char}

theorem exec_split (s : Session) (hp : p ≠ []) (t : List Char) :
    s.exec (Catalogue.call "NString.Split" [.text t, .text p]) =
      (.ok (.ref s.store.size), s.grow (.array ((Text.cut (Text.longestAt [p]) t).map .text))) := by
  have hcut : Text.splitText t [p] = Text.cut (Text.longestAt [p]) t := by
    simp [Text.splitText, Text.splitOnAny_eq, hp]
  have hcall : s.exec (Catalogue.call "NString.Split" [.text t, .text p]) =
      (.ok (.ref s.store.size), s.grow (.array ((Text.splitText t [p]).map .text))) := rfl
  rw [hcall, hcut]

theorem exec_replaceText (s : Session) (hp : p ≠ []) (t w : List Char) :
    s.exec (Catalogue.call "NString.Replace" [.text t, .text p, .text w]) =
      (.ok (.text (Text.replaceAfter p w 0 t)), s) := by
  have hempty : p.isEmpty = false := by simp [hp]
  have hreplace : Text.replaceText t p w = .ok (Text.replaceAfter p w 0 t) := by
    simp [Text.replaceText, Text.replace, hempty]
  show s.exec (do
    if p.isEmpty then fail .emptyOldText
    pure (Value.text (← ofResult (Text.replaceText t p w)))) = _
  rw [hempty, hreplace]
  rfl

section

variable {a : Nat} {parts : List (List Char)}

def textPulled (a : Nat) (parts : List (List Char)) (i : Nat) : Pulled :=
  match parts[i]? with
  | some x => .give (.text x) (.guarded (.live a (i + 1)))
  | none => .finish

theorem exec_pull_texts (ha : s.store[a]? = some (.array (parts.map .text))) (k i : Nat) :
    s.exec (pull (k + 2) (.guarded (.live a i))) = (.ok (textPulled a parts i), s) := by
  have hitems : s.items a = parts.map .text := by simp [Session.items, ha]
  have hlive := exec_pull_live s k a i
  rw [hitems, List.getElem?_map] at hlive
  refine (exec_bind_ok hlive _).trans ?_
  rw [textPulled]
  cases parts[i]? <;> rfl

theorem exec_foldWalk_texts (ha : s.store[a]? = some (.array (parts.map .text)))
    {left : List (List Char)} {i k : Nat} (hleft : parts.drop i = left) (hk : left.length + 2 ≤ k)
    {walk : Walk} (hw : s.exec (pull k walk) = (.ok (textPulled a parts i), s))
    (shown : List (List Nat)) :
    s.exec (foldWalk (fun shown v => do
      let t ← displayOf v
      pure (true, t :: shown)) (k + 1) shown walk) = (.ok ((left.map codesOf).reverse ++ shown), s) := by
  induction left generalizing i k walk shown with
  | nil =>
      have hend : parts[i]? = none := by simpa using hleft
      rw [textPulled, hend] at hw
      rw [foldWalk, exec_bind_ok hw]
      rfl
  | cons x left ih =>
      rw [List.length_cons] at hk
      obtain ⟨k, rfl⟩ : ∃ j, k = j + 3 := ⟨k - 3, by omega⟩
      have hx : parts[i]? = some x := by rw [← Nat.add_zero i, ← List.getElem?_drop, hleft]; rfl
      have hrest : parts.drop (i + 1) = left := by rw [← List.drop_drop, hleft]; rfl
      rw [textPulled, hx] at hw
      have hstep : s.exec (outcome (do
          let t ← displayOf (.text x)
          pure (true, t :: shown))) = (.ok (.ok (true, codesOf x :: shown)), s) := rfl
      rw [foldWalk, exec_bind_ok hw]
      refine (exec_bind_ok hstep _).trans ?_
      rw [List.map_cons, List.reverse_cons, List.append_assoc]
      exact ih hrest (by omega) (exec_pull_texts ha k (i + 1)) (codesOf x :: shown)

theorem codesOf_intercalate (w : List Char) (parts : List (List Char)) :
    codesOf (w.intercalate parts) = (codesOf w).intercalate (parts.map codesOf) := by
  induction parts using List.twoStepInduction with
  | nil => rfl
  | singleton x => simp [List.intercalate]
  | cons_cons x y parts _ ih =>
      simp only [List.map_cons, List.intercalate_cons_cons] at ih ⊢
      rw [codesOf_append, codesOf_append, ih]

theorem exec_join (ha : s.store[a]? = some (.array (parts.map .text)))
    (hs : parts.length + 4 ≤ s.steps) (w : List Char) :
    s.exec (Catalogue.call "NString.Join" [.text w, .ref a]) =
      (.ok (.text (Text.join w parts)), s) := by
  obtain ⟨k, hk⟩ : ∃ k, s.steps = k + 4 := ⟨s.steps - 4, by omega⟩
  have hopen := Enumeration.Plan.exec_openWalk_array ha (k + 1)
  have hpull := (Enumeration.exec_pull_pending hopen).trans (exec_pull_texts ha k 0)
  have hfold := exec_foldWalk_texts ha List.drop_zero (by omega) hpull []
  have hcall : s.exec (Catalogue.call "NString.Join" [.text w, .ref a]) =
      s.exec (Texts.joinElements (codesOf w) (.ref a)) := by
    cases w <;> rfl
  have hshown : s.exec (foldSource (.ref a) [] fun shown v => do
      let t ← displayOf v
      pure (true, t :: shown)) = (.ok ((parts.map codesOf).reverse ++ []), s) := by
    rw [foldSource, exec_get_bind, hk]
    exact hfold
  rw [hcall, Texts.joinElements, exec_bind_ok hshown, List.append_nil, List.reverse_reverse, ← codesOf_intercalate,
    Value.ofCodes_codesOf]
  rfl

end

/-- A separator as a value: a text, or the code of a character. Null is none. -/
inductive IsSeparator : Value → List Char → Prop
  | text (p : List Char) : IsSeparator (.text p) p
  | code (c : Char) : IsSeparator (.int c.toNat) [c]
  | null : IsSeparator .null []

theorem exec_charOfCode (s : Session) (c : Char) : s.exec (charOfCode c.toNat) = (.ok c, s) := by
  have hlt : c.toNat < 55296 ∨ 57343 < c.toNat ∧ c.toNat < 1114112 := c.valid
  have hsmall : ¬((c.toNat : ℤ) < -2147483648 ∨ 2147483647 < (c.toNat : ℤ)) := by omega
  have hvalid : ¬((c.toNat : ℤ) < 0 ∨ 1114111 < (c.toNat : ℤ)) := by omega
  rw [charOfCode, validCode, if_neg hsmall, if_neg hvalid, Int.toNat_natCast, pure_bind,
    if_pos (isScalar_toNat c), Char.ofNat_toNat]
  rfl

theorem exec_separators {given : List Value} {seps : List (List Char)} (h : List.Forall₂ IsSeparator given seps) :
    ∃ found, s.exec ((given.filter (· != .null)).mapM textOrCode) = (.ok found, s) ∧
      found.filter (!·.isEmpty) = seps.filter (!·.isEmpty) := by
  induction h with
  | nil => exact ⟨[], rfl, rfl⟩
  | @cons v p given seps hv _ ih =>
      obtain ⟨found, hfound, hsame⟩ := ih
      have hadd (hread : s.exec (textOrCode v) = (.ok p, s)) (hkeep : (v != .null) = true) :
          ∃ found, s.exec (((v :: given).filter (· != .null)).mapM textOrCode) = (.ok found, s) ∧
            found.filter (!·.isEmpty) = (p :: seps).filter (!·.isEmpty) := by
        refine ⟨p :: found, ?_, ?_⟩
        · rw [List.filter_cons, if_pos hkeep, List.mapM_cons, exec_bind_ok hread, exec_bind_ok hfound]
          rfl
        · rw [List.filter_cons, List.filter_cons, hsame]
      cases hv with
      | text => exact hadd rfl rfl
      | code c =>
          refine hadd ?_ rfl
          show s.exec (do pure [← charOfCode c.toNat]) = _
          rw [exec_bind_ok (exec_charOfCode s c)]
          rfl
      | null => exact ⟨found, hfound, hsame⟩

theorem exec_splitAny {args : List Value} {seps : List (List Char)}
    (hseps : List.Forall₂ IsSeparator (s.formatArguments args) seps) (hne : ∃ p ∈ seps, p ≠ []) (t : List Char) :
    ∃ parts, Cuts seps t parts ∧ s.exec (Catalogue.call "NString.Split" (.text t :: args)) =
      (.ok (.ref s.store.size), s.grow (.array (parts.map .text))) := by
  obtain ⟨found, hfound, hsame⟩ := exec_separators (s := s) hseps
  have hsome : (found.filter (!·.isEmpty)).isEmpty = false := by
    obtain ⟨p, hp, hne⟩ := hne
    have hmem : p ∈ found.filter (!·.isEmpty) := hsame ▸ List.mem_filter.mpr ⟨hp, by simpa using hne⟩
    rw [← Bool.not_eq_true, List.isEmpty_iff]
    exact List.ne_nil_of_mem hmem
  have hsplit : splitText t found = cut (longestAt (seps.filter (!·.isEmpty))) t := by
    rw [splitText, hsome, hsame, splitOnAny_eq]
    rfl
  refine ⟨_, (cuts_cut (seps.filter (!·.isEmpty)) t).of_filter, ?_⟩
  have hcall : Catalogue.call "NString.Split" (.text t :: args) = Texts.split (.text t :: args) := by
    have hmember : Catalogue.members.lookup "NString.Split" = some (.variadic 1 Texts.split) := rfl
    have hcount : ¬(Value.text t :: args).length < 1 := by
      rw [List.length_cons]
      omega
    rw [Catalogue.call, hmember]
    exact if_neg hcount
  have hseparators : s.exec (Texts.separatorsOf args) = (.ok found, s) := hfound
  rw [hcall, Texts.split, ← hsplit]
  exact exec_bind_ok hseparators _

/-- Replacing a text that is not empty is splitting at it and joining with the other, and joining with itself gives
the text back. Whatever separators a text is split at, it is the parts with separators between them, each the
longest that begins in its place, and no part contains one. -/
theorem split_spec (s : Session) :
    (∀ t old new : List Char, old ≠ [] → t.length + 5 ≤ s.steps → ∃ x parts u,
      s.exec (Catalogue.call "NString.Split" [.text t, .text old]) = (.ok parts, u) ∧
      s.exec (Catalogue.call "NString.Replace" [.text t, .text old, .text new]) = (.ok (.text x), s) ∧
      u.exec (Catalogue.call "NString.Join" [.text new, parts]) = (.ok (.text x), u) ∧
      u.exec (Catalogue.call "NString.Join" [.text old, parts]) = (.ok (.text t), u)) ∧
    ∀ (t : List Char) (args : List Value) (seps : List (List Char)),
      List.Forall₂ IsSeparator (s.formatArguments args) seps → (∃ p ∈ seps, p ≠ []) → ∃ parts,
        s.exec (Catalogue.call "NString.Split" (.text t :: args)) =
          (.ok (.ref s.store.size), s.grow (.array (parts.map .text))) ∧
        Cuts seps t parts ∧ ∀ part ∈ parts, ∀ p ∈ seps, p ≠ [] → ¬p <:+: part := by
  constructor
  · intro t old new hold hs
    have hcuts := cuts_cut [old] t
    have hlength := hcuts.length_le
    have hjoin := exec_join (s := s.grow (.array ((cut (longestAt [old]) t).map .text))) (store_grow s _)
      (Nat.le_trans (by omega) hs)
    refine ⟨_, _, _, exec_split s hold t, exec_replaceText s hold t new, ?_, ?_⟩
    · rw [hjoin, hcuts.join_eq hold]
    · rw [hjoin, hcuts.join_self]
  · intro t args seps hseps hne
    obtain ⟨parts, hcuts, hrun⟩ := exec_splitAny hseps hne t
    exact ⟨parts, hrun, hcuts, hcuts.not_infix⟩

/-- Of two separators one of which begins with the other, the longer one counts. -/
theorem split_spec_overlapping :
    (∃ x parts u,
      (start 0).exec (Catalogue.call "NString.Split" [.text "aaa".toList, .text ['a', 'a']]) = (.ok parts, u) ∧
      (start 0).exec (Catalogue.call "NString.Replace" [.text "aaa".toList, .text ['a', 'a'], .text ['b']]) =
        (.ok (.text x), start 0) ∧
      u.exec (Catalogue.call "NString.Join" [.text ['b'], parts]) = (.ok (.text x), u) ∧
      u.exec (Catalogue.call "NString.Join" [.text ['a', 'a'], parts]) = (.ok (.text "aaa".toList), u)) ∧
    ∃ parts,
      (start 0).exec (Catalogue.call "NString.Split" [.text "a, b;c".toList, .text [','], .text [',', ' '], .null]) =
        (.ok (.ref (start 0).store.size), (start 0).grow (.array (parts.map .text))) ∧
      Cuts [[','], [',', ' '], []] "a, b;c".toList parts ∧
      ∀ part ∈ parts, ∀ p ∈ [[','], [',', ' '], []], p ≠ [] → ¬p <:+: part := by
  obtain ⟨hreplace, hsplit⟩ := split_spec (start 0)
  exact ⟨hreplace "aaa".toList ['a', 'a'] ['b'] (by decide) (by decide),
    hsplit "a, b;c".toList [.text [','], .text [',', ' '], .null] [[','], [',', ' '], []]
      (.cons (.text _) (.cons (.text _) (.cons .null .nil))) ⟨[','], by decide, by decide⟩⟩

end BaseLib.Session
