import BaseLib.Proofs.Number.RoundTrip
import BaseLib.Proofs.Text.Occurrence
import BaseLib.Regex.Spelling

namespace BaseLib.Regex.Spelling

/-- The rewriting without explicit captures; the flag tells whether it is inside a bracketed class. -/
inductive Spells : Bool → List Char → List Char → Prop
  | nil {b : Bool} : Spells b [] []
  | reference {s name after t : List Char} (hname : delimited s = some (name, after))
    (h : Spells false after t) : Spells false ('\\' :: 'k' :: s) (reference name ++ t)
  | escape {b : Bool} {c : Char} {s t : List Char} (hc : b = false → c = 'k' → delimited s = none)
    (h : Spells b s t) : Spells b ('\\' :: c :: s) ('\\' :: c :: t)
  | member {c : Char} {s t : List Char} (hc : c = '\\' → s = []) (h : Spells (c != ']') s t) :
    Spells true (c :: s) (c :: t)
  | bracket {s start after t : List Char} (hstart : classStart s = (start, after)) (h : Spells true after t) :
    Spells false ('[' :: s) ('[' :: start ++ t)
  | angle {c : Char} {s t : List Char} (hc : c ≠ '=' ∧ c ≠ '!') (h : Spells false (c :: s) t) :
    Spells false ('(' :: '?' :: '<' :: c :: s) ("(?P<".toList ++ t)
  | quote {s name after t : List Char} (hname : upTo '\'' s = some (name, after))
    (h : Spells false after t) :
    Spells false ('(' :: '?' :: '\'' :: s) ("(?P<".toList ++ name ++ '>' :: t)
  | paren {s t : List Char} (hangle : ∀ c r, s = '?' :: '<' :: c :: r → c = '=' ∨ c = '!')
    (hquote : ∀ r, s = '?' :: '\'' :: r → upTo '\'' r = none) (h : Spells false s t) :
    Spells false ('(' :: s) ('(' :: t)
  | plain {c : Char} {s t : List Char} (hc : c = '\\' → s = []) (hbracket : c ≠ '[') (hparen : c ≠ '(')
    (h : Spells false s t) : Spells false (c :: s) (c :: t)

variable {b : Bool} {c : Char} {s t p q u v name after : List Char}

theorem upTo_append (h : c ∉ name) : upTo c (name ++ c :: after) = some (name, after) := by
  rw [upTo, Text.breakOn_singleton h]

theorem upTo_none (h : c ∉ s) : upTo c s = none := by
  rw [upTo, Text.breakOn_singleton_none h]

theorem upTo_eq_some : upTo c s = some (name, after) ↔ c ∉ name ∧ s = name ++ c :: after := by
  constructor
  · intro h
    by_cases hc : c ∈ s
    · obtain ⟨before, rest, rfl, hbefore⟩ := List.eq_append_cons_of_mem hc
      rw [upTo_append hbefore] at h
      cases h
      exact ⟨hbefore, rfl⟩
    · rw [upTo_none hc] at h
      cases h
  · rintro ⟨h, rfl⟩
    exact upTo_append h

theorem upTo_eq_none : upTo c s = none ↔ c ∉ s := by
  refine ⟨fun h hc => ?_, upTo_none⟩
  obtain ⟨before, rest, rfl, hbefore⟩ := List.eq_append_cons_of_mem hc
  rw [upTo_append hbefore] at h
  cases h

theorem upTo_lt (h : upTo c s = some (name, after)) : after.length < s.length := by
  obtain ⟨-, rfl⟩ := upTo_eq_some.mp h
  rw [List.length_append, List.length_cons]
  omega

theorem delimited_lt (h : delimited s = some (name, after)) : after.length < s.length := by
  unfold delimited at h
  split at h
  · exact (upTo_lt h).trans (Nat.lt_succ_self _)
  · exact (upTo_lt h).trans (Nat.lt_succ_self _)
  · cases h

theorem delimited_append (h : delimited s = some (p, after)) (r : List Char) :
    delimited (s ++ r) = some (p, after ++ r) := by
  unfold delimited at h
  split at h
  · obtain ⟨hp, rfl⟩ := upTo_eq_some.mp h
    rw [List.cons_append, List.append_assoc]
    exact upTo_append hp
  · obtain ⟨hp, rfl⟩ := upTo_eq_some.mp h
    rw [List.cons_append, List.append_assoc]
    exact upTo_append hp
  · cases h

theorem classStart_cases (s : List Char) :
    ∃ start after, classStart s = (start, after) ∧ s = start ++ after ∧ '\\' ∉ start ∧
      ∀ t, t.head? = some ')' → classStart (s ++ t) = (start, after ++ t) := by
  rcases s with _ | ⟨c, s⟩
  · refine ⟨[], [], rfl, rfl, by simp, fun t ht => ?_⟩
    obtain ⟨t, rfl⟩ := List.head?_eq_some_iff.mp ht
    rfl
  by_cases hcaret : c = '^'
  · subst hcaret
    rcases s with _ | ⟨d, s⟩
    · refine ⟨['^'], [], rfl, rfl, by simp, fun t ht => ?_⟩
      obtain ⟨t, rfl⟩ := List.head?_eq_some_iff.mp ht
      rfl
    by_cases hclose : d = ']'
    · subst hclose
      exact ⟨['^', ']'], s, rfl, rfl, by simp, fun t _ => rfl⟩
    · have hstart (s : List Char) : classStart ('^' :: d :: s) = (['^'], d :: s) := by
        simp [classStart, hclose]
      exact ⟨['^'], d :: s, hstart s, rfl, by simp, fun t _ => hstart (s ++ t)⟩
  · by_cases hclose : c = ']'
    · subst hclose
      exact ⟨[']'], s, rfl, rfl, by simp, fun t _ => rfl⟩
    · have hstart (s : List Char) : classStart (c :: s) = ([], c :: s) := by
        simp [classStart, hcaret, hclose]
      exact ⟨[], c :: s, hstart s, rfl, by simp, fun t _ => hstart (s ++ t)⟩

theorem classStart_length {start : List Char} (h : classStart s = (start, after)) :
    after.length ≤ s.length := by
  obtain ⟨start', after', hstart, rfl, -⟩ := classStart_cases s
  cases h.symm.trans hstart
  simp

theorem spells_go {n : Nat} (hn : s.length < n) : Spells b s (go false n b s) := by
  fun_induction go false n b s with
  | case1 => omega
  | case2 => exact .nil
  | case3 n b c s name after h ih =>
      split at h
      · rename_i hk
        simp only [Bool.and_eq_true, Bool.not_eq_true', beq_iff_eq] at hk
        obtain ⟨rfl, rfl⟩ := hk
        have hlt := delimited_lt h
        exact .reference h (ih (by simp only [List.length_cons] at hn; omega))
      · cases h
  | case4 n b c s h ih =>
      refine .escape ?_ (ih (by simp only [List.length_cons] at hn; omega))
      rintro rfl rfl
      exact h
  | case5 n c s hc ih =>
      refine .member (fun hback => ?_) (ih (by simpa using hn))
      cases s with
      | nil => rfl
      | cons d s => exact (hc d s hback rfl).elim
  | case6 n s start after h ih =>
      have hle := classStart_length h
      exact .bracket h (ih (by simp only [List.length_cons] at hn; omega))
  | case7 n c s hc ih =>
      simp only [Bool.and_eq_true, bne_iff_ne] at hc
      exact .angle hc (ih (by simp only [List.length_cons, List.drop_succ_cons, List.drop_zero] at hn ⊢; omega))
  | case8 n c s hc ih =>
      refine .paren ?_ ?_ (ih (by simpa using hn))
      · rintro _ _ ⟨⟩
        simpa [or_iff_not_imp_left] using hc
      · rintro _ ⟨⟩
  | case9 n s name after h ih =>
      have hlt := upTo_lt h
      exact .quote h (ih (by simp only [List.length_cons] at hn; omega))
  | case10 n s h ih =>
      refine .paren ?_ ?_ (ih (by simpa using hn))
      · rintro _ _ ⟨⟩
      · rintro _ ⟨⟩
        exact h
  | case11 n s hangle hquote ih =>
      refine .paren ?_ ?_ (ih (by simpa using hn))
      · rintro _ _ ⟨⟩
        exact (hangle _ _ rfl).elim
      · rintro _ ⟨⟩
        exact (hquote _ rfl).elim
  | case12 n s hangle hquote _ ih =>
      refine .paren ?_ ?_ (ih (by simpa using hn))
      · intro c r hs
        exact (hangle _ _ hs).elim
      · intro r hs
        exact (hquote _ hs).elim
  | case13 n c s hc hbracket hparen ih =>
      refine .plain (fun hback => ?_) hbracket hparen (ih (by simpa using hn))
      cases s with
      | nil => rfl
      | cons d s => exact (hc d s hback rfl).elim

theorem go_paren (hangle : ∀ c r, s = '?' :: '<' :: c :: r → c = '=' ∨ c = '!')
    (hquote : ∀ r, s = '?' :: '\'' :: r → upTo '\'' r = none) (n : Nat) :
    go false (n + 1) false ('(' :: s) = '(' :: go false n false s := by
  by_cases hs : ∃ c r, s = '?' :: '<' :: c :: r
  · obtain ⟨c, r, rfl⟩ := hs
    have hc := hangle c r rfl
    rw [go, if_neg (by simpa [or_iff_not_imp_left] using hc)]
  by_cases hs' : ∃ r, s = '?' :: '\'' :: r
  · obtain ⟨r, rfl⟩ := hs'
    rw [go, hquote r rfl]
  have hangle' : ∀ c r, s ≠ '?' :: '<' :: c :: r := fun c r h => hs ⟨c, r, h⟩
  have hquote' : ∀ r, s ≠ '?' :: '\'' :: r := fun r h => hs' ⟨r, h⟩
  by_cases hquestion : ∃ r, s = '?' :: r
  · obtain ⟨r, rfl⟩ := hquestion
    rw [go]
    · exact fun c r h => hangle' c r (congrArg _ h)
    · exact fun r h => hquote' r (congrArg _ h)
  · rw [go, if_neg Bool.false_ne_true]
    · rfl
    · exact hangle'
    · exact hquote'
    · exact fun r h => hquestion ⟨r, h⟩

theorem Spells.go (h : Spells b s t) {n : Nat} (hn : s.length < n) : Spelling.go false n b s = t := by
  induction h generalizing n with
  | nil =>
      obtain ⟨n, rfl⟩ := Nat.exists_eq_add_one_of_ne_zero (Nat.ne_zero_of_lt hn)
      rfl
  | reference hname h ih =>
      obtain ⟨n, rfl⟩ := Nat.exists_eq_add_one_of_ne_zero (Nat.ne_zero_of_lt hn)
      have hlt := delimited_lt hname
      rw [Spelling.go]
      simp only [Bool.not_false, beq_self_eq_true, Bool.and_self, if_true, hname]
      rw [ih (by simp only [List.length_cons] at hn; omega)]
  | @escape b c s t hc h ih =>
      obtain ⟨n, rfl⟩ := Nat.exists_eq_add_one_of_ne_zero (Nat.ne_zero_of_lt hn)
      have hnone : (if (!b && c == 'k') = true then delimited s else none) = none := by
        split
        · rename_i hk
          simp only [Bool.and_eq_true, Bool.not_eq_true', beq_iff_eq] at hk
          exact hc hk.1 hk.2
        · rfl
      rw [Spelling.go, hnone]
      dsimp only
      rw [ih (by simp only [List.length_cons] at hn; omega)]
  | member hc h ih =>
      obtain ⟨n, rfl⟩ := Nat.exists_eq_add_one_of_ne_zero (Nat.ne_zero_of_lt hn)
      rw [Spelling.go, ih (Nat.lt_of_succ_lt_succ hn)]
      intro d r hback hs
      rw [hc hback] at hs
      cases hs
  | bracket hstart h ih =>
      obtain ⟨n, rfl⟩ := Nat.exists_eq_add_one_of_ne_zero (Nat.ne_zero_of_lt hn)
      have hle := classStart_length hstart
      rw [Spelling.go, hstart]
      dsimp only
      rw [ih (by simp only [List.length_cons] at hn; omega)]
  | angle hc h ih =>
      obtain ⟨n, rfl⟩ := Nat.exists_eq_add_one_of_ne_zero (Nat.ne_zero_of_lt hn)
      rw [Spelling.go, if_pos (by simpa using hc), List.drop_succ_cons, List.drop_succ_cons, List.drop_zero,
        ih (by simp only [List.length_cons] at hn ⊢; omega)]
  | quote hname h ih =>
      obtain ⟨n, rfl⟩ := Nat.exists_eq_add_one_of_ne_zero (Nat.ne_zero_of_lt hn)
      have hlt := upTo_lt hname
      rw [Spelling.go, hname]
      dsimp only
      rw [ih (by simp only [List.length_cons] at hn; omega)]
  | paren hangle hquote h ih =>
      obtain ⟨n, rfl⟩ := Nat.exists_eq_add_one_of_ne_zero (Nat.ne_zero_of_lt hn)
      rw [go_paren hangle hquote, ih (Nat.lt_of_succ_lt_succ hn)]
  | plain hc hbracket hparen h ih =>
      obtain ⟨n, rfl⟩ := Nat.exists_eq_add_one_of_ne_zero (Nat.ne_zero_of_lt hn)
      rw [Spelling.go, ih (Nat.lt_of_succ_lt_succ hn)]
      · intro d r hback hs
        rw [hc hback] at hs
        cases hs
      · exact hbracket
      · exact hparen

def Paired : List Char → Prop
  | [] => True
  | '\\' :: _ :: s => Paired s
  | c :: s => c ≠ '\\' ∧ Paired s

theorem paired_cons (hc : c ≠ '\\') : Paired (c :: s) ↔ Paired s := by
  rw [Paired.eq_3]
  · exact and_iff_right hc
  · exact fun _ _ h => absurd h hc

theorem paired_append (h : Paired p) : Paired (p ++ s) ↔ Paired s := by
  fun_induction Paired p with
  | case1 => rfl
  | case2 c p ih => exact ih h
  | case3 c p hp ih => exact (paired_cons h.1).trans (ih h.2)

theorem paired_of_not_mem (h : '\\' ∉ p) : Paired p := by
  induction p with
  | nil => trivial
  | cons c p ih =>
      obtain ⟨hc, hp⟩ := not_or.mp (mt List.mem_cons.mpr h)
      exact (paired_cons (Ne.symm hc)).mpr (ih hp)

theorem paired_concat (p : List Char) (hc : c ≠ '\\') : Paired (p ++ [c]) := by
  fun_induction Paired p with
  | case1 => exact (paired_cons hc).mpr trivial
  | case2 d p ih => exact ih
  | case3 d p hp ih =>
      cases p with
      | nil =>
          by_cases hd : d = '\\'
          · subst hd
            trivial
          · exact (paired_cons hd).mpr ih
      | cons x p => exact (paired_cons fun hd => hp x p hd rfl).mpr ih

theorem paired_reference (name : List Char) : Paired (reference name) := by
  unfold reference
  split
  · exact paired_concat _ (by decide)
  · exact paired_concat _ (by decide)

theorem paired_delimited (h : delimited s = some (name, after)) : Paired s ↔ Paired after := by
  unfold delimited at h
  split at h
  · obtain ⟨-, rfl⟩ := upTo_eq_some.mp h
    rw [List.append_cons, ← List.cons_append]
    exact paired_append (paired_concat (_ :: name) (by decide))
  · obtain ⟨-, rfl⟩ := upTo_eq_some.mp h
    rw [List.append_cons, ← List.cons_append]
    exact paired_append (paired_concat (_ :: name) (by decide))
  · cases h

theorem Spells.nil_right (h : Spells b [] t) : t = [] := by
  cases h
  rfl

theorem Spells.paired (h : Spells b s t) : Paired t ↔ Paired s := by
  induction h with
  | nil => rfl
  | reference hname h ih =>
      rw [paired_append (paired_reference _), ih]
      exact (paired_delimited hname).symm
  | escape hc h ih => exact ih
  | @member c s t hc h ih =>
      by_cases hback : c = '\\'
      · rw [hc hback] at h ⊢
        rw [h.nil_right]
      · rw [paired_cons hback, paired_cons hback, ih]
  | @bracket s start after t hstart h ih =>
      obtain ⟨start', after', hstart', rfl, hback, -⟩ := classStart_cases s
      cases hstart.symm.trans hstart'
      rw [List.cons_append, paired_cons (by decide), paired_cons (by decide),
        paired_append (paired_of_not_mem hback), paired_append (paired_of_not_mem hback), ih]
  | angle hc h ih =>
      rw [paired_append (paired_of_not_mem (by decide)), ih]
      exact (paired_append (p := ['(', '?', '<']) (paired_of_not_mem (by decide))).symm
  | @quote s name after t hname h ih =>
      have hs : Paired ('\'' :: s) ↔ Paired after := paired_delimited hname
      rw [List.append_cons, paired_append (paired_concat _ (by decide)), ih, paired_cons (by decide),
        paired_cons (by decide), hs]
  | paren hangle hquote h ih => rw [paired_cons (by decide), paired_cons (by decide), ih]
  | @plain c s t hc hbracket hparen h ih =>
      by_cases hback : c = '\\'
      · rw [hc hback] at h ⊢
        rw [h.nil_right]
      · rw [paired_cons hback, paired_cons hback, ih]

def closing (name : List Char) : List Char := ")\\k<".toList ++ name ++ ['>']

/-- How the one spelling of a pattern goes on when the pattern does: the reference is rewritten, or it stands
inside a class; or an angle bracket that the pattern has opened at its end, or after a `\k`, finds in it what
it lacked. -/
inductive Continued (name : List Char) : List Char → List Char → Prop
  | outside {u : List Char} (hu : Paired u) : Continued name u (u ++ ')' :: reference name)
  | inside {u : List Char} (hu : Paired u) : Continued name u (u ++ closing name)
  | swallowed {u p : List Char} (hp : Paired p) : Continued name u (p ++ (")\\k<".toList ++ name ++ [')']))
  | opening {p : List Char} (hp : Paired p) :
    Continued name (p ++ "(?<".toList) (p ++ ("(?P<".toList ++ ')' :: reference name))

theorem Continued.prepend (hp : Paired p) (h : Continued name u v) : Continued name (p ++ u) (p ++ v) := by
  cases h with
  | outside hu =>
      rw [← List.append_assoc]
      exact .outside ((paired_append hp).mpr hu)
  | inside hu =>
      rw [← List.append_assoc]
      exact .inside ((paired_append hp).mpr hu)
  | swallowed hq =>
      rw [← List.append_assoc]
      exact .swallowed ((paired_append hp).mpr hq)
  | opening hq =>
      rw [← List.append_assoc, ← List.append_assoc]
      exact .opening ((paired_append hp).mpr hq)

theorem continued_swallowed (hp : Paired ('<' :: p)) :
    Continued name u (reference (p ++ ")\\k<".toList ++ name)) := by
  have hnumber : ¬Text.allDigits (p ++ ")\\k<".toList ++ name) = true := by
    intro hall
    rw [Text.allDigits, Bool.and_eq_true, List.all_eq_true] at hall
    exact absurd (hall.2 ')' (by simp)) (by decide)
  have hq : Paired ("(?P=".toList ++ p) :=
    (paired_append (paired_of_not_mem (by decide))).mpr ((paired_cons (by decide)).mp hp)
  have hcontinued : Continued name u _ := .swallowed hq
  rw [Spelling.reference, if_neg hnumber]
  simpa using hcontinued

theorem angle_continued (hopen : s ≠ ['?', '<'])
    (h : ∀ c r, s = '?' :: '<' :: c :: r → c = '=' ∨ c = '!') :
    ∀ c r, s ++ closing name = '?' :: '<' :: c :: r → c = '=' ∨ c = '!' := by
  intro c r hr
  rcases s with _ | ⟨x, _ | ⟨y, _ | ⟨z, s⟩⟩⟩
  · exact absurd (List.cons.inj hr).1 (by decide)
  · exact absurd (List.cons.inj (List.cons.inj hr).2).1 (by decide)
  · simp only [List.cons_append, List.cons.injEq] at hr
    obtain ⟨rfl, rfl, -⟩ := hr
    exact absurd rfl hopen
  · simp only [List.cons_append, List.cons.injEq] at hr
    obtain ⟨rfl, rfl, rfl, -⟩ := hr
    exact h z s rfl

section

variable (hname : Number.Digits name)

include hname

theorem not_mem_closing (hc : c ∉ [')', '\\', 'k', '<', '>']) (hdigit : Number.isAsciiDigit c = false) :
    c ∉ closing name := by
  intro h
  simp only [closing, List.mem_append] at h
  rcases h with (h | h) | h
  · exact hc (List.mem_append_left ['>'] h)
  · rw [hname c h] at hdigit
    cases hdigit
  · exact hc (List.mem_append_right [')', '\\', 'k', '<'] h)

theorem angle_not_mem : '>' ∉ name := by
  intro h
  have hdigit := hname _ h
  cases hdigit

theorem spells_class : Spells true (name ++ ['>']) (name ++ ['>']) := by
  induction name with
  | nil => exact .member (by simp) .nil
  | cons c name ih =>
      have hc := hname c List.mem_cons_self
      refine .member (fun h => ?_) ?_
      · rw [h] at hc
        cases hc
      · have hne : (c != ']') = true := by
          rw [bne_iff_ne]
          rintro rfl
          cases hc
        rw [hne]
        exact ih fun d hd => hname d (List.mem_cons_of_mem _ hd)

theorem spells_inside : Spells true (closing name) (closing name) := by
  refine .member (c := ')') (by simp) (.escape (by simp) ?_)
  exact .member (c := '<') (by simp) (spells_class hname)

theorem spells_outside : Spells false (closing name) (')' :: reference name) := by
  have hdelimited : delimited ('<' :: (name ++ ['>'])) = some (name, []) :=
    upTo_append (angle_not_mem hname)
  have href := Spells.reference hdelimited .nil
  rw [List.append_nil] at href
  exact .plain (c := ')') (by simp) (by decide) (by decide) href

theorem delimited_closing (h : delimited s = none) :
    (∃ p, s = '<' :: p ∧ delimited (s ++ closing name) = some (p ++ ")\\k<".toList ++ name, [])) ∨
      delimited (s ++ closing name) = none := by
  have hquote : '\'' ∉ closing name := not_mem_closing hname (by decide) (by decide)
  rcases s with _ | ⟨c, p⟩
  · exact .inr rfl
  by_cases hangle : c = '<'
  · subst hangle
    refine .inl ⟨p, rfl, ?_⟩
    have hp : '>' ∉ p := upTo_eq_none.mp h
    change upTo '>' (p ++ closing name) = _
    rw [closing, ← List.append_assoc, ← List.append_assoc]
    refine upTo_append fun hmem => ?_
    simp only [List.mem_append] at hmem
    rcases hmem with (hmem | hmem) | hmem
    · exact hp hmem
    · exact absurd hmem (by decide)
    · exact angle_not_mem hname hmem
  · by_cases hc : c = '\''
    · subst hc
      have hp : '\'' ∉ p := upTo_eq_none.mp h
      exact .inr (upTo_none (List.not_mem_append hp hquote))
    · right
      rw [List.cons_append, delimited]
      · exact fun _ h => hangle (List.cons.inj h).1
      · exact fun _ h => hc (List.cons.inj h).1

theorem quote_continued (h : ∀ r, s = '?' :: '\'' :: r → upTo '\'' r = none) :
    ∀ r, s ++ closing name = '?' :: '\'' :: r → upTo '\'' r = none := by
  intro r hr
  rcases s with _ | ⟨x, _ | ⟨y, s⟩⟩
  · exact absurd (List.cons.inj hr).1 (by decide)
  · exact absurd (List.cons.inj (List.cons.inj hr).2).1 (by decide)
  · simp only [List.cons_append, List.cons.injEq] at hr
    obtain ⟨rfl, rfl, rfl⟩ := hr
    have hquote : '\'' ∉ closing name := not_mem_closing hname (by decide) (by decide)
    exact upTo_none (List.not_mem_append (upTo_eq_none.mp (h s rfl)) hquote)

theorem Spells.continued (h : Spells b p u) (hp : Paired p) :
    ∃ v, Spells b (p ++ closing name) v ∧ Continued name u v := by
  have hback {c : Char} {s : List Char} (hc : c = '\\' → s = []) (hp : Paired (c :: s)) : c ≠ '\\' := by
    rintro rfl
    rw [hc rfl] at hp
    exact hp.1 rfl
  induction h with
  | @nil b =>
      cases b with
      | false => exact ⟨_, spells_outside hname, .outside (u := []) trivial⟩
      | true => exact ⟨_, spells_inside hname, .inside (u := []) trivial⟩
  | @reference s old after t hold h ih =>
      obtain ⟨v, hv, hcontinued⟩ := ih ((paired_delimited hold).mp hp)
      exact ⟨_, .reference (delimited_append hold _) hv, hcontinued.prepend (paired_reference old)⟩
  | @escape b c s t hc h ih =>
      have hpair : Paired ['\\', c] := trivial
      have hs : Paired s := (paired_append hpair).mp hp
      obtain ⟨v, hv, hcontinued⟩ := ih hs
      by_cases hk : b = false ∧ c = 'k'
      · obtain ⟨rfl, rfl⟩ := hk
        rcases delimited_closing hname (hc rfl rfl) with ⟨q, rfl, hdelimited⟩ | hnone
        · exact ⟨_, .reference hdelimited .nil, by simpa using continued_swallowed hs⟩
        · exact ⟨_, .escape (fun _ _ => hnone) hv, hcontinued.prepend hpair⟩
      · exact ⟨_, .escape (fun hb hc => absurd ⟨hb, hc⟩ hk) hv, hcontinued.prepend hpair⟩
  | @member c s t hc h ih =>
      have hne := hback hc hp
      obtain ⟨v, hv, hcontinued⟩ := ih ((paired_cons hne).mp hp)
      exact ⟨_, .member (fun h => absurd h hne) hv,
        hcontinued.prepend (p := [c]) ((paired_cons hne).mpr trivial)⟩
  | @bracket s start after t hstart h ih =>
      obtain ⟨start', after', hstart', rfl, hplain, happend⟩ := classStart_cases s
      cases hstart.symm.trans hstart'
      have hpair : Paired ('[' :: start) := (paired_cons (by decide)).mpr (paired_of_not_mem hplain)
      obtain ⟨v, hv, hcontinued⟩ := ih ((paired_append hpair).mp hp)
      exact ⟨_, .bracket (happend _ rfl) hv, hcontinued.prepend hpair⟩
  | @angle c s t hc h ih =>
      have hpair : Paired ['(', '?', '<'] := paired_of_not_mem (by decide)
      obtain ⟨v, hv, hcontinued⟩ := ih ((paired_append hpair).mp hp)
      have hpair' : Paired "(?P<".toList := paired_of_not_mem (by decide)
      exact ⟨_, .angle hc hv, hcontinued.prepend hpair'⟩
  | @quote s old after t hold h ih =>
      have hpair : Paired ['(', '?'] := paired_of_not_mem (by decide)
      have hs : delimited ('\'' :: s) = some (old, after) := hold
      obtain ⟨v, hv, hcontinued⟩ := ih ((paired_delimited hs).mp ((paired_append hpair).mp hp))
      refine ⟨_, .quote (delimited_append hs _) hv, ?_⟩
      have hpair' : Paired ("(?P<".toList ++ old ++ ['>']) := paired_concat _ (by decide)
      rw [List.append_cons _ '>' t, List.append_cons _ '>' v]
      exact hcontinued.prepend hpair'
  | @paren s t hangle hquote h ih =>
      have hs : Paired s := (paired_cons (by decide)).mp hp
      by_cases hopen : s = ['?', '<']
      · subst hopen
        obtain rfl : t = ['?', '<'] := (h.go (n := 3) (by decide)).symm
        exact ⟨_, .angle (by decide) (spells_outside hname), .opening (p := []) trivial⟩
      · obtain ⟨v, hv, hcontinued⟩ := ih hs
        have hpair : Paired ['('] := (paired_cons (by decide)).mpr trivial
        rw [List.cons_append]
        exact ⟨_, .paren (angle_continued hopen hangle) (quote_continued hname hquote) hv,
          hcontinued.prepend hpair⟩
  | @plain c s t hc hbracket hparen h ih =>
      have hne := hback hc hp
      obtain ⟨v, hv, hcontinued⟩ := ih ((paired_cons hne).mp hp)
      exact ⟨_, .plain (fun h => absurd h hne) hbracket hparen hv,
        hcontinued.prepend (p := [c]) ((paired_cons hne).mpr trivial)⟩

end

end BaseLib.Regex.Spelling
