import BaseLib.Proofs.Regex.Embedding
import BaseLib.Proofs.Regex.Spells

namespace BaseLib.Regex

open Spelling

namespace Reader

variable {st st' A E : State} {d e u v p : List Char} {name : List Char} {c : Char} {n k : Nat}

theorem along_append (hp : Paired p) (h : Along d e u v) (hne : tokenOf d = some (.escaped 'k') → u ≠ d) :
    Along d e (p ++ u) (p ++ v) := by
  have hlast {q : List Char} {t : Token} (hk : tokenOf d = some (.escaped 'k')) (hq : q ++ u = d) :
      t = .plain ')' := by
    have hle := h.length_le
    rw [← hq, List.length_append] at hle
    have hnil : q = [] := List.length_eq_zero_iff.mp (by omega)
    rw [hnil] at hq
    exact absurd hq (hne hk)
  fun_induction Paired p with
  | case1 => exact h
  | case2 c p ih => exact .token (t := .escaped c) rfl rfl hlast (ih hp)
  | case3 c p hc ih =>
      have htoken (w : List Char) : tokenOf (c :: w) = some (.plain c) := by
        rw [tokenOf]
        exact fun _ _ hback _ => hp.1 hback
      exact .token (t := .plain c) (htoken _) (htoken _) hlast (ih hp.2)

theorem along_parted (hp : Paired p) (hd : tokenOf d ≠ some (.escaped 'k')) (e : List Char) :
    Along d e (p ++ d) (p ++ e) :=
  along_append hp .here fun hk => absurd hk hd

theorem along_closed (d : List Char) (hp : Paired p) : Along d d (p ++ ')' :: d) (p ++ ')' :: d) := by
  refine along_append hp ?_ fun _ h => absurd (congrArg List.length h) (by simp)
  exact .token (t := .plain ')') rfl rfl (fun _ _ => rfl) .here

theorem along_of_not_paired (h : ¬Paired u) : Along ['\\'] ['\\'] u u := by
  fun_induction Paired u with
  | case1 => exact absurd trivial h
  | case2 c u ih => exact .token (t := .escaped c) rfl rfl (fun hk => by cases hk) (ih h)
  | case3 c u hc ih =>
      by_cases hback : c = '\\'
      · subst hback
        cases u with
        | nil => exact .here
        | cons d u => exact absurd rfl fun h => hc d u h rfl
      · have htoken : tokenOf (c :: u) = some (.plain c) := by
          rw [tokenOf]
          exact fun _ _ h _ => hback h
        have hu : ¬Paired u := fun hu => h ⟨hback, hu⟩
        exact .token (t := .plain c) htoken htoken (fun hk => by cases hk) (ih hu)

theorem parting_closed (h : '\n' ∉ v) : Parting [] (')' :: v) where
  left := by simp [tokenOf, fences]
  right := by simp [tokenOf, fences]
  bracket := by simp
  angle := by simp
  paren := by simp
  line := by simpa using h
  ends := fun _ => rfl
  opens := by simp [tokenOf]
  intact := by simp [tokenOf]

theorem parting_opened (h : '\n' ∉ v) : Parting ['(', '?', '<'] ("(?P<".toList ++ v) where
  left := by simp [tokenOf, fences]
  right := by simp [tokenOf, fences]
  bracket := by simp
  angle := by simp
  paren := by simp
  line := by simpa using h
  ends := by simp [tokenOf]
  opens := fun _ => rfl
  intact := by simp [tokenOf]

theorem parting_swallowed (hname : Number.Digits name) :
    Parting ("\\k<".toList ++ name ++ [')']) ("\\k<".toList ++ name ++ [')']) := by
  have hmem {c : Char} (hc : c ∉ ['\\', 'k', '<', ')']) (hdigit : Number.isAsciiDigit c = false) :
      c ∉ "\\k<".toList ++ name ++ [')'] := by
    intro h
    simp only [List.mem_append] at h
    rcases h with (h | h) | h
    · exact hc (List.mem_append_left [')'] h)
    · rw [hname c h] at hdigit
      cases hdigit
    · exact hc (List.mem_append_right ['\\', 'k', '<'] h)
  have htoken : tokenOf ("\\k<".toList ++ name ++ [')']) = some (.escaped 'k') := rfl
  constructor
  · constructor
    · rw [htoken]
      decide
    · rw [htoken]
      decide
    · exact hmem (by decide) (by decide)
    · exact hmem (by decide) (by decide)
    · exact fun _ => htoken
  · exact hmem (by decide) (by decide)
  · rw [htoken]
    exact fun h => by cases h
  · rw [htoken]
    exact fun h => by cases h
  · rw [htoken]
    exact fun h => by cases h

theorem group_wrap_ok {f g : Reading Pattern} {start : Nat} {atStart : Bool} {x : Option Pattern}
    (hrest : st.rest = '?' :: ':' :: v) (h : (group f g start atStart).run st = .ok (x, st')) :
    ∃ p st₁, x = some (.wrap p) ∧ f.run (st.past 2) = .ok (p, st₁) ∧
      (close start).run { st₁ with flags := st.flags } = .ok ((), st') := by
  have hquestion : tokenOf st.rest = some (.plain '?') := by rw [hrest]; rfl
  have hcolon : tokenOf (st.past 1).rest = some (.plain ':') := by simp [State.past, hrest, tokenOf]
  rcases group_ok h with ⟨p, -, hmark, -⟩ | ⟨t, st₁, st₂, hmark, hnext, hform⟩
  · exact absurd hquestion hmark
  · obtain ⟨-, rfl, -⟩ := next_some hquestion hmark
    obtain ⟨ht, rfl, -⟩ := next_some hcolon hnext
    cases ht
    cases hform with
    | ahead hc => simp at hc
    | on hc => exact absurd hc (by decide)
    | grouped h =>
        obtain ⟨st₁, hunder, hclose⟩ := grouped_ok h
        obtain ⟨st₂, hread, rfl⟩ := under_ok hunder
        change f.run ((st.past 1).past 1) = _ at hread
        rw [past_past] at hread
        exact ⟨_, st₂, rfl, hread, hclose⟩

theorem items_wrap_ok {first : Bool} {done : List Pattern} {q : Pattern}
    (hrest : st.rest = '(' :: '?' :: ':' :: v) (h : (items first done (n + 1)).run st = .ok (q, st')) :
    ∃ p st₁ st₂, (branches true [] n).run (st.past 3) = .ok (p, st₁) ∧
      (close st.position).run { st₁ with flags := st.flags } = .ok ((), st₂) ∧
      (items first (.wrap p :: done) n).run st₂ = .ok (q, st') := by
  have hparen : tokenOf st.rest = some (.plain '(') := by rw [hrest]; rfl
  obtain ⟨done', st₂, -, hitem, h⟩ := items_more hparen (by decide) h
  rw [item_group] at hitem
  obtain ⟨x, st₃, hgroup, hitem⟩ := run_bind_eq_ok.mp hitem
  have hrest' : (st.past 1).rest = '?' :: ':' :: v := by simp [State.past, hrest]
  obtain ⟨p, st₄, rfl, hread, hclose⟩ := group_wrap_ok hrest' hgroup
  cases hitem
  rw [past_past] at hread
  exact ⟨p, st₄, st₂, hread, hclose, h⟩

theorem numberedReference_ok {digits : List Char} {q : Pattern}
    (h : (numberedReference digits).run st = .ok (q, st')) :
    q = .backref (Decimal.ofDigits digits) st.flags.folding ∧ st' = st := by
  rw [numberedReference, run_bind_ok (run_get st)] at h
  split at h
  · exact absurd h (fails_refuse _ _ _ _ _)
  obtain ⟨b, st₁, hclosed, hafter⟩ := run_bind_eq_ok.mp h
  rw [isClosed_ok hclosed] at hafter
  split at hafter
  · exact absurd hafter (fails_refuse _ _ _ _ _)
  obtain ⟨_, st₂, hlookbehind, hread⟩ := run_bind_eq_ok.mp hafter
  rw [checkLookbehind_ok hlookbehind] at hread
  cases hread
  exact ⟨rfl, rfl⟩

theorem digitChar_mem (h : n < 10) : n.digitChar ∈ "0123456789".toList := by
  decide +revert

theorem digitChar_mem_of_pos (h : n < 10) (hpos : 1 ≤ n) : n.digitChar ∈ "123456789".toList := by
  decide +revert

theorem digits_cases (h : k < 100) (hpos : 1 ≤ k) : ∃ c ∈ "123456789".toList,
    Decimal.digits k = [c] ∨ ∃ x ∈ "0123456789".toList, Decimal.digits k = [c, x] := by
  rcases Nat.lt_or_ge k 10 with hlow | hhigh
  · exact ⟨_, digitChar_mem_of_pos hlow hpos, .inl (Nat.toDigits_of_lt_base hlow)⟩
  · refine ⟨_, digitChar_mem_of_pos (n := k / 10) (by omega) (by omega),
      .inr ⟨_, digitChar_mem (Nat.mod_lt k (by decide)), ?_⟩⟩
    rw [Decimal.digits, Nat.toDigits_of_base_le (by decide) hhigh, Nat.toDigits_of_lt_base (by omega)]
    rfl

theorem ofDigits_digits (k : Nat) : Decimal.ofDigits (Decimal.digits k) = k :=
  Nat.ofDigitChars_toDigits (by decide) (by decide)

theorem escape_digit (hc : c ∈ "123456789".toList) : escape c = (get >>= fun _ => digitEscape c) := by
  fin_cases hc <;> rfl

theorem digitEscape_ok {w : List Char} {q : Pattern} (hname : ∀ x ∈ name, x ∈ "0123456789".toList)
    (hlength : name.length ≤ 1) (hrest : st.rest = name ++ ')' :: w)
    (h : (digitEscape c).run st = .ok (q, st')) :
    q = .backref (Decimal.ofDigits (c :: name)) st.flags.folding ∧ st' = st.past name.length := by
  rw [digitEscape, run_bind_ok (run_peek st)] at h
  match name, hlength with
  | [], _ =>
      have hclose : tokenOf st.rest = some (.plain ')') := by
        rw [hrest]
        rfl
      rw [hclose] at h
      exact numberedReference_ok h
  | [x], _ =>
      have hx : x ∈ "0123456789".toList := hname x List.mem_cons_self
      have hfirst : tokenOf st.rest = some (.plain x) := by
        rw [hrest]
        fin_cases hx <;> rfl
      have hdigit : Number.isAsciiDigit x = true := by
        fin_cases hx <;> rfl
      have hclose : tokenOf (st.past 1).rest = some (.plain ')') := by
        simp [State.past, hrest, tokenOf]
      rw [hfirst] at h
      dsimp only at h
      rw [if_pos hdigit] at h
      obtain ⟨t, st₁, hnext, hafter⟩ := run_bind_eq_ok.mp h
      obtain ⟨-, rfl, -⟩ := next_some hfirst hnext
      rw [run_bind_ok (run_peek _), show tokenOf (st.past (Token.plain x).size).rest = _ from hclose] at hafter
      dsimp only at hafter
      rw [if_neg (by simp [isOctal])] at hafter
      exact numberedReference_ok hafter

theorem escape_number {w : List Char} {q : Pattern} (hk : 1 ≤ k) (hk' : k < 100)
    (hname : Decimal.digits k = c :: name) (hrest : st.rest = name ++ ')' :: w)
    (h : (escape c).run st = .ok (q, st')) :
    q = .backref k st.flags.folding ∧ st' = st.past name.length := by
  obtain ⟨c', hc, hdigits⟩ := digits_cases hk' hk
  have hparts : c = c' ∧ (∀ x ∈ name, x ∈ "0123456789".toList) ∧ name.length ≤ 1 := by
    rw [hname] at hdigits
    rcases hdigits with hone | ⟨x, hx, htwo⟩
    · obtain ⟨rfl, rfl⟩ := List.cons.inj hone
      exact ⟨rfl, by simp, by simp⟩
    · obtain ⟨rfl, rfl⟩ := List.cons.inj htwo
      exact ⟨rfl, by simpa using hx, by simp⟩
  obtain ⟨rfl, hall, hlength⟩ := hparts
  rw [escape_digit hc, run_bind_ok (run_get st)] at h
  have hread := digitEscape_ok hall hlength hrest h
  rwa [← hname, ofDigits_digits] at hread

theorem branches_one_ok {nested : Bool} {q : Pattern}
    (h : (branches nested [] (n + 1)).run st = .ok (q, st')) :
    ∃ p st₁, (items (!nested) [] n).run st = .ok (p, st₁) ∧
      (tokenOf st₁.rest ≠ some (.plain '|') → q = p ∧ st' = st₁) := by
  obtain ⟨p, st₁, b, st₂, hitems, hbar, h⟩ := branches_ok h
  refine ⟨p, st₁, by simpa using hitems, fun hne => ?_⟩
  cases (accept_false hne).symm.trans hbar
  cases h
  exact ⟨rfl, rfl⟩

theorem branches_number {w : List Char} {q : Pattern} (hk : 1 ≤ k) (hk' : k < 100)
    (hrest : st.rest = '\\' :: (Decimal.digits k ++ ')' :: w))
    (h : (branches true [] n).run st = .ok (q, st')) :
    q = .backref k st.flags.folding ∧ st' = st.past ((Decimal.digits k).length + 1) := by
  obtain ⟨c, name, hname⟩ := List.exists_cons_of_ne_nil (Decimal.digits_ne k)
  have htoken : tokenOf st.rest = some (.escaped c) := by
    rw [hrest, hname]
    rfl
  match n with
  | 0 => exact absurd h (branches_zero_fails _ _ _ _)
  | 1 =>
      obtain ⟨p, st₁, hitems, -⟩ := branches_one_ok h
      exact absurd hitems (items_zero_fails _ _ _ _)
  | n + 2 =>
      obtain ⟨p, st₁, hitems, hend⟩ := branches_one_ok h
      obtain ⟨done, st₃, -, hitem, hitems⟩ := items_more htoken (by simp) hitems
      obtain ⟨b, st₄, hescape, hitem⟩ := run_bind_eq_ok.mp hitem
      cases hitem
      have hrest' : (st.past 2).rest = name ++ ')' :: w := by simp [State.past, hrest, hname]
      obtain ⟨rfl, rfl⟩ := escape_number hk hk' hname hrest' hescape
      rw [past_past] at hitems
      have hclose : tokenOf (st.past (2 + name.length)).rest = some (.plain ')') := by
        rw [← past_past]
        simp [State.past, hrest, hname, tokenOf]
      obtain ⟨rfl, rfl⟩ := items_end (by simp [hclose]) hitems
      obtain ⟨rfl, rfl⟩ := hend (by simp [hclose])
      refine ⟨rfl, ?_⟩
      rw [hname, List.length_cons]
      congr 1
      omega

theorem embedded (hd : Parting d e) (h : Beside d e A E) {nested : Bool} {m start : Nat} {x y : Pattern}
    {A' E' E'' : State} {flags : Flags} (hf : (branches nested [] n).run A = .ok (x, A'))
    (hg : (branches true [] m).run E = .ok (y, E'))
    (hclose : (close start).run { E' with flags := flags } = .ok ((), E'')) :
    x = y ∧ Beside d e A' E' := by
  rcases ((body_read hd n m).1 rfl).of_runs h hf hg with ⟨hxy, h', -⟩ | ⟨hspent, -⟩
  · exact ⟨hxy, h'⟩
  · have hrest : { E' with flags := flags }.rest = [] := hspent
    exact absurd hclose (close_fails_nil hrest _ _)

/-- A reading at the outer level never gets over the place before which nothing outside can be read. -/
theorem outer_stays (hd : Parting d d) (hne : d ≠ []) (h : Beside d d A A) (hflags : A.flags = {})
    {done : List Pattern} (hdone : done.isEmpty = false) {x y : Pattern} {A₁ A₂ A' : State} {b : Bool}
    (hitems : (items true done n).run A = .ok (x, A₁)) (hbar : (accept '|').run A₁ = .ok (b, A₂))
    {m : Nat}
    (hafter : (if b then branches false [x] m else pure (Pattern.ofBranches [x])).run A₂ = .ok (y, A')) :
    A'.rest ≠ [] := by
  have hstays {A : State} (h : Beside d d A A) : A.rest ≠ [] := by
    intro hrest
    have hle := h.along.length_le
    rw [hrest] at hle
    exact hne (List.length_eq_zero_iff.mp (Nat.le_zero.mp hle))
  have hverbose : A.flags.verbose ≠ true := by simp [hflags]
  rcases ((body_read hd n n).2 (by rw [hdone]; rfl)).of_runs h hitems hitems with
    ⟨-, h₁, hflags₁⟩ | ⟨-, hverbose'⟩
  · obtain ⟨-, h₂, hflags₂⟩ := (steady_accept (by decide) hd.toFence h₁).same.of_runs hbar hbar
    cases b with
    | false =>
        cases hafter
        exact hstays h₂
    | true =>
        rcases ((body_read hd m m).1 rfl).of_runs h₂ hafter hafter with ⟨-, h', -⟩ | ⟨-, hverbose'⟩
        · exact hstays h'
        · rw [hflags₂, hflags₁] at hverbose'
          exact absurd hverbose' hverbose
  · exact absurd hverbose' hverbose

theorem reference_digits (k : Nat) :
    reference (Decimal.digits k) = '(' :: '?' :: ':' :: '\\' :: (Decimal.digits k ++ [')']) := by
  rw [reference, if_pos (allDigits_digits k)]
  rfl

theorem line_not_mem (k : Nat) : '\n' ∉ reference (Decimal.digits k) := by
  intro h
  rw [reference_digits] at h
  have hmem : '\n' ∈ Decimal.digits k := by simpa using h
  have hdigit := Decimal.digits_isDigits k _ hmem
  cases hdigit

theorem items_reference_ok (hk : 1 ≤ k) (hk' : k < 100) (hrest : st.rest = reference (Decimal.digits k))
    {first : Bool} {done : List Pattern} {q : Pattern} (h : (items first done n).run st = .ok (q, st')) :
    q = Pattern.ofList (done.reverse ++ [.wrap (.backref k st.flags.folding)]) ∧ st'.rest = [] ∧
      st'.groups = st.groups ∧ st'.names = st.names := by
  cases n with
  | zero => exact absurd h (items_zero_fails _ _ _ _)
  | succ n =>
      rw [reference_digits] at hrest
      obtain ⟨p, st₁, st₂, hread, hclose, h⟩ := items_wrap_ok hrest h
      have hrest' : (st.past 3).rest = '\\' :: (Decimal.digits k ++ ')' :: []) := by simp [State.past, hrest]
      obtain ⟨rfl, rfl⟩ := branches_number hk hk' hrest' hread
      obtain ⟨-, rfl⟩ := close_ok hclose
      have hnil : (((st.past 3).past ((Decimal.digits k).length + 1)).past 1).rest = [] := by
        simp [State.past, hrest]
      obtain ⟨rfl, rfl⟩ := items_nil_ok hnil h
      refine ⟨?_, hnil, rfl, rfl⟩
      rw [List.reverse_cons]
      rfl

def State.opened (known : CharacterNames) (v : List Char) : State :=
  { State.start known v {} with position := 3 }

theorem beside_opened {known : CharacterNames} (hd : Parting d e) (h : Along d e u v) :
    Beside d e (.start known u {}) (.opened known v) ∧ Beside d e (.opened known u) (.opened known v) := by
  have hintact : d = ['\\'] → u ≠ d := by
    rintro rfl
    exact absurd rfl hd.intact
  exact ⟨⟨h, rfl, rfl, rfl, rfl, rfl, rfl, hintact⟩, ⟨h, rfl, rfl, rfl, rfl, rfl, rfl, hintact⟩⟩

section

variable {known : CharacterNames} {m m' start : Nat} {x y q : Pattern} {S E₁ E₂ T₁ T₂ T : State} {b : Bool} {w : List Char}
  (hS : (branches false [] n).run (.start known u {}) = .ok (x, S)) (hSrest : S.rest = [])
  (hread : (branches true [] m).run (.opened known v) = .ok (y, E₁))
  (hclose : (close start).run { E₁ with flags := {} } = .ok ((), E₂))

include hS hSrest hread hclose in
/-- Where the group is closed right after the pattern, the pattern has been read as it is alone. -/
theorem closed_ok (hu : Paired u) (hv : v = u ++ ')' :: w) (hw : '\n' ∉ w) :
    y = x ∧ E₂.rest = w ∧ E₂.flags = {} ∧ E₂.groups = S.groups ∧ E₂.names = S.names := by
  subst hv
  have hparts := parting_closed hw
  have halong := along_parted (d := []) hu (by simp [tokenOf]) (')' :: w)
  rw [List.append_nil] at halong
  obtain ⟨rfl, h⟩ := embedded hparts (beside_opened hparts halong).1 hS hread hclose
  have hrest : E₁.rest = ')' :: w := (hSrest ▸ h.along).of_left
  obtain ⟨-, rfl⟩ := close_ok hclose
  refine ⟨rfl, ?_, rfl, h.groups.symm, h.names.symm⟩
  rw [State.past, hrest]
  rfl

include hS hSrest hread hclose in
theorem opening_false {p : List Char} (hp : Paired p) (hu : u = p ++ "(?<".toList)
    (hv : v = p ++ ("(?P<".toList ++ w)) (hw : '\n' ∉ w) : False := by
  subst hu hv
  have hparts := parting_opened hw
  have halong := along_parted (d := ['(', '?', '<']) hp (by simp [tokenOf]) ("(?P<".toList ++ w)
  obtain ⟨-, h⟩ := embedded hparts (beside_opened hparts halong).1 hS hread hclose
  have hle := h.along.length_le
  rw [hSrest] at hle
  exact absurd hle (by simp)

include hread hclose in
theorem swallowed_stays {p : List Char} (hp : Paired p) (hname : Number.Digits name)
    (hv : v = p ++ (")\\k<".toList ++ name ++ [')']))
    (hitems : (items true [.wrap y] m).run E₂ = .ok (q, T₁)) (hbar : (accept '|').run T₁ = .ok (b, T₂))
    {z : Pattern}
    (hafter : (if b then branches false [q] m' else pure (Pattern.ofBranches [q])).run T₂ = .ok (z, T)) :
    T.rest ≠ [] := by
  subst hv
  have hparts := parting_swallowed hname
  have halong := along_closed ("\\k<".toList ++ name ++ [')']) hp
  obtain ⟨-, h⟩ := embedded hparts (beside_opened hparts halong).2 hread hread hclose
  have hbefore : Beside _ _ { E₁ with flags := {} } { E₁ with flags := {} } := { h with flags := rfl }
  obtain ⟨-, -, hafter'⟩ := (agree_close hparts.toFence hbefore start start).of_runs hclose hclose
  refine outer_stays hparts (by simp) hafter' ?_ rfl hitems hbar hafter
  rw [(close_ok hclose).2]
  rfl

end

theorem branches_referring (hk : 1 ≤ k) (hk' : k < 100) (hgoes : Continued (Decimal.digits k) u v)
    {m : Nat} {x y : Pattern} {S T : State} (hS : (branches false [] n).run (.start known u {}) = .ok (x, S))
    (hT : (branches false [] m).run (.start known ('(' :: '?' :: ':' :: v) {}) = .ok (y, T))
    (hSrest : S.rest = []) (hTrest : T.rest = []) :
    y = .seq (.wrap x) (.wrap (.backref k .exact)) ∧ T.groups = S.groups ∧ T.names = S.names := by
  match m with
  | 0 => exact absurd hT (branches_zero_fails _ _ _ _)
  | 1 =>
      obtain ⟨_, _, _, _, hitems, -⟩ := branches_ok hT
      exact absurd hitems (items_zero_fails _ _ _ _)
  | m + 2 =>
      obtain ⟨q, T₁, b, T₂, hfirst, hbar, hafter⟩ := branches_ok hT
      obtain ⟨p, E₁, E₂, hread, hclose, hitems⟩ := items_wrap_ok rfl hfirst
      have hdigits := Decimal.digits_isDigits k
      cases hgoes with
      | outside hu =>
          obtain ⟨rfl, hrest, hflags, hgroups, hnames⟩ :=
            closed_ok hS hSrest hread hclose hu rfl (line_not_mem k)
          obtain ⟨rfl, hnil, hgroups', hnames'⟩ := items_reference_ok hk hk' hrest hitems
          cases (accept_false (by simp [hnil, tokenOf])).symm.trans hbar
          cases hafter
          rw [hflags]
          exact ⟨rfl, hgroups'.trans hgroups, hnames'.trans hnames⟩
      | inside hu =>
          have hline : '\n' ∉ "\\k<".toList ++ Decimal.digits k ++ ['>'] :=
            fun h => not_mem_closing hdigits (by decide) (by decide) (List.mem_cons_of_mem ')' h)
          obtain ⟨-, hrest, -⟩ := closed_ok hS hSrest hread hclose hu rfl hline
          refine absurd hitems (items_reference_fails ?_ _ _)
          rw [hrest]
          rfl
      | swallowed hp =>
          exact absurd hTrest (swallowed_stays hread hclose hp hdigits rfl hitems hbar hafter)
      | opening hp =>
          have hline : '\n' ∉ ')' :: reference (Decimal.digits k) := by simpa using line_not_mem k
          exact (opening_false hS hSrest hread hclose hp rfl rfl hline).elim

end Reader

/-- The pattern in a group, and after it a reference by number. -/
def referring (p : List Char) (k : Nat) : List Char :=
  "(?:".toList ++ p ++ ")\\k<".toList ++ Decimal.digits k ++ ['>']

section

variable {known : CharacterNames} {p u : List Char} {k : Nat}

theorem normalize_referring (h : Spells false p u) (hp : Paired p) :
    ∃ v, normalize (referring p k) false = '(' :: '?' :: ':' :: v ∧ Continued (Decimal.digits k) u v := by
  obtain ⟨v, hv, hcontinued⟩ := h.continued (Decimal.digits_isDigits k) hp
  have hreferring : referring p k = '(' :: '?' :: ':' :: (p ++ closing (Decimal.digits k)) := by
    simp [referring, closing]
  refine ⟨v, ?_, hcontinued⟩
  rw [hreferring]
  refine Spells.go ?_ (Nat.lt_succ_self _)
  refine .paren ?_ ?_ (.plain (by simp) (by decide) (by decide) (.plain (by simp) (by decide) (by decide) hv))
  · rintro _ _ ⟨⟩
  · rintro _ ⟨⟩

/-- The pattern with a reference is read as the pattern, then a reference to the group that the program
numbers so. -/
theorem read_referring {program program' : Program} (hk : 1 ≤ k) (hk' : k < 100)
    (h : read known (normalize p false) {} = .ok program)
    (h' : read known (normalize (referring p k) false) {} = .ok program') :
    program' = ⟨.seq (.wrap program.body) (.wrap (.backref k .exact)), program.groups, program.names⟩ := by
  have hspells : Spells false p (normalize p false) := spells_go (Nat.lt_succ_self _)
  obtain ⟨hback, S, hS, hSrest, hgroups, hnames⟩ := read_ok h
  have hp : Paired p := by
    by_contra hp
    have hu : ¬Paired (normalize p false) := fun hu => hp (hspells.paired.mp hu)
    exact (read_numbered h).2 ⟨Reader.along_of_not_paired hu, hback⟩
  obtain ⟨v, hv, hcontinued⟩ := normalize_referring (k := k) hspells hp
  rw [hv] at h'
  obtain ⟨-, T, hT, hTrest, hgroups', hnames'⟩ := read_ok h'
  obtain ⟨hbody, hsame, hsame'⟩ := Reader.branches_referring hk hk' hcontinued hS hT hSrest hTrest
  obtain ⟨body, groups, names⟩ := program'
  simp only at hbody hgroups' hnames'
  rw [hbody, hgroups', hnames', hsame, hsame', ← hgroups, ← hnames]

end

end BaseLib.Regex
