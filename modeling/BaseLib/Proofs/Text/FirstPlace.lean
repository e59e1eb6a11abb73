import BaseLib.Proofs.Bytes.Characters
import BaseLib.Proofs.Text.Separators

namespace BaseLib.Text

variable {s : List Char} {start : Int}

def placeOf? (n : Int) (s : List Char) : Option Nat := s.findIdx? fun c => (c.toNat : Int) == n

/-- The place of the first character with one of some codes. -/
def firstOf? (codes : List Int) (s : List Char) : Option Nat :=
  s.findIdx? fun c => codes.contains (c.toNat : Int)

/-- The least of those among some positions that are places, or -1 if there is none. -/
def IsLeastPlace (positions : List Int) (p : Int) : Prop :=
  (p ∈ positions ∧ 0 ≤ p ∧ ∀ q ∈ positions, 0 ≤ q → p ≤ q) ∨ (p = -1 ∧ ∀ q ∈ positions, q = -1)

/-- A position in the rest of a text from a start on, as one in the text. -/
def positionFrom (start : Int) : Option Nat → Int
  | some i => start + i
  | none => -1

theorem find?_singleton_eq (c : Char) (s : List Char) : find? [c] s = placeOf? c.toNat s := by
  induction s with
  | nil => rfl
  | cons d s ih =>
      have htest : [c].isPrefixOf (d :: s) = ((d.toNat : Int) == c.toNat) := by
        rw [Bool.eq_iff_iff, List.isPrefixOf, List.isPrefixOf, Bool.and_true, beq_iff_eq, beq_iff_eq,
          Int.natCast_inj, Char.toNat_inj, eq_comm]
      rw [find?, htest, placeOf?, List.findIdx?_cons, ih, placeOf?]

theorem position_map (k : Nat) (place : Option Nat) :
    position (place.map (· + k)) = positionFrom k place := by
  cases place with
  | none => rfl
  | some i => exact Int.add_comm i k

/-- Each character alone is found no earlier than the first of all, and the one that is first is found there. -/
theorem firstOf?_least (start : Nat) (codes : List Int) (s : List Char) :
    IsLeastPlace (codes.map fun n => positionFrom start (placeOf? n s))
      (positionFrom start (firstOf? codes s)) := by
  cases hfirst : firstOf? codes s with
  | none =>
      refine .inr ⟨rfl, List.forall_mem_map.mpr fun n hn => ?_⟩
      have hnone : placeOf? n s = none := by
        rw [placeOf?, List.findIdx?_eq_none_iff]
        rintro c hc
        have hc := List.findIdx?_eq_none_iff.mp hfirst c hc
        simp only [List.contains_eq_mem, decide_eq_false_iff_not] at hc
        simp only [beq_eq_false_iff_ne]
        rintro rfl
        exact hc hn
      rw [hnone, positionFrom]
  | some i =>
      obtain ⟨hi, hmem, hbefore⟩ := List.findIdx?_eq_some_iff_getElem.mp hfirst
      simp only [List.contains_eq_mem, decide_eq_true_eq] at hmem hbefore
      have hfound : placeOf? (s[i].toNat : Int) s = some i := by
        refine List.findIdx?_eq_some_iff_getElem.mpr ⟨hi, beq_self_eq_true _, fun j hj heq => ?_⟩
        exact hbefore j hj (eq_of_beq heq ▸ hmem)
      refine .inl ⟨List.mem_map.mpr ⟨_, hmem, by rw [hfound]⟩, by simp only [positionFrom]; omega, ?_⟩
      refine List.forall_mem_map.mpr fun n hn => ?_
      cases hplace : placeOf? n s with
      | none => exact fun h => absurd h (Int.not_le.mpr (Int.negSucc_lt_zero 0))
      | some j =>
          intro _
          obtain ⟨hj, hcode, -⟩ := List.findIdx?_eq_some_iff_getElem.mp hplace
          have hle : ¬j < i := fun hlt => hbefore j hlt (eq_of_beq hcode ▸ hn)
          simp only [positionFrom]
          omega

/-- What a search for several characters reads: a negative start stands for the end of the text, and the whole
text comes after it. -/
def readFrom (s : List Char) (start : Int) : List Char :=
  if start < 0 then s.drop (start + s.length).toNat ++ s else s.drop start.toNat

theorem length_readFrom (h : 0 ≤ start + s.length) : (readFrom s start).length = (s.length - start).toNat := by
  rw [readFrom]
  split
  · rw [List.length_append, List.length_drop]
    omega
  · rw [List.length_drop]
    omega

theorem charAt?_readFrom (h : 0 ≤ start + s.length) {i : Nat} (hi : i < (readFrom s start).length) :
    charAt? s (start + i) = (readFrom s start)[i]? := by
  have hlength := hi.trans_eq (length_readFrom h)
  rw [readFrom, charAt?]
  by_cases hstart : start < 0
  · rw [if_pos hstart, List.getElem?_append, List.length_drop]
    by_cases hwrap : start + i < 0
    · rw [if_pos hwrap, if_pos (by omega), if_pos (by omega), List.getElem?_drop]
      congr 1
      omega
    · rw [if_neg hwrap, if_pos (by omega), if_neg (by omega)]
      congr 1
      omega
  · have hwhole : ¬start + i < 0 := by omega
    rw [if_neg hstart, if_neg hwhole, if_pos (by omega), List.getElem?_drop]
    congr 1
    omega

theorem find?_range_eq {α : Type} {w : List α} {p : α → Bool} {q : Nat → Bool}
    (h : ∀ i < w.length, q i = w[i]?.any p) : (List.range w.length).find? q = w.findIdx? p := by
  refine Option.ext fun i => ?_
  rw [List.find?_range_eq_some, List.findIdx?_eq_some_iff_getElem, List.mem_range]
  have hat {j : Nat} (hj : j < w.length) : q j = p w[j] := by
    rw [h j hj, List.getElem?_eq_getElem hj, Option.any_some]
  constructor
  · rintro ⟨hq, hi, hbefore⟩
    refine ⟨hi, (hat hi).symm.trans hq, fun j hj => ?_⟩
    rw [← hat (hj.trans hi)]
    simpa using hbefore j hj
  · rintro ⟨hi, hp, hbefore⟩
    refine ⟨(hat hi).trans hp, hi, fun j hj => ?_⟩
    rw [hat (hj.trans hi)]
    simpa using hbefore j hj

/-- The search goes through what it reads, and the place that it finds is counted from the start. -/
theorem indexOfAny_eq (h : 0 ≤ start + s.length) (codes : List Int) :
    indexOfAny s codes start = .ok (positionFrom start (firstOf? codes (readFrom s start))) := by
  let test (i : Int) : Bool := (charAt? s i).any fun c => codes.contains (c.toNat : Int)
  have hfind : (List.range (readFrom s start).length).find? (test ∘ fun i : Nat => start + i) = _ :=
    find?_range_eq fun i hi => congrArg (Option.any _) (charAt?_readFrom h hi)
  rw [indexOfAny, if_neg (by omega), ← length_readFrom h]
  dsimp only
  rw [List.find?_map, hfind, ← firstOf?]
  cases firstOf? codes (readFrom s start) <;> rfl

end BaseLib.Text

namespace BaseLib.Session

open Library Text

variable {s : Session} {a : Nat} {vs : List Value} {codes : List Int} {v : Value} {n : Int}

/-- A valid code of a character: an integer, or a text of one character or surrogate in its place. -/
inductive IsCode : Value → Int → Prop
  | code {n : Int} (low : 0 ≤ n) (high : n ≤ 0x10FFFF) : IsCode (.int n) n
  | character (c : Char) : IsCode (.text [c]) c.toNat
  | surrogate {n : Nat} (h : [n].all isScalar = false) : IsCode (.broken ⟨[n], h⟩) n

theorem exec_codeOf (hv : IsCode v n) (s : Session) : s.exec (codeOf v) = (.ok n, s) := by
  cases hv <;> rfl

theorem exec_codesOf (h : List.Forall₂ IsCode vs codes) (s : Session) :
    s.exec (Texts.codesOf vs) = (.ok codes, s) := by
  induction h with
  | nil => rfl
  | cons hv _ ih => exact (exec_bind_ok (exec_codeOf hv s) _).trans ((exec_bind_ok ih _).trans rfl)

theorem placeOf?_surrogate {n : Nat} (h : isScalar n = false) (t : List Char) : placeOf? n t = none := by
  rw [placeOf?, List.findIdx?_eq_none_iff]
  intro c _
  rw [beq_eq_false_iff_ne, Ne, Int.natCast_inj]
  rintro rfl
  exact absurd (isScalar_toNat c) (Bool.eq_false_iff.mp h)

theorem exec_validCode_natCast {n : Nat} (high : n ≤ 0x10FFFF) (s : Session) :
    s.exec (validCode n) = (.ok n, s) := by
  rw [validCode, if_neg (by omega), if_neg (by omega), Int.toNat_natCast]
  rfl

theorem exec_sought (hv : IsCode v n) (s : Session) :
    ∃ p, s.exec (Texts.sought v) = (.ok p, s) ∧ ∀ t, p.bind (find? · t) = placeOf? n t := by
  cases hv with
  | code low high =>
      obtain ⟨n, rfl⟩ := Int.eq_ofNat_of_zero_le low
      have hrun : s.exec (Texts.sought (.int n)) =
          (.ok (if isScalar n then some [Char.ofNat n] else none), s) :=
        (exec_bind_ok (exec_validCode_natCast (by omega) s) _).trans rfl
      refine ⟨_, hrun, fun t => ?_⟩
      cases hn : isScalar n with
      | true =>
          rw [if_pos rfl, Option.bind_some, find?_singleton_eq, toNat_ofNat hn]
      | false => exact (placeOf?_surrogate hn t).symm
  | character c => exact ⟨some [c], rfl, fun t => find?_singleton_eq c t⟩
  | @surrogate n h =>
      have hn : isScalar n = false := by rwa [List.all_cons, List.all_nil, Bool.and_true] at h
      exact ⟨none, rfl, fun t => (placeOf?_surrogate hn t).symm⟩

theorem exec_indexOf_code (hv : IsCode v n) (s : Session) (t : List Char) (start : Int) :
    s.exec (Catalogue.call "NString.IndexOf" [.text t, v, .int start]) =
      if start < 0 ∨ (t.length : Int) < start then (.error (.failure (.textIndex "startIndex")), s)
      else (.ok (.int (positionFrom start (placeOf? n (t.drop start.toNat)))), s) := by
  have hcall : s.exec (Catalogue.call "NString.IndexOf" [.text t, v, .int start]) =
      s.exec (Texts.indexOf (.text t) v (.int start)) := rfl
  rw [hcall, Texts.indexOf]
  by_cases hneg : start < 0
  · have hplace : s.exec (Texts.textAndStart (.text t) (.int start) (.textIndex "startIndex")) =
        (.error (.failure (.textIndex "startIndex")), s) := by
      show s.exec (if start < 0 then _ else _) = _
      rw [if_pos hneg]
      rfl
    rw [if_pos (.inl hneg)]
    exact exec_bind_error hplace _
  · have hplace : s.exec (Texts.textAndStart (.text t) (.int start) (.textIndex "startIndex")) =
        (.ok (t, start), s) := by
      show s.exec (if start < 0 then _ else _) = _
      rw [if_neg hneg]
      rfl
    have hjudged (p : List Char) : Text.indexOf t p start =
        if (t.length : Int) < start then .error (.textIndex "startIndex")
        else .ok (position (findFrom? p t start.toNat)) := by
      rw [Text.indexOf]
      simp only [hneg, false_or]
    rw [exec_bind_ok hplace]
    simp only [hjudged, hneg, false_or]
    by_cases hbeyond : (t.length : Int) < start
    · simp only [hbeyond, if_true]
      rfl
    · simp only [hbeyond, if_false]
      obtain ⟨p, hp, hfind⟩ := exec_sought hv s
      have hstart : (start.toNat : Int) = start := by omega
      rw [← hfind, ← hstart, ← position_map]
      refine (exec_bind_ok hp _).trans ?_
      cases p <;> rfl

theorem exec_drain_live {xs left : List Value} {i k : Nat} (h : s.items a = xs) (hleft : xs.drop i = left)
    (hk : left.length + 2 ≤ k) : s.exec (drain k (.live a i)) = (.ok left, s) := by
  induction left generalizing i k with
  | nil =>
      obtain ⟨k, rfl⟩ : ∃ j, k = j + 2 := ⟨k - 2, by omega⟩
      have hend : xs[i]? = none := List.getElem?_eq_none (List.drop_eq_nil_iff.mp hleft)
      have hpull := exec_pull_live s k a i
      rw [h, hend] at hpull
      exact Enumeration.exec_drain_finish hpull
  | cons x left ih =>
      rw [List.length_cons] at hk
      obtain ⟨k, rfl⟩ : ∃ j, k = j + 2 := ⟨k - 2, by omega⟩
      have hx : xs[i]? = some x := by rw [← List.head?_drop, hleft, List.head?_cons]
      have hrest : xs.drop (i + 1) = left := by rw [← List.tail_drop, hleft, List.tail_cons]
      have hpull := exec_pull_live s k a i
      rw [h, hx] at hpull
      exact Enumeration.exec_drain_give hpull (ih hrest (by omega))

theorem exec_iterated (ha : s.store[a]? = some (.array vs)) (hs : vs.length + 2 ≤ s.steps) :
    s.exec (iterated (.ref a)) = (.ok vs, s) := by
  have hitems : s.items a = vs := by simp only [Session.items, ha]
  have hwalk : s.exec (foreignWalk (.ref a)) = (.ok (.live a 0), s) := by
    rw [foreignWalk, exec_get_bind]
    simp only [ha]
    rfl
  rw [iterated, exec_bind_ok hwalk, exec_get_bind]
  exact exec_drain_live hitems List.drop_zero hs

theorem exec_indexOfAny (ha : s.store[a]? = some (.array vs)) (hcodes : List.Forall₂ IsCode vs codes)
    (hs : vs.length + 2 ≤ s.steps) (t : List Char) (start : Int) :
    s.exec (Catalogue.call "NString.IndexOfAny" [.text t, .ref a, .int start]) =
      if start + t.length < 0 then (.error (.misuse .outsideHolder), s)
      else (.ok (.int (positionFrom start (firstOf? codes (readFrom t start)))), s) := by
  have hcall : s.exec (Catalogue.call "NString.IndexOfAny" [.text t, .ref a, .int start]) =
      s.exec (Texts.indexOfAny (.text t) (.ref a) (.int start)) := rfl
  have hrun : s.exec (Texts.indexOfAny (.text t) (.ref a) (.int start)) =
      s.exec (do pure (.int (← ofExcept ((Text.indexOfAny t codes start).mapError .misuse)))) := by
    rw [Texts.indexOfAny, exec_bind_ok (exec_iterated ha hs), exec_bind_ok (exec_codesOf hcodes s)]
    rfl
  rw [hcall, hrun]
  split
  · rename_i hbefore
    rw [Text.indexOfAny, if_pos hbefore]
    rfl
  · rename_i hwithin
    rw [indexOfAny_eq (by omega)]
    rfl

/-- From a start within the text, several characters are found at the least place of one of them. A start
outside the text is refused for one character; for several, nothing is found from beyond the end, and a negative
start counts from the end, before the whole text. -/
theorem indexOfAny_spec (ha : s.store[a]? = some (.array vs)) (hcodes : List.Forall₂ IsCode vs codes)
    (hs : vs.length + 2 ≤ s.steps) (t : List Char) (start : Int) :
    (0 ≤ start ∧ start ≤ t.length → ∃ positions p,
      List.Forall₂ (fun v q => s.exec (Catalogue.call "NString.IndexOf" [.text t, v, .int start]) =
        (.ok (.int q), s)) vs positions ∧
      s.exec (Catalogue.call "NString.IndexOfAny" [.text t, .ref a, .int start]) = (.ok (.int p), s) ∧
      IsLeastPlace positions p) ∧
    (start < 0 ∨ (t.length : Int) < start → ∀ v ∈ vs,
      s.exec (Catalogue.call "NString.IndexOf" [.text t, v, .int start]) =
        (.error (.failure (.textIndex "startIndex")), s)) ∧
    ((t.length : Int) < start →
      s.exec (Catalogue.call "NString.IndexOfAny" [.text t, .ref a, .int start]) = (.ok (.int (-1)), s)) ∧
    (start < 0 → -(t.length : Int) ≤ start →
      s.exec (Catalogue.call "NString.IndexOfAny" [.text t, .ref a, .int start]) =
        (.ok (.int (positionFrom start (firstOf? codes (t.drop (start + t.length).toNat ++ t)))), s)) ∧
    (start < -(t.length : Int) →
      s.exec (Catalogue.call "NString.IndexOfAny" [.text t, .ref a, .int start]) =
        (.error (.misuse .outsideHolder), s)) := by
  have hany := exec_indexOfAny ha hcodes hs t start
  refine ⟨fun ⟨hlow, hhigh⟩ => ?_, fun hout v hv => ?_, fun hbeyond => ?_, fun hneg hlow => ?_, fun hlow => ?_⟩
  · obtain ⟨k, rfl⟩ := Int.eq_ofNat_of_zero_le hlow
    rw [if_neg (by omega), readFrom, if_neg (by omega)] at hany
    refine ⟨codes.map fun n => positionFrom k (placeOf? n (t.drop k)), _, ?_, hany, firstOf?_least k codes _⟩
    refine List.forall₂_map_right_iff.mpr (hcodes.imp fun v n hv => ?_)
    rw [exec_indexOf_code hv, if_neg (by omega)]
    rfl
  · obtain ⟨i, hi, rfl⟩ := List.mem_iff_getElem.mp hv
    have hn : IsCode vs[i] _ := hcodes.get hi (hcodes.length_eq ▸ hi)
    rw [exec_indexOf_code hn, if_pos hout]
  · have hempty : t.drop start.toNat = [] := List.drop_eq_nil_of_le (by omega)
    rw [if_neg (by omega), readFrom, if_neg (by omega), hempty] at hany
    exact hany
  · rw [if_neg (by omega), readFrom, if_pos hneg] at hany
    exact hany
  · rw [if_pos (by omega)] at hany
    exact hany

def marks : Session := { start 0 with store := #[.array [.int 59, .text [',']]] }

/-- From the end of the text on, the semicolon is found two places before its beginning. -/
theorem indexOfAny_spec_marks :
    marks.store[0]? = some (.array [.int 59, .text [',']]) ∧
      (∃ positions p,
        List.Forall₂ (fun v q => marks.exec (Catalogue.call "NString.IndexOf" [.text "a,b;c".toList, v, .int 2]) =
          (.ok (.int q), marks)) [.int 59, .text [',']] positions ∧
        marks.exec (Catalogue.call "NString.IndexOfAny" [.text "a,b;c".toList, .ref 0, .int 2]) =
          (.ok (.int p), marks) ∧ IsLeastPlace positions p) ∧
      marks.exec (Catalogue.call "NString.IndexOfAny" [.text "a,b;c".toList, .ref 0, .int (-2)]) =
        (.ok (.int (-2)), marks) := by
  have hcodes : List.Forall₂ IsCode [.int 59, .text [',']] [59, 44] :=
    .cons (.code (by decide) (by decide)) (.cons (.character ',') .nil)
  have hspec := indexOfAny_spec (s := marks) (a := 0) rfl hcodes (by decide) "a,b;c".toList
  exact ⟨rfl, (hspec 2).1 (by decide), (hspec (-2)).2.2.2.1 (by decide) (by decide)⟩

/-- A start beyond the end is refused for one character and not for several. -/
theorem indexOfAny_beyond :
    marks.exec (Catalogue.call "NString.IndexOf" [.text "abc".toList, .int 59, .int 5]) =
        (.error (.failure (.textIndex "startIndex")), marks) ∧
      marks.exec (Catalogue.call "NString.IndexOfAny" [.text "abc".toList, .ref 0, .int 5]) =
        (.ok (.int (-1)), marks) :=
  ⟨rfl, rfl⟩

end BaseLib.Session
