import BaseLib.Text.CharClass

namespace BaseLib.Text

namespace Run

def ascending : Nat → List Run → Bool
  | _, [] => true
  | n, r :: rs => Nat.ble n r.first && Nat.ble r.first r.last && ascending (r.last + 1) rs

def apart : Nat → List Run → List Run → Bool
  | _, [], _ | _, _, [] => true
  | 0, _, _ => false
  | fuel + 1, r :: rs, q :: qs =>
    if Nat.blt r.last q.first then apart fuel rs (q :: qs)
    else Nat.blt q.last r.first && apart fuel (r :: rs) qs

variable {n m fuel : Nat} {r q : Run} {rs qs : List Run}

theorem ascending_cons : ascending n (r :: rs) = true ↔
    n ≤ r.first ∧ r.first ≤ r.last ∧ ascending (r.last + 1) rs = true := by
  simp [ascending, and_assoc]

theorem le_first (h : ascending n rs = true) (hr : r ∈ rs) : n ≤ r.first := by
  induction rs generalizing n with
  | nil => cases hr
  | cons p rs ih =>
      obtain ⟨hn, hp, hrs⟩ := ascending_cons.mp h
      cases hr with
      | head => exact hn
      | tail _ hr =>
          have hle := ih hrs hr
          omega

theorem not_overlap (hrs : ascending n rs = true) (hqs : ascending m qs = true)
    (h : apart fuel rs qs = true) (hr : r ∈ rs) (hq : q ∈ qs) : r.last < q.first ∨ q.last < r.first := by
  fun_induction apart fuel rs qs generalizing n m with
  | case1 => cases hr
  | case2 => cases hq
  | case3 => cases h
  | case4 fuel p ps o os hlt ih =>
      obtain ⟨-, -, hps⟩ := ascending_cons.mp hrs
      cases hr with
      | tail _ hr => exact ih hps hqs h hr hq
      | head =>
          -- what begins after the first run's end lies apart from it, and so does all that follows
          have hlt : r.last + 1 ≤ o.first := Nat.succ_le_of_lt (by simpa using hlt)
          obtain ⟨-, ho, hos⟩ := ascending_cons.mp hqs
          have hle := le_first (ascending_cons.mpr ⟨hlt, ho, hos⟩) hq
          exact .inl (Nat.lt_of_succ_le hle)
  | case5 fuel p ps o os hlt ih =>
      obtain ⟨hback, h⟩ := Bool.and_eq_true_iff.mp h
      obtain ⟨-, -, hos⟩ := ascending_cons.mp hqs
      cases hq with
      | tail _ hq => exact ih hrs hos h hr hq
      | head =>
          have hback : q.last + 1 ≤ p.first := Nat.succ_le_of_lt (by simpa using hback)
          obtain ⟨-, hp, hps⟩ := ascending_cons.mp hrs
          have hle := le_first (ascending_cons.mpr ⟨hback, hp, hps⟩) hr
          exact .inr (Nat.lt_of_succ_le hle)

theorem anyMem_iff : anyMem rs n = true ↔ ∃ r ∈ rs, r.first ≤ n ∧ n ≤ r.last ∧ (n - r.first) % r.stride = 0 := by
  simp [anyMem, mem, and_assoc]

theorem anyMem_apart (hrs : ascending 0 rs = true) (hqs : ascending 0 qs = true)
    (h : apart fuel rs qs = true) (hr : anyMem rs n = true) : anyMem qs n = false := by
  rw [Bool.eq_false_iff]
  intro hq
  obtain ⟨r, hr, hfirst, hlast, -⟩ := anyMem_iff.mp hr
  obtain ⟨q, hq, hfirst', hlast', -⟩ := anyMem_iff.mp hq
  have hover := not_overlap hrs hqs h hr hq
  omega

end Run

def decimalRuns : List Run := ClassTable.zeros.map fun z => ⟨z, z + 9, 1⟩

theorem anyMem_decimal {n : Nat} (h : isDecimal n = true) : Run.anyMem decimalRuns n = true := by
  obtain ⟨z, hz, hn⟩ : ∃ z ∈ ClassTable.zeros, z ≤ n ∧ n < z + 10 := by
    rw [isDecimal, digitValue?] at h
    split at h
    · split at h
      · rename_i hn
        exact ⟨48, List.mem_cons_self, hn.1, Nat.lt_succ_of_le hn.2⟩
      · cases h
    · rw [Option.isSome_map, List.find?_isSome] at h
      simpa using h
  rw [Run.anyMem_iff]
  exact ⟨⟨z, z + 9, 1⟩, List.mem_map_of_mem hz, hn.1, Nat.le_of_lt_succ hn.2, Nat.mod_one _⟩

theorem anyMem_digit {n : Nat} (h : isDigit n = true) :
    Run.anyMem decimalRuns n = true ∨ Run.anyMem ClassTable.otherDigits n = true :=
  (Bool.or_eq_true_iff.mp h).imp_left anyMem_decimal

theorem digits_apart {rs : List Run} {n : Nat} (hrs : Run.ascending 0 rs = true)
    (h : Run.apart 1000 decimalRuns rs = true) (h' : Run.apart 1000 ClassTable.otherDigits rs = true)
    (hn : isDigit n = true) : Run.anyMem rs n = false := by
  have hdecimal : Run.ascending 0 decimalRuns = true := by decide +kernel
  have hother : Run.ascending 0 ClassTable.otherDigits = true := by decide +kernel
  cases anyMem_digit hn with
  | inl hn => exact Run.anyMem_apart hdecimal hrs h hn
  | inr hn => exact Run.anyMem_apart hother hrs h' hn

theorem canStartName_digit {n : Nat} (h : isDigit n = true) : canStartName n = false := by
  have hletter : Run.anyMem ClassTable.letters n = false :=
    digits_apart (by decide +kernel) (by decide +kernel) (by decide +kernel) h
  have hstart : Run.anyMem ClassTable.nameStart n = false :=
    digits_apart (by decide +kernel) (by decide +kernel) (by decide +kernel) h
  rw [canStartName]
  split
  · rename_i hsmall
    have hall : ∀ m < 128, isDigit m = true → (isLatinLetter m || m == 95) = false := by decide +kernel
    exact hall n hsmall h
  · rename_i hlarge
    rw [isLetter, if_neg hlarge, hletter, hstart]
    rfl

theorem isSpace_digit {n : Nat} (h : isDigit n = true) : isSpace n = false := by
  have hspace : Run.anyMem ClassTable.space n = false :=
    digits_apart (by decide +kernel) (by decide +kernel) (by decide +kernel) h
  rw [isSpace]
  split
  · rename_i hsmall
    have hall : ∀ m < 128, isDigit m = true →
        (m == 32 || (9 ≤ m && m ≤ 13) || (28 ≤ m && m ≤ 31)) = false := by decide +kernel
    exact hall n hsmall h
  · exact hspace

theorem not_allDigits_of_isName {name : List Char} (h : isName name = true) : allDigits name = false := by
  cases name with
  | nil => rfl
  | cons c rest =>
      have hstart : canStartName c.toNat = true := (Bool.and_eq_true_iff.mp h).1
      rw [Bool.eq_false_iff]
      intro hall
      rw [allDigits, Bool.and_eq_true, List.all_eq_true] at hall
      rw [canStartName_digit (hall.2 c List.mem_cons_self)] at hstart
      cases hstart

theorem starts_or_continues {name : List Char} {c : Char} (h : isName name = true) (hc : c ∈ name) :
    (canStartName c.toNat || canContinueName c.toNat) = true := by
  cases name with
  | nil => cases hc
  | cons d rest =>
      rw [isName, Bool.and_eq_true, List.all_eq_true] at h
      rw [Bool.or_eq_true]
      cases hc with
      | head => exact .inl h.1
      | tail _ hc => exact .inr (h.2 c hc)

end BaseLib.Text
