import BaseLib.Library.Catalogue
import BaseLib.Proofs.Collection.Sorting
import BaseLib.Proofs.Session.Exec
import Mathlib.Algebra.Order.Group.Int
import Mathlib.Data.Char
import Mathlib.Data.List.Lex

namespace BaseLib

open Sorting

namespace Text

/-- A total preorder in which only equal elements are as great as each other. -/
structure TotalOrder {α : Type} (cmp : α → α → Int) : Prop extends TotalPreorder cmp where
  eq_of_zero : ∀ {a b}, cmp a b = 0 → a = b

variable {a b : List Char}

theorem compareOrdinal_neg_iff (a b : List Char) : compareOrdinal a b < 0 ↔ a < b := by
  induction a generalizing b with
  | nil =>
      cases b with
      | nil => simp [compareOrdinal]
      | cons y ys =>
          simp only [compareOrdinal, List.length_cons, List.length_nil, List.nil_lt_cons, iff_true]
          omega
  | cons x xs ih =>
      cases b with
      | nil =>
          simp only [compareOrdinal, List.length_cons, List.length_nil, List.not_lt_nil, iff_false]
          omega
      | cons y ys =>
          rw [compareOrdinal, List.cons_lt_cons_iff]
          by_cases h : x = y
          · simp [h, ih]
          · have hcodes : x < y ↔ x.toNat < y.toNat := Iff.rfl
            simp only [h, if_false, false_and, or_false, hcodes]
            omega

theorem compareOrdinal_swap (a b : List Char) : compareOrdinal b a = -compareOrdinal a b := by
  induction a generalizing b with
  | nil => cases b <;> simp [compareOrdinal]
  | cons x xs ih =>
      cases b with
      | nil => simp [compareOrdinal]
      | cons y ys =>
          by_cases h : x = y
          · simp [compareOrdinal, h, ih]
          · simp [compareOrdinal, h, Ne.symm h]

theorem compareOrdinal_self (a : List Char) : compareOrdinal a a = 0 := by
  have hswap := compareOrdinal_swap a a
  omega

theorem sign_compareOrdinal {n m : Int} (h : a < b ↔ n < m) (h' : b < a ↔ m < n) :
    (compareOrdinal a b).sign = (n - m).sign := by
  rw [← compareOrdinal_neg_iff] at h
  rw [← compareOrdinal_neg_iff, compareOrdinal_swap] at h'
  rcases lt_trichotomy n m with hlt | heq | hgt
  · rw [Int.sign_eq_neg_one_of_neg (h.mpr hlt), Int.sign_eq_neg_one_of_neg (by omega)]
  · have hzero : compareOrdinal a b = 0 := by omega
    rw [hzero, heq, Int.sub_self]
  · rw [Int.sign_eq_one_of_pos (by omega), Int.sign_eq_one_of_pos (by omega)]

theorem compareTexts_neg_iff (ignoreCase : Bool) (a b : List Char) :
    compareTexts ignoreCase a b < 0 ↔ folded ignoreCase a < folded ignoreCase b := by
  rw [compareTexts]
  rcases lt_trichotomy (folded ignoreCase a) (folded ignoreCase b) with h | h | h
  · simp [h, h.not_gt]
  · simp [h]
  · simp [h, h.not_gt]

theorem compareTexts_swap (ignoreCase : Bool) (a b : List Char) :
    compareTexts ignoreCase b a = -compareTexts ignoreCase a b := by
  simp [compareTexts]

theorem compareTexts_nonpos_iff (ignoreCase : Bool) (a b : List Char) :
    compareTexts ignoreCase a b ≤ 0 ↔ folded ignoreCase a ≤ folded ignoreCase b := by
  rw [← not_lt (a := folded ignoreCase b), ← compareTexts_neg_iff, compareTexts_swap ignoreCase a b]
  omega

theorem compareTexts_eq_zero_iff (ignoreCase : Bool) (a b : List Char) :
    compareTexts ignoreCase a b = 0 ↔ folded ignoreCase a = folded ignoreCase b := by
  have hback := compareTexts_nonpos_iff ignoreCase b a
  rw [compareTexts_swap] at hback
  rw [le_antisymm_iff (a := folded ignoreCase a), ← compareTexts_nonpos_iff, ← hback]
  omega

theorem totalPreorder_compareTexts (ignoreCase : Bool) : TotalPreorder (compareTexts ignoreCase) where
  neg_iff a b := by
    rw [compareTexts_swap ignoreCase a b]
    omega
  trans hab hbc := by
    rw [compareTexts_nonpos_iff] at hab hbc ⊢
    exact hab.trans hbc

theorem sign_compareOrdinal_eq (a b : List Char) : (compareOrdinal a b).sign = (compareTexts false a b).sign := by
  rw [← Int.sub_zero (compareTexts false a b)]
  apply sign_compareOrdinal
  · rw [compareTexts_neg_iff]
    rfl
  · rw [← Int.neg_neg_iff_pos, ← compareTexts_swap, compareTexts_neg_iff]
    rfl

theorem totalPreorder_compareMissing {rest : List Char → List Char → Int} (h : TotalPreorder rest) :
    TotalPreorder (compareMissing rest) where
  neg_iff a b := by
    cases a <;> cases b <;> simp [compareMissing, h.neg_iff]
  trans {a b c} hab hbc := by
    cases a <;> cases b <;> cases c <;> simp_all [compareMissing]
    exact h.trans hab hbc

theorem compareMissing_compareTexts_eq_zero {a b : Option (List Char)}
    (h : compareMissing (compareTexts false) a b = 0) : a = b := by
  cases a <;> cases b <;> simp_all [compareMissing]
  exact (compareTexts_eq_zero_iff false _ _).mp h

theorem sign_compareMissing (a b : Option (List Char)) :
    (compareMissing compareOrdinal a b).sign = (compareMissing (compareTexts false) a b).sign := by
  cases a with
  | none => rfl
  | some a =>
      cases b with
      | none => rfl
      | some b => exact sign_compareOrdinal_eq a b

theorem startsWith_iff_of_length (h : a.length = b.length) :
    startsWith true a b = true ↔ lower a = lower b := by
  rw [startsWith, List.isPrefixOf_iff_prefix]
  change lower b <+: lower a ↔ _
  constructor
  · intro hbegins
    exact (hbegins.eq_of_length (by rw [length_lower, length_lower, h])).symm
  · intro heq
    exact heq ▸ List.prefix_refl (lower b)

theorem compareTexts_ignoring_eq_zero_iff (a b : List Char) :
    compareTexts true a b = 0 ↔ startsWith true a b = true ∧ a.length = b.length := by
  rw [compareTexts_eq_zero_iff]
  change lower a = lower b ↔ _
  constructor
  · intro h
    have hlength : a.length = b.length := by rw [← length_lower a, h, length_lower]
    exact ⟨(startsWith_iff_of_length hlength).mpr h, hlength⟩
  · rintro ⟨hstarts, hlength⟩
    exact (startsWith_iff_of_length hlength).mp hstarts

end Text

namespace Session

open Library Text

def argument : Option (List Char) → Value
  | none => .null
  | some t => .text t

theorem exec_compare (s : Session) (a b : Option (List Char)) :
    s.exec (Catalogue.call "NString.Compare" [argument a, argument b]) =
      (.ok (.int (compareMissing (compareTexts false) a b)), s) := by
  cases a <;> cases b <;> rfl

theorem exec_compareOrdinal (s : Session) (a b : Option (List Char)) :
    s.exec (Catalogue.call "NString.CompareOrdinal" [argument a, argument b]) =
      (.ok (.int (compareMissing compareOrdinal a b)), s) := by
  cases a <;> cases b <;> rfl

/-- `Compare` is a total order of texts and null, which comes first: the lexicographic order by characters, of
which `CompareOrdinal` gives the sign. Ignoring case, it compares texts as `ToLowerInvariant` gives them, which is
a total preorder; it finds two texts equal exactly if they have one length and the one starts with the other. -/
theorem texts_ordered :
    ∃ (order ordinal : Option (List Char) → Option (List Char) → Int) (ignoring : List Char → List Char → Int),
      (∀ (s : Session) a b, s.exec (Catalogue.call "NString.Compare" [argument a, argument b]) =
        (.ok (.int (order a b)), s)) ∧
      (∀ (s : Session) a b, s.exec (Catalogue.call "NString.CompareOrdinal" [argument a, argument b]) =
        (.ok (.int (ordinal a b)), s)) ∧
      (∀ (s : Session) a b, s.exec (Catalogue.call "NString.Compare" [.text a, .text b, .bool true]) =
        (.ok (.int (ignoring a b)), s)) ∧
      TotalOrder order ∧ (∀ t, order none (some t) < 0) ∧ (∀ a b, order (some a) (some b) < 0 ↔ a < b) ∧
      (∀ a b, (ordinal a b).sign = (order a b).sign) ∧
      TotalPreorder ignoring ∧
      (∀ (s : Session) a b, ∃ a' b',
        s.exec (Catalogue.call "NString.ToLowerInvariant" [.text a]) = (.ok (.text a'), s) ∧
        s.exec (Catalogue.call "NString.ToLowerInvariant" [.text b]) = (.ok (.text b'), s) ∧
        ignoring a b = order (some a') (some b')) ∧
      ∀ (s : Session) a b, ∃ starts,
        s.exec (Catalogue.call "NString.StartsWith"
          [.text a, .text b, .symbol (.comparison .ordinalIgnoreCase)]) = (.ok (.bool starts), s) ∧
        (ignoring a b = 0 ↔ starts = true ∧ a.length = b.length) := by
  refine ⟨compareMissing (compareTexts false), compareMissing compareOrdinal, compareTexts true, exec_compare,
    exec_compareOrdinal, fun _ _ _ => rfl, ?_, fun _ => Int.negSucc_lt_zero 0, compareTexts_neg_iff false,
    sign_compareMissing, totalPreorder_compareTexts true, ?_, ?_⟩
  · exact ⟨totalPreorder_compareMissing (totalPreorder_compareTexts false), compareMissing_compareTexts_eq_zero⟩
  · intro s a b
    exact ⟨lower a, lower b, rfl, rfl, rfl⟩
  · intro s a b
    exact ⟨startsWith true a b, rfl, compareTexts_ignoring_eq_zero_iff a b⟩

/-- The sign of degrees Kelvin folds to a small k; a capital I with a dot folds to two characters, so it is left
as it is. -/
example : compareTexts true ['\u212a'] ['k'] = 0 ∧ compareTexts true ['\u0130'] ['i'] = 1 := by decide +kernel

end Session

end BaseLib
