import BaseLib.Number.Basic
import BaseLib.Proofs.Double.Equality

namespace BaseLib.Number

def isNaN : Number → Bool
  | int _ => false
  | double d => d.isNaN

/-- The number that stands for all numbers of one value: the integer, if it is one, else the word.
All words of NaN stand for one. -/
def content : Number → Number
  | int n => int n
  | double d =>
    match d.toInt? with
    | some n => int n
    | none => if d.isNaN then double Double.nan else double d

theorem content_of_int {d : Double} {n : Int} (h : d.toInt? = some n) :
    (double d).content = int n := by
  simp [content, h]

theorem content_of_NaN {d : Double} (h : d.isNaN = true) :
    (double d).content = double Double.nan := by
  simp [content, Double.toInt?_of_NaN h, h]

theorem content_of_fraction {d : Double} (h : d.toInt? = none) (hn : d.isNaN = false) :
    (double d).content = double d := by
  simp [content, h, hn]

theorem content_eq_int_iff (d : Double) (n : Int) :
    (double d).content = int n ↔ d.toInt? = some n := by
  cases h : d.toInt? with
  | some m => simp [content, h]
  | none => cases hn : d.isNaN <;> simp [content, h, hn]

theorem content_double_eq_iff {a b : Double} (ha : a.isNaN = false) (hb : b.isNaN = false) :
    (double a).content = (double b).content ↔
      a = b ∨ ∃ n, a.toInt? = some n ∧ b.toInt? = some n := by
  cases hx : a.toInt? with
  | some n =>
      rw [content_of_int hx, eq_comm, content_eq_int_iff]
      constructor
      · exact fun hy => .inr ⟨n, rfl, hy⟩
      · rintro (rfl | ⟨m, hm, hy⟩)
        · exact hx
        · rw [hy, Option.some.inj hm]
  | none =>
      rw [content_of_fraction hx ha]
      cases hy : b.toInt? with
      | some n =>
          have hne : a ≠ b := by
            rintro rfl
            simp [hx] at hy
          simp [content_of_int hy, hne]
      | none => simp [content_of_fraction hy hb]

theorem swap_eq_some_eq_iff (o : Option Ordering) :
    o.map Ordering.swap = some .eq ↔ o = some .eq := by
  cases o with
  | none => simp
  | some o => cases o <;> simp

theorem eq_iff (a b : Number) :
    a.eq b = true ↔ a.isNaN = false ∧ b.isNaN = false ∧ a.content = b.content := by
  have heq : a.eq b = true ↔ compare? a b = some .eq := beq_iff_eq
  rw [heq]
  cases a with
  | int m =>
      cases b with
      | int n => simp [compare?, isNaN, content]
      | double d =>
          rw [show compare? (int m) (double d) = Double.compareInt? m d from rfl,
            Double.compareInt?_eq_iff, ← content_eq_int_iff, eq_comm]
          cases hn : d.isNaN <;> simp [isNaN, hn, content, Double.toInt?_of_NaN]
  | double d =>
      cases b with
      | int n =>
          rw [show compare? (double d) (int n) = (Double.compareInt? n d).map Ordering.swap from rfl,
            swap_eq_some_eq_iff, Double.compareInt?_eq_iff, ← content_eq_int_iff]
          cases hn : d.isNaN <;> simp [isNaN, hn, content, Double.toInt?_of_NaN]
      | double e =>
          rw [show compare? (double d) (double e) = Double.compare? d e from rfl,
            Double.compare?_eq_iff]
          simp only [isNaN]
          refine and_congr_right fun ha => and_congr_right fun hb => ?_
          exact (content_double_eq_iff ha hb).symm

theorem isNaN_content (a : Number) : a.content.isNaN = a.isNaN := by
  cases a with
  | int n => rfl
  | double d =>
      cases h : d.toInt? with
      | some n =>
          have hn : d.isNaN = false := by
            by_contra hn
            rw [Bool.not_eq_false] at hn
            simp [Double.toInt?_of_NaN hn] at h
          rw [content_of_int h]
          exact hn.symm
      | none =>
          cases hn : d.isNaN with
          | true =>
              rw [content_of_NaN hn]
              exact hn.symm
          | false => rw [content_of_fraction h hn]

theorem content_eq_iff (a b : Number) :
    a.content = b.content ↔ (a.isNaN = true ∧ b.isNaN = true) ∨ a.eq b = true := by
  rw [eq_iff]
  constructor
  · intro h
    have hn : a.isNaN = b.isNaN := by rw [← isNaN_content a, ← isNaN_content b, h]
    cases ha : a.isNaN with
    | true => exact .inl ⟨rfl, by rw [← hn, ha]⟩
    | false => exact .inr ⟨rfl, by rw [← hn, ha], h⟩
  · rintro (⟨ha, hb⟩ | ⟨-, -, h⟩)
    · cases a <;> cases b <;> simp_all [isNaN, content_of_NaN]
    · exact h

theorem hash_of_int {d : Double} {n : Int} (h : d.toInt? = some n) :
    (double d).hash = Word.fold n := by
  simp only [hash, h]

theorem hash_of_NaN {d : Double} (h : d.isNaN = true) :
    (double d).hash = Text.Utf16.hash "NaN".toList := by
  have hd : (double d).display = "NaN".toList := if_pos h
  simp only [hash, Double.toInt?_of_NaN h, hd]

theorem hash_content (a : Number) : a.content.hash = a.hash := by
  cases a with
  | int n => rfl
  | double d =>
      cases h : d.toInt? with
      | some n => rw [content_of_int h, hash_of_int h, hash]
      | none =>
          cases hn : d.isNaN with
          | true => rw [content_of_NaN hn, hash_of_NaN hn, hash_of_NaN (by decide)]
          | false => rw [content_of_fraction h hn]

end BaseLib.Number
