import BaseLib.Bytes.Encoding
import Mathlib.Tactic.SplitIfs

namespace BaseLib.Encoding

def Tail (b : Nat) : Prop := 0x80 ≤ b ∧ b ≤ 0xBF

/-- The bytes of a character. In UTF-8 the second one is limited behind `E0` and `F0`, where less bytes would
do, behind `ED`, where surrogates would follow, and behind `F4`, where the characters end. -/
inductive Character : Encoding → List Nat → Prop
  | one {a : Nat} (ha : a < 0x80) : Character utf8 [a]
  | two {a b : Nat} (ha : 0xC2 ≤ a ∧ a ≤ 0xDF) (hb : Tail b) : Character utf8 [a, b]
  | three {a b c : Nat} (ha : 0xE0 ≤ a ∧ a ≤ 0xEF) (hb : Tail b) (hlow : a = 0xE0 → 0xA0 ≤ b)
      (hhigh : a = 0xED → b ≤ 0x9F) (hc : Tail c) : Character utf8 [a, b, c]
  | four {a b c d : Nat} (ha : 0xF0 ≤ a ∧ a ≤ 0xF4) (hb : Tail b) (hlow : a = 0xF0 → 0x90 ≤ b)
      (hhigh : a = 0xF4 → b ≤ 0x8F) (hc : Tail c) (hd : Tail d) : Character utf8 [a, b, c, d]
  | unit {a b : Nat} (ha : a < 0x100) (hb : b < 0x100) (hsurrogate : b < 0xD8 ∨ 0xDF < b) :
      Character utf16 [a, b]
  | pair {a b c d : Nat} (ha : a < 0x100) (hb : 0xD8 ≤ b ∧ b ≤ 0xDB) (hc : c < 0x100)
      (hd : 0xDC ≤ d ∧ d ≤ 0xDF) : Character utf16 [a, b, c, d]
  | swapped {bs : List Nat} (h : Character utf16 bs) : Character utf16BigEndian (swapPairs bs)
  | ascii {a : Nat} (ha : a < 0x80) : Character ascii [a]
  | latin1 {a : Nat} (ha : a < 0x100) : Character latin1 [a]

variable {a b c d n : Nat} {bs rest : List Nat}

theorem Tail.isContinuation (h : Tail b) : isContinuation b = true := by
  rw [Encoding.isContinuation, Bool.and_eq_true, decide_eq_true_eq, decide_eq_true_eq]
  exact h

theorem isSecond_iff : isSecond a b = true ↔ (secondRange a).1 ≤ b ∧ b ≤ (secondRange a).2 := by
  rw [isSecond, Bool.and_eq_true, decide_eq_true_eq, decide_eq_true_eq]

theorem isSecond_three (ha : 0xE0 ≤ a ∧ a ≤ 0xEF) (hb : Tail b) (hlow : a = 0xE0 → 0xA0 ≤ b)
    (hhigh : a = 0xED → b ≤ 0x9F) : isSecond a b = true := by
  obtain ⟨hmin, hmax⟩ := hb
  rw [isSecond_iff, secondRange]
  split_ifs <;> dsimp only <;> omega

theorem isSecond_four (ha : 0xF0 ≤ a ∧ a ≤ 0xF4) (hb : Tail b) (hlow : a = 0xF0 → 0x90 ≤ b)
    (hhigh : a = 0xF4 → b ≤ 0x8F) : isSecond a b = true := by
  obtain ⟨hmin, hmax⟩ := hb
  rw [isSecond_iff, secondRange]
  split_ifs <;> dsimp only <;> omega

theorem utf8Front_one (ha : a < 0x80) : utf8Front a rest = (Char.ofNat a, 1) := if_pos ha

theorem utf8Front_two (ha : 0xC2 ≤ a ∧ a ≤ 0xDF) (hb : Tail b) :
    utf8Front a (b :: rest) = (Char.ofNat ((a - 0xC0) * 0x40 + (b - 0x80)), 2) := by
  rw [utf8Front.eq_def, if_neg (by omega), if_pos ha]
  exact if_pos hb.isContinuation

theorem utf8Front_three (ha : 0xE0 ≤ a ∧ a ≤ 0xEF) (hsecond : isSecond a b = true) (hc : Tail c) :
    utf8Front a (b :: c :: rest) =
      (Char.ofNat ((a - 0xE0) * 0x1000 + (b - 0x80) * 0x40 + (c - 0x80)), 3) := by
  rw [utf8Front.eq_def, if_neg (by omega), if_neg (by omega), if_pos ha]
  exact (if_pos hsecond).trans (if_pos hc.isContinuation)

theorem utf8Front_four (ha : 0xF0 ≤ a ∧ a ≤ 0xF4) (hsecond : isSecond a b = true) (hc : Tail c) (hd : Tail d) :
    utf8Front a (b :: c :: d :: rest) =
      (Char.ofNat ((a - 0xF0) * 0x40000 + (b - 0x80) * 0x1000 + (c - 0x80) * 0x40 + (d - 0x80)), 4) := by
  rw [utf8Front.eq_def, if_neg (by omega), if_neg (by omega), if_neg (by omega), if_pos ha]
  exact (if_pos hsecond).trans ((if_pos hc.isContinuation).trans (if_pos hd.isContinuation))

theorem decodeUtf8_skip (bs rest : List Nat) : decodeUtf8 bs.length (bs ++ rest) = decodeUtf8 0 rest := by
  induction bs with
  | nil => rfl
  | cons b bs ih => exact ih

theorem decodeUtf8_front (bs : List Nat) {k : Char} (h : utf8Front a (bs ++ rest) = (k, bs.length + 1)) :
    decodeUtf8 0 (a :: bs ++ rest) = k :: decodeUtf8 0 rest := by
  rw [List.cons_append, decodeUtf8, h]
  exact congrArg (k :: ·) (decodeUtf8_skip bs rest)

theorem toNat_ofNat (h : n.isValidChar) : (Char.ofNat n).toNat = n := by
  rw [Char.ofNat, dif_pos h]
  rfl

theorem toNat_bounds (k : Char) : k.toNat < 0xD800 ∨ 0xDFFF < k.toNat ∧ k.toNat < 0x110000 := k.valid

theorem ofNat_eq {k : Char} (h : n = k.toNat) : Char.ofNat n = k := by
  rw [h, Char.ofNat_toNat]

theorem utf8OfCode_character (k : Char) : Character utf8 (utf8OfCode k.toNat) := by
  have hbounds := toNat_bounds k
  rw [utf8OfCode]
  split_ifs with hone htwo hthree
  · exact .one hone
  · refine .two ⟨?_, ?_⟩ ⟨?_, ?_⟩ <;> omega
  · refine .three ⟨?_, ?_⟩ ⟨?_, ?_⟩ ?_ ?_ ⟨?_, ?_⟩ <;> omega
  · refine .four ⟨?_, ?_⟩ ⟨?_, ?_⟩ ?_ ?_ ⟨?_, ?_⟩ ⟨?_, ?_⟩ <;> omega

theorem exists_utf8OfCode (h : Character utf8 bs) : ∃ k : Char, utf8OfCode k.toNat = bs := by
  cases h with
  | @one a ha =>
      refine ⟨Char.ofNat a, ?_⟩
      rw [toNat_ofNat (.inl (by omega)), utf8OfCode, if_pos ha]
  | @two a b ha hb =>
      obtain ⟨hmin, hmax⟩ := hb
      refine ⟨Char.ofNat ((a - 0xC0) * 0x40 + (b - 0x80)), ?_⟩
      rw [toNat_ofNat (.inl (by omega)), utf8OfCode, if_neg (by omega), if_pos (by omega)]
      simp only [List.cons.injEq, and_true]
      omega
  | @three a b c ha hb hlow hhigh hc =>
      obtain ⟨hmin, hmax⟩ := hb
      obtain ⟨hmin', hmax'⟩ := hc
      refine ⟨Char.ofNat ((a - 0xE0) * 0x1000 + (b - 0x80) * 0x40 + (c - 0x80)), ?_⟩
      rw [toNat_ofNat (by simp only [Nat.isValidChar]; omega), utf8OfCode, if_neg (by omega), if_neg (by omega),
        if_pos (by omega)]
      simp only [List.cons.injEq, and_true]
      omega
  | @four a b c d ha hb hlow hhigh hc hd =>
      obtain ⟨hmin, hmax⟩ := hb
      obtain ⟨hmin', hmax'⟩ := hc
      obtain ⟨hmin'', hmax''⟩ := hd
      refine ⟨Char.ofNat ((a - 0xF0) * 0x40000 + (b - 0x80) * 0x1000 + (c - 0x80) * 0x40 + (d - 0x80)), ?_⟩
      rw [toNat_ofNat (by simp only [Nat.isValidChar]; omega), utf8OfCode, if_neg (by omega), if_neg (by omega),
        if_neg (by omega)]
      simp only [List.cons.injEq, and_true]
      omega

theorem decodeUtf8_character (k : Char) (rest : List Nat) :
    decodeUtf8 0 (utf8OfCode k.toNat ++ rest) = k :: decodeUtf8 0 rest := by
  have hcharacter := utf8OfCode_character k
  rw [utf8OfCode] at hcharacter ⊢
  split_ifs at hcharacter ⊢ with hone htwo hthree
  · apply decodeUtf8_front []
    rw [utf8Front_one hone, Char.ofNat_toNat]
    rfl
  · cases hcharacter with
    | two ha hb =>
        apply decodeUtf8_front [_]
        rw [List.singleton_append, utf8Front_two ha hb, ofNat_eq (k := k) (by omega)]
        rfl
  · cases hcharacter with
    | three ha hb hlow hhigh hc =>
        apply decodeUtf8_front [_, _]
        rw [List.cons_append, List.singleton_append, utf8Front_three ha (isSecond_three ha hb hlow hhigh) hc,
          ofNat_eq (k := k) (by omega)]
        rfl
  · cases hcharacter with
    | four ha hb hlow hhigh hc hd =>
        apply decodeUtf8_front [_, _, _]
        rw [List.cons_append, List.cons_append, List.singleton_append,
          utf8Front_four ha (isSecond_four ha hb hlow hhigh) hc hd, ofNat_eq (k := k) (by omega)]
        rfl

theorem utf8OfCode_eq (k : Char) : utf8OfCode k.toNat = (String.utf8EncodeChar k).map UInt8.toNat := by
  have hbounds := toNat_bounds k
  simp only [utf8OfCode, String.utf8EncodeChar, show k.val.toNat = k.toNat from rfl]
  split_ifs <;> first | omega | (simp; omega)

theorem ofChar_character (k : Char) : Character utf16 ((Text.Utf16.ofChar k).flatMap littleEndian) := by
  have hbounds := toNat_bounds k
  rw [Text.Utf16.ofChar, Text.Utf16.ofCode]
  split_ifs with hbasic
  · refine .unit ?_ ?_ ?_ <;> omega
  · refine .pair ?_ ⟨?_, ?_⟩ ?_ ⟨?_, ?_⟩ <;> omega

theorem exists_ofChar (h : Character utf16 bs) :
    ∃ k : Char, (Text.Utf16.ofChar k).flatMap littleEndian = bs := by
  cases h with
  | @unit a b ha hb hsurrogate =>
      refine ⟨Char.ofNat (a + 0x100 * b), ?_⟩
      rw [Text.Utf16.ofChar, Text.Utf16.ofCode, toNat_ofNat (by simp only [Nat.isValidChar]; omega), if_pos (by omega)]
      simp only [List.flatMap_cons, List.flatMap_nil, littleEndian, List.append_nil, List.cons.injEq, and_true]
      omega
  | @pair a b c d ha hb hc hd =>
      refine ⟨Char.ofNat (0x10000 + (a + 0x100 * b - 0xD800) * 0x400 + (c + 0x100 * d - 0xDC00)), ?_⟩
      rw [Text.Utf16.ofChar, Text.Utf16.ofCode, toNat_ofNat (by simp only [Nat.isValidChar]; omega), if_neg (by omega)]
      simp only [List.flatMap_cons, List.flatMap_nil, littleEndian, List.cons_append, List.nil_append,
        List.append_nil, List.cons.injEq, and_true]
      omega

theorem isHighUnit_iff : isHighUnit n = true ↔ 0xD800 ≤ n ∧ n ≤ 0xDBFF := by
  rw [isHighUnit, Bool.and_eq_true, decide_eq_true_eq, decide_eq_true_eq]

theorem isLowUnit_iff : isLowUnit n = true ↔ 0xDC00 ≤ n ∧ n ≤ 0xDFFF := by
  rw [isLowUnit, Bool.and_eq_true, decide_eq_true_eq, decide_eq_true_eq]

theorem littleEndian_value (n : Nat) : n % 0x100 + 0x100 * (n / 0x100) = n := Nat.mod_add_div n 0x100

theorem decodeUtf16_unit (hsurrogate : n < 0xD800 ∨ 0xDFFF < n) (rest : List Nat) :
    decodeUtf16 (littleEndian n ++ rest) = Char.ofNat n :: decodeUtf16 rest := by
  have hhigh : ¬isHighUnit n = true := by
    rw [isHighUnit_iff]
    omega
  have hlow : ¬isLowUnit n = true := by
    rw [isLowUnit_iff]
    omega
  rw [littleEndian, List.cons_append, List.singleton_append, decodeUtf16.eq_def]
  simp only [littleEndian_value, if_neg hhigh, if_neg hlow]

theorem decodeUtf16_pair {u v : Nat} (hu : 0xD800 ≤ u ∧ u ≤ 0xDBFF) (hv : 0xDC00 ≤ v ∧ v ≤ 0xDFFF)
    (rest : List Nat) :
    decodeUtf16 (littleEndian u ++ (littleEndian v ++ rest)) =
      Char.ofNat (0x10000 + (u - 0xD800) * 0x400 + (v - 0xDC00)) :: decodeUtf16 rest := by
  have hhigh : isHighUnit u = true := isHighUnit_iff.mpr hu
  have hlow : isLowUnit v = true := isLowUnit_iff.mpr hv
  rw [littleEndian, littleEndian, List.cons_append, List.singleton_append, List.cons_append,
    List.singleton_append, decodeUtf16]
  simp only [littleEndian_value, if_pos hhigh, if_pos hlow]

theorem decodeUtf16_character (k : Char) (rest : List Nat) :
    decodeUtf16 ((Text.Utf16.ofChar k).flatMap littleEndian ++ rest) = k :: decodeUtf16 rest := by
  have hbounds := toNat_bounds k
  rw [Text.Utf16.ofChar, Text.Utf16.ofCode]
  split_ifs with hbasic
  · rw [List.flatMap_singleton, decodeUtf16_unit (by omega), Char.ofNat_toNat]
  · rw [List.flatMap_cons, List.flatMap_singleton, List.append_assoc,
      decodeUtf16_pair (by omega) (by omega), ofNat_eq (k := k) (by omega)]

end BaseLib.Encoding
