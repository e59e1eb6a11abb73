import BaseLib.Proofs.Number.Misuse
import BaseLib.Proofs.Number.RoundTrip

namespace BaseLib.Number

open Text.Composite (Stops)

section

variable {b n v : Nat}

def digitOf? (c : Char) : Option Nat :=
  match Text.digitValue? c.toNat with
  | some v => some v
  | none =>
    if 'a' ≤ c && c ≤ 'z' then some (c.toNat - 87)
    else if 'A' ≤ c && c ≤ 'Z' then some (c.toNat - 55)
    else none

theorem digitOf?_digitChar : ∀ v < 16, digitOf? v.digitChar = some v := by decide

def readDigit (base : Nat) (state : Option (Nat × Bool)) (c : Char) : Option (Nat × Bool) := do
  let (n, afterDigit) ← state
  if c == '_' then if afterDigit then some (n, false) else none
  else
    let v ← digitOf? c
    if v < base then some (base * n + v, true) else none

theorem readDigit_digitChar (hb : b ≤ 16) (hv : v < b) (n : Nat) (afterDigit : Bool) :
    readDigit b (some (n, afterDigit)) v.digitChar = some (b * n + v, true) := by
  have hplain : (v.digitChar == '_') = false :=
    (by decide : ∀ v < 16, (v.digitChar == '_') = false) v (by omega)
  have hrun : readDigit b (some (n, afterDigit)) v.digitChar =
      if v.digitChar == '_' then if afterDigit then some (n, false) else none
      else (digitOf? v.digitChar).bind fun v => if v < b then some (b * n + v, true) else none := rfl
  rw [hrun, hplain, digitOf?_digitChar v (by omega)]
  exact if_pos hv

theorem readDigitsIn?_eq (base : Nat) (s : List Char) : readDigitsIn? base s =
    match s.foldl (readDigit base) (some (0, false)) with
    | some (n, true) => some n
    | _ => none := by
  refine congrArg (fun step => match List.foldl step (some (0, false)) s with
    | some (n, true) => some n
    | _ => none) ?_
  funext state c
  cases state with
  | none => rfl
  | some state =>
      unfold readDigit digitOf?
      dsimp only [Option.bind_eq_bind, Option.bind_some]
      cases Text.digitValue? c.toNat with
      | some v => rfl
      | none =>
          dsimp only
          split
          · rfl
          · split
            · rfl
            · split <;> rfl

theorem readDigitsIn?_toDigits (hb : 1 < b) (hb' : b ≤ 16) (n : Nat) :
    readDigitsIn? b (Nat.toDigits b n) = some n := by
  have hfold : (Nat.toDigits b n).foldl (readDigit b) (some (0, false)) = some (n, true) := by
    refine toDigits_induction (motive := fun n ds => ds.foldl (readDigit b) (some (0, false)) = some (n, true)) hb
      (fun v hv => ?_) (fun n v hv _ ih => ?_) n
    · rw [List.foldl_cons, List.foldl_nil, readDigit_digitChar hb' hv, Nat.mul_zero, Nat.zero_add]
    · rw [List.foldl_append, ih]
      exact readDigit_digitChar hb' hv n true
  rw [readDigitsIn?_eq, hfold]

theorem trim_of_none {p : Char → Bool} {s : List Char} (h : ∀ c ∈ s, p c = false) : Text.trim p s = s := by
  have htrim := Text.Composite.trim_append (List.forall_mem_nil _) h (List.forall_mem_nil _)
  rwa [List.nil_append, List.append_nil] at htrim

theorem not_space (hb : 1 < b) (hb' : b ≤ 16) (neg : Bool) (n : Nat) :
    ∀ c ∈ Decimal.withSign neg (Nat.toDigits b n), Text.isSpace c.toNat = false := by
  have hdigits : ∀ c ∈ Nat.toDigits b n, Text.isSpace c.toNat = false := by
    intro c hc
    obtain ⟨v, hv, rfl⟩ := mem_toDigits hb n hc
    exact (by decide : ∀ v < 16, Text.isSpace v.digitChar.toNat = false) v (by omega)
  cases neg with
  | false => exact hdigits
  | true => exact List.forall_mem_cons.mpr ⟨rfl, hdigits⟩

theorem takeSign_toDigits (hb : 1 < b) (hb' : b ≤ 16) (neg : Bool) (n : Nat) :
    takeSign (Decimal.withSign neg (Nat.toDigits b n)) = (if neg then some '-' else none, Nat.toDigits b n) := by
  cases neg with
  | true => rfl
  | false =>
      refine takeSign_stops fun c hc => ?_
      obtain ⟨v, hv, rfl⟩ := mem_toDigits hb n (List.mem_of_mem_head? hc)
      exact (by decide : ∀ v < 16, isSign v.digitChar = false) v (by omega)

theorem markedBase?_toDigits (hb : 1 < b) (hb' : b ≤ 16) (n : Nat) : markedBase? (Nat.toDigits b n) = none := by
  rcases Nat.eq_zero_or_pos n with rfl | hn
  · rw [Nat.toDigits_of_lt_base (by omega)]
    rfl
  · have hhead := head?_toDigits hb hb' n hn.ne'
    unfold markedBase?
    split
    · rename_i hs
      rw [hs] at hhead
      exact absurd rfl hhead
    · rfl

theorem readInteger?_toDigits (hb : 1 < b) (hb' : b ≤ 16) (neg : Bool) (n : Nat)
    (hshort : isTooLong b (Nat.toDigits b n) = false) :
    readInteger? (Decimal.withSign neg (Nat.toDigits b n)) b = some (if neg then -(n : ℤ) else n) := by
  have htrim : Text.trim isIntegerBlank (Decimal.withSign neg (Nat.toDigits b n)) =
      Decimal.withSign neg (Nat.toDigits b n) :=
    trim_of_none fun c hc => by rw [isIntegerBlank, not_space hb hb' neg n c hc, Bool.false_and]
  have hbase : ¬(b : ℤ) = 0 := by omega
  have hrange : 2 ≤ (b : ℤ) ∧ (b : ℤ) ≤ 36 := by omega
  rw [readInteger?, htrim, takeSign_toDigits hb hb']
  dsimp only
  rw [markedBase?_toDigits hb hb', if_neg hbase, if_pos hrange]
  simp [readDigitsIn?_toDigits hb hb', hshort]

theorem hexDigits_eq (upper : Bool) (n : Nat) :
    hexDigits upper n = (Nat.toDigits 16 n).map fun c => if upper then c.toUpper else c := by
  cases upper with
  | true => rfl
  | false => exact (List.map_id _).symm

theorem hexValue?_digitChar (upper : Bool) :
    ∀ v < 16, hexValue? (if upper then v.digitChar.toUpper else v.digitChar) = some v := by
  cases upper <;> decide

theorem foldlM_hexDigits (upper : Bool) (n : Nat) :
    (hexDigits upper n).foldlM (fun n c => (hexValue? c).map (16 * n + ·)) 0 = some n := by
  rw [hexDigits_eq]
  refine toDigits_induction (b := 16) (motive := fun n ds => (ds.map fun c => if upper then c.toUpper else c).foldlM
    (fun n c => (hexValue? c).map (16 * n + ·)) 0 = some n) (by decide) (fun v hv => ?_) (fun n v hv _ ih => ?_) n
  · rw [List.map_singleton, List.foldlM_cons, hexValue?_digitChar upper v hv]
    exact congrArg some (Nat.zero_add v)
  · rw [List.map_append, List.foldlM_append, ih, Option.bind_eq_bind, Option.bind_some, List.map_singleton,
      List.foldlM_cons, hexValue?_digitChar upper v hv]
    rfl

theorem foldlM_zeros (k : Nat) :
    (Decimal.zeros k).foldlM (fun n c => (hexValue? c).map (16 * n + ·)) 0 = some 0 := by
  induction k with
  | zero => rfl
  | succ k ih => exact ih

theorem readHex?_fillZeros (p : Nat) (upper : Bool) (n : Nat) :
    readHex? (fillZeros p (hexDigits upper n)) = some n := by
  have hne : (fillZeros p (hexDigits upper n)).isEmpty = false := by
    have hdigits := List.length_pos_of_ne_nil (List.ne_nil_of_length_pos (Nat.length_toDigits_pos (b := 16) (n := n)))
    rw [← Bool.not_eq_true, List.isEmpty_iff, fillZeros, List.append_eq_nil_iff, hexDigits_eq, List.map_eq_nil_iff,
      ← List.length_eq_zero_iff (l := Nat.toDigits 16 n)]
    omega
  rw [readHex?, hne, fillZeros, List.foldlM_append, foldlM_zeros]
  exact foldlM_hexDigits upper n

theorem length_fillZeros (p : Nat) (ds : List Char) : p ≤ (fillZeros p ds).length := by
  rw [fillZeros, List.length_append, Decimal.zeros, List.length_replicate]
  omega

theorem complement_eq {n : ℤ} (hn : -2 ^ 63 ≤ n) :
    (complement n : ℤ) = if 0 ≤ n then n else if -2 ^ 31 ≤ n then n + 2 ^ 32 else n + 2 ^ 64 := by
  unfold complement Word.unsigned Word.minValue
  split_ifs <;> omega

theorem standard_hex (n : ℤ) (upper : Bool) (spec : List Char) (symbols : NumberSymbols) :
    (Number.int n).standard (.hex upper) spec symbols =
      (precision spec 0).map fun p => fillZeros p (hexDigits upper (complement n)) := by
  rw [standard]
  show (do
    let p ← precision spec 0
    pure (fillZeros p (hexDigits upper (complement n)))) = _
  cases precision spec 0 <;> rfl

theorem precision_wide {p : Nat} (hp : 999 < p) (default : Nat) :
    ∃ cause, precision (Decimal.digits p) default = .error cause := by
  rw [precision, if_neg (by simpa using Decimal.digits_ne p), Text.Composite.readNumeral]
  split
  · exact ⟨_, rfl⟩
  · rw [decimalValue?_digits]
    exact ⟨_, if_neg (Nat.not_le.mpr hp)⟩

theorem read?_hex (p : Nat) (upper : Bool) (n : Nat) (symbols : NumberSymbols) :
    read? (fillZeros p (hexDigits upper n)) ⟨515⟩ symbols = some (.int n) := by
  obtain ⟨hne, vs, hvs, hn⟩ := readHex?_iff.mp (readHex?_fillZeros p upper n)
  have htext : fillZeros p (hexDigits upper n) = [] ++ (fillZeros p (hexDigits upper n) ++ []) :=
    (List.append_nil _).symm
  have hread : read? (fillZeros p (hexDigits upper n)) ⟨515⟩ symbols =
      read? (fillZeros p (hexDigits upper n)) ⟨515⟩ NumberSymbols.invariant := rfl
  have haccepts : Accepts ⟨515⟩ (fillZeros p (hexDigits upper n)) (.int (Nat.ofDigits 16 vs.reverse : Nat)) :=
    ⟨[], _, [], htext, blanks_nil _, blanks_nil _, .hexadecimal rfl hne hvs⟩
  rw [hread, read?_iff]
  rwa [← hn] at haccepts

end

end BaseLib.Number

namespace BaseLib.Convert

open Number

variable {b : Nat} {n : ℤ}

theorem ofBase_withSign (hb : 1 < b) (hb' : b ≤ 16) (neg : Bool) (m : Nat) {k : ℤ}
    (hshort : isTooLong b (Nat.toDigits b m) = false) (hk : (if neg then -(m : ℤ) else m) = k) : ofBase (Decimal.withSign neg (Nat.toDigits b m)) b =
      if (b : ℤ) ≠ 10 ∧ 0x80000000 ≤ k ∧ k ≤ 0xFFFFFFFF then .ok (Word.wrap k) else checked k := by
  have hstrip : Text.strip (Decimal.withSign neg (Nat.toDigits b m)) = Decimal.withSign neg (Nat.toDigits b m) :=
    trim_of_none (not_space hb hb' neg m)
  rw [ofBase, hstrip, readInteger?_toDigits hb hb' neg m hshort, hk]

theorem natAbs_of_inRange (hn : Word.InRange n) : n.natAbs < 10 ^ Text.Composite.longestNumeral := by
  have hword : n.natAbs < 10 ^ 10 := by
    obtain ⟨hlow, hhigh⟩ := hn
    unfold Word.minValue at hlow
    unfold Word.maxValue at hhigh
    omega
  exact hword.trans_le (Nat.pow_le_pow_right (by decide) (by decide))

theorem digits_not_tooLong {m : Nat} (hm : m < 10 ^ Text.Composite.longestNumeral) :
    isTooLong 10 (Decimal.digits m) = false := by
  have hlength : (Decimal.digits m).length ≤ Text.Composite.longestNumeral := (Decimal.numDigits_le_iff (by decide)).mpr hm
  have hcount := List.countP_le_length (p := (· != '_')) (l := Decimal.digits m)
  have hshort : ¬mostDigits < (Decimal.digits m).countP (· != '_') := (hcount.trans hlength).not_gt
  rw [isTooLong, decide_eq_false hshort, Bool.and_false]

theorem ofBase_ten (hn : Word.InRange n) : ofBase (Decimal.withSign (n < 0) (Decimal.digits n.natAbs)) 10 = .ok n := by
  have hsigned : (if decide (n < 0) then -(n.natAbs : ℤ) else n.natAbs) = n := by
    simp only [decide_eq_true_eq]
    split <;> omega
  have hread := ofBase_withSign (b := 10) (by decide) (by decide) (decide (n < 0)) n.natAbs
    (digits_not_tooLong (natAbs_of_inRange hn)) hsigned
  rw [if_neg fun h => h.1 rfl, checked, if_pos hn] at hread
  exact hread

theorem ofBase_word (hb : 1 < b) (hb' : b ≤ 16) (hpower : b &&& (b - 1) = 0) (hten : b ≠ 10) (hn : Word.InRange n) :
    ofBase (Nat.toDigits b (if n < 0 then Word.unsigned n else n.toNat)) b = .ok n := by
  have hshort (s : List Char) : isTooLong b s = false := by rw [isTooLong, hpower, bne_self_eq_false, Bool.false_and]
  have hread := ofBase_withSign hb hb' false (if n < 0 then Word.unsigned n else n.toNat) (hshort _) rfl
  rw [if_neg Bool.false_ne_true] at hread
  refine hread.trans ?_
  obtain ⟨hlow, hhigh⟩ := hn
  unfold Word.minValue at hlow
  unfold Word.maxValue at hhigh
  have hunsigned : (Word.unsigned n : ℤ) = n % 4294967296 := Int.toNat_of_nonneg (by omega)
  split
  · rename_i hneg
    have hwrap : Word.wrap (Word.unsigned n) = n := by
      rw [hunsigned, Word.wrap]
      exact (Int.emod_bmod n 4294967296).trans (Word.wrap_of_inRange ⟨hlow, hhigh⟩)
    rw [if_pos ⟨by omega, by omega, by omega⟩, hwrap]
  · rename_i hnonneg
    rw [if_neg (by omega), Int.toNat_of_nonneg (by omega), checked, if_pos ⟨hlow, hhigh⟩]

theorem ofBase_toBase {r : ℤ} (hr : r ∈ [2, 8, 10, 16]) (hn : Word.InRange n) :
    ∃ t, toBase n r = .ok t ∧ ofBase t r = .ok n := by
  have hword {b : Nat} (hb : b ∈ [2, 8, 16]) (hpower : b &&& (b - 1) = 0) :
      ∃ t, toBase n b = .ok t ∧ ofBase t b = .ok n := by
    have hbase : (b : ℤ) ≠ 10 ∧ ((b : ℤ) = 2 ∨ (b : ℤ) = 8 ∨ (b : ℤ) = 16) ∧ 1 < b ∧ b ≤ 16 ∧ b ≠ 10 := by
      simp only [List.mem_cons, List.not_mem_nil, or_false] at hb
      omega
    obtain ⟨hten, hallowed, hlow, hhigh, hten'⟩ := hbase
    refine ⟨_, ?_, ofBase_word hlow hhigh hpower hten' hn⟩
    rw [toBase, if_neg hten, if_pos hallowed, Int.toNat_natCast]
  simp only [List.mem_cons, List.not_mem_nil, or_false] at hr
  rcases hr with rfl | rfl | rfl | rfl
  · exact hword (b := 2) (by decide) rfl
  · exact hword (b := 8) (by decide) rfl
  · exact ⟨_, shown_of_lt (natAbs_of_inRange hn), ofBase_ten hn⟩
  · exact hword (b := 16) (by decide) rfl

end BaseLib.Convert

namespace BaseLib.Session

open Library Number

variable {s : Session} {provider : Value} {symbols : NumberSymbols}

theorem exec_textInBase (s : Session) (n r : ℤ) :
    s.exec (Catalogue.call "Convert.ToString" [.int n, .int r]) =
      ((Convert.toBase n r).map .text, s) := by
  have hrun : s.exec (Catalogue.call "Convert.ToString" [.int n, .int r]) =
      s.exec (do pure (.text (← ofExcept (Convert.toBase n r)))) := rfl
  rw [hrun]
  cases Convert.toBase n r <;> rfl

theorem exec_intOfBase (s : Session) (t : List Char) (r : ℤ) :
    s.exec (Catalogue.call "Convert.ToInt32" [.text t, .int r]) =
      (((Convert.ofBase t r).mapError .failure).map .int, s) := by
  have hrun : s.exec (Catalogue.call "Convert.ToInt32" [.text t, .int r]) =
      s.exec (do pure (.int (← ofResult (Convert.ofBase t r)))) := rfl
  rw [hrun]
  cases Convert.ofBase t r <;> rfl

/-- What is written of an integer in base 2, 8, 10 or 16 is read back as the integer. A hexadecimal text has the
digits asked for at least, up to 999 of them, and is read as the integer or as its complement in 32 or 64 bits. -/
theorem radix_round_trips (hsymbols : s.symbolsOf provider = .ok symbols) :
    (∀ n : ℤ, Word.InRange n → ∀ r ∈ [2, 8, 10, 16], ∃ t,
      s.exec (Catalogue.call "Convert.ToString" [.int n, .int r]) = (.ok (.text t), s) ∧
      s.exec (Catalogue.call "Convert.ToInt32" [.text t, .int r]) = (.ok (.int n), s)) ∧
    ∀ n : ℤ, -2 ^ 63 ≤ n → ∀ letter ∈ ['X', 'x'], ∀ p : Nat,
      (p ≤ 999 → ∃ t,
        s.exec (Catalogue.call "format_number" [.int n, .text (letter :: Decimal.digits p), provider]) =
          (.ok (.text t), s) ∧
        p ≤ t.length ∧ (∃ vs, List.Forall₂ HexDigit t vs) ∧
        s.exec (Catalogue.call "NNumber.Parse" [.text t, .flags .numberStyles 515, provider]) =
          (.ok (.int (if 0 ≤ n then n else if -2 ^ 31 ≤ n then n + 2 ^ 32 else n + 2 ^ 64)), s)) ∧
      (999 < p → ∃ cause,
        s.exec (Catalogue.call "format_number" [.int n, .text (letter :: Decimal.digits p), provider]) =
          (.error cause, s)) := by
  constructor
  · intro n hn r hr
    obtain ⟨t, hwritten, hread⟩ := Convert.ofBase_toBase hr hn
    refine ⟨t, ?_, ?_⟩
    · rw [exec_textInBase, hwritten]
      rfl
    · rw [exec_intOfBase, hread]
      rfl
  · intro n hn letter hletter p
    obtain ⟨upper, hkind⟩ : ∃ upper, FormatKind.ofLetter? letter = some (.hex upper) := by
      simp only [List.mem_cons, List.not_mem_nil, or_false] at hletter
      rcases hletter with rfl | rfl
      · exact ⟨true, rfl⟩
      · exact ⟨false, rfl⟩
    have hformat := exec_format hsymbols (.int n) (letter :: Decimal.digits p)
    rw [format_standard rfl hkind, standard_hex] at hformat
    constructor
    · intro hp
      rw [precision_digits hp] at hformat
      obtain ⟨-, vs, hvs, -⟩ := readHex?_iff.mp (readHex?_fillZeros p upper (complement n))
      have hparse := exec_parse_ok (.flags .numberStyles 515) hsymbols (read?_hex p upper (complement n) symbols)
      refine ⟨_, hformat, length_fillZeros _ _, ⟨vs, hvs⟩, ?_⟩
      rw [← complement_eq hn]
      exact hparse
    · intro hp
      obtain ⟨cause, hcause⟩ := precision_wide hp 0
      rw [hcause] at hformat
      exact ⟨cause, hformat⟩

/-- A negative integer in base 16, and one that takes 64 bits. -/
theorem radix_round_trips_negative :
    (∃ t, (start 0).exec (Catalogue.call "Convert.ToString" [.int (-1), .int 16]) = (.ok (.text t), start 0) ∧
      (start 0).exec (Catalogue.call "Convert.ToInt32" [.text t, .int 16]) = (.ok (.int (-1)), start 0)) ∧
    ∃ t, (start 0).exec (Catalogue.call "format_number" [.int (-2147483649), .text "x20".toList, .null]) =
        (.ok (.text t), start 0) ∧
      20 ≤ t.length ∧ (∃ vs, List.Forall₂ HexDigit t vs) ∧
      (start 0).exec (Catalogue.call "NNumber.Parse" [.text t, .flags .numberStyles 515, .null]) =
        (.ok (.int 18446744071562067967), start 0) := by
  have hsymbols : (start 0).symbolsOf .null = .ok NumberSymbols.invariant := rfl
  obtain ⟨hradix, hhex⟩ := radix_round_trips hsymbols
  exact ⟨hradix (-1) (by decide) 16 (by decide),
    (hhex (-2147483649) (by decide) 'x' (by decide) 20).1 (by decide)⟩

/-- A width of a thousand digits is refused. -/
theorem wide_hex_refused :
    (start 0).exec (Catalogue.call "format_number" [.int 1, .text "X1000".toList]) =
      (.error (.failure .badSpecifier), start 0) := by
  have hsymbols : (start 0).symbolsOf .null = .ok NumberSymbols.invariant := rfl
  have hformat := exec_format hsymbols (.int 1) "X1000".toList
  have hrefused : (Number.int 1).format "X1000".toList NumberSymbols.invariant = .error Failure.badSpecifier := by
    decide
  rw [hrefused] at hformat
  exact hformat

end BaseLib.Session
