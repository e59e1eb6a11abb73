import BaseLib.Proofs.Number.RoundTrip
import Mathlib.Data.List.DropRight

namespace BaseLib

open Number
open Text.Composite (Stops dropWhile_append stops_dropWhile)

namespace NumberStyles

variable {a b : NumberStyles}

def Within (a b : NumberStyles) : Prop := a.bits &&& b.bits = a.bits

theorem Within.allows (h : a.Within b) {flag : Nat} (ha : a.allows flag = true) : b.allows flag = true := by
  rw [NumberStyles.allows, bne_iff_ne] at ha ⊢
  intro hb
  refine ha ?_
  rw [← h, Nat.and_assoc, hb, Nat.and_zero]

end NumberStyles

namespace Text

theorem trimStart_trimEnd (p : Char → Bool) (s : List Char) :
    trimStart p (trimEnd p s) = trimEnd p (trimStart p s) := by
  have hsplit : s.takeWhile p ++ s.dropWhile p = s := List.takeWhile_append_dropWhile
  have hstops := stops_dropWhile p s
  have hlead : ∀ c ∈ s.takeWhile p, p c = true := fun c hc => List.mem_takeWhile_imp hc
  rw [trimStart, trimStart]
  generalize s.takeWhile p = lead at hsplit hlead
  generalize s.dropWhile p = rest at hsplit hstops
  subst hsplit
  cases rest with
  | nil =>
      have hnone : trimEnd p (lead ++ []) = [] := by
        rw [List.append_nil]
        exact List.rdropWhile_eq_nil_iff.mpr hlead
      rw [hnone]
      rfl
  | cons c rest =>
      -- the first character that stays ends the trimming from behind
      have hc : p c = false := hstops c rfl
      have hend : (c :: rest).reverse.dropWhile p ≠ [] := by
        rw [ne_eq, List.dropWhile_eq_nil_iff]
        intro hall
        rw [hall c (List.mem_reverse.mpr List.mem_cons_self)] at hc
        cases hc
      have happend : trimEnd p (lead ++ c :: rest) = lead ++ trimEnd p (c :: rest) := by
        rw [trimEnd, trimEnd, List.reverse_append, List.dropWhile_append, if_neg (by simpa using hend),
          List.reverse_append, List.reverse_reverse]
      have hkept : Stops p (trimEnd p (c :: rest)) := by
        obtain ⟨t, ht⟩ := List.rdropWhile_prefix p (l := c :: rest)
        change trimEnd p (c :: rest) ++ t = _ at ht
        cases hempty : trimEnd p (c :: rest) with
        | nil =>
            intro d hd
            cases hd
        | cons d kept =>
            rw [hempty, List.cons_append] at ht
            injection ht with hd
            exact fun e he => by cases he; rwa [hd]
      rw [happend, dropWhile_append hlead hkept]

end Text

namespace Number

variable {a b : NumberStyles} {s text : List Char} {x : Number}

theorem trimBlanks_trimBlanks (h : a.Within b) (s : List Char) :
    trimBlanks (trimBlanks s a) b = trimBlanks s b := by
  have hlead : a.leadingWhite = true → b.leadingWhite = true := h.allows
  have htrail : a.trailingWhite = true → b.trailingWhite = true := h.allows
  have hstart : Text.trimStart isBlank (Text.trimStart isBlank s) = Text.trimStart isBlank s :=
    List.dropWhile_idempotent _ _
  have hend (s : List Char) : Text.trimEnd isBlank (Text.trimEnd isBlank s) = Text.trimEnd isBlank s :=
    List.rdropWhile_idempotent _ _
  have hswap := Text.trimStart_trimEnd isBlank
  unfold trimBlanks
  revert hlead htrail
  cases a.leadingWhite <;> cases b.leadingWhite <;> cases a.trailingWhite <;> cases b.trailingWhite <;>
    simp [hstart, hend, hswap]

theorem readBody?_noBlank (h : readBody? s a = some x) : NoBlank s := by
  obtain ⟨d, hd⟩ | ⟨n, rfl⟩ := readBody?_shape h
  · exact hd.noBlank.1
  · exact n.noBlank

def isPart (c : Char) : Bool := c.isAlphanum || isSign c || c == '.' || c == '∞'

theorem Digits.parts (h : Digits s) : ∀ c ∈ s, isPart c = true := by
  intro c hc
  have hdigit : c.isDigit = true := by
    simpa [Char.isDigit, isAsciiDigit, Char.le_def] using h c hc
  rw [isPart, Char.isAlphanum, hdigit, Bool.or_true]
  rfl

theorem sign_parts {sign : Option Char} (h : ∀ c ∈ sign, isSign c = true) : ∀ c ∈ sign.toList, isPart c = true := by
  intro c hc
  rw [isPart, h c (Option.mem_toList.mp hc), Bool.or_true]
  rfl

theorem Numeral.parts_text (n : Numeral) : ∀ c ∈ n.text, isPart c = true := by
  intro c hc
  rw [Numeral.text, List.mem_append, List.mem_append, List.mem_append] at hc
  rcases hc with hc | hc | hc | hc
  · exact sign_parts n.sign_mem c hc
  · exact n.whole_digits.parts c hc
  · cases hf : n.fraction with
    | none =>
        rw [hf] at hc
        cases hc
    | some ds =>
        rw [hf] at hc
        rcases List.mem_cons.mp hc with rfl | hc
        · decide
        · exact (n.fraction_digits ds hf).parts c hc
  · cases he : n.exponent with
    | none =>
        rw [he] at hc
        cases hc
    | some e =>
        rw [he] at hc
        rcases List.mem_cons.mp hc with rfl | hc
        · rcases e.letter_mem with h | h <;> rw [h] <;> decide
        · rcases List.mem_append.mp hc with hc | hc
          · exact sign_parts e.sign_mem c hc
          · exact e.isDigits.parts c hc

theorem readBody?_parts (h : readBody? s a = some x) : ∀ c ∈ s, isPart c = true := by
  obtain ⟨d, hd⟩ | ⟨n, rfl⟩ := readBody?_shape h
  · have hall : s.all isPart = true := by cases hd <;> decide
    exact List.all_eq_true.mp hall
  · exact n.parts_text

theorem readBody?_mono (hle : a.Within b) (h : readBody? s a = some x) : readBody? s b = some x := by
  obtain ⟨d, hd⟩ | ⟨n, rfl⟩ := readBody?_shape h
  · obtain ⟨hsign, hx⟩ := (readBody?_symbol hd).mp h
    exact (readBody?_symbol hd).mpr ⟨fun hneg => hle.allows (hsign hneg), hx⟩
  · obtain ⟨hpermitted, hx⟩ := (readBody?_numeral n).mp h
    exact (readBody?_numeral n).mpr ⟨⟨fun h => hle.allows (hpermitted.sign h),
      fun h => hle.allows (hpermitted.point h), fun h => hle.allows (hpermitted.exponent h)⟩, hx⟩

def isOutside (c : Char) : Bool := !(c.isAlphanum || isSign c)

/-- The separators are two distinct characters that are no letters, digits or signs. -/
structure Punctuates (symbols : NumberSymbols) (point comma : Char) : Prop where
  decimal : symbols.decimalSeparator.toList = [point]
  group : symbols.groupSeparator.toList = [comma]
  distinct : point ≠ comma
  point_outside : isOutside point = true
  comma_outside : isOutside comma = true

section

variable {symbols : NumberSymbols} {point comma : Char}

theorem bare_append (h : Punctuates symbols point comma) (s t : List Char) (style : NumberStyles) :
    bare (s ++ t) style symbols = bare s style symbols ++ bare t style symbols := by
  simp only [bare_eq h.decimal h.group, List.filter_append, List.map_append]

theorem bare_blanks (h : Punctuates symbols point comma) (hpoint : isBlank point = false)
    (hs : ∀ c ∈ s, isBlank c = true) {style : NumberStyles} (hbare : NoBlank (bare s style symbols)) :
    bare s style symbols = [] := by
  rw [bare_eq h.decimal h.group] at hbare ⊢
  rw [List.map_eq_nil_iff, List.eq_nil_iff_forall_not_mem]
  intro c hc
  have hblank := hs c (List.mem_filter.mp hc).1
  have hne : c ≠ point := by
    rintro rfl
    rw [hblank] at hpoint
    cases hpoint
  have hkept := hbare _ (List.mem_map_of_mem hc)
  rw [if_neg hne, hblank] at hkept
  cases hkept

theorem bare_eq_of_free (h : Punctuates symbols point comma) (hle : a.Within b)
    (hs : comma ∉ bare s a symbols) : bare s b symbols = bare s a symbols := by
  rw [bare_eq h.decimal h.group] at hs
  rw [bare_eq h.decimal h.group, bare_eq h.decimal h.group]
  congr 1
  refine List.filter_congr fun c hc => ?_
  cases ha : a.thousands with
  | true =>
      have hb : b.thousands = true := hle.allows ha
      rw [hb]
  | false =>
      have hne : c ≠ comma := by
        rintro rfl
        refine hs (List.mem_map.mpr ⟨c, List.mem_filter.mpr ⟨hc, ?_⟩, if_neg h.distinct.symm⟩)
        rw [ha]
        rfl
      rw [beq_false_of_ne hne, Bool.and_false, Bool.and_false]

/-- With separators that no number text consists of, a text is read as the same number when more is allowed. -/
theorem read?_mono (h : Punctuates symbols point comma) (hcomma : isPart comma = false)
    (hpoint : isBlank point = false) (hle : a.Within b) (hhex : b.hexSpecifier = false)
    (hread : read? text a symbols = some x) : read? text b symbols = some x := by
  have hhex' : a.hexSpecifier = false := by
    by_contra ha
    have hb : b.hexSpecifier = true := hle.allows (eq_true_of_ne_false ha)
    exact absurd (hb.symm.trans hhex) (by decide)
  rw [read?_body hhex'] at hread
  rw [read?_body hhex, ← trimBlanks_trimBlanks hle]
  obtain ⟨lead, trail, hsplit, hlead, htrail⟩ := trimBlanks_eq (trimBlanks text a) b
  generalize trimBlanks (trimBlanks text a) b = body at hsplit
  have hbody : bare (trimBlanks text a) a symbols = bare body a symbols := by
    have hblank := readBody?_noBlank hread
    rw [hsplit, bare_append h, bare_append h] at hblank
    have hleft : bare lead a symbols = [] :=
      bare_blanks h hpoint hlead.1 fun c hc => hblank c (List.mem_append_left _ hc)
    have hright : bare trail a symbols = [] :=
      bare_blanks h hpoint htrail.1 fun c hc =>
        hblank c (List.mem_append_right _ (List.mem_append_right _ hc))
    rw [hsplit, bare_append h, bare_append h, hleft, hright, List.append_nil, List.nil_append]
  rw [hbody] at hread
  have hfree : comma ∉ bare body a symbols := fun hmem => by
    rw [readBody?_parts hread comma hmem] at hcomma
    cases hcomma
  rw [bare_eq_of_free h hle hfree]
  exact readBody?_mono hle hread

theorem bare_of_free (h : Punctuates symbols point comma) {style : NumberStyles} (hstyle : style.thousands = false)
    (hs : point ∉ s) : bare s style symbols = s := by
  rw [bare_eq h.decimal h.group, hstyle]
  simp only [Bool.false_and, Bool.not_false, List.filter_true]
  refine (List.map_congr_left fun c hc => if_neg ?_).trans (List.map_id s)
  rintro rfl
  exact hs hc

theorem isOutside_ne {c d : Char} (hc : isOutside c = true) (hd : isOutside d = false) : c ≠ d := by
  rintro rfl
  rw [hc] at hd
  cases hd

theorem read?_point_groups (h : Punctuates symbols point '.') :
    read? "1.5".toList ⟨32⟩ symbols = some (.double (.ofRatio false 3 2)) ∧
      read? "1.5".toList ⟨96⟩ symbols = some (.double (.ofRatio false 15 1)) := by
  have hone : point ≠ '1' := isOutside_ne h.point_outside (by decide)
  have hfive : point ≠ '5' := isOutside_ne h.point_outside (by decide)
  have hkept : bare "1.5".toList ⟨32⟩ symbols = "1.5".toList :=
    bare_of_free h (by decide) (by simp [hone, hfive, h.distinct])
  have hgone : bare "1.5".toList ⟨96⟩ symbols = "15".toList := by
    rw [bare_eq h.decimal h.group]
    simp [NumberStyles.thousands, NumberStyles.allows, hone.symm, hfive.symm]
  constructor
  · rw [read?_body (by decide), show trimBlanks "1.5".toList ⟨32⟩ = "1.5".toList by decide, hkept]
    decide +kernel
  · rw [read?_body (by decide), show trimBlanks "1.5".toList ⟨96⟩ = "1.5".toList by decide, hgone]
    decide +kernel

theorem read?_infinity_groups (h : Punctuates symbols point '∞') :
    read? ['∞'] ⟨0⟩ symbols = some (.double (.infinity false)) ∧ read? ['∞'] ⟨64⟩ symbols = none := by
  have hkept : bare ['∞'] ⟨0⟩ symbols = ['∞'] := bare_of_free h rfl (by simpa using h.distinct)
  have hgone : bare ['∞'] ⟨64⟩ symbols = [] := by
    rw [bare_eq h.decimal h.group]
    rfl
  constructor
  · rw [read?_body rfl, show trimBlanks ['∞'] ⟨0⟩ = ['∞'] from rfl, hkept]
    rfl
  · rw [read?_body rfl, show trimBlanks ['∞'] ⟨64⟩ = ['∞'] from rfl, hgone]
    rfl

theorem read?_blank_point (h : Punctuates symbols point comma) (hpoint : isBlank point = true) :
    read? [point, '5'] ⟨32⟩ symbols = some (.double (.ofRatio false 1 2)) ∧
      read? [point, '5'] ⟨33⟩ symbols = some (.double (.ofRatio false 5 1)) := by
  have hfive : point ≠ '5' := isOutside_ne h.point_outside (by decide)
  have hpointed : bare [point, '5'] ⟨32⟩ symbols = ['.', '5'] := by
    rw [bare_eq h.decimal h.group]
    simp [NumberStyles.thousands, NumberStyles.allows, hfive.symm]
  have htrim : trimBlanks [point, '5'] ⟨33⟩ = ['5'] := by
    have hstart : Text.trimStart isBlank [point, '5'] = ['5'] := by
      rw [Text.trimStart, List.dropWhile_cons_of_pos hpoint]
      rfl
    rw [trimBlanks, hstart]
    rfl
  have hkept : bare ['5'] ⟨33⟩ symbols = ['5'] := bare_of_free h (by decide) (by simp [hfive])
  constructor
  · rw [read?_body (by decide), show trimBlanks [point, '5'] ⟨32⟩ = [point, '5'] from rfl, hpointed]
    decide +kernel
  · rw [read?_body (by decide), htrim, hkept]
    decide +kernel

end

end Number

namespace Session

open Library

variable {s : Session} {provider : Value} {symbols : NumberSymbols} {point comma : Char}

/-- Allowing more changes no number if and only if the group separator is neither a point nor the sign for
infinity and the decimal separator is no blank: over all texts and all styles for decimal numbers, and for any
two distinct separators that are no letters, digits or signs. -/
theorem parse_permissive_iff (hsymbols : s.symbolsOf provider = .ok symbols) (h : Punctuates symbols point comma) :
    (∀ (text : List Char) (a b : Nat) (v : Value), a &&& b = a → b &&& 512 = 0 →
      s.exec (Catalogue.call "NNumber.Parse" [.text text, .flags .numberStyles a, provider]) = (.ok v, s) →
      s.exec (Catalogue.call "NNumber.Parse" [.text text, .flags .numberStyles b, provider]) = (.ok v, s)) ↔
    comma ≠ '.' ∧ comma ≠ '∞' ∧ isBlank point = false := by
  have hexec (bits : Nat) (text : List Char) := exec_parse (.flags .numberStyles bits) hsymbols text
  have hread {bits : Nat} {text : List Char} {v : Value} :
      s.exec (Catalogue.call "NNumber.Parse" [.text text, .flags .numberStyles bits, provider]) = (.ok v, s) ↔
        ∃ x, read? text ⟨bits⟩ symbols = some x ∧ x.toValue = v := by
    rw [hexec]
    change _ ↔ ∃ x, read? text (Numbers.styleOf (.flags .numberStyles bits) provider).1 symbols = some x ∧ _
    cases read? text (Numbers.styleOf (.flags .numberStyles bits) provider).1 symbols <;> simp
  simp only [hread]
  constructor
  · intro hmono
    refine ⟨?_, ?_, ?_⟩
    · rintro rfl
      obtain ⟨hpointed, hgrouped⟩ := read?_point_groups h
      obtain ⟨x, hx, hvalue⟩ := hmono _ 32 96 _ rfl rfl ⟨_, hpointed, rfl⟩
      rw [hgrouped] at hx
      cases hx
      exact absurd hvalue (by decide +kernel)
    · rintro rfl
      obtain ⟨hinfinity, hgone⟩ := read?_infinity_groups h
      obtain ⟨x, hx, -⟩ := hmono _ 0 64 _ rfl rfl ⟨_, hinfinity, rfl⟩
      rw [hgone] at hx
      cases hx
    · by_contra hblank
      obtain ⟨hpointed, htrimmed⟩ := read?_blank_point h (eq_true_of_ne_false hblank)
      obtain ⟨x, hx, hvalue⟩ := hmono _ 32 33 _ rfl rfl ⟨_, hpointed, rfl⟩
      rw [htrimmed] at hx
      cases hx
      exact absurd hvalue (by decide +kernel)
  · rintro ⟨hpoint, hinfinity, hblank⟩ text a b v hle hhex ⟨x, hx, rfl⟩
    have hcomma : isPart comma = false := by
      have houtside := h.comma_outside
      rw [isOutside, Bool.not_eq_true'] at houtside
      rw [isPart, houtside, beq_false_of_ne hpoint, beq_false_of_ne hinfinity]
      rfl
    have hdecimal : (⟨b⟩ : NumberStyles).hexSpecifier = false := bne_eq_false_iff_eq.mpr hhex
    exact ⟨x, read?_mono h hcomma hblank hle hdecimal hx, rfl⟩

/-- In the invariant culture allowing more changes no number. -/
theorem parse_permissive_invariant :
    Punctuates NumberSymbols.invariant '.' ',' ∧ ∀ (text : List Char) (a b : Nat) (v : Value),
      a &&& b = a → b &&& 512 = 0 →
      (start 0).exec (Catalogue.call "NNumber.Parse" [.text text, .flags .numberStyles a, .null]) = (.ok v, start 0) →
      (start 0).exec (Catalogue.call "NNumber.Parse" [.text text, .flags .numberStyles b, .null]) = (.ok v, start 0) := by
  have hsymbols : (start 0).symbolsOf .null = .ok NumberSymbols.invariant := rfl
  have hpunctuates : Punctuates NumberSymbols.invariant '.' ',' :=
    ⟨rfl, rfl, by decide, by decide, by decide⟩
  exact ⟨hpunctuates, (parse_permissive_iff hsymbols hpunctuates).mpr ⟨by decide, by decide, by decide⟩⟩

/-- With exchanged separators the usual style reads a point, and with groups allowed the point is gone. -/
theorem groups_change_number :
    exchanged.symbolsOf (.ref 13) = .ok { decimalSeparator := ",", groupSeparator := "." } ∧
      exchanged.exec (Catalogue.call "NNumber.Parse" [.text "1.5".toList, .flags .numberStyles 167, .ref 13]) =
        (.ok (.double (.ofRatio false 3 2)), exchanged) ∧
      exchanged.exec (Catalogue.call "NNumber.Parse" [.text "1.5".toList, .flags .numberStyles 231, .ref 13]) =
        (.ok (.double (.ofRatio false 15 1)), exchanged) := by
  have hsymbols : exchanged.symbolsOf (.ref 13) = .ok { decimalSeparator := ",", groupSeparator := "." } := rfl
  have hpointed : read? "1.5".toList ⟨167⟩ { decimalSeparator := ",", groupSeparator := "." } =
      some (.double (.ofRatio false 3 2)) := by
    decide +kernel
  have hgrouped : read? "1.5".toList ⟨231⟩ { decimalSeparator := ",", groupSeparator := "." } =
      some (.double (.ofRatio false 15 1)) := by
    decide +kernel
  exact ⟨hsymbols, exec_parse_ok (.flags .numberStyles 167) hsymbols hpointed,
    exec_parse_ok (.flags .numberStyles 231) hsymbols hgrouped⟩

end Session

end BaseLib
