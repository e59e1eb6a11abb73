import BaseLib.Library.Catalogue
import BaseLib.Proofs.Number.Numeral
import BaseLib.Proofs.Session.Exec
import BaseLib.Proofs.Text.Occurrence
import Mathlib.Data.List.Forall2
import Mathlib.Data.Nat.Digits.Defs

namespace BaseLib.Number

open Text.Composite (Stops takeWhile_append dropWhile_append stops_dropWhile)

/-- A hexadecimal digit, of either case, and its value. -/
inductive HexDigit : Char → Nat → Prop
  | decimal {v : Nat} (h : v < 10) : HexDigit (Char.ofNat (48 + v)) v
  | lower {v : Nat} (h : v < 6) : HexDigit (Char.ofNat (97 + v)) (10 + v)
  | upper {v : Nat} (h : v < 6) : HexDigit (Char.ofNat (65 + v)) (10 + v)

theorem ofNat_offset {c : Char} {base : Nat} (h : base ≤ c.toNat) :
    Char.ofNat (base + (c.toNat - base)) = c := by
  rw [Nat.add_sub_cancel' h, Char.ofNat_toNat]

theorem HexDigit.sound {c : Char} {v : Nat} (h : hexValue? c = some v) : HexDigit c v := by
  simp only [hexValue?, Bool.and_eq_true, decide_eq_true_eq, Char.le_def, UInt32.le_iff_toNat_le] at h
  split at h
  · rename_i hc
    obtain ⟨hlow, hhigh⟩ : 48 ≤ c.toNat ∧ c.toNat ≤ 57 := hc
    have hdigit := HexDigit.decimal (v := c.toNat - 48) (by omega)
    rwa [ofNat_offset hlow, Option.some.inj h] at hdigit
  · split at h
    · rename_i hc
      obtain ⟨hlow, hhigh⟩ : 97 ≤ c.toNat ∧ c.toNat ≤ 102 := hc
      have hdigit := HexDigit.lower (v := c.toNat - 97) (by omega)
      have hv : 10 + (c.toNat - 97) = c.toNat - 87 := by omega
      rwa [ofNat_offset hlow, hv, Option.some.inj h] at hdigit
    · split at h
      · rename_i hc
        obtain ⟨hlow, hhigh⟩ : 65 ≤ c.toNat ∧ c.toNat ≤ 70 := hc
        have hdigit := HexDigit.upper (v := c.toNat - 65) (by omega)
        have hv : 10 + (c.toNat - 65) = c.toNat - 55 := by omega
        rwa [ofNat_offset hlow, hv, Option.some.inj h] at hdigit
      · cases h

theorem hexValue?_iff {c : Char} {v : Nat} : hexValue? c = some v ↔ HexDigit c v := by
  refine ⟨HexDigit.sound, fun h => ?_⟩
  cases h with
  | decimal h => exact (by decide : ∀ v < 10, hexValue? (Char.ofNat (48 + v)) = some v) _ h
  | lower h => exact (by decide : ∀ v < 6, hexValue? (Char.ofNat (97 + v)) = some (10 + v)) _ h
  | upper h => exact (by decide : ∀ v < 6, hexValue? (Char.ofNat (65 + v)) = some (10 + v)) _ h

theorem foldlM_hex_iff {s : List Char} {a n : Nat} :
    s.foldlM (fun n c => (hexValue? c).map (16 * n + ·)) a = some n ↔
      ∃ vs, List.Forall₂ HexDigit s vs ∧ n = vs.foldl (fun n v => 16 * n + v) a := by
  induction s generalizing a with
  | nil => simp [List.foldlM_nil, eq_comm]
  | cons c s ih =>
      rw [List.foldlM_cons]
      constructor
      · intro h
        obtain ⟨b, hb, h⟩ := Option.bind_eq_some_iff.mp h
        obtain ⟨v, hv, rfl⟩ := Option.map_eq_some_iff.mp hb
        obtain ⟨vs, hvs, rfl⟩ := ih.mp h
        exact ⟨v :: vs, .cons (hexValue?_iff.mp hv) hvs, rfl⟩
      · rintro ⟨vs, hvs, rfl⟩
        cases hvs with
        | cons hv hvs =>
            rw [hexValue?_iff.mpr hv]
            exact ih.mpr ⟨_, hvs, rfl⟩

theorem ofDigits_reverse (vs : List Nat) :
    Nat.ofDigits 16 vs.reverse = vs.foldl (fun n v => 16 * n + v) 0 := by
  rw [Nat.ofDigits_eq_foldr, List.foldr_reverse]
  simp only [Nat.cast_id, add_comm]

theorem readHex?_iff {s : List Char} {n : Nat} :
    readHex? s = some n ↔ s ≠ [] ∧ ∃ vs, List.Forall₂ HexDigit s vs ∧ n = Nat.ofDigits 16 vs.reverse := by
  cases s with
  | nil => simp [readHex?]
  | cons c s =>
      simp only [ofDigits_reverse, ← foldlM_hex_iff, ne_eq, reduceCtorEq, not_false_eq_true, true_and]
      rfl

inductive SymbolText : List Char → Double → Prop
  | nan : SymbolText "NaN".toList Double.nan
  | infinity : SymbolText "Infinity".toList (Double.infinity false)
  | infinitySign : SymbolText "∞".toList (Double.infinity false)
  | negativeInfinity : SymbolText "-Infinity".toList (Double.infinity true)
  | negativeInfinitySign : SymbolText "-∞".toList (Double.infinity true)

theorem symbol?_iff {s : List Char} {d : Double} : symbol? s = some d ↔ SymbolText s d := by
  constructor
  · intro h
    unfold symbol? at h
    split at h
    · rename_i hs
      cases h
      exact hs ▸ .nan
    · split at h
      · rename_i hs
        cases h
        rcases hs with rfl | rfl
        · exact .infinity
        · exact .infinitySign
      · split at h
        · rename_i hs
          cases h
          rcases hs with rfl | rfl
          · exact .negativeInfinity
          · exact .negativeInfinitySign
        · cases h
  · intro h
    cases h <;> rfl

theorem readParts?_symbol {s : List Char} {d : Double} (h : SymbolText s d) : readParts? s = none := by
  cases h <;> rfl

theorem symbol?_numeral (n : Numeral) : symbol? n.text = none := by
  cases h : symbol? n.text with
  | none => rfl
  | some d =>
      have hread := readParts?_text n
      rw [readParts?_symbol (symbol?_iff.mp h)] at hread
      cases hread

/-- The body of a number text, without group separators where the style allows them. -/
def ungrouped (style : NumberStyles) (body : List Char) : List Char :=
  if style.thousands then body.filter (· ≠ ',') else body

inductive Denotes (style : NumberStyles) (body : List Char) : Number → Prop
  | hexadecimal {vs : List Nat} (hex : style.hexSpecifier = true) (ne : body ≠ [])
      (digits : List.Forall₂ HexDigit body vs) : Denotes style body (.int (Nat.ofDigits 16 vs.reverse : Nat))
  | symbol {d : Double} (hex : style.hexSpecifier = false) (symbol : SymbolText (ungrouped style body) d)
      (sign : d.neg = true → style.leadingSign = true) : Denotes style body (.double d)
  | numeral {d : Double} (hex : style.hexSpecifier = false) (n : Numeral)
      (text : ungrouped style body = n.text) (permitted : n.Permitted style)
      (nearest : Double.IsNearest n.value d) (sign : d.neg = n.negative) : Denotes style body (.double d)

def Blanks (allowed : Bool) (s : List Char) : Prop :=
  (∀ c ∈ s, isBlank c = true) ∧ (s ≠ [] → allowed = true)

/-- A number text: a body between allowed blanks. -/
def Accepts (style : NumberStyles) (text : List Char) (x : Number) : Prop :=
  ∃ lead body trail, text = lead ++ (body ++ trail) ∧ Blanks style.leadingWhite lead ∧
    Blanks style.trailingWhite trail ∧ Denotes style body x

section

variable {style : NumberStyles} {s body : List Char} {x : Number}

def NoBlank (s : List Char) : Prop := ∀ c ∈ s, isBlank c = false

theorem not_blank {c : Char} (h : 32 < c.toNat) : isBlank c = false := by
  rw [← Bool.not_eq_true, isBlank, Bool.or_eq_true, beq_iff_eq, Bool.and_eq_true, decide_eq_true_eq,
    decide_eq_true_eq]
  rintro (rfl | ⟨-, hc⟩)
  · exact absurd h (by decide)
  · have hc : c.toNat ≤ 13 := hc
    omega

theorem HexDigit.not_blank {c : Char} {v : Nat} (h : HexDigit c v) : isBlank c = false := by
  cases h with
  | decimal h => exact (by decide : ∀ v < 10, isBlank (Char.ofNat (48 + v)) = false) _ h
  | lower h => exact (by decide : ∀ v < 6, isBlank (Char.ofNat (97 + v)) = false) _ h
  | upper h => exact (by decide : ∀ v < 6, isBlank (Char.ofNat (65 + v)) = false) _ h

theorem SymbolText.noBlank {d : Double} (h : SymbolText s d) : NoBlank s ∧ s ≠ [] := by
  have hall : (s.all fun c => !isBlank c) = true ∧ s ≠ [] := by
    cases h <;> decide
  exact ⟨fun c hc => by simpa using List.all_eq_true.mp hall.1 c hc, hall.2⟩

theorem Digits.noBlank (h : Digits s) : NoBlank s := by
  intro c hc
  have hdigit := h c hc
  rw [isAsciiDigit, Bool.and_eq_true, decide_eq_true_eq, decide_eq_true_eq] at hdigit
  have hlow : 48 ≤ c.toNat := hdigit.1
  exact not_blank (by omega)

theorem NoBlank.append {t : List Char} (hs : NoBlank s) (ht : NoBlank t) : NoBlank (s ++ t) := by
  intro c hc
  rcases List.mem_append.mp hc with h | h
  · exact hs c h
  · exact ht c h

theorem NoBlank.cons {c : Char} (hc : isBlank c = false) (hs : NoBlank s) : NoBlank (c :: s) :=
  List.forall_mem_cons.mpr ⟨hc, hs⟩

theorem noBlank_nil : NoBlank [] := List.forall_mem_nil _

theorem noBlank_sign {sign : Option Char} (h : ∀ c ∈ sign, isSign c = true) : NoBlank sign.toList := by
  cases sign with
  | none => exact noBlank_nil
  | some c =>
      refine noBlank_nil.cons ?_
      rcases isSign_eq (h c rfl) with rfl | rfl <;> rfl

theorem Numeral.noBlank (n : Numeral) : NoBlank n.text := by
  refine (noBlank_sign n.sign_mem).append (n.whole_digits.noBlank.append (NoBlank.append ?_ ?_))
  · cases hf : n.fraction with
    | none => exact noBlank_nil
    | some ds => exact (n.fraction_digits ds hf).noBlank.cons rfl
  · cases n.exponent with
    | none => exact noBlank_nil
    | some e =>
        refine ((noBlank_sign e.sign_mem).append e.isDigits.noBlank).cons ?_
        rcases e.letter_mem with h | h <;> rw [h] <;> rfl

theorem Numeral.text_ne (n : Numeral) : n.text ≠ [] := by
  intro h
  simp only [Numeral.text, List.append_eq_nil_iff] at h
  rcases n.some_digit with hd | hd
  · exact hd h.2.1
  · cases hf : n.fraction with
    | none => exact hd (by rw [hf]; rfl)
    | some ds =>
        rw [hf] at h
        cases h.2.2.1

theorem NoBlank.of_ungrouped (h : NoBlank (ungrouped style s)) : NoBlank s := by
  unfold ungrouped at h
  split at h
  · intro c hc
    by_cases hcomma : c = ','
    · rw [hcomma]
      rfl
    · exact h c (List.mem_filter.mpr ⟨hc, decide_eq_true hcomma⟩)
  · exact h

theorem ne_of_ungrouped (h : ungrouped style s ≠ []) : s ≠ [] := by
  rintro rfl
  unfold ungrouped at h
  split at h <;> exact h rfl

theorem Denotes.noBlank (h : Denotes style body x) : NoBlank body ∧ body ≠ [] := by
  cases h with
  | hexadecimal hex ne digits =>
      refine ⟨?_, ne⟩
      clear ne
      induction digits with
      | nil => exact noBlank_nil
      | cons hv _ ih => exact ih.cons hv.not_blank
  | symbol hex symbol sign =>
      exact ⟨symbol.noBlank.1.of_ungrouped, ne_of_ungrouped symbol.noBlank.2⟩
  | numeral hex n text permitted nearest sign =>
      exact ⟨NoBlank.of_ungrouped (text ▸ n.noBlank), ne_of_ungrouped (text ▸ n.text_ne)⟩

theorem Blanks.eq_nil {allowed : Bool} (h : Blanks allowed s) (ha : ¬allowed = true) : s = [] :=
  not_not.mp fun hs => ha (h.2 hs)

theorem NoBlank.stops (h : NoBlank s) (hne : s ≠ []) (r : List Char) : Stops isBlank (s ++ r) := by
  cases s with
  | nil => exact absurd rfl hne
  | cons c s => exact fun d hd => by cases hd; exact h c List.mem_cons_self

theorem trimBlanks_append {lead trail : List Char} (hlead : Blanks style.leadingWhite lead)
    (htrail : Blanks style.trailingWhite trail) (hbody : NoBlank body) (hne : body ≠ []) :
    trimBlanks (lead ++ (body ++ trail)) style = body := by
  have hstart : (if style.leadingWhite then Text.trimStart isBlank (lead ++ (body ++ trail))
      else lead ++ (body ++ trail)) = body ++ trail := by
    split
    · exact dropWhile_append hlead.1 (hbody.stops hne trail)
    · rename_i hallowed
      rw [hlead.eq_nil hallowed, List.nil_append]
  have hreverse : NoBlank body.reverse := fun c hc => hbody c (List.mem_reverse.mp hc)
  rw [trimBlanks, hstart]
  split
  · have hrun : ∀ c ∈ trail.reverse, isBlank c = true := fun c hc => htrail.1 c (List.mem_reverse.mp hc)
    have hstops := hreverse.stops (mt List.reverse_eq_nil_iff.mp hne) []
    rw [Text.trimEnd, List.reverse_append, dropWhile_append hrun (List.append_nil body.reverse ▸ hstops),
      List.reverse_reverse]
  · rename_i hallowed
    rw [htrail.eq_nil hallowed, List.append_nil]

theorem trimBlanks_of_stops (hstart : Stops isBlank s) (hend : Stops isBlank s.reverse) :
    trimBlanks s style = s := by
  have htrim : Text.trimStart isBlank s = s := hstart.dropWhile
  have htrim' : Text.trimEnd isBlank s = s := by
    rw [Text.trimEnd, hend.dropWhile, List.reverse_reverse]
  rw [trimBlanks, htrim, ite_self, htrim', ite_self]

theorem blanks_nil (allowed : Bool) : Blanks allowed [] := ⟨List.forall_mem_nil _, absurd rfl⟩

theorem trimStart_eq (s : List Char) (allowed : Bool) :
    ∃ lead, s = lead ++ (if allowed then Text.trimStart isBlank s else s) ∧ Blanks allowed lead := by
  cases allowed with
  | false => exact ⟨[], rfl, blanks_nil _⟩
  | true =>
      exact ⟨s.takeWhile isBlank, List.takeWhile_append_dropWhile.symm,
        fun _ hc => List.mem_takeWhile_imp hc, fun _ => rfl⟩

theorem trimEnd_eq (s : List Char) (allowed : Bool) :
    ∃ trail, s = (if allowed then Text.trimEnd isBlank s else s) ++ trail ∧ Blanks allowed trail := by
  cases allowed with
  | false => exact ⟨[], (List.append_nil s).symm, blanks_nil _⟩
  | true =>
      refine ⟨(s.reverse.takeWhile isBlank).reverse, ?_, fun c hc => ?_, fun _ => rfl⟩
      · rw [if_pos rfl, Text.trimEnd, ← List.reverse_append, List.takeWhile_append_dropWhile,
          List.reverse_reverse]
      · exact List.mem_takeWhile_imp (List.mem_reverse.mp hc)

theorem trimBlanks_eq (s : List Char) (style : NumberStyles) :
    ∃ lead trail, s = lead ++ (trimBlanks s style ++ trail) ∧ Blanks style.leadingWhite lead ∧
      Blanks style.trailingWhite trail := by
  obtain ⟨lead, hs, hlead⟩ := trimStart_eq s style.leadingWhite
  obtain ⟨trail, ht, htrail⟩ :=
    trimEnd_eq (if style.leadingWhite then Text.trimStart isBlank s else s) style.trailingWhite
  refine ⟨lead, trail, ?_, hlead, htrail⟩
  rw [trimBlanks, ← ht]
  exact hs

theorem accepts_iff : Accepts style s x ↔ Denotes style (trimBlanks s style) x := by
  constructor
  · rintro ⟨lead, body, trail, rfl, hlead, htrail, h⟩
    rwa [trimBlanks_append hlead htrail h.noBlank.1 h.noBlank.2]
  · intro h
    obtain ⟨lead, trail, hs, hlead, htrail⟩ := trimBlanks_eq s style
    exact ⟨lead, _, trail, hs, hlead, htrail, h⟩

theorem bare_invariant (s : List Char) (style : NumberStyles) :
    bare s style NumberSymbols.invariant = ungrouped style s := by
  have hbare : bare s style NumberSymbols.invariant =
      if style.thousands then Text.replace [','] [] s else s := rfl
  rw [hbare, Text.replace_singleton_nil, ungrouped]

/-- With separators of one character each, the group separators are left out where they are allowed and the
decimal separator is written as a point. -/
theorem bare_eq {symbols : NumberSymbols} {point comma : Char} (hdecimal : symbols.decimalSeparator.toList = [point])
    (hgroup : symbols.groupSeparator.toList = [comma]) (s : List Char) (style : NumberStyles) :
    bare s style symbols =
      (s.filter fun c => !(style.thousands && c == comma)).map fun c => if c = point then '.' else c := by
  have hgroups : (if style.thousands then Text.replace [comma] [] s else s) =
      s.filter fun c => !(style.thousands && c == comma) := by
    cases style.thousands with
    | false => exact (List.filter_eq_self.mpr fun _ _ => rfl).symm
    | true =>
        refine (if_pos rfl).trans ((Text.replace_singleton_nil comma s).trans ?_)
        exact List.filter_congr fun c _ => by simp [Bool.beq_eq_decide_eq]
  have hpoint (t : List Char) : (if symbols.decimalSeparator = "." then t else Text.replace [point] ['.'] t) =
      t.map fun c => if c = point then '.' else c := by
    split
    · rename_i hsame
      rw [← String.toList_inj, hdecimal] at hsame
      injection hsame with hsame
      refine ((List.map_congr_left fun c _ => ?_).trans (List.map_id t)).symm
      split
      · rename_i hc
        exact (hc.trans hsame).symm
      · rfl
    · exact Text.replace_singleton_singleton point '.' t
  rw [bare, hgroup, hdecimal]
  exact (hpoint _).trans (congrArg _ hgroups)

def readBody? (s : List Char) (style : NumberStyles) : Option Number :=
  match symbol? s with
  | some d => if d.neg && !style.leadingSign then none else some (.double d)
  | none => do
    let p ← readParts? s
    if p.hasDigit && p.permitted style then some (.double (Double.ofDecimal p.toDecimal)) else none

theorem readBody?_symbol {d : Double} (h : SymbolText s d) :
    readBody? s style = some x ↔ (d.neg = true → style.leadingSign = true) ∧ x = .double d := by
  have hrefused : (d.neg && !style.leadingSign) = true ↔ ¬(d.neg = true → style.leadingSign = true) := by
    cases d.neg <;> cases style.leadingSign <;> decide
  rw [readBody?, symbol?_iff.mpr h]
  dsimp only
  split
  · rename_i hsign
    exact ⟨fun h => (nomatch h), fun h => absurd h.1 (hrefused.mp hsign)⟩
  · rename_i hsign
    exact ⟨fun h => ⟨not_not.mp (mt hrefused.mpr hsign), (Option.some.inj h).symm⟩, fun h => h.2 ▸ rfl⟩

theorem readBody?_numeral (n : Numeral) :
    readBody? n.text style = some x ↔ n.Permitted style ∧ x = .double (Double.ofDecimal n.parts.toDecimal) := by
  rw [readBody?, symbol?_numeral, ← permitted_iff]
  dsimp only
  rw [readParts?_text, Option.bind_eq_bind, Option.bind_some, hasDigit_parts, Bool.true_and]
  cases n.parts.permitted style <;> simp [eq_comm]

theorem readBody?_shape (h : readBody? s style = some x) :
    (∃ d, SymbolText s d) ∨ ∃ n : Numeral, s = n.text := by
  unfold readBody? at h
  split at h
  · rename_i d hd
    exact .inl ⟨d, symbol?_iff.mp hd⟩
  · obtain ⟨p, hp, h⟩ := Option.bind_eq_some_iff.mp h
    split at h
    · rename_i hparts
      obtain ⟨n, hn, -⟩ := readParts?_iff.mp ⟨hp, (Bool.and_eq_true_iff.mp hparts).1⟩
      exact .inr ⟨n, hn⟩
    · cases h

theorem readBody?_iff (hex : style.hexSpecifier = false) :
    readBody? (ungrouped style s) style = some x ↔ Denotes style s x := by
  constructor
  · intro h
    rcases readBody?_shape h with ⟨d, hd⟩ | ⟨n, hn⟩
    · obtain ⟨hsign, rfl⟩ := (readBody?_symbol hd).mp h
      exact .symbol hex hd hsign
    · rw [hn] at h
      obtain ⟨hpermitted, rfl⟩ := (readBody?_numeral n).mp h
      exact .numeral hex n hn hpermitted (ofDecimal_parts n).1 (ofDecimal_parts n).2
  · intro h
    cases h with
    | hexadecimal hex' => cases hex.symm.trans hex'
    | symbol _ symbol sign => exact (readBody?_symbol symbol).mpr ⟨sign, rfl⟩
    | numeral _ n text permitted nearest sign =>
        rw [text, readBody?_numeral]
        obtain ⟨hnearest, hsign⟩ := ofDecimal_parts n
        exact ⟨permitted, congrArg _ (nearest.unique hnearest (sign.trans hsign.symm))⟩

theorem read?_body (hex : style.hexSpecifier = false) (symbols : NumberSymbols) :
    read? s style symbols = readBody? (bare (trimBlanks s style) style symbols) style := by
  rw [read?, hex]
  rfl

theorem read?_iff : read? s style NumberSymbols.invariant = some x ↔ Accepts style s x := by
  rw [accepts_iff]
  cases hex : style.hexSpecifier with
  | true =>
      rw [read?, hex]
      generalize trimBlanks s style = body
      dsimp only
      rw [if_pos rfl, Option.map_eq_some_iff]
      constructor
      · rintro ⟨n, hn, rfl⟩
        obtain ⟨m, hm, hmn⟩ := Option.bind_eq_some_iff.mp hn
        obtain rfl : (m : Int) = n := Option.some.inj hmn
        obtain ⟨hne, vs, hvs, rfl⟩ := readHex?_iff.mp hm
        exact .hexadecimal hex hne hvs
      · intro h
        cases h with
        | hexadecimal _ ne digits =>
            rw [readHex?_iff.mpr ⟨ne, _, digits, rfl⟩]
            exact ⟨_, rfl, rfl⟩
        | symbol hex' => cases hex.symm.trans hex'
        | numeral hex' => cases hex.symm.trans hex'
  | false =>
      rw [read?_body hex, bare_invariant]
      exact readBody?_iff hex

end

end BaseLib.Number

namespace BaseLib.Session

open Library Number

variable {s : Session} {provider : Value} {symbols : NumberSymbols}

theorem exec_parse (style : Value) (h : s.symbolsOf (Numbers.styleOf style provider).2 = .ok symbols) (t : List Char) :
    s.exec (Catalogue.call "NNumber.Parse" [.text t, style, provider]) =
      match read? t (Numbers.styleOf style provider).1 symbols with
      | some x => (.ok x.toValue, s)
      | none => (.error (.failure (.badNumber (String.ofList t))), s) := by
  have hrun : s.exec (Numbers.parseNumber (.text t) style provider) =
      s.exec (do
        let symbols ← ofExcept (s.symbolsOf (Numbers.styleOf style provider).2)
        pure (← ofResult (parse t (Numbers.styleOf style provider).1 symbols)).toValue) := rfl
  have hsymbols := exec_ofExcept s (s.symbolsOf (Numbers.styleOf style provider).2)
  rw [h] at hsymbols
  refine Eq.trans (b := s.exec (Numbers.parseNumber (.text t) style provider)) rfl ?_
  rw [hrun, h, exec_bind_ok hsymbols, parse]
  cases read? t (Numbers.styleOf style provider).1 symbols <;> rfl

theorem exec_parse_ok (style : Value) {t : List Char} {x : Number}
    (h : s.symbolsOf (Numbers.styleOf style provider).2 = .ok symbols)
    (hread : read? t (Numbers.styleOf style provider).1 symbols = some x) :
    s.exec (Catalogue.call "NNumber.Parse" [.text t, style, provider]) = (.ok x.toValue, s) := by
  rw [exec_parse style h, hread]

/-- In the invariant culture the texts that parse under a style are those of its language, each with what
it denotes, and every other text is reported as one of bad format. -/
theorem parse_language (h : s.symbolsOf provider = .ok NumberSymbols.invariant) (bits : Nat)
    (text : List Char) :
    (∀ v, s.exec (Catalogue.call "NNumber.Parse" [.text text, .flags .numberStyles bits, provider]) =
        (.ok v, s) ↔ ∃ x, Accepts ⟨bits⟩ text x ∧ v = x.toValue) ∧
      ((¬∃ x, Accepts ⟨bits⟩ text x) → ∃ f : Failure,
        s.exec (Catalogue.call "NNumber.Parse" [.text text, .flags .numberStyles bits, provider]) =
          (.error (.failure f), s) ∧ f.kind = .format) := by
  have hexec := exec_parse (.flags .numberStyles bits) h text
  change _ = match read? text ⟨bits⟩ NumberSymbols.invariant with | some x => _ | none => _ at hexec
  simp only [hexec, ← read?_iff]
  cases hread : read? text ⟨bits⟩ NumberSymbols.invariant with
  | none =>
      refine ⟨fun v => ⟨fun h => (nomatch congrArg Prod.fst h), fun ⟨x, hx, _⟩ => (nomatch hx)⟩, fun _ => ?_⟩
      exact ⟨_, rfl, rfl⟩
  | some x =>
      refine ⟨fun v => ⟨fun h => ?_, fun ⟨y, hy, hv⟩ => ?_⟩, fun h => absurd ⟨x, rfl⟩ h⟩
      · exact ⟨x, rfl, (Except.ok.inj (congrArg Prod.fst h)).symm⟩
      · rw [hv, Option.some.inj hy]

/-- Two hexadecimal digits after a blank. -/
theorem parse_language_hex :
    (start 0).symbolsOf .null = .ok NumberSymbols.invariant ∧
      (start 0).exec (Catalogue.call "NNumber.Parse" [.text " fF".toList, .flags .numberStyles 515, .null]) =
        (.ok (.int 255), start 0) := by
  have hdigits : List.Forall₂ HexDigit ['f', 'F'] [15, 15] :=
    .cons (.lower (v := 5) (by decide)) (.cons (.upper (v := 5) (by decide)) .nil)
  have haccepts : Accepts ⟨515⟩ " fF".toList (.int 255) :=
    ⟨[' '], ['f', 'F'], [], rfl, ⟨List.forall_mem_singleton.mpr rfl, fun _ => rfl⟩, blanks_nil _,
      .hexadecimal rfl (by decide) hdigits⟩
  exact ⟨rfl, ((parse_language rfl 515 _).1 _).mpr ⟨_, haccepts, rfl⟩⟩

end BaseLib.Session
