import BaseLib.Proofs.Text.Occurrence
import BaseLib.Text.Composite
import Mathlib.Data.List.TakeWhile
import Mathlib.Tactic.ByContra

namespace BaseLib.Text.Composite

section

variable {α : Type} {p : α → Bool} {xs ys xs' ys' : List α}

def Stops (p : α → Bool) (s : List α) : Prop := ∀ c ∈ s.head?, p c = false

theorem Stops.takeWhile (h : Stops p ys) : ys.takeWhile p = [] := by
  cases ys with
  | nil => rfl
  | cons c ys => rw [List.takeWhile_cons, h c rfl, if_neg Bool.false_ne_true]

theorem Stops.dropWhile (h : Stops p ys) : ys.dropWhile p = ys := by
  cases ys with
  | nil => rfl
  | cons c ys => rw [List.dropWhile_cons, h c rfl, if_neg Bool.false_ne_true]

theorem takeWhile_append (hx : ∀ c ∈ xs, p c = true) (hy : Stops p ys) : (xs ++ ys).takeWhile p = xs := by
  rw [List.takeWhile_append_of_pos hx, hy.takeWhile, List.append_nil]

theorem dropWhile_append (hx : ∀ c ∈ xs, p c = true) (hy : Stops p ys) : (xs ++ ys).dropWhile p = ys := by
  rw [List.dropWhile_append_of_pos hx, hy.dropWhile]

theorem stops_dropWhile (p : α → Bool) (s : List α) : Stops p (s.dropWhile p) := by
  intro c hc
  have h := List.head?_dropWhile_not p s
  rw [hc] at h
  exact h

theorem trim_append {p : Char → Bool} {xs ys xs' : List Char} (hx : ∀ c ∈ xs, p c = true) (hy : ∀ c ∈ ys, p c = false) (hx' : ∀ c ∈ xs', p c = true) :
    trim p (xs ++ (ys ++ xs')) = ys := by
  cases ys with
  | nil =>
      have hnone : trimStart p (xs ++ ([] ++ xs')) = [] :=
        List.dropWhile_eq_nil_iff.mpr fun c hc => (List.mem_append.mp hc).elim (hx c) (hx' c)
      rw [trim, hnone]
      rfl
  | cons c ys =>
      have hstart : Stops p (c :: ys ++ xs') := fun d hd => hy d (by cases hd; exact List.mem_cons_self)
      have hend : Stops p (c :: ys).reverse := fun d hd => hy d (List.mem_reverse.mp (List.mem_of_mem_head? hd))
      have htail : ∀ d ∈ xs'.reverse, p d = true := fun d hd => hx' d (List.mem_reverse.mp hd)
      rw [trim, trimStart, dropWhile_append hx hstart, trimEnd, List.reverse_append, dropWhile_append htail hend,
        List.reverse_reverse]

theorem run_inj (hx : ∀ c ∈ xs, p c = true) (hy : Stops p ys) (hx' : ∀ c ∈ xs', p c = true)
    (hy' : Stops p ys') (h : xs ++ ys = xs' ++ ys') : xs = xs' ∧ ys = ys' :=
  ⟨by rw [← takeWhile_append hx hy, h, takeWhile_append hx' hy'],
    by rw [← dropWhile_append hx hy, h, dropWhile_append hx' hy']⟩

end

def Blank (s : List Nat) : Prop := ∀ c ∈ s, isSpace c = true

def Numeral (s : List Char) : Prop := s ≠ [] ∧ ∀ c ∈ s, isDecimal c.toNat = true

def Width.text (w : Width) : List Nat := (if w.negative then [minus] else []) ++ codesOf w.digits

@[ext]
structure Alignment where
  before : List Nat
  width : Width
  after : List Nat
  blank_before : Blank before
  numeral : Numeral width.digits
  blank_after : Blank after

def Alignment.text (a : Alignment) : List Nat := comma :: (a.before ++ (a.width.text ++ a.after))

@[ext]
structure Item where
  before : List Nat
  index : List Char
  after : List Nat
  alignment : Option Alignment
  format : Option (List Nat)
  blank_before : Blank before
  numeral : Numeral index
  blank_after : Blank after
  closed : ∀ t ∈ format, rightBrace ∉ t

def formatText : Option (List Nat) → List Nat
  | none => []
  | some t => colon :: t

namespace Item

def inside (i : Item) : List Nat :=
  i.before ++ (codesOf i.index ++ (i.after ++ ((i.alignment.map Alignment.text).getD [] ++ formatText i.format)))

def text (i : Item) : List Nat := leftBrace :: (i.inside ++ [rightBrace])

def piece (i : Item) : Piece :=
  .item i.index (i.alignment.map Alignment.width) (i.format.getD [])

end Item

/-- A part of a format: the code of a character that is no brace, a doubled brace or an item. -/
inductive Part
  | code (c : Nat) (h : c ≠ leftBrace ∧ c ≠ rightBrace)
  | opening
  | closing
  | item (i : Item)

namespace Part

def text : Part → List Nat
  | code c _ => [c]
  | opening => [leftBrace, leftBrace]
  | closing => [rightBrace, rightBrace]
  | item i => i.text

def piece : Part → Piece
  | code c _ => .literal c
  | opening => .literal leftBrace
  | closing => .literal rightBrace
  | item i => i.piece

end Part

theorem spaces_apart : ∀ r ∈ ClassTable.space, ∀ z ∈ ClassTable.zeros, r.last < z ∨ z + 10 ≤ r.first := by
  decide

theorem isDecimal_of_isSpace {n : Nat} (h : isSpace n = true) : isDecimal n = false := by
  unfold isSpace at h
  unfold isDecimal digitValue?
  by_cases hn : n < 128
  · simp only [if_pos hn, Bool.or_eq_true, Bool.and_eq_true, beq_iff_eq, decide_eq_true_eq] at h ⊢
    rw [if_neg (by omega)]
    rfl
  · rw [if_neg hn] at h ⊢
    obtain ⟨r, hr, hmem⟩ := List.any_eq_true.mp h
    simp only [Run.mem, Bool.and_eq_true, decide_eq_true_eq] at hmem
    have hnone : (ClassTable.zeros.find? fun z => z ≤ n && n < z + 10) = none := by
      rw [List.find?_eq_none]
      intro z hz
      have := spaces_apart r hr z hz
      simp only [Bool.and_eq_true, decide_eq_true_eq]
      omega
    rw [hnone]
    rfl

theorem zeros_scalar : ∀ z ∈ ClassTable.zeros, z + 10 ≤ 0xD800 ∨ 0xDFFF < z ∧ z + 10 ≤ 0x110000 := by
  decide

theorem isScalar_of_isDecimal {n : Nat} (h : isDecimal n = true) : isScalar n = true := by
  simp only [isScalar, Bool.or_eq_true, Bool.and_eq_true, decide_eq_true_eq]
  by_cases hn : n < 128
  · omega
  · rw [isDecimal, digitValue?, if_neg hn, Option.isSome_map] at h
    obtain ⟨z, hz⟩ := Option.isSome_iff_exists.mp h
    have hrange := List.find?_some hz
    have hscalar := zeros_scalar z (List.mem_of_find?_eq_some hz)
    simp only [Bool.and_eq_true, decide_eq_true_eq] at hrange
    omega

theorem Numeral.stops {s : List Char} {r : List Nat} (h : Numeral s) : Stops isSpace (codesOf s ++ r) := by
  obtain ⟨hne, hall⟩ := h
  cases s with
  | nil => exact absurd rfl hne
  | cons c s =>
      intro d hd
      cases hd
      by_contra hs
      have hspace := isDecimal_of_isSpace (by simpa using hs)
      rw [hall c List.mem_cons_self] at hspace
      cases hspace

theorem Blank.stops {s r : List Nat} (h : Blank s) (hr : Stops isDecimal r) :
    Stops isDecimal (s ++ r) := by
  cases s with
  | nil => exact hr
  | cons c s =>
      intro d hd
      cases hd
      exact isDecimal_of_isSpace (h c List.mem_cons_self)

theorem takeSpace_append {b r : List Nat} (hb : Blank b) (hr : Stops isSpace r) :
    takeSpace (b ++ r) = r :=
  dropWhile_append hb hr

theorem Numeral.codes {n : List Char} (hn : Numeral n) : ∀ c ∈ codesOf n, isDecimal c = true := by
  intro c hc
  obtain ⟨k, hk, rfl⟩ := List.mem_map.mp hc
  exact hn.2 k hk

theorem takeNumeral?_append {n : List Char} {r : List Nat} (hn : Numeral n) (hr : Stops isDecimal r) :
    takeNumeral? (codesOf n ++ r) = some (n, r) := by
  have hne : (codesOf n).isEmpty = false := by simpa [codesOf] using hn.1
  simp only [takeNumeral?, takeWhile_append hn.codes hr, dropWhile_append hn.codes hr, hne, charsOf_codesOf]
  rfl

theorem takeWidth?_append {w : Width} {r : List Nat} (hw : Numeral w.digits)
    (hr : Stops isDecimal r) : takeWidth? (w.text ++ r) = some (w, r) := by
  obtain ⟨negative, digits⟩ := w
  have htake := takeNumeral?_append hw hr
  cases negative with
  | true =>
      show (takeNumeral? (codesOf digits ++ r)).map _ = _
      rw [htake]
      rfl
  | false =>
      obtain ⟨hne, hall⟩ := hw
      cases digits with
      | nil => exact absurd rfl hne
      | cons c digits =>
          have hc : c.toNat ≠ minus := by
            intro hc
            have hdecimal := hall c List.mem_cons_self
            rw [hc] at hdecimal
            cases hdecimal
          show takeWidth? (c.toNat :: (codesOf digits ++ r)) = _
          rw [takeWidth?]
          · exact (congrArg _ htake).trans rfl
          · intro d hd
            exact hc (List.cons.inj hd).1

theorem Width.stops {w : Width} {r : List Nat} (hw : Numeral w.digits) :
    Stops isSpace (w.text ++ r) := by
  obtain ⟨negative, digits⟩ := w
  cases negative with
  | true => exact fun c hc => by cases hc; rfl
  | false => exact Numeral.stops hw

theorem stops_formatText {p : Nat → Bool} (hcolon : p colon = false) (f : Option (List Nat)) :
    Stops p (formatText f) := by
  cases f with
  | none => exact fun c hc => by cases hc
  | some t => exact fun c hc => by cases hc; exact hcolon

theorem stops_tail {p : Nat → Bool} (hcomma : p comma = false) (hcolon : p colon = false)
    (a : Option Alignment) (f : Option (List Nat)) :
    Stops p ((a.map Alignment.text).getD [] ++ formatText f) := by
  cases a with
  | none => exact stops_formatText hcolon f
  | some a => exact fun c hc => by cases hc; exact hcomma

theorem itemEnd?_formatText (index : List Char) (w : Option Width) (f : Option (List Nat)) :
    itemEnd? index w (formatText f) = some (.item index w (f.getD [])) := by
  cases f <;> rfl

theorem readItem?_inside (i : Item) : readItem? i.inside = some i.piece := by
  obtain ⟨before, index, after, alignment, format, hbefore, hindex, hafter, -⟩ := i
  have hspace := stops_tail (p := isSpace) rfl rfl alignment format
  have hdecimal := stops_tail (p := isDecimal) rfl rfl alignment format
  rw [readItem?, Item.inside, takeSpace_append hbefore hindex.stops,
    takeNumeral?_append hindex (hafter.stops hdecimal)]
  simp only [Option.bind_eq_bind, Option.bind_some, takeSpace_append hafter hspace, Item.piece]
  cases alignment with
  | none => cases format <;> rfl
  | some a =>
      have hend := stops_formatText (p := isSpace) rfl format
      have hdigits := stops_formatText (p := isDecimal) rfl format
      simp only [Option.map_some, Option.getD_some, Alignment.text, List.cons_append, List.append_assoc,
        takeSpace_append a.blank_before (Width.stops a.numeral),
        takeWidth?_append a.numeral (a.blank_after.stops hdigits), Option.bind_some,
        takeSpace_append a.blank_after hend, itemEnd?_formatText]

theorem takeSpace_eq (s : List Nat) :
    ∃ b, Blank b ∧ s = b ++ takeSpace s ∧ Stops isSpace (takeSpace s) :=
  ⟨s.takeWhile isSpace, fun _ hc => List.mem_takeWhile_imp hc,
    List.takeWhile_append_dropWhile.symm, stops_dropWhile _ s⟩

theorem takeNumeral?_eq {s r : List Nat} {n : List Char} (h : takeNumeral? s = some (n, r)) :
    Numeral n ∧ s = codesOf n ++ r := by
  unfold takeNumeral? at h
  dsimp only at h
  split at h
  · cases h
  · rename_i hne
    cases h
    have hrun : ∀ c ∈ s.takeWhile isDecimal, isDecimal c = true := fun _ hc => List.mem_takeWhile_imp hc
    have hcodes : codesOf (charsOf (s.takeWhile isDecimal)) = s.takeWhile isDecimal :=
      codesOf_charsOf (List.all_eq_true.mpr fun c hc => isScalar_of_isDecimal (hrun c hc))
    refine ⟨⟨?_, fun c hc => ?_⟩, ?_⟩
    · simpa [charsOf] using hne
    · exact hrun _ (hcodes ▸ List.mem_map_of_mem hc)
    · rw [hcodes, List.takeWhile_append_dropWhile]

theorem takeWidth?_eq {s r : List Nat} {w : Width} (h : takeWidth? s = some (w, r)) :
    Numeral w.digits ∧ s = w.text ++ r := by
  unfold takeWidth? at h
  split at h
  · obtain ⟨⟨n, rest⟩, hn, heq⟩ := Option.map_eq_some_iff.mp h
    cases heq
    obtain ⟨hnumeral, rfl⟩ := takeNumeral?_eq hn
    exact ⟨hnumeral, rfl⟩
  · obtain ⟨⟨n, rest⟩, hn, heq⟩ := Option.map_eq_some_iff.mp h
    cases heq
    obtain ⟨hnumeral, rfl⟩ := takeNumeral?_eq hn
    exact ⟨hnumeral, rfl⟩

theorem itemEnd?_eq {index : List Char} {s : List Nat} {w : Option Width} {p : Piece}
    (h : itemEnd? index w s = some p) : ∃ f, s = formatText f ∧ p = .item index w (f.getD []) := by
  unfold itemEnd? at h
  split at h
  · cases h
    exact ⟨none, rfl, rfl⟩
  · rename_i f
    cases h
    exact ⟨some f, rfl, rfl⟩
  · cases h

theorem readItem?_eq {s : List Nat} {p : Piece} (h : readItem? s = some p) (hs : rightBrace ∉ s) :
    ∃ i : Item, s = i.inside ∧ p = i.piece := by
  obtain ⟨before, hbefore, hsplit, -⟩ := takeSpace_eq s
  rw [readItem?] at h
  cases hn : takeNumeral? (takeSpace s) with
  | none =>
      rw [hn] at h
      cases h
  | some nr =>
      obtain ⟨index, rest⟩ := nr
      rw [hn] at h
      obtain ⟨hindex, hrest⟩ := takeNumeral?_eq hn
      obtain ⟨after, hafter, hsplit', -⟩ := takeSpace_eq rest
      simp only [Option.bind_eq_bind, Option.bind_some] at h
      split at h
      · rename_i tail htail
        obtain ⟨⟨w, last⟩, hw, h⟩ := Option.bind_eq_some_iff.mp h
        obtain ⟨f, hf, rfl⟩ := itemEnd?_eq h
        obtain ⟨hnumeral, hlast⟩ := takeWidth?_eq hw
        obtain ⟨b, hb, hblank, -⟩ := takeSpace_eq tail
        obtain ⟨b', hb', hblank', -⟩ := takeSpace_eq last
        have hinside : s = before ++ (codesOf index ++ (after ++
            (Alignment.text ⟨b, w, b', hb, hnumeral, hb'⟩ ++ formatText f))) := by
          rw [hsplit, hrest, hsplit', htail, hblank, hlast, hblank', hf]
          simp [Alignment.text]
        refine ⟨⟨before, index, after, some ⟨b, w, b', hb, hnumeral, hb'⟩, f, hbefore, hindex, hafter, ?_⟩,
          hinside, rfl⟩
        rintro t rfl ht
        exact hs (by simp [hinside, formatText, ht])
      · obtain ⟨f, hf, rfl⟩ := itemEnd?_eq h
        have hinside : s = before ++ (codesOf index ++ (after ++ formatText f)) := by
          rw [hsplit, hrest, hsplit', hf]
        refine ⟨⟨before, index, after, none, f, hbefore, hindex, hafter, ?_⟩, hinside, rfl⟩
        rintro t rfl ht
        exact hs (by simp [hinside, formatText, ht])

theorem Blank.closed {s : List Nat} (h : Blank s) : rightBrace ∉ s := fun hc => by
  cases h _ hc

theorem Numeral.closed {s : List Char} (h : Numeral s) : rightBrace ∉ codesOf s := fun hc => by
  cases h.codes _ hc

theorem Alignment.text_closed (a : Alignment) : rightBrace ∉ a.text := by
  have hbefore := a.blank_before.closed
  have hnumeral := a.numeral.closed
  have hafter := a.blank_after.closed
  unfold Alignment.text Width.text
  cases a.width.negative <;> simp_all [rightBrace, comma, minus]

theorem Item.inside_closed (i : Item) : rightBrace ∉ i.inside := by
  have hbefore := i.blank_before.closed
  have hnumeral := i.numeral.closed
  have hafter := i.blank_after.closed
  have halign : rightBrace ∉ (i.alignment.map Alignment.text).getD [] := by
    cases i.alignment with
    | none => simp
    | some a => exact a.text_closed
  have hformat : rightBrace ∉ formatText i.format := by
    have hclosed := i.closed
    cases hf : i.format with
    | none => simp [formatText]
    | some t => simpa [formatText, rightBrace, colon] using hclosed t hf
  unfold Item.inside
  simp [hbefore, hnumeral, hafter, halign, hformat]

theorem formatText_inj {f g : Option (List Nat)} (h : formatText f = formatText g) : f = g := by
  cases f <;> cases g <;> simp_all [formatText]

theorem Width.text_inj {w v : Width} {r q : List Nat} (hw : Numeral w.digits) (hv : Numeral v.digits)
    (hr : Stops isDecimal r) (hq : Stops isDecimal q)
    (h : w.text ++ r = v.text ++ q) : w = v ∧ r = q := by
  have hread := takeWidth?_append hw hr
  rw [h, takeWidth?_append hv hq] at hread
  cases hread
  exact ⟨rfl, rfl⟩

theorem Alignment.text_inj {a b : Alignment} {f g : Option (List Nat)}
    (h : a.text ++ formatText f = b.text ++ formatText g) : a = b ∧ f = g := by
  have hspace {f} := stops_formatText (p := isSpace) rfl f
  have hdigits {f} := stops_formatText (p := isDecimal) rfl f
  simp only [Alignment.text, List.cons_append, List.append_assoc, List.cons.injEq, true_and] at h
  obtain ⟨hbefore, h⟩ := run_inj a.blank_before (Width.stops a.numeral) b.blank_before
    (Width.stops b.numeral) h
  obtain ⟨hwidth, h⟩ := Width.text_inj a.numeral b.numeral (a.blank_after.stops hdigits)
    (b.blank_after.stops hdigits) h
  obtain ⟨hafter, h⟩ := run_inj a.blank_after hspace b.blank_after hspace h
  exact ⟨Alignment.ext hbefore hwidth hafter, formatText_inj h⟩

theorem tail_inj {a b : Option Alignment} {f g : Option (List Nat)}
    (h : (a.map Alignment.text).getD [] ++ formatText f = (b.map Alignment.text).getD [] ++ formatText g) :
    a = b ∧ f = g := by
  cases a with
  | none =>
      cases b with
      | none => exact ⟨rfl, formatText_inj h⟩
      | some b => cases f <;> simp [formatText, Alignment.text, comma, colon] at h
  | some a =>
      cases b with
      | none => cases g <;> simp [formatText, Alignment.text, comma, colon] at h
      | some b =>
          obtain ⟨rfl, rfl⟩ := Alignment.text_inj h
          exact ⟨rfl, rfl⟩

theorem Item.inside_inj {i j : Item} (h : i.inside = j.inside) : i = j := by
  have hspace {a f} := stops_tail (p := isSpace) rfl rfl a f
  have hdigits {a f} := stops_tail (p := isDecimal) rfl rfl a f
  obtain ⟨hbefore, h⟩ := run_inj i.blank_before i.numeral.stops j.blank_before j.numeral.stops h
  obtain ⟨hindex, h⟩ := run_inj i.numeral.codes (i.blank_after.stops hdigits) j.numeral.codes
    (j.blank_after.stops hdigits) h
  obtain ⟨hafter, h⟩ := run_inj i.blank_after hspace j.blank_after hspace h
  obtain ⟨halign, hformat⟩ := tail_inj h
  exact Item.ext hbefore (codesOf_inj.mp hindex) hafter halign hformat

variable {xs r : List Nat}

theorem piecesAfter_drop (skip : Nat) (s : List Nat) : piecesAfter skip s = pieces (s.drop skip) := by
  induction skip generalizing s with
  | zero => rfl
  | succ skip ih =>
      cases s with
      | nil => rfl
      | cons c s => rw [piecesAfter, ih, List.drop_succ_cons]

theorem pieces_item (h : rightBrace ∉ xs) (hopen : (xs ++ rightBrace :: r).head? ≠ some leftBrace) :
    pieces (leftBrace :: (xs ++ rightBrace :: r)) =
      match readItem? xs with
      | some p => p :: pieces r
      | none => [.malformed] := by
  have hskip : piecesAfter (xs.length + 1) (xs ++ rightBrace :: r) = pieces r := by
    simp [piecesAfter_drop]
  have hclosed : (xs ++ rightBrace :: r).contains rightBrace = true := by simp
  have hinside : (xs ++ rightBrace :: r).takeWhile (· != rightBrace) = xs :=
    takeWhile_append (fun c hc => bne_iff_ne.mpr (ne_of_mem_of_not_mem hc h)) fun c hc => by cases hc; rfl
  rw [pieces, piecesAfter]
  · rw [if_pos hclosed, hinside]
    dsimp only
    cases readItem? xs with
    | none => rfl
    | some p => exact congrArg (p :: ·) hskip
  · intro tail htail
    rw [htail] at hopen
    exact hopen rfl

theorem Item.inside_head (i : Item) (s : List Nat) : (i.inside ++ s).head? ≠ some leftBrace := by
  obtain ⟨before, index, after, alignment, format, hbefore, ⟨hne, hindex⟩, -⟩ := i
  cases before with
  | cons c before =>
      intro hc
      cases hc
      cases hbefore leftBrace List.mem_cons_self
  | nil =>
      cases index with
      | nil => exact absurd rfl hne
      | cons c index =>
          intro hc
          have hdecimal := hindex c List.mem_cons_self
          rw [show c.toNat = leftBrace from Option.some.inj hc] at hdecimal
          cases hdecimal

theorem text_item (i : Item) (r : List Nat) :
    (Part.item i).text ++ r = leftBrace :: (i.inside ++ rightBrace :: r) := by
  simp [Part.text, Item.text]

theorem pieces_text (p : Part) (r : List Nat) : pieces (p.text ++ r) = p.piece :: pieces r := by
  cases p with
  | code c h =>
      show piecesAfter 0 (c :: r) = _
      rw [piecesAfter]
      · rfl
      · exact h.2
      · exact h.1
  | opening | closing => rfl
  | item i =>
      rw [text_item, pieces_item i.inside_closed (i.inside_head _), readItem?_inside]
      rfl

def Stuck (s : List Nat) : Prop := s ≠ [] ∧ ∀ p : Part, ¬ p.text <+: s

theorem pieces_unclosed {s : List Nat} (h : rightBrace ∉ s) (hopen : s.head? ≠ some leftBrace) :
    pieces (leftBrace :: s) = [.malformed] := by
  rw [pieces, piecesAfter]
  · rw [if_neg (by simpa using h)]
  · rintro tail rfl
    exact hopen rfl

theorem pieces_stuck {s : List Nat} (h : Stuck s) : pieces s = [.malformed] := by
  obtain ⟨hne, hstuck⟩ := h
  cases s with
  | nil => exact absurd rfl hne
  | cons c s =>
      by_cases hclosing : c = rightBrace
      · subst hclosing
        rw [pieces, piecesAfter]
        rintro tail rfl
        exact hstuck .closing ⟨tail, rfl⟩
      by_cases hopening : c = leftBrace
      · subst hopening
        have hopen : s.head? ≠ some leftBrace := by
          intro hs
          obtain ⟨tail, rfl⟩ := List.head?_eq_some_iff.mp hs
          exact hstuck .opening ⟨tail, rfl⟩
        by_cases hclosed : rightBrace ∈ s
        · obtain ⟨xs, r, rfl, hxs⟩ := List.eq_append_cons_of_mem hclosed
          rw [pieces_item hxs hopen]
          cases hread : readItem? xs with
          | none => rfl
          | some p =>
              obtain ⟨i, rfl, -⟩ := readItem?_eq hread hxs
              exact absurd ⟨r, text_item i r⟩ (hstuck (.item i))
        · exact pieces_unclosed hclosed hopen
      · exact absurd ⟨s, rfl⟩ (hstuck (.code c ⟨hopening, hclosing⟩))

theorem pieces_parts (ps : List Part) (r : List Nat) :
    pieces (ps.flatMap Part.text ++ r) = ps.map Part.piece ++ pieces r := by
  induction ps with
  | nil => rfl
  | cons p ps ih => rw [List.flatMap_cons, List.append_assoc, pieces_text, ih]; rfl

theorem Part.piece_ne_malformed (p : Part) : p.piece ≠ .malformed := by
  cases p <;> simp [Part.piece, Item.piece]

theorem Part.text_ne_nil (p : Part) : p.text ≠ [] := by
  cases p <;> simp [Part.text, Item.text]

theorem exists_parts (s : List Nat) :
    ∃ (ps : List Part) (r : List Nat), s = ps.flatMap Part.text ++ r ∧ (r = [] ∨ Stuck r) := by
  by_cases hs : s = [] ∨ Stuck s
  · exact ⟨[], s, rfl, hs⟩
  · obtain ⟨hne, hstuck⟩ := not_or.mp hs
    obtain ⟨p, r, rfl⟩ : ∃ p : Part, p.text <+: s := by
      simpa [Stuck, hne] using hstuck
    have hlt : r.length < (p.text ++ r).length := by
      have := List.length_pos_iff.mpr p.text_ne_nil
      rw [List.length_append]
      omega
    obtain ⟨ps, r', rfl, hr⟩ := exists_parts r
    exact ⟨p :: ps, r', by rw [List.flatMap_cons, List.append_assoc], hr⟩
termination_by s.length

theorem text_item_ne (i : Item) (r r' : List Nat) :
    (Part.item i).text ++ r ≠ leftBrace :: leftBrace :: r' := by
  rw [text_item]
  intro h
  have hhead := i.inside_head (rightBrace :: r)
  rw [List.tail_eq_of_cons_eq h] at hhead
  exact hhead rfl

theorem Item.inside_append_inj {i j : Item} {r r' : List Nat}
    (h : i.inside ++ rightBrace :: r = j.inside ++ rightBrace :: r') : i = j ∧ r = r' := by
  have hclosed (i : Item) : ∀ c ∈ i.inside, (c != rightBrace) = true := by
    intro c hc
    rw [bne_iff_ne]
    rintro rfl
    exact i.inside_closed hc
  have hstops (r : List Nat) : Stops (· != rightBrace) (rightBrace :: r) := fun c hc => by cases hc; rfl
  obtain ⟨hinside, hr⟩ := run_inj (hclosed i) (hstops r) (hclosed j) (hstops r') h
  exact ⟨inside_inj hinside, List.tail_eq_of_cons_eq hr⟩

theorem Part.text_inj {p q : Part} {r r' : List Nat} (h : p.text ++ r = q.text ++ r') :
    p = q ∧ r = r' := by
  cases p with
  | code c hc =>
      cases q with
      | code d hd =>
          obtain ⟨rfl, rfl⟩ := List.cons.inj h
          exact ⟨rfl, rfl⟩
      | opening | item => exact absurd (List.head_eq_of_cons_eq h) hc.1
      | closing => exact absurd (List.head_eq_of_cons_eq h) hc.2
  | opening =>
      cases q with
      | code d hd => exact absurd (List.head_eq_of_cons_eq h).symm hd.1
      | opening => exact ⟨rfl, by simpa [Part.text] using h⟩
      | closing => cases List.head_eq_of_cons_eq h
      | item j => exact absurd h.symm (text_item_ne j r' r)
  | closing =>
      cases q with
      | code d hd => exact absurd (List.head_eq_of_cons_eq h).symm hd.2
      | closing => exact ⟨rfl, by simpa [Part.text] using h⟩
      | opening | item => cases List.head_eq_of_cons_eq h
  | item i =>
      cases q with
      | item j =>
          rw [text_item, text_item] at h
          obtain ⟨rfl, rfl⟩ := Item.inside_append_inj (List.tail_eq_of_cons_eq h)
          exact ⟨rfl, rfl⟩
      | code d hd => exact absurd (List.head_eq_of_cons_eq h).symm hd.1
      | opening => exact absurd h (text_item_ne i r r')
      | closing => cases List.head_eq_of_cons_eq h

theorem parts_inj {ps qs : List Part} (h : ps.flatMap Part.text = qs.flatMap Part.text) : ps = qs := by
  induction ps generalizing qs with
  | nil =>
      cases qs with
      | nil => rfl
      | cons q qs => exact absurd h.symm (by simp [q.text_ne_nil])
  | cons p ps ih =>
      cases qs with
      | nil => exact absurd h (by simp [p.text_ne_nil])
      | cons q qs =>
          rw [List.flatMap_cons, List.flatMap_cons] at h
          obtain ⟨hpart, htail⟩ := Part.text_inj h
          rw [hpart, ih htail]

end BaseLib.Text.Composite
