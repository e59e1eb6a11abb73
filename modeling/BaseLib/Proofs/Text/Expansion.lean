import BaseLib.Library.Catalogue
import BaseLib.Proofs.Session.Exec
import BaseLib.Proofs.Text.Composite

namespace BaseLib.Text.Composite

variable {α : Type} (render : α → List Nat → Except Fault (List Nat)) (args : List α)

def Reads (digits : List Char) (n : Nat) : Prop :=
  digits.length ≤ longestNumeral ∧ decimalValue? digits = some n

theorem readNumeral_long {digits : List Char} (h : longestNumeral < digits.length) :
    readNumeral digits = .error (.misuse .badValue) :=
  if_pos h

theorem readNumeral_reads {digits : List Char} {n : Nat} (h : Reads digits n) :
    readNumeral digits = .ok n := by
  rw [readNumeral, if_neg (Nat.not_lt.mpr h.1), h.2]

theorem exists_value {s : List Char} (h : ∀ c ∈ s, isDecimal c.toNat = true) (n : Nat) :
    ∃ m, s.foldlM (fun n c => (digitValue? c.toNat).map (10 * n + ·)) n = some m := by
  induction s generalizing n with
  | nil => exact ⟨n, rfl⟩
  | cons c s ih =>
      obtain ⟨d, hd⟩ := Option.isSome_iff_exists.mp (h c List.mem_cons_self)
      obtain ⟨m, hm⟩ := ih (fun x hx => h x (List.mem_cons_of_mem c hx)) (10 * n + d)
      exact ⟨m, by rw [List.foldlM_cons, hd]; exact hm⟩

theorem long_or_reads {digits : List Char} (h : Numeral digits) :
    longestNumeral < digits.length ∨ ∃ n, Reads digits n := by
  by_cases hlong : longestNumeral < digits.length
  · exact .inl hlong
  · obtain ⟨n, hn⟩ := exists_value h.2 0
    exact .inr ⟨n, Nat.not_lt.mp hlong, hn⟩

/-- A text filled up with spaces to a width: on the left, or on the right for a negative width. -/
def filled (w : Width) (n : Nat) (t : List Nat) : List Nat :=
  let spaces := List.replicate (n - t.length) ' '.toNat
  if w.negative then t ++ spaces else spaces ++ t

theorem pad_eq (w : Width) (n : Nat) (t : List Nat) :
    pad (if w.negative then -(n : Int) else n) t = filled w n t := by
  unfold pad filled
  cases w.negative with
  | false => rw [if_neg Bool.false_ne_true, if_neg (by omega), if_neg Bool.false_ne_true, Int.natAbs_natCast]
  | true =>
      cases n with
      | zero => simp
      | succ n => rw [if_pos rfl, if_pos (by omega), if_pos rfl, Int.natAbs_neg, Int.natAbs_natCast]

theorem padTo_long {w : Width} (h : longestNumeral < w.digits.length) (t : List Nat) :
    padTo (some w) t = .error (.misuse .badValue) := by
  have hread : w.read = .error (.misuse .badValue) := by
    rw [Width.read, readNumeral_long h]
    rfl
  rw [padTo, hread]
  rfl

theorem read_reads {w : Width} {n : Nat} (h : Reads w.digits n) :
    w.read = if widest < n then .error (.misuse .tooLarge)
      else .ok (if w.negative then -(n : Int) else n) := by
  rw [Width.read, readNumeral_reads h]
  rfl

theorem padTo_wide {w : Width} {n : Nat} (h : Reads w.digits n) (hn : widest < n) (t : List Nat) :
    padTo (some w) t = .error (.misuse .tooLarge) := by
  rw [padTo, read_reads h, if_pos hn]
  rfl

theorem padTo_filled {w : Width} {n : Nat} (h : Reads w.digits n) (hn : n ≤ widest) (t : List Nat) :
    padTo (some w) t = .ok (filled w n t) := by
  rw [padTo, read_reads h, if_neg (Nat.not_lt.mpr hn), ← pad_eq]
  rfl

/-- What an item gives: its argument as it is rendered, filled up to its width. -/
inductive Item.Yields (i : Item) : Except Fault (List Nat) → Prop
  | longIndex (h : longestNumeral < i.index.length) : Yields i (.error (.misuse .badValue))
  | noArgument {n : Nat} (hn : Reads i.index n) (h : args.length ≤ n) :
      Yields i (.error (.failure .missingArgument))
  | unrendered {n : Nat} {a : α} {e : Fault} (hn : Reads i.index n) (ha : args[n]? = some a)
      (he : render a (i.format.getD []) = .error e) : Yields i (.error e)
  | rendered {n : Nat} {a : α} {t : List Nat} (hn : Reads i.index n) (ha : args[n]? = some a)
      (ht : render a (i.format.getD []) = .ok t) (hw : i.alignment = none) : Yields i (.ok t)
  | longWidth {n : Nat} {a : α} {t : List Nat} {w : Alignment} (hn : Reads i.index n)
      (ha : args[n]? = some a) (ht : render a (i.format.getD []) = .ok t) (hw : i.alignment = some w)
      (h : longestNumeral < w.width.digits.length) : Yields i (.error (.misuse .badValue))
  | tooWide {n m : Nat} {a : α} {t : List Nat} {w : Alignment} (hn : Reads i.index n)
      (ha : args[n]? = some a) (ht : render a (i.format.getD []) = .ok t) (hw : i.alignment = some w)
      (hm : Reads w.width.digits m) (h : widest < m) : Yields i (.error (.misuse .tooLarge))
  | aligned {n m : Nat} {a : α} {t : List Nat} {w : Alignment} (hn : Reads i.index n)
      (ha : args[n]? = some a) (ht : render a (i.format.getD []) = .ok t) (hw : i.alignment = some w)
      (hm : Reads w.width.digits m) (h : m ≤ widest) : Yields i (.ok (filled w.width m t))

def Part.Yields : Part → Except Fault (List Nat) → Prop
  | code c _, r => r = .ok [c]
  | opening, r => r = .ok [leftBrace]
  | closing, r => r = .ok [rightBrace]
  | item i, r => i.Yields render args r

theorem Item.exists_yields (i : Item) : ∃ r, i.Yields render args r := by
  obtain hlong | ⟨n, hn⟩ := long_or_reads i.numeral
  · exact ⟨_, .longIndex hlong⟩
  cases ha : args[n]? with
  | none => exact ⟨_, .noArgument hn (List.getElem?_eq_none_iff.mp ha)⟩
  | some a =>
      cases ht : render a (i.format.getD []) with
      | error e => exact ⟨_, .unrendered hn ha ht⟩
      | ok t =>
          cases hw : i.alignment with
          | none => exact ⟨_, .rendered hn ha ht hw⟩
          | some w =>
              obtain hlong | ⟨m, hm⟩ := long_or_reads w.numeral
              · exact ⟨_, .longWidth hn ha ht hw hlong⟩
              by_cases h : widest < m
              · exact ⟨_, .tooWide hn ha ht hw hm h⟩
              · exact ⟨_, .aligned hn ha ht hw hm (Nat.not_lt.mp h)⟩

variable {render args}

theorem expandItem_reads {index : List Char} {n : Nat} (hn : Reads index n) (w : Option Width)
    (f : List Nat) :
    expandItem render args index w f =
      args[n]?.elim (.error (.failure .missingArgument)) fun a => (render a f).bind (padTo w) := by
  rw [expandItem, readNumeral_reads hn]
  simp only [bind, Except.bind]
  cases args[n]? <;> rfl

theorem Item.Yields.eq {i : Item} {r : Except Fault (List Nat)} (h : i.Yields render args r) :
    expandItem render args i.index (i.alignment.map Alignment.width) (i.format.getD []) = r := by
  cases h with
  | longIndex h =>
      rw [expandItem, readNumeral_long h]
      rfl
  | noArgument hn h => rw [expandItem_reads hn, List.getElem?_eq_none h, Option.elim_none]
  | unrendered hn ha he =>
      rw [expandItem_reads hn, ha, Option.elim_some, he]
      rfl
  | rendered hn ha ht hw =>
      rw [expandItem_reads hn, ha, Option.elim_some, ht, hw]
      rfl
  | longWidth hn ha ht hw h =>
      rw [expandItem_reads hn, ha, Option.elim_some, ht, hw]
      exact padTo_long h _
  | tooWide hn ha ht hw hm h =>
      rw [expandItem_reads hn, ha, Option.elim_some, ht, hw]
      exact padTo_wide hm h _
  | aligned hn ha ht hw hm h =>
      rw [expandItem_reads hn, ha, Option.elim_some, ht, hw]
      exact padTo_filled hm h _

theorem expand_piece {p : Part} {r : Except Fault (List Nat)} (h : p.Yields render args r)
    (rest : List Piece) :
    expand render args (p.piece :: rest) = r.bind fun t => (expand render args rest).map (t ++ ·) := by
  have hmap (t : List Nat) : (do pure (t ++ (← expand render args rest))) =
      (expand render args rest).map (t ++ ·) := by cases expand render args rest <;> rfl
  cases p with
  | code c hc =>
      obtain rfl := h
      exact hmap [c]
  | opening =>
      obtain rfl := h
      exact hmap [leftBrace]
  | closing =>
      obtain rfl := h
      exact hmap [rightBrace]
  | item i =>
      show (expandItem render args i.index _ _).bind _ = _
      rw [Item.Yields.eq h]
      exact congrArg _ (funext hmap)

variable (render args)

def Expands (f t : List Nat) : Prop :=
  ∃ ps ts, f = ps.flatMap Part.text ∧ List.Forall₂ (fun p t => Part.Yields render args p (.ok t)) ps ts ∧
    t = ts.flatten

/-- The format comes to a place where no part is, or to a part that gives no text. -/
def Refuses (f : List Nat) (e : Fault) : Prop :=
  ∃ ps ts r, f = ps.flatMap Part.text ++ r ∧
    List.Forall₂ (fun p t => Part.Yields render args p (.ok t)) ps ts ∧
    (Stuck r ∧ e = .failure .badComposite ∨ ∃ p r', r = Part.text p ++ r' ∧ p.Yields render args (.error e))

variable {render args}

theorem expand_parts {ps : List Part} {ts : List (List Nat)}
    (h : List.Forall₂ (fun p t => Part.Yields render args p (.ok t)) ps ts) (r : List Nat) :
    expand render args (pieces (ps.flatMap Part.text ++ r)) =
      (expand render args (pieces r)).map (ts.flatten ++ ·) := by
  induction h with
  | nil =>
      show expand render args (pieces r) = _
      cases expand render args (pieces r) <;> rfl
  | cons hp _ ih =>
      rw [List.flatMap_cons, List.append_assoc, pieces_text, expand_piece hp, ih]
      cases expand render args (pieces r) with
      | error e => rfl
      | ok u => exact congrArg Except.ok (List.append_assoc _ _ _).symm

theorem Expands.eq {f t : List Nat} (h : Expands render args f t) :
    expand render args (pieces f) = .ok t := by
  obtain ⟨ps, ts, rfl, hts, rfl⟩ := h
  have heq := expand_parts hts []
  rw [List.append_nil] at heq
  rw [heq]
  exact congrArg Except.ok (List.append_nil _)

theorem Refuses.eq {f : List Nat} {e : Fault} (h : Refuses render args f e) :
    expand render args (pieces f) = .error e := by
  obtain ⟨ps, ts, r, rfl, hts, ⟨hstuck, rfl⟩ | ⟨p, r', rfl, hp⟩⟩ := h
  · rw [expand_parts hts, pieces_stuck hstuck]
    rfl
  · rw [expand_parts hts, pieces_text, expand_piece hp]
    rfl

variable (render args) in
theorem Part.exists_yields (p : Part) : ∃ r, p.Yields render args r := by
  cases p with
  | item i => exact i.exists_yields render args
  | _ => exact ⟨_, rfl⟩

variable (render args) in
theorem texts_or_error (ps : List Part) :
    (∃ ts, List.Forall₂ (fun p t => Part.Yields render args p (.ok t)) ps ts) ∨
      ∃ qs ts p rs e, ps = qs ++ p :: rs ∧
        List.Forall₂ (fun p t => Part.Yields render args p (.ok t)) qs ts ∧
        p.Yields render args (.error e) := by
  induction ps with
  | nil => exact .inl ⟨[], .nil⟩
  | cons p ps ih =>
      obtain ⟨e | t, hp⟩ := p.exists_yields render args
      · exact .inr ⟨[], [], p, ps, e, rfl, .nil, hp⟩
      · obtain ⟨ts, hts⟩ | ⟨qs, ts, q, rs, e, rfl, hts, hq⟩ := ih
        · exact .inl ⟨t :: ts, .cons hp hts⟩
        · exact .inr ⟨p :: qs, t :: ts, q, rs, e, rfl, .cons hp hts, hq⟩

variable (render args) in
theorem expands_or_refuses (f : List Nat) :
    (∃ t, Expands render args f t) ∨ ∃ e, Refuses render args f e := by
  obtain ⟨ps, r, rfl, hr⟩ := exists_parts f
  obtain ⟨ts, hts⟩ | ⟨qs, ts, p, rs, e, rfl, hts, hp⟩ := texts_or_error render args ps
  · obtain rfl | hstuck := hr
    · exact .inl ⟨_, ps, ts, List.append_nil _, hts, rfl⟩
    · exact .inr ⟨_, ps, ts, r, rfl, hts, .inl ⟨hstuck, rfl⟩⟩
  · refine .inr ⟨e, qs, ts, _, ?_, hts, .inr ⟨p, rs.flatMap Part.text ++ r, rfl, hp⟩⟩
    rw [List.flatMap_append, List.flatMap_cons, List.append_assoc, List.append_assoc]

theorem expand_ok_iff {f t : List Nat} : expand render args (pieces f) = .ok t ↔ Expands render args f t := by
  refine ⟨fun h => ?_, Expands.eq⟩
  obtain ⟨u, hu⟩ | ⟨e, he⟩ := expands_or_refuses render args f
  · cases h.symm.trans hu.eq
    exact hu
  · cases h.symm.trans he.eq

theorem expand_error_iff {f : List Nat} {e : Fault} :
    expand render args (pieces f) = .error e ↔ Refuses render args f e := by
  refine ⟨fun h => ?_, Refuses.eq⟩
  obtain ⟨u, hu⟩ | ⟨e', he⟩ := expands_or_refuses render args f
  · cases h.symm.trans hu.eq
  · cases h.symm.trans he.eq
    exact he

theorem Expands.append {f g t u : List Nat} (hf : Expands render args f t) (hg : Expands render args g u) :
    Expands render args (f ++ g) (t ++ u) := by
  obtain ⟨ps, ts, rfl, hts, rfl⟩ := hf
  obtain ⟨qs, us, rfl, hus, rfl⟩ := hg
  exact ⟨ps ++ qs, ts ++ us, List.flatMap_append.symm, List.rel_append hts hus, List.flatten_append.symm⟩

def doubled (s : List Nat) : List Nat :=
  s.flatMap fun c => if c = leftBrace ∨ c = rightBrace then [c, c] else [c]

variable (render args) in
theorem exists_part (c : Nat) :
    ∃ p : Part, p.text = (if c = leftBrace ∨ c = rightBrace then [c, c] else [c]) ∧
      p.Yields render args (.ok [c]) := by
  by_cases hopening : c = leftBrace
  · subst hopening
    exact ⟨.opening, rfl, rfl⟩
  by_cases hclosing : c = rightBrace
  · subst hclosing
    exact ⟨.closing, rfl, rfl⟩
  · exact ⟨.code c ⟨hopening, hclosing⟩, (if_neg (not_or.mpr ⟨hopening, hclosing⟩)).symm, rfl⟩

theorem expands_doubled (s : List Nat) : Expands render args (doubled s) s := by
  induction s with
  | nil => exact ⟨[], [], rfl, .nil, rfl⟩
  | cons c s ih =>
      obtain ⟨p, hp, hyields⟩ := exists_part render args c
      have hc : Expands render args p.text [c] :=
        ⟨[p], [[c]], (List.append_nil _).symm, .cons hyields .nil, rfl⟩
      have h := hc.append ih
      rwa [hp] at h

/-- The numerals of the item can be read, and its width can be counted. -/
def Item.Fits (i : Item) : Prop :=
  i.index.length ≤ longestNumeral ∧ ∀ a ∈ i.alignment, ∃ m, Reads a.width.digits m ∧ m ≤ widest

theorem Item.fits_of_infix {f : List Nat} (i : Item) (h : i.text <:+: f)
    (hlength : f.length ≤ longestNumeral) (hcomma : comma ∉ f) : i.Fits := by
  constructor
  · have hindex : i.index.length ≤ i.text.length := by
      simp only [Item.text, Item.inside, List.length_cons, List.length_append, length_codesOf]
      omega
    exact (hindex.trans h.length_le).trans hlength
  · intro a ha
    refine absurd (h.subset ?_) hcomma
    rw [Option.mem_def] at ha
    simp [Item.text, Item.inside, ha, Alignment.text]

/-- The argument of the item, if there is one, renders. -/
def Item.Renders (render : α → List Nat → Except Fault (List Nat)) (args : List α) (i : Item) : Prop :=
  ∀ n a, decimalValue? i.index = some n → args[n]? = some a → ∃ t, render a (i.format.getD []) = .ok t

/-- The index of the item is that of an argument. -/
def Item.Finds (args : List α) (i : Item) : Prop := ∃ n < args.length, decimalValue? i.index = some n

theorem Item.Yields.ok_or_noArgument {i : Item} {r : Except Fault (List Nat)} (hfits : i.Fits)
    (hrenders : i.Renders render args) (h : i.Yields render args r) :
    (i.Finds args ∧ ∃ t, r = .ok t) ∨ (¬ i.Finds args ∧ r = .error (.failure .missingArgument)) := by
  have hfinds {n : Nat} {a : α} (hn : Reads i.index n) (ha : args[n]? = some a) : i.Finds args :=
    ⟨n, (List.getElem?_eq_some_iff.mp ha).1, hn.2⟩
  obtain ⟨hindex, hwidth⟩ := hfits
  cases h with
  | longIndex h => exact absurd h (Nat.not_lt.mpr hindex)
  | noArgument hn h =>
      refine .inr ⟨?_, rfl⟩
      rintro ⟨m, hm, hvalue⟩
      cases hn.2.symm.trans hvalue
      exact absurd hm (Nat.not_lt.mpr h)
  | unrendered hn ha he =>
      obtain ⟨t, ht⟩ := hrenders _ _ hn.2 ha
      cases he.symm.trans ht
  | rendered hn ha ht hw => exact .inl ⟨hfinds hn ha, _, rfl⟩
  | longWidth hn ha ht hw h =>
      obtain ⟨m, hm, -⟩ := hwidth _ hw
      exact absurd h (Nat.not_lt.mpr hm.1)
  | tooWide hn ha ht hw hm h =>
      obtain ⟨k, hk, hle⟩ := hwidth _ hw
      cases hm.2.symm.trans hk.2
      exact absurd h (Nat.not_lt.mpr hle)
  | aligned hn ha ht hw hm h => exact .inl ⟨hfinds hn ha, _, rfl⟩

theorem infix_parts {p : Part} {ps : List Part} (h : p ∈ ps) : p.text <:+: ps.flatMap Part.text := by
  obtain ⟨qs, rs, rfl⟩ := List.append_of_mem h
  exact ⟨qs.flatMap Part.text, rs.flatMap Part.text, by simp⟩

theorem yields_of_mem {p : Part} {ps : List Part} {ts : List (List Nat)}
    (h : List.Forall₂ (fun p t => Part.Yields render args p (.ok t)) ps ts) (hp : p ∈ ps) :
    ∃ t, p.Yields render args (.ok t) := by
  induction h with
  | nil => cases hp
  | cons hq _ ih =>
      obtain rfl | hp := List.mem_cons.mp hp
      · exact ⟨_, hq⟩
      · exact ih hp

theorem expands_iff_finds {f : List Nat}
    (h : ∀ i : Item, i.text <:+: f → i.Fits ∧ i.Renders render args) :
    (∃ t, Expands render args f t) ↔
      ∃ ps : List Part, f = ps.flatMap Part.text ∧ ∀ i, Part.item i ∈ ps → i.Finds args := by
  constructor
  · rintro ⟨t, ps, ts, rfl, hts, -⟩
    refine ⟨ps, rfl, fun i hi => ?_⟩
    obtain ⟨hfits, hrenders⟩ := h i (infix_parts hi)
    obtain ⟨t, ht⟩ := yields_of_mem hts hi
    obtain ⟨hfound, -⟩ | ⟨-, herror⟩ := Item.Yields.ok_or_noArgument hfits hrenders ht
    · exact hfound
    · cases herror
  · rintro ⟨ps, rfl, hfinds⟩
    obtain ⟨ts, hts⟩ | ⟨qs, ts, p, rs, e, rfl, -, hp⟩ := texts_or_error render args ps
    · exact ⟨_, ps, ts, rfl, hts, rfl⟩
    · have hmem : p ∈ qs ++ p :: rs := List.mem_append_right qs List.mem_cons_self
      cases p with
      | item i =>
          obtain ⟨hfits, hrenders⟩ := h i (infix_parts hmem)
          obtain ⟨-, t, ht⟩ | ⟨hn, -⟩ := Item.Yields.ok_or_noArgument hfits hrenders hp
          · cases ht
          · exact absurd (hfinds i hmem) hn
      | _ => cases hp

theorem Refuses.kind_eq {f : List Nat} {e : Fault}
    (h : ∀ i : Item, i.text <:+: f → i.Fits ∧ i.Renders render args) (he : Refuses render args f e) :
    ∃ cause, e = .failure cause ∧ cause.kind = .format := by
  obtain ⟨ps, ts, r, rfl, -, ⟨-, rfl⟩ | ⟨p, r', rfl, hp⟩⟩ := he
  · exact ⟨_, rfl, rfl⟩
  · cases p with
    | item i =>
        have hinfix : i.text <:+: List.flatMap Part.text ps ++ (i.text ++ r') :=
          ⟨List.flatMap Part.text ps, r', List.append_assoc _ _ _⟩
        obtain ⟨hfits, hrenders⟩ := h i hinfix
        obtain ⟨-, t, ht⟩ | ⟨-, herror⟩ := Item.Yields.ok_or_noArgument hfits hrenders hp
        · cases ht
        · cases herror
          exact ⟨_, rfl, rfl⟩
    | _ => cases hp

section

open Library Session

variable {s : Session} {v : Value} {items : List Value}

theorem expandFormat_ofCodes (s : Session) (provider : Value) (f : List Nat) (args : List Value) :
    s.expandFormat provider (.ofCodes f) args = expand (s.formatItem provider) args (pieces f) := by
  have hnull : Value.ofCodes f ≠ .null := by
    intro hf
    have hcodes := Value.codes?_ofCodes f
    rw [hf] at hcodes
    cases hcodes
  unfold expandFormat
  split
  · exact absurd ‹_› hnull
  · rename_i g hg _
    rw [Value.codes?_ofCodes] at hg
    cases hg
    rfl
  · rename_i hg _
    rw [Value.codes?_ofCodes] at hg
    cases hg

theorem exec_composite (h : s.object? v = some (.array items) ∨ s.object? v = some (.tuple items))
    (f : List Nat) (provider : Value) :
    s.exec (Catalogue.call "composite_format" [.ofCodes f, v, provider]) =
      ((expand (s.formatItem provider) items (pieces f)).map Value.ofCodes, s) := by
  have hexpand : s.exec (do pure (.ofCodes (← ofExcept ((← get).expandFormat provider (.ofCodes f) items)))) =
      ((expand (s.formatItem provider) items (pieces f)).map Value.ofCodes, s) := by
    rw [exec_get_bind, expandFormat_ofCodes]
    cases expand (s.formatItem provider) items (pieces f) <;> rfl
  have hrun : s.exec (Operators.composite (.ofCodes f) v provider) =
      ((expand (s.formatItem provider) items (pieces f)).map Value.ofCodes, s) := by
    rw [Operators.composite, exec_get_bind]
    obtain h | h := h
    · simp only [h]
      exact hexpand
    · simp only [h]
      exact hexpand
  exact hrun

/-- The function answers so for the format, and changes nothing. -/
def Gives (s : Session) (v provider : Value) (f : List Nat) (r : Except Fault (List Nat)) : Prop :=
  s.exec (Catalogue.call "composite_format" [.ofCodes f, v, provider]) = (r.map Value.ofCodes, s)

theorem gives_iff (h : s.object? v = some (.array items) ∨ s.object? v = some (.tuple items))
    (provider : Value) (f : List Nat) (r : Except Fault (List Nat)) :
    Gives s v provider f r ↔ expand (s.formatItem provider) items (pieces f) = r := by
  rw [Gives, exec_composite h]
  cases r <;> cases expand (s.formatItem provider) items (pieces f) <;> simp [Except.map]

theorem gives_ok_iff (h : s.object? v = some (.array items) ∨ s.object? v = some (.tuple items))
    (provider : Value) (f t : List Nat) :
    Gives s v provider f (.ok t) ↔ Expands (s.formatItem provider) items f t :=
  (gives_iff h provider f _).trans expand_ok_iff

theorem gives_error_iff (h : s.object? v = some (.array items) ∨ s.object? v = some (.tuple items))
    (provider : Value) (f : List Nat) (e : Fault) :
    Gives s v provider f (.error e) ↔ Refuses (s.formatItem provider) items f e :=
  (gives_iff h provider f _).trans expand_error_iff

/-- Composite formats: exactly what they give and what they refuse. A format is read as parts in one way,
formats can be joined, and a text with its braces doubled gives the text. Where every numeral that occurs is
short, every width can be counted and every argument renders, a format is accepted exactly when it is made
of parts whose indices are those of arguments, and its refusal is one for a wrong format. -/
theorem composite_spec (h : s.object? v = some (.array items) ∨ s.object? v = some (.tuple items))
    (provider : Value) :
    (∀ f t, Gives s v provider f (.ok t) ↔ Expands (s.formatItem provider) items f t) ∧
    (∀ f e, Gives s v provider f (.error e) ↔ Refuses (s.formatItem provider) items f e) ∧
    (∀ f, ∃ r, Gives s v provider f r) ∧
    (∀ ps qs : List Part, ps.flatMap Part.text = qs.flatMap Part.text → ps = qs) ∧
    (∀ f g t u, Gives s v provider f (.ok t) → Gives s v provider g (.ok u) →
      Gives s v provider (f ++ g) (.ok (t ++ u))) ∧
    (∀ t, Gives s v provider (doubled t) (.ok t)) ∧
    ∀ f, (∀ i : Item, i.text <:+: f → i.Fits ∧ i.Renders (s.formatItem provider) items) →
      ((∃ t, Gives s v provider f (.ok t)) ↔
        ∃ ps : List Part, f = ps.flatMap Part.text ∧ ∀ i, Part.item i ∈ ps → i.Finds items) ∧
      ∀ e, Gives s v provider f (.error e) → ∃ cause, e = .failure cause ∧ cause.kind = .format := by
  have hok := gives_ok_iff h provider
  have herror := gives_error_iff h provider
  refine ⟨hok, herror, fun f => ⟨_, (gives_iff h provider f _).mpr rfl⟩, fun _ _ => parts_inj, ?_, ?_, ?_⟩
  · intro f g t u hf hg
    exact (hok _ _).mpr (((hok f t).mp hf).append ((hok g u).mp hg))
  · exact fun t => (hok _ _).mpr (expands_doubled t)
  · intro f hf
    refine ⟨?_, fun e he => ((herror f e).mp he).kind_eq hf⟩
    rw [← expands_iff_finds hf]
    exact exists_congr (hok f)

def letter : Session := { start 0 with store := #[.array [.text ['a']]] }

def firstItem : Item where
  before := []
  index := ['0']
  after := []
  alignment := none
  format := none
  blank_before := by simp [Blank]
  numeral := by simp [Numeral]; decide
  blank_after := by simp [Blank]
  closed := by simp

def bracedFirst : List Nat := plain "\x7b\x7b\x7b0\x7d\x7d\x7d"

theorem composite_spec_letter :
    Gives letter (.ref 0) .null bracedFirst (.ok (plain "\x7ba\x7d")) ∧
      (∀ t, Gives letter (.ref 0) .null (doubled t) (.ok t)) ∧
      ∃ ps : List Part, bracedFirst = ps.flatMap Part.text ∧
        ∀ i, Part.item i ∈ ps → i.Finds [Value.text ['a']] := by
  have h : letter.object? (.ref 0) = some (.array [.text ['a']]) := rfl
  obtain ⟨hok, -, -, -, -, hdoubled, haccepted⟩ := composite_spec (.inl h) .null
  have hitem : firstItem.Yields (letter.formatItem .null) [.text ['a']] (.ok ['a'.toNat]) :=
    .rendered (n := 0) ⟨by decide, rfl⟩ rfl rfl rfl
  have hbraced : Gives letter (.ref 0) .null bracedFirst (.ok (plain "\x7ba\x7d")) :=
    (hok _ _).mpr ⟨[.opening, .item firstItem, .closing], [[leftBrace], ['a'.toNat], [rightBrace]], rfl,
      .cons rfl (.cons hitem (.cons rfl .nil)), rfl⟩
  refine ⟨hbraced, hdoubled, (haccepted bracedFirst fun i hi => ⟨?_, ?_⟩).1.mp ⟨_, hbraced⟩⟩
  · exact i.fits_of_infix hi (by decide) (by decide)
  · intro n a _ ha
    obtain rfl := List.mem_singleton.mp (List.mem_of_getElem? ha)
    exact ⟨['a'.toNat], rfl⟩

/-- An item with a width that cannot be counted, and a brace behind it. -/
def wideFormat : List Nat := plain "\x7b0,9223372036854775808\x7d\x7d"

/-- The width is refused before the brace behind the item is seen to be in no part. -/
theorem wide_not_format :
    (¬ ∃ ps : List Part, wideFormat = ps.flatMap Part.text) ∧
      Gives letter (.ref 0) .null wideFormat (.error (.misuse .tooLarge)) := by
  have h : letter.object? (.ref 0) = some (.array [.text ['a']]) := rfl
  constructor
  · rintro ⟨ps, hps⟩
    -- Whatever is made of parts has no malformed piece.
    have hpieces := pieces_parts ps []
    rw [← hps, List.append_nil] at hpieces
    have hmalformed : Piece.malformed ∈ pieces wideFormat := by decide
    rw [hpieces] at hmalformed
    obtain hpart | hnone := List.mem_append.mp hmalformed
    · obtain ⟨p, -, hp⟩ := List.mem_map.mp hpart
      exact p.piece_ne_malformed hp
    · exact absurd hnone List.not_mem_nil
  · exact (gives_iff (.inl h) .null _ _).mpr rfl

end

end BaseLib.Text.Composite
