import BaseLib.Proofs.Regex.Agreement
import BaseLib.Proofs.Regex.Spells

namespace BaseLib.Regex.Reader

inductive Mode
  | item
  /-- Behind a parenthesis. A group without a name opens here unless a question mark follows. -/
  | opened
  | asked
  /-- Among flags, with what they make of verbosity. -/
  | flags (off verbose : Bool)
  | setStart
  | setFirst
  | set
  /-- In a comment, or in what a condition names. -/
  | comment
  | line
  | referring
  /-- In a name that ends at an angle bracket or at a quote. -/
  | named (angled : Bool)
  deriving DecidableEq

def closer (angled : Bool) : Char := if angled then '>' else '\''

/-- A place, with the verbosity there and outside of each open parenthesis. -/
structure Place where
  mode : Mode
  verbose : Bool
  outer : List Bool

namespace Place

def start (verbose : Bool) : Place := ⟨.item, verbose, []⟩

def moved (pl : Place) (m : Mode) : Place := { pl with mode := m }

@[simp]
theorem mode_moved (pl : Place) (m : Mode) : (pl.moved m).mode = m := rfl

def opening (pl : Place) : Place := ⟨.opened, pl.verbose, pl.verbose :: pl.outer⟩

def closing (pl : Place) : Place := ⟨.item, pl.outer.headD pl.verbose, pl.outer.tail⟩

def afterItem (pl : Place) (t : Token) : Place :=
  if t = .plain '(' then pl.opening
  else if t = .plain ')' then pl.closing
  else if t = .plain '[' then pl.moved .setStart
  else if t = .plain '#' ∧ pl.verbose then pl.moved .line
  else if t = .escaped 'k' then pl.moved .referring
  else pl.moved .item

def afterQuestion (pl : Place) : Token → Place
  | .escaped c => pl.afterItem (.escaped c)
  | .plain c =>
    if c = '(' then pl.opening.moved .comment
    else if c = '#' then pl.moved .comment
    else if c = '\'' then pl.moved (.named false)
    else if c = '-' then pl.moved (.flags true pl.verbose)
    else if isFlag c then pl.moved (.flags false (pl.verbose || c == 'x'))
    else pl.afterItem (.plain c)

def afterFlag (pl : Place) (off verbose : Bool) : Token → Place
  | .escaped c => pl.afterItem (.escaped c)
  | .plain c =>
    if c = ':' then ⟨.item, verbose, pl.outer⟩
    else if c = ')' then ⟨.item, verbose, pl.outer.tail⟩
    else if c = '-' then pl.moved (.flags true verbose)
    else if isFlag c then pl.moved (.flags off (if c = 'x' then !off else verbose))
    else pl.afterItem (.plain c)

def next (pl : Place) (t : Token) : Place :=
  match pl.mode with
  | .item => pl.afterItem t
  | .opened => if t = .plain '?' then pl.moved .asked else pl.afterItem t
  | .asked => pl.afterQuestion t
  | .flags off verbose => pl.afterFlag off verbose t
  | .setStart => pl.moved (if t = .plain '^' then .setFirst else .set)
  | .setFirst => pl.moved .set
  | .set => pl.moved (if t = .plain ']' then .item else .set)
  | .comment => if t = .plain ')' then pl.closing else pl
  | .line => if t = .plain '\n' then pl.moved .item else pl
  | .referring =>
    if t = .plain '<' then pl.moved (.named true)
    else if t = .plain '\'' then pl.moved (.named false)
    else pl.afterItem t
  | .named angled => if t = .plain (closer angled) then pl.moved .item else pl

/-- Whether a group without a name opens before the token, or before the end. -/
def bare (pl : Place) (t : Option Token) : Nat :=
  if pl.mode = .opened ∧ t ≠ some (.plain '?') then 1 else 0

def sought : List Char := ['\\', '[', '(']

def marks : List Char := sought ++ [')', '#', '>']

/-- In comments and behind `(?` stands nothing that the rewriting looks for, and in names none of the marks. -/
def admits (pl : Place) (t : Token) (ts : List Token) : Bool :=
  match pl.mode with
  | .asked => !(t.text.any (sought.contains ·))
  | .comment | .line =>
    t != .plain '[' && t != .escaped 'k' && !([.plain '(', .plain '?', .plain '\''].isPrefixOf (t :: ts))
  | .named angled => t == .plain (closer angled) || !(t.text.any (marks.contains ·))
  | _ => true

end Place

def tokens : List Char → List Token
  | [] => []
  | '\\' :: c :: s => .escaped c :: tokens s
  | c :: s => .plain c :: tokens s

/-- How many groups without a name open. -/
def openers : Place → List Token → Nat
  | pl, [] => pl.bare none
  | pl, t :: ts => openers (pl.next t) ts + pl.bare (some t)

/-- The rewriting takes nothing in the pattern for something else. -/
def clear : Place → List Token → Bool
  | _, [] => true
  | pl, t :: ts => pl.admits t ts && clear (pl.next t) ts

variable {pl : Place} {t : Token} {ts : List Token} {c : Char} {s name rest : List Char}

theorem tokens_plain (h : c = '\\' → s = []) : tokens (c :: s) = .plain c :: tokens s := by
  rw [tokens.eq_def]
  split
  · contradiction
  · rename_i d s' heq
    obtain ⟨rfl, rfl⟩ := List.cons.inj heq
    cases h rfl
  · rename_i heq
    obtain ⟨rfl, rfl⟩ := List.cons.inj heq
    rfl

theorem tokens_of_ne (h : c ≠ '\\') : tokens (c :: s) = .plain c :: tokens s :=
  tokens_plain fun hc => absurd hc h

theorem tokens_append (h : '\\' ∉ s) (rest : List Char) : tokens (s ++ rest) = s.map .plain ++ tokens rest := by
  induction s with
  | nil => rfl
  | cons c s ih =>
      rw [List.mem_cons, not_or] at h
      rw [List.cons_append, tokens_of_ne (Ne.symm h.1), ih h.2]
      rfl

theorem tokens_of_none (h : tokenOf s = none) : tokens s = [] := by
  rw [tokenOf.eq_def] at h
  split at h
  · rfl
  · cases h
  · cases h

theorem tokens_of_some (h : tokenOf s = some t) : tokens s = t :: tokens (s.drop t.size) := by
  rw [tokenOf.eq_def] at h
  split at h
  · cases h
  · cases h
    rfl
  · cases h
    rename_i c s hne
    refine tokens_plain fun hc => ?_
    cases s with
    | nil => rfl
    | cons d s => exact (hne d s hc rfl).elim

namespace Mode

def inSet : Mode → Bool
  | setStart | setFirst | set => true
  | _ => false

def inComment : Mode → Bool
  | comment | line => true
  | _ => false

def settled : Mode → Bool
  | setStart | setFirst | set | opened => false
  | _ => true

def free : Mode → Bool
  | item | flags _ _ | referring => true
  | _ => false

end Mode

namespace Place

/-- The place is inside a set exactly if the rewriting is, which looks ahead at the beginning of a set and
behind a parenthesis. -/
def Fits (pl : Place) (s : List Char) : Bool → Prop
  | true =>
    pl.mode.inSet = true ∧ (s.head? = some ']' → pl.mode = .set) ∧ (s.head? = some '^' → pl.mode ≠ .setStart)
  | false => pl.mode.inSet = false ∧ (pl.mode = .opened → s.head? = some '?')

theorem Fits.next_set (h : pl.Fits (c :: s) true) :
    pl.next (.plain c) = pl.moved (if c = ']' then .item else .set) := by
  obtain ⟨hset, hclose, hcaret⟩ := h
  obtain ⟨mode, verbose, outer⟩ := pl
  cases mode with
  | set => simp [Place.next]
  | setFirst =>
      have hc : c ≠ ']' := fun hc => nomatch hclose (congrArg some hc)
      simp [Place.next, hc]
  | setStart =>
      have hc : c ≠ ']' := fun hc => nomatch hclose (congrArg some hc)
      have hc' : c ≠ '^' := fun hc => hcaret (congrArg some hc) rfl
      simp [Place.next, hc, hc']
  | _ => cases hset

theorem next_set_escaped (h : pl.mode.inSet = true) (c : Char) : pl.next (.escaped c) = pl.moved .set := by
  obtain ⟨mode, verbose, outer⟩ := pl
  cases mode with
  | set | setFirst | setStart => rfl
  | _ => cases h

theorem fits_of_settled (h : pl.mode.settled = true) (s : List Char) : pl.Fits s false := by
  obtain ⟨mode, verbose, outer⟩ := pl
  cases mode with
  | setStart | setFirst | set | opened => cases h
  | _ => exact ⟨rfl, nofun⟩

theorem fits_set (h : pl.mode = .set) (s : List Char) : pl.Fits s true :=
  ⟨by rw [h]; rfl, fun _ => h, fun _ hs => nomatch h.symm.trans hs⟩

theorem Fits.mode_cases (h : pl.Fits s false) (hs : s.head? ≠ some '?') :
    pl.mode.free = true ∨ pl.mode.inComment = true ∨ pl.mode = .asked ∨ ∃ angled, pl.mode = .named angled := by
  obtain ⟨hset, hopen⟩ := h
  obtain ⟨mode, verbose, outer⟩ := pl
  cases mode with
  | item | flags _ _ | referring => exact .inl rfl
  | comment | line => exact .inr (.inl rfl)
  | asked => exact .inr (.inr (.inl rfl))
  | named angled => exact .inr (.inr (.inr ⟨angled, rfl⟩))
  | opened => exact absurd (hopen rfl) hs
  | _ => cases hset

theorem Fits.bare {b : Bool} (h : pl.Fits s b) : pl.bare (tokens s).head? = 0 := by
  refine if_neg ?_
  rintro ⟨hmode, hne⟩
  cases b with
  | true =>
      obtain ⟨hset, -⟩ := h
      rw [hmode] at hset
      cases hset
  | false =>
      obtain ⟨s, rfl⟩ := List.head?_eq_some_iff.mp (h.2 hmode)
      rw [tokens_of_ne (by decide)] at hne
      exact hne rfl

theorem next_free (h : pl.mode.free = true) (ht : t.text.any (sought.contains ·) = true) :
    pl.next t = pl.afterItem t := by
  obtain ⟨mode, verbose, outer⟩ := pl
  cases mode with
  | item => rfl
  | flags off v =>
      cases t with
      | escaped c => rfl
      | plain c =>
          have hc : c = '\\' ∨ c = '[' ∨ c = '(' := by simpa [Token.text, sought] using ht
          rcases hc with rfl | rfl | rfl <;> rfl
  | referring =>
      refine (if_neg ?_).trans (if_neg ?_)
      · rintro rfl
        cases ht
      · rintro rfl
        cases ht
  | _ => cases h

theorem openers_cons (h : pl.mode ≠ .opened) (t : Token) (ts : List Token) :
    openers pl (t :: ts) = openers (pl.next t) ts := by
  have hbare : pl.bare (some t) = 0 := if_neg fun hopened => h hopened.1
  rw [openers, hbare, Nat.add_zero]

theorem openers_free (h : pl.mode.free = true) (t : Token) (ts : List Token) :
    openers pl (t :: ts) = openers (pl.next t) ts := by
  refine openers_cons (fun hopened => ?_) t ts
  rw [hopened] at h
  cases h

theorem next_comment (h : pl.mode.inComment = true) (ht : t ≠ .plain ')') (ht' : t ≠ .plain '\n') :
    pl.next t = pl := by
  obtain ⟨mode, verbose, outer⟩ := pl
  cases mode with
  | comment => exact if_neg ht
  | line => exact if_neg ht'
  | _ => cases h

theorem settled_afterItem (pl : Place) (ht : t ≠ .plain '[') (ht' : t ≠ .plain '(') :
    (pl.afterItem t).mode.settled = true := by
  unfold afterItem
  rw [if_neg ht', if_neg ht]
  split_ifs <;> rfl

theorem settled_next (h : pl.mode.inSet = false) (ht : t ≠ .plain '[') (ht' : t ≠ .plain '(') :
    (pl.next t).mode.settled = true := by
  have hitem := settled_afterItem pl ht ht'
  obtain ⟨mode, verbose, outer⟩ := pl
  cases mode with
  | setStart | setFirst | set => cases h
  | item => exact hitem
  | opened =>
      simp only [next]
      split_ifs
      · rfl
      · exact hitem
  | asked =>
      cases t with
      | escaped c => exact hitem
      | plain c =>
          simp only [next, afterQuestion]
          rw [if_neg (fun hc => ht' (congrArg _ hc))]
          split_ifs
          · rfl
          · rfl
          · rfl
          · rfl
          · exact hitem
  | flags off v =>
      cases t with
      | escaped c => exact hitem
      | plain c =>
          simp only [next, afterFlag]
          split_ifs
          · rfl
          · rfl
          · rfl
          · rfl
          · rfl
          · exact hitem
  | comment | line | named _ =>
      simp only [next]
      split_ifs <;> rfl
  | referring =>
      simp only [next]
      split_ifs
      · rfl
      · rfl
      · exact hitem

theorem clear_cons (h : clear pl (t :: ts) = true) : pl.admits t ts = true ∧ clear (pl.next t) ts = true :=
  Bool.and_eq_true_iff.mp h

theorem not_admits_named {angled : Bool} (h : pl.mode = .named angled)
    (ht : t.text.any (marks.contains ·) = true) (hne : t ≠ .plain (closer angled)) : pl.admits t ts = false := by
  rw [admits, h]
  simp only [ht, Bool.not_true, Bool.or_false, beq_eq_false_iff_ne]
  exact hne

theorem clear_named (angled : Bool) (hname : closer angled ∉ name)
    (h : clear (pl.moved (.named angled)) (tokens (name ++ closer angled :: s)) = true) :
    (∀ c ∈ name, c ∉ marks) ∧ clear (pl.moved .item) (tokens s) = true := by
  induction name with
  | nil =>
      rw [List.nil_append, tokens_of_ne (by cases angled <;> decide)] at h
      have hrest := (clear_cons h).2
      rw [show (pl.moved (.named angled)).next (.plain (closer angled)) = pl.moved .item from if_pos rfl] at hrest
      exact ⟨by simp, hrest⟩
  | cons c name ih =>
      rw [List.mem_cons, not_or] at hname
      obtain ⟨hc, hname⟩ := hname
      have hback : c ≠ '\\' := by
        rintro rfl
        obtain ⟨d, rest, hrest⟩ : ∃ d rest, name ++ closer angled :: s = d :: rest := by
          cases name <;> exact ⟨_, _, rfl⟩
        rw [List.cons_append, hrest, tokens] at h
        have hrefuses : (pl.moved (.named angled)).admits (.escaped d) (tokens rest) = false :=
          not_admits_named rfl (by simp [Token.text, marks, sought]) nofun
        cases hrefuses.symm.trans (clear_cons h).1
      rw [List.cons_append, tokens_of_ne hback] at h
      obtain ⟨hadmits, hrest⟩ := clear_cons h
      have hcloser : Token.plain c ≠ .plain (closer angled) := fun heq => hc (Token.plain.inj heq).symm
      have hmark : c ∉ marks := by
        intro hmark
        rw [not_admits_named rfl (by simpa [Token.text] using hmark) hcloser] at hadmits
        cases hadmits
      rw [show (pl.moved (.named angled)).next (.plain c) = pl.moved (.named angled) from if_neg hcloser] at hrest
      obtain ⟨hmarks, hclear⟩ := ih hname hrest
      exact ⟨List.forall_mem_cons.mpr ⟨hmark, hmarks⟩, hclear⟩

theorem clear_reference (hname : Spelling.delimited s = some (name, rest))
    (h : clear (pl.moved .referring) (tokens s) = true) :
    (∀ c ∈ name, c ∉ marks) ∧ clear (pl.moved .item) (tokens rest) = true := by
  unfold Spelling.delimited at hname
  split at hname
  · obtain ⟨hnot, rfl⟩ := Spelling.upTo_eq_some.mp hname
    rw [tokens_of_ne (by decide)] at h
    have hrest : clear (pl.moved (.named true)) (tokens (name ++ closer true :: rest)) = true := (clear_cons h).2
    exact clear_named true hnot hrest
  · obtain ⟨hnot, rfl⟩ := Spelling.upTo_eq_some.mp hname
    rw [tokens_of_ne (by decide)] at h
    have hrest : clear (pl.moved (.named false)) (tokens (name ++ closer false :: rest)) = true := (clear_cons h).2
    exact clear_named false hnot hrest
  · cases hname

theorem clear_opening (hs : s.head? ≠ some '?') (h : clear pl.opening (tokens s) = true) :
    clear (pl.opening.moved .item) (tokens s) = true := by
  cases hts : tokens s with
  | nil => rfl
  | cons t ts =>
      have ht : t ≠ .plain '?' := by
        rintro rfl
        refine hs ?_
        rw [tokens.eq_def] at hts
        split at hts
        · cases hts
        · cases hts
        · cases hts
          rfl
      rw [hts, clear] at h
      have hnext : pl.opening.next t = (pl.opening.moved .item).next t := if_neg ht
      rw [clear, ← hnext]
      exact h

theorem afterItem_plain (pl : Place) (hopen : c ≠ '(') (hclose : c ≠ ')') (hset : c ≠ '[')
    (hline : ¬(c = '#' ∧ pl.verbose = true)) : pl.afterItem (.plain c) = pl.moved .item := by
  have hne {d : Char} (hd : c ≠ d) : Token.plain c ≠ .plain d := fun h => hd (Token.plain.inj h)
  rw [afterItem, if_neg (hne hopen), if_neg (hne hclose), if_neg (hne hset),
    if_neg fun h => hline ⟨Token.plain.inj h.1, h.2⟩, if_neg nofun]

theorem next_item (h : pl.mode = .item) (hopen : c ≠ '(') (hclose : c ≠ ')') (hset : c ≠ '[')
    (hline : ¬(c = '#' ∧ pl.verbose = true)) : pl.next (.plain c) = pl := by
  obtain ⟨mode, verbose, outer⟩ := pl
  subst h
  exact afterItem_plain _ hopen hclose hset hline

theorem openers_name (hname : ∀ c ∈ name, c ∉ marks) (h : pl.mode = .item) (s : List Char) :
    openers pl (tokens (name ++ s)) = openers pl (tokens s) := by
  induction name with
  | nil => rfl
  | cons c name ih =>
      obtain ⟨hc, hname⟩ := List.forall_mem_cons.mp hname
      have hne {d : Char} (hd : d ∈ marks) : c ≠ d := fun h => hc (h ▸ hd)
      have hnext : pl.next (.plain c) = pl :=
        next_item h (hne (by decide)) (hne (by decide)) (hne (by decide)) fun hline => hne (by decide) hline.1
      have hmode : pl.mode ≠ .opened := by simp [h]
      rw [List.cons_append, tokens_of_ne (hne (by decide)), openers_cons hmode, hnext, ih hname]

theorem openers_angle (pl : Place) (s : List Char) :
    openers pl.opening (tokens ('?' :: 'P' :: '<' :: s)) = openers (pl.opening.moved .item) (tokens s) := by
  rw [tokens_of_ne (by decide), tokens_of_ne (by decide), tokens_of_ne (by decide)]
  rfl

theorem openers_opener (hname : ∀ c ∈ name, c ∉ marks) (pl : Place) (s : List Char) :
    openers pl.opening (tokens ('?' :: 'P' :: '<' :: (name ++ '>' :: s))) =
      openers (pl.opening.moved .item) (tokens s) := by
  rw [openers_angle, openers_name hname rfl, tokens_of_ne (by decide)]
  rfl

theorem openers_reference (hname : ∀ c ∈ name, c ∉ marks) (pl : Place) (s : List Char) :
    ∃ r, Spelling.reference name = '(' :: r ∧
      openers pl.opening (tokens (r ++ s)) = openers (pl.moved .item) (tokens s) := by
  have hclosing : openers (pl.opening.moved .item) (tokens (')' :: s)) = openers (pl.moved .item) (tokens s) := by
    rw [tokens_of_ne (by decide)]
    rfl
  rw [Spelling.reference]
  split
  · rename_i hdigits
    rw [Text.allDigits, Bool.and_eq_true, List.all_eq_true] at hdigits
    obtain ⟨hne, hall⟩ := hdigits
    cases name with
    | nil => cases hne
    | cons d name =>
        have hd : d ≠ 'k' := by
          rintro rfl
          exact absurd (hall 'k' List.mem_cons_self) (by decide)
        refine ⟨_, rfl, ?_⟩
        change openers _ (tokens ('?' :: ':' :: '\\' :: d :: (name ++ [')'] ++ s))) = _
        rw [tokens_of_ne (by decide), tokens_of_ne (by decide), tokens]
        have hnext : (pl.opening.moved .item).next (.escaped d) = pl.opening.moved .item := by
          simp [next, moved, afterItem, hd]
        change openers ((pl.opening.moved .item).next (.escaped d)) (tokens (name ++ [')'] ++ s)) + 0 + 0 + _ = _
        rw [hnext, List.append_assoc, openers_name (List.forall_mem_cons.mp hname).2 rfl]
        exact hclosing
  · refine ⟨_, rfl, ?_⟩
    change openers _ (tokens ('?' :: 'P' :: '=' :: (name ++ [')'] ++ s))) = _
    rw [tokens_of_ne (by decide), tokens_of_ne (by decide), tokens_of_ne (by decide)]
    change openers (pl.opening.moved .item) (tokens (name ++ [')'] ++ s)) + 0 + 0 + _ = _
    rw [List.append_assoc, openers_name hname rfl]
    exact hclosing

theorem openers_noncapturing (pl : Place) (s : List Char) :
    openers pl.opening (tokens ('?' :: ':' :: s)) = openers (pl.opening.moved .item) (tokens s) := by
  rw [tokens_of_ne (by decide), tokens_of_ne (by decide)]
  rfl

theorem comment_append (h : pl.mode.inComment = true) {u : List Char}
    (hu : u.all (fun c => !([')', '\n', '\\'].contains c)) = true) (s : List Char) : openers pl (tokens (u ++ s)) = openers pl (tokens s) ∧
      (clear pl (tokens (u ++ s)) = true → clear pl (tokens s) = true) := by
  induction u with
  | nil => exact ⟨rfl, id⟩
  | cons c u ih =>
      rw [List.all_cons, Bool.and_eq_true] at hu
      obtain ⟨hc, hu⟩ := hu
      have hne {d : Char} (hd : [')', '\n', '\\'].contains d = true) : c ≠ d := by
        rintro rfl
        rw [hd] at hc
        cases hc
      have hnext : pl.next (.plain c) = pl := by
        refine next_comment h ?_ ?_
        · simpa using hne (d := ')') (by decide)
        · simpa using hne (d := '\n') (by decide)
      have hmode : pl.mode ≠ .opened := by
        intro hopened
        rw [hopened] at h
        cases h
      rw [List.cons_append, tokens_of_ne (hne (by decide)), openers_cons hmode, hnext, (ih hu).1]
      refine ⟨rfl, fun hclear => (ih hu).2 ?_⟩
      have hrest := (clear_cons hclear).2
      rwa [hnext] at hrest

theorem Fits.openers_cons {b : Bool} (h : pl.Fits s b) (hs : (tokens s).head? = some t) (ts : List Token) :
    openers pl (t :: ts) = openers (pl.next t) ts := by
  have hbare := h.bare
  rw [hs] at hbare
  rw [openers, hbare, Nat.add_zero]

theorem not_admits_comment (h : pl.mode.inComment = true)
    (ht : t = .plain '[' ∨ t = .escaped 'k' ∨ [.plain '(', .plain '?', .plain '\''] <+: t :: ts) :
    pl.admits t ts = false := by
  have hadmits : pl.admits t ts = (t != .plain '[' && t != .escaped 'k' &&
      !([.plain '(', .plain '?', .plain '\''].isPrefixOf (t :: ts))) := by
    obtain ⟨mode, verbose, outer⟩ := pl
    cases mode with
    | comment | line => rfl
    | _ => cases h
  rw [hadmits]
  rcases ht with rfl | rfl | hprefix
  · rfl
  · rfl
  · rw [List.isPrefixOf_iff_prefix.mpr hprefix, Bool.not_true, Bool.and_false]

theorem exists_token (hc : c ∈ sought) (s : List Char) :
    ∃ t ts, tokens (c :: s) = t :: ts ∧ t.text.any (sought.contains ·) = true := by
  by_cases hlone : c = '\\' → s = []
  · exact ⟨.plain c, tokens s, tokens_plain hlone, by simpa [Token.text] using hc⟩
  · rw [Classical.not_imp] at hlone
    obtain ⟨rfl, hs⟩ := hlone
    obtain ⟨d, s, rfl⟩ := List.exists_cons_of_ne_nil hs
    exact ⟨.escaped d, tokens s, rfl, by simp [Token.text, sought]⟩

/-- Where the rewriting may look for something in a clear pattern, an item may begin, or a comment goes on. -/
theorem Fits.free_or_comment (h : pl.Fits (c :: s) false) (hc : c ∈ sought)
    (hclear : clear pl (tokens (c :: s)) = true) : pl.mode.free = true ∨ pl.mode.inComment = true := by
  have hne {d : Char} (hd : d ∉ sought) : c ≠ d := by
    rintro rfl
    exact hd hc
  obtain ⟨t, ts, hts, ht⟩ := exists_token hc s
  rw [hts] at hclear
  have hadmits := (clear_cons hclear).1
  rcases h.mode_cases (by simpa using hne (d := '?') (by decide)) with hfree | hcomment | hmode | ⟨angled, hmode⟩
  · exact .inl hfree
  · exact .inr hcomment
  · rw [admits, hmode, ht] at hadmits
    cases hadmits
  · have hmark : t.text.any (marks.contains ·) = true := by
      rw [List.any_eq_true] at ht ⊢
      obtain ⟨d, hd, hmem⟩ := ht
      exact ⟨d, hd, by simp_all [marks]⟩
    rw [not_admits_named hmode hmark] at hadmits
    · cases hadmits
    · rintro rfl
      cases angled <;> cases ht

theorem fits_comment (h : pl.mode.inComment = true) (s : List Char) : pl.Fits s false := by
  obtain ⟨mode, verbose, outer⟩ := pl
  cases mode with
  | comment | line => exact fits_of_settled rfl s
  | _ => cases h

theorem Fits.next_paren (h : pl.Fits ('(' :: s) false) (hclear : clear pl (tokens ('(' :: s)) = true)
    (hs : s.head? = some '?') :
    (pl.next (.plain '(')).Fits s false ∧ clear (pl.next (.plain '(')) (tokens s) = true := by
  have hrest := hclear
  rw [tokens_of_ne (by decide)] at hrest
  refine ⟨?_, (clear_cons hrest).2⟩
  rcases h.free_or_comment (by decide) hclear with hfree | hcomment
  · rw [next_free hfree rfl]
    exact ⟨rfl, fun _ => hs⟩
  · rw [next_comment hcomment (by decide) (by decide)]
    exact fits_comment hcomment s

theorem exists_set (pl : Place) (s : List Char) : ∃ m start rest, Spelling.classStart s = (start, rest) ∧
    '\\' ∉ start ∧ s = start ++ rest ∧ (pl.moved m).Fits rest true ∧
    ∀ ts, openers (pl.moved .setStart) (start.map .plain ++ ts) = openers (pl.moved m) ts ∧
      clear (pl.moved .setStart) (start.map .plain ++ ts) = clear (pl.moved m) ts := by
  by_cases hcaret : s.head? = some '^'
  · obtain ⟨s, rfl⟩ := List.head?_eq_some_iff.mp hcaret
    by_cases hclose : s.head? = some ']'
    · obtain ⟨s, rfl⟩ := List.head?_eq_some_iff.mp hclose
      exact ⟨.set, ['^', ']'], s, rfl, by decide, rfl, fits_set rfl s, fun ts => ⟨rfl, rfl⟩⟩
    · refine ⟨.setFirst, ['^'], s, ?_, by decide, rfl, ⟨rfl, fun hs => absurd hs hclose, by simp [moved]⟩,
        fun ts => ⟨rfl, rfl⟩⟩
      cases s with
      | nil => rfl
      | cons d s => simp_all [Spelling.classStart]
  · by_cases hclose : s.head? = some ']'
    · obtain ⟨s, rfl⟩ := List.head?_eq_some_iff.mp hclose
      exact ⟨.set, [']'], s, rfl, by decide, rfl, fits_set rfl s, fun ts => ⟨rfl, rfl⟩⟩
    · refine ⟨.setStart, [], s, ?_, by decide, rfl, ⟨rfl, fun hs => absurd hs hclose, fun hs => absurd hs hcaret⟩,
        fun ts => ⟨rfl, rfl⟩⟩
      cases s with
      | nil => rfl
      | cons d s => simp_all [Spelling.classStart]

end Place

theorem tokens_go_nil (n : Nat) (b : Bool) : Spelling.go true n b [] = [] := by
  cases n <;> cases b <;> rfl

open Place

theorem openers_plain {n : Nat} {b b' : Bool} (hfits : pl.Fits (c :: s) b) (hback : c = '\\' → s = []) :
    openers pl (tokens (c :: Spelling.go true n b' s)) =
      openers (pl.next (.plain c)) (tokens (Spelling.go true n b' s)) := by
  rw [tokens_plain fun hc => by rw [hback hc, tokens_go_nil],
    hfits.openers_cons (by rw [tokens_plain hback]; rfl)]

theorem back_of_not_cons (h : ∀ d r, c = '\\' → s = d :: r → False) : c = '\\' → s = [] := by
  intro hc
  cases s with
  | nil => rfl
  | cons d r => exact (h d r hc rfl).elim

/-- Of what is left, the rewriting writes no group without a name, wherever it is in step with a clear pattern. -/
def Silent (n : Nat) (b : Bool) (s : List Char) : Prop :=
  ∀ pl : Place, pl.Fits s b → clear pl (tokens s) = true → openers pl (tokens (Spelling.go true n b s)) = 0

namespace Silent

variable {n : Nat}

theorem reference (hkept : Silent n false rest) (hname : Spelling.delimited s = some (name, rest))
    (hfits : pl.Fits ('\\' :: 'k' :: s) false) (h : clear pl (tokens ('\\' :: 'k' :: s)) = true) :
    openers pl (tokens (Spelling.reference name ++ Spelling.go true n false rest)) = 0 := by
  obtain ⟨hadmits, hrest⟩ := clear_cons h
  rcases hfits.free_or_comment (by decide) h with hfree | hcomment
  · rw [next_free hfree rfl] at hrest
    obtain ⟨hmarks, hafter⟩ := clear_reference hname hrest
    obtain ⟨r, href, hopeners⟩ := openers_reference hmarks pl (Spelling.go true n false rest)
    rw [href, List.cons_append, tokens_of_ne (by decide), openers_free hfree, next_free hfree rfl]
    exact hopeners.trans (hkept _ (fits_of_settled rfl rest) hafter)
  · rw [not_admits_comment hcomment (.inr (.inl rfl))] at hadmits
    cases hadmits

theorem set {start : List Char} (hkept : Silent n true rest) (hstart : Spelling.classStart s = (start, rest))
    (hfits : pl.Fits ('[' :: s) false) (h : clear pl (tokens ('[' :: s)) = true) :
    openers pl (tokens ('[' :: start ++ Spelling.go true n true rest)) = 0 := by
  have hcases := hfits.free_or_comment (by decide) h
  rw [tokens_of_ne (by decide)] at h
  obtain ⟨hadmits, hrest⟩ := clear_cons h
  rcases hcases with hfree | hcomment
  · have hbracket : pl.next (.plain '[') = pl.moved .setStart := next_free hfree rfl
    obtain ⟨m, start', rest', hstart', hback, rfl, hset, hgo⟩ := exists_set pl s
    cases hstart.symm.trans hstart'
    rw [hbracket, tokens_append hback, (hgo _).2] at hrest
    rw [List.cons_append, tokens_of_ne (by decide), openers_free hfree, hbracket, tokens_append hback, (hgo _).1]
    exact hkept _ hset hrest
  · rw [not_admits_comment hcomment (.inl rfl)] at hadmits
    cases hadmits

theorem angle (hkept : Silent n false s) (hfits : pl.Fits ('(' :: '?' :: '<' :: s) false)
    (h : clear pl (tokens ('(' :: '?' :: '<' :: s)) = true) :
    openers pl (tokens ("(?P<".toList ++ Spelling.go true n false s)) = 0 := by
  rcases hfits.free_or_comment (by decide) h with hfree | hcomment
  · have hparen : pl.next (.plain '(') = pl.opening := next_free hfree rfl
    rw [tokens_of_ne (by decide), tokens_of_ne (by decide), tokens_of_ne (by decide)] at h
    have hrest := (clear_cons h).2
    rw [hparen] at hrest
    have hclear : clear (pl.opening.moved .item) (tokens s) = true := (clear_cons (clear_cons hrest).2).2
    change openers pl (tokens ('(' :: '?' :: 'P' :: '<' :: Spelling.go true n false s)) = 0
    rw [tokens_of_ne (by decide), openers_free hfree, hparen, openers_angle]
    exact hkept _ (fits_of_settled rfl s) hclear
  · have hwritten := (comment_append hcomment (u := "(?P<".toList) (by decide) (Spelling.go true n false s)).1
    have hclear := (comment_append hcomment (u := ['(', '?', '<']) (by decide) s).2 h
    exact hwritten.trans (hkept pl (fits_comment hcomment s) hclear)

theorem quoted (hkept : Silent n false rest) (hname : Spelling.upTo '\'' s = some (name, rest))
    (hfits : pl.Fits ('(' :: '?' :: '\'' :: s) false) (h : clear pl (tokens ('(' :: '?' :: '\'' :: s)) = true) :
    openers pl (tokens ("(?P<".toList ++ name ++ '>' :: Spelling.go true n false rest)) = 0 := by
  have hcases := hfits.free_or_comment (by decide) h
  rw [tokens_of_ne (by decide), tokens_of_ne (by decide), tokens_of_ne (by decide)] at h
  obtain ⟨hadmits, hrest⟩ := clear_cons h
  rcases hcases with hfree | hcomment
  · have hparen : pl.next (.plain '(') = pl.opening := next_free hfree rfl
    rw [hparen] at hrest
    obtain ⟨hnot, rfl⟩ := Spelling.upTo_eq_some.mp hname
    have hquoted : clear (pl.opening.moved (.named false)) (tokens (name ++ closer false :: rest)) = true :=
      (clear_cons (clear_cons hrest).2).2
    obtain ⟨hmarks, hclear⟩ := clear_named false hnot hquoted
    rw [List.append_assoc]
    change openers pl (tokens ('(' :: '?' :: 'P' :: '<' :: (name ++ '>' :: Spelling.go true n false rest))) = 0
    rw [tokens_of_ne (by decide), openers_free hfree, hparen, openers_opener hmarks]
    exact hkept _ (fits_of_settled rfl rest) hclear
  · have hprefix : [.plain '(', .plain '?', .plain '\''] <+:
        Token.plain '(' :: .plain '?' :: .plain '\'' :: tokens s := ⟨tokens s, rfl⟩
    rw [not_admits_comment hcomment (.inr (.inr hprefix))] at hadmits
    cases hadmits

theorem bare (hkept : Silent n false s) (hs : s.head? ≠ some '?') (hfits : pl.Fits ('(' :: s) false)
    (h : clear pl (tokens ('(' :: s)) = true) :
    openers pl (tokens ("(?:".toList ++ Spelling.go true n false s)) = 0 := by
  rcases hfits.free_or_comment (by decide) h with hfree | hcomment
  · have hparen : pl.next (.plain '(') = pl.opening := next_free hfree rfl
    rw [tokens_of_ne (by decide)] at h
    have hrest := (clear_cons h).2
    rw [hparen] at hrest
    change openers pl (tokens ('(' :: '?' :: ':' :: Spelling.go true n false s)) = 0
    rw [tokens_of_ne (by decide), openers_free hfree, hparen, openers_noncapturing]
    exact hkept _ (fits_of_settled rfl s) (clear_opening hs hrest)
  · have hwritten := (comment_append hcomment (u := "(?:".toList) (by decide) (Spelling.go true n false s)).1
    have hclear := (comment_append hcomment (u := ['(']) (by decide) s).2 h
    exact hwritten.trans (hkept pl (fits_comment hcomment s) hclear)

theorem paren (hkept : Silent n false s) (hs : s.head? = some '?') (hfits : pl.Fits ('(' :: s) false)
    (h : clear pl (tokens ('(' :: s)) = true) : openers pl (tokens ('(' :: Spelling.go true n false s)) = 0 := by
  obtain ⟨hopen, hrest⟩ := hfits.next_paren h hs
  rw [openers_plain hfits fun hc => absurd hc (by decide)]
  exact hkept _ hopen hrest

end Silent

/-- The rewriting for explicit captures leaves no group without a name in a clear pattern. By induction along
the rewriting: the pattern and what is written come to the same places. -/
theorem openers_go {n : Nat} {b : Bool} (hn : s.length < n) (hfits : pl.Fits s b)
    (h : clear pl (tokens s) = true) : openers pl (tokens (Spelling.go true n b s)) = 0 := by
  fun_induction Spelling.go true n b s generalizing pl with
  | case1 => omega
  | case2 => exact hfits.bare
  | case3 n b c s name after hname ih =>
      split at hname
      · rename_i hk
        simp only [Bool.and_eq_true, Bool.not_eq_true', beq_iff_eq] at hk
        obtain ⟨rfl, rfl⟩ := hk
        have hlt := Spelling.delimited_lt hname
        have hkept : Silent n false after := fun _ => ih (by simp only [List.length_cons] at hn; omega)
        exact hkept.reference hname hfits h
      · cases hname
  | case4 n b c s hk ih =>
      have hrest := (clear_cons h).2
      rw [tokens, hfits.openers_cons rfl]
      refine ih (by simp only [List.length_cons] at hn; omega) ?_ hrest
      cases b with
      | true =>
          rw [next_set_escaped hfits.1]
          exact fits_set rfl s
      | false => exact fits_of_settled (settled_next hfits.1 (by simp) (by simp)) s
  | case5 n c s hc ih =>
      have hback := back_of_not_cons hc
      rw [openers_plain hfits hback]
      rw [tokens_plain hback] at h
      refine ih (by simpa using hn) ?_ (clear_cons h).2
      rw [hfits.next_set]
      by_cases hclose : c = ']'
      · rw [if_pos hclose, bne_eq_false_iff_eq.mpr hclose]
        exact fits_of_settled rfl s
      · rw [if_neg hclose, bne_iff_ne.mpr hclose]
        exact fits_set rfl s
  | case6 n s start after hstart ih =>
      have hle := Spelling.classStart_length hstart
      have hkept : Silent n true after := fun _ => ih (by simp only [List.length_cons] at hn; omega)
      exact hkept.set hstart hfits h
  | case7 n c s hc ih =>
      have hkept : Silent n false (c :: s) := fun _ => ih (by
        simp only [List.length_cons, List.drop_succ_cons, List.drop_zero] at hn ⊢
        omega)
      exact hkept.angle hfits h
  | case8 n c s hc ih =>
      have hkept : Silent n false ('?' :: '<' :: c :: s) := fun _ => ih (by simpa using hn)
      exact hkept.paren rfl hfits h
  | case9 n s name after hname ih =>
      have hlt := Spelling.upTo_lt hname
      have hkept : Silent n false after := fun _ => ih (by simp only [List.length_cons] at hn; omega)
      exact hkept.quoted hname hfits h
  | case10 n s hnone ih =>
      have hkept : Silent n false ('?' :: '\'' :: s) := fun _ => ih (by simpa using hn)
      exact hkept.paren rfl hfits h
  | case11 n s hangle hquote ih =>
      have hkept : Silent n false ('?' :: s) := fun _ => ih (by simpa using hn)
      exact hkept.paren rfl hfits h
  | case12 n s hangle hquote hother ih =>
      have hs : s.head? ≠ some '?' := by
        intro hs
        obtain ⟨r, rfl⟩ := List.head?_eq_some_iff.mp hs
        exact hother r rfl
      have hkept : Silent n false s := fun _ => ih (by simpa using hn)
      exact hkept.bare hs hfits h
  | case13 n c s hc hbracket hparen ih =>
      have hback := back_of_not_cons hc
      rw [openers_plain hfits hback]
      rw [tokens_plain hback] at h
      exact ih (by simpa using hn) (fits_of_settled (settled_next hfits.1 (by simpa using hbracket)
        (by simpa using hparen)) s) (clear_cons h).2

end BaseLib.Regex.Reader
