import BaseLib.Proofs.Regex.Groups

namespace BaseLib.Regex

/-- The groups of a pattern in the order in which they open. -/
def Pattern.captures : Pattern → List Nat
  | empty | char _ | anchor _ | backref _ _ => []
  | seq p q | alt p q | conditional _ p q => p.captures ++ q.captures
  | capture g p => g :: p.captures
  | wrap p | atomic p | ahead _ p | behind _ _ p | repetition _ _ _ p => p.captures

theorem Pattern.captures_ofList (ps : List Pattern) : (ofList ps).captures = ps.flatMap captures := by
  induction ps with
  | nil => rfl
  | cons p ps ih =>
      cases ps with
      | nil => simp [ofList]
      | cons q ps => simp only [ofList, captures, ih, List.flatMap_cons]

theorem Pattern.captures_ofBranches (ps : List Pattern) :
    (ofBranches ps).captures = ps.flatMap captures := by
  induction ps with
  | nil => rfl
  | cons p ps ih =>
      cases ps with
      | nil => simp [ofBranches]
      | cons q ps => simp only [ofBranches, captures, ih, List.flatMap_cons]

namespace Reader

variable {α β : Type} {st st' : State} {l l' : List Nat}

def Moves (f : Reading α) : Prop :=
  ∀ {st x st'}, f.run st = .ok (x, st') → (∃ n, st' = st.past n) ∧ (Torn st.rest → Torn st'.rest)

theorem Steady.moves {f : Reading α} (hf : Steady f) : Moves f := fun h => ⟨hf.forward h, hf.torn h⟩

theorem Moves.bind {f : Reading α} {F : α → Reading β} (hf : Moves f) (hF : ∀ x, Moves (F x)) :
    Moves (f >>= F) := by
  intro st y st' h
  obtain ⟨x, st₁, hfirst, hsecond⟩ := run_bind_eq_ok.mp h
  obtain ⟨⟨n, rfl⟩, htorn⟩ := hf hfirst
  obtain ⟨⟨m, rfl⟩, htorn'⟩ := hF x hsecond
  exact ⟨⟨n + m, past_past st n m⟩, fun h => htorn' (htorn h)⟩

theorem moves_next : Moves next := by
  intro st x st' h
  rcases next_eq_ok.mp h with ⟨-, -, rfl⟩ | ⟨t, ht, -, hend, rfl⟩
  · exact ⟨⟨0, rfl⟩, id⟩
  · refine ⟨⟨t.size, rfl⟩, fun htorn => ⟨?_, hend⟩⟩
    obtain ⟨t', ht', -, -, halong⟩ := htorn.1.cases.resolve_left fun hhere => htorn.2 hhere.1
    rw [ht] at ht'
    cases ht'
    exact halong

theorem Moves.pure (x : α) : Moves (pure x : Reading α) := Steady.moves (Steady.pure x)

theorem moves_accept (c : Char) : Moves (accept c) := by
  intro st x st' h
  rw [accept, run_bind_ok (run_peek st)] at h
  split at h
  · exact (moves_next.bind fun _ => Moves.pure true) h
  · exact Moves.pure false h

theorem not_torn_nil : ¬Torn [] := fun h => absurd h.1.length_le (by simp)

theorem Moves.of_agree {f : Reading α}
    (h : ∀ {d : List Char} {st : State}, ')' ∉ d → Fence d d → Beside d d st st → Agree d d f f st st) :
    Moves f := by
  intro st x st' hrun
  constructor
  · have hself : Beside [] [] st st := ⟨Along.self st.rest, rfl, rfl, rfl, rfl, rfl, rfl, by simp⟩
    obtain ⟨-, ⟨n, hn, -⟩, -⟩ := (h (by simp) fence_nil hself).of_runs hrun hrun
    exact ⟨n, hn⟩
  · intro ht
    have hself : Beside ['\\'] ['\\'] st st := ⟨ht.1, rfl, rfl, rfl, rfl, rfl, rfl, fun _ => ht.2⟩
    obtain ⟨-, -, h'⟩ := (h (by simp) fence_backslash hself).of_runs hrun hrun
    exact ⟨h'.along, h'.intact rfl⟩

theorem moves_takeName {c : Char} (hc : c = ')' ∨ c = '>') (what : String) : Moves (takeName c what) := by
  refine Moves.of_agree fun hparen hd h => agree_takeName hd h (.inl ?_) what
  rcases hc with rfl | rfl
  · exact hparen
  · exact hd.angle

theorem moves_skipComment (start n : Nat) : Moves (skipComment start n) :=
  Moves.of_agree fun hparen hd h => agree_skipComment hd h (.inl hparen)

theorem moves_skipLine (n : Nat) : Moves (skipLine n) := by
  induction n with
  | zero =>
      intro st x st' h
      cases h
  | succ n ih =>
      rw [skipLine]
      refine moves_next.bind fun t => ?_
      split
      · exact Moves.pure _
      · exact Moves.pure _
      · exact ih

structure Named (st : State) : Prop where
  whole : 1 ≤ st.groups
  keys : (st.names.map Prod.fst).Nodup
  ordered : (st.names.map Prod.snd).Pairwise (· < ·)
  opened : ∀ e ∈ st.names, 1 ≤ e.2 ∧ e.2 < st.groups
  valid : ∀ e ∈ st.names, Text.isName e.1.toList = true

theorem Named.of_eq (h : Named st) (hgroups : st'.groups = st.groups) (hnames : st'.names = st.names) :
    Named st' where
  whole := hgroups ▸ h.whole
  keys := hnames ▸ h.keys
  ordered := hnames ▸ h.ordered
  opened := by
    rw [hnames, hgroups]
    exact h.opened
  valid := hnames ▸ h.valid

/-- Between two states the groups `l` were opened, one after the other. -/
structure Opens (st : State) (l : List Nat) (st' : State) : Prop where
  groups : st'.groups = st.groups + l.length
  opened : l = List.range' st.groups l.length
  named : Named st → Named st'
  torn : Torn st.rest → Torn st'.rest

theorem Opens.of_eq (hgroups : st'.groups = st.groups) (hnames : st'.names = st.names)
    (htorn : Torn st.rest → Torn st'.rest) : Opens st [] st' where
  groups := hgroups
  opened := rfl
  named := fun h => h.of_eq hgroups hnames
  torn := htorn

theorem Opens.trans {st₁ : State} (h : Opens st l st₁) (h' : Opens st₁ l' st') :
    Opens st (l ++ l') st' where
  groups := by rw [h'.groups, h.groups, List.length_append, Nat.add_assoc]
  opened := by
    rw [List.length_append, ← List.range'_append_1, ← h.groups, ← h.opened, ← h'.opened]
  named := fun hn => h'.named (h.named hn)
  torn := fun ht => h'.torn (h.torn ht)

theorem Opens.then_none {st₁ : State} (h : Opens st l st₁) (h' : Opens st₁ [] st') :
    Opens st l st' := by
  have htrans := h.trans h'
  rwa [List.append_nil] at htrans

theorem Moves.opens {f : Reading α} (hf : Moves f) {x : α} (h : f.run st = .ok (x, st')) :
    Opens st [] st' := by
  obtain ⟨⟨n, rfl⟩, htorn⟩ := hf h
  exact Opens.of_eq rfl rfl htorn

theorem opens_openGroup {name : Option (List Char)} {g : Nat} (hname : ∀ n ∈ name, Text.isName n = true)
    (h : (openGroup name).run st = .ok (g, st')) : g = st.groups ∧ Opens st [g] st' := by
  obtain ⟨rfl, hfresh, rfl⟩ := openGroup_ok h
  refine ⟨rfl, rfl, rfl, fun hn => ⟨Nat.le_succ_of_le hn.whole, ?_, ?_, ?_, ?_⟩, id⟩
  · rw [List.map_append, List.nodup_append]
    refine ⟨hn.keys, ?_, ?_⟩
    · cases name <;> simp
    · rintro key hkey _ hnew rfl
      obtain ⟨_, he, rfl⟩ := List.mem_map.mp hnew
      obtain ⟨n, hmem, rfl⟩ := List.mem_map.mp he
      exact hfresh n (Option.mem_toList.mp hmem) hkey
  · rw [List.map_append, List.pairwise_append]
    refine ⟨hn.ordered, ?_, ?_⟩
    · cases name <;> simp
    · intro i hi j hj
      obtain ⟨e, he, rfl⟩ := List.mem_map.mp hi
      obtain ⟨_, he', rfl⟩ := List.mem_map.mp hj
      obtain ⟨n, -, rfl⟩ := List.mem_map.mp he'
      exact (hn.opened e he).2
  · intro e he
    rcases List.mem_append.mp he with he | he
    · exact ⟨(hn.opened e he).1, Nat.lt_succ_of_lt (hn.opened e he).2⟩
    · obtain ⟨n, -, rfl⟩ := List.mem_map.mp he
      exact ⟨hn.whole, Nat.lt_succ_self _⟩
  · intro e he
    rcases List.mem_append.mp he with he | he
    · exact hn.valid e he
    · obtain ⟨n, hmem, rfl⟩ := List.mem_map.mp he
      rw [String.toList_ofList]
      exact hname n (Option.mem_toList.mp hmem)

def Captures (f : Reading Pattern) : Prop :=
  ∀ {st p st'}, f.run st = .ok (p, st') → Opens st p.captures st'

def Bare (f : Reading Pattern) : Prop := ∀ {st p st'}, f.run st = .ok (p, st') → p.captures = []

theorem Bare.bind {f : Reading α} {F : α → Reading Pattern} (hF : ∀ x, Bare (F x)) :
    Bare (f >>= F) := by
  intro st y st' h
  obtain ⟨x, st₁, -, hsecond⟩ := run_bind_eq_ok.mp h
  exact hF x hsecond

theorem Bare.pure {p : Pattern} (hp : p.captures = []) : Bare (pure p) := by
  intro st y st' h
  cases h
  exact hp

theorem Bare.refuse (f : Flaw) (back : Nat) : Bare (refuse f back) := fun h =>
  absurd h (fails_refuse _ _ _ _ _)

theorem Bare.ite {c : Prop} [Decidable c] {f g : Reading Pattern} (hf : Bare f) (hg : Bare g) :
    Bare (if c then f else g) := by
  split
  · exact hf
  · exact hg

theorem bare_literal (code : Nat) : Bare (literal code) := Bare.bind fun _ => Bare.pure rfl

theorem bare_backref (g : Nat) : Bare (backref g) := Bare.bind fun _ => Bare.pure rfl

theorem bare_numberedReference (digits : List Char) : Bare (numberedReference digits) := by
  unfold numberedReference
  refine Bare.bind fun s => Bare.ite (Bare.refuse _ _) ?_
  exact Bare.bind fun closed => Bare.ite (Bare.refuse _ _) (Bare.bind fun _ => bare_backref _)

theorem bare_digitEscape (first : Char) : Bare (digitEscape first) := by
  unfold digitEscape
  refine Bare.bind fun t => ?_
  split
  · refine Bare.ite (Bare.bind fun _ => Bare.bind fun t => ?_) (bare_numberedReference _)
    split
    · refine Bare.ite (Bare.bind fun _ => ?_) (bare_numberedReference _)
      exact Bare.ite (Bare.refuse _ _) (bare_literal _)
    · exact bare_numberedReference _
  · exact bare_numberedReference _

theorem bare_escape (c : Char) : Bare (escape c) := by
  unfold escape
  refine Bare.bind fun s => ?_
  dsimp only
  split
  · exact Bare.pure rfl
  · exact Bare.pure rfl
  · exact Bare.pure rfl
  · exact Bare.pure rfl
  · split
    · exact Bare.pure rfl
    · split
      · exact bare_literal _
      · exact Bare.ite (Bare.bind fun _ => bare_literal _)
          (Bare.ite (bare_digitEscape c) (Bare.bind fun _ => bare_literal _))

theorem bare_set : Bare set := by
  unfold set
  refine Bare.bind fun s => Bare.bind fun negated => Bare.bind fun s => Bare.bind fun items =>
    Bare.bind fun s => ?_
  dsimp only
  split
  · exact Bare.pure rfl
  · exact Bare.pure rfl

theorem Bare.captures {f : Reading Pattern} (hf : Bare f) (hmoves : Moves f) : Captures f := by
  intro st p st' h
  rw [hf h]
  exact hmoves.opens h

theorem captures_repeated {start low : Nat} {high : Option Nat} {done done' : List Pattern}
    (h : (repeated start low high done).run st = .ok (done', st')) :
    Opens st [] st' ∧
      done'.reverse.flatMap Pattern.captures = done.reverse.flatMap Pattern.captures := by
  unfold repeated at h
  split at h
  · exact absurd h (fails_throw _ _ _ _)
  · exact absurd h (fails_throw _ _ _ _)
  · exact absurd h (fails_throw _ _ _ _)
  · obtain ⟨g, st₁, hgreed, h⟩ := run_bind_eq_ok.mp h
    cases h
    exact ⟨Moves.opens (Steady.moves steady_greed) hgreed, by simp [Pattern.captures]⟩

theorem captures_under {f : Reading Pattern} (hf : Captures f) (flags : Flags) :
    Captures (under flags f) := by
  intro st p st' h
  obtain ⟨st₁, hread, rfl⟩ := under_ok h
  have hbefore : Opens st [] { st with flags := flags } := Opens.of_eq rfl rfl id
  exact hbefore.trans ((hf hread).then_none (Opens.of_eq rfl rfl id))

theorem moves_close (start : Nat) : Moves (close start) := by
  unfold close
  refine Moves.bind (moves_accept ')') fun closed => ?_
  split
  · exact Moves.pure _
  · intro st x st' h
    exact absurd h (fails_throw _ _ _ _)

theorem captures_capturing {body : Reading Pattern} (hbody : Captures body) (start : Nat)
    {name : Option (List Char)} (hname : ∀ n ∈ name, Text.isName n = true) :
    Captures (capturing body start name) := by
  intro st p st' h
  obtain ⟨g, q, st₁, st₂, st₃, rfl, hopen, hread, hclose, rfl⟩ := capturing_ok h
  obtain ⟨-, hfirst⟩ := opens_openGroup hname hopen
  have hbodies := hfirst.trans (captures_under hbody _ hread)
  have hclosed := hbodies.then_none (Moves.opens (moves_close start) hclose)
  exact hclosed.then_none (Opens.of_eq rfl rfl id)

theorem moves_namedReference : Moves namedReference :=
  Moves.of_agree fun hparen hd h => agree_namedReference hd h (.inl hparen)

theorem bare_namedReference : Bare namedReference := by
  unfold namedReference
  refine Bare.bind fun name => Bare.bind fun _ => Bare.bind fun s => ?_
  split
  · exact Bare.refuse _ _
  · exact Bare.bind fun closed => Bare.ite (Bare.refuse _ _) (Bare.bind fun _ => bare_backref _)

theorem captures_namedForm {body : Reading Pattern} (hbody : Captures body) (start : Nat) :
    Captures (namedForm body start) := by
  intro st p st' h
  rcases namedForm_ok h with ⟨name, st₁, st₂, hangle, hname, hvalid, h⟩ | ⟨st₁, st₂, hangle, hequals, h⟩
  · have hmoved := Moves.opens (moves_accept '<') hangle
    have hnamed := hmoved.then_none (Moves.opens (moves_takeName (.inr rfl) _) hname)
    have hvalid : ∀ n ∈ some name, Text.isName n = true := by
      rintro _ ⟨rfl⟩
      exact hvalid
    exact hnamed.trans (captures_capturing hbody start hvalid h)
  · have hmoved := Moves.opens (moves_accept '<') hangle
    have hmoved' := hmoved.then_none (Moves.opens (moves_accept '=') hequals)
    exact hmoved'.trans (Bare.captures bare_namedReference moves_namedReference h)

theorem captures_lookaround {body : Reading Pattern} (hbody : Captures body) (start : Nat)
    (isBehind negated : Bool) : Captures (lookaround body start isBehind negated) := by
  intro st p st' h
  obtain ⟨q, st₁, st₂, before, after, bad, hp, hread, hclose, rfl⟩ := lookaround_ok h
  have hcaptures : p.captures = q.captures := by rcases hp with rfl | ⟨least, rfl⟩ <;> rfl
  rw [hcaptures]
  have hbefore : Opens st [] { st with lookbehind := before } := Opens.of_eq rfl rfl id
  have hafter : Opens st₁ [] { st₁ with lookbehind := after } := Opens.of_eq rfl rfl id
  have hbody := (hbefore.trans (captures_under hbody _ hread)).then_none hafter
  have hclosed := hbody.then_none (Moves.opens (moves_close start) hclose)
  exact hclosed.then_none (Opens.of_eq rfl rfl id)

theorem opens_conditionGroup {g : Nat} (h : conditionGroup.run st = .ok (g, st')) : Opens st [] st' := by
  obtain ⟨name, st₁, conditions, hname, rfl⟩ := conditionGroup_ok h
  exact (Moves.opens (moves_takeName (.inl rfl) _) hname).trans (Opens.of_eq rfl rfl id)

theorem captures_conditional {branch : Reading Pattern} (hbranch : Captures branch) (start : Nat) :
    Captures (conditional branch start) := by
  intro st p st' h
  obtain ⟨g, yes, second, st₁, st₂, st₃, hgroup, hyes, hbar, hbranches⟩ := conditional_ok h
  have hfirst := ((opens_conditionGroup hgroup).trans (captures_under hbranch _ hyes)).then_none
    (Moves.opens (moves_accept '|') hbar)
  rcases hbranches with ⟨no, st₄, rfl, hno, hclose⟩ | ⟨rfl, hclose⟩
  · exact (hfirst.trans (captures_under hbranch _ hno)).then_none (Moves.opens (moves_close start) hclose)
  · rw [Pattern.captures]
    exact hfirst.trans (Moves.opens (moves_close start) hclose)

theorem captures_grouped {body : Reading Pattern} (hbody : Captures body) (start : Nat) (flags : Flags) :
    Captures (group.grouped body start flags) := by
  intro st p st' h
  obtain ⟨st₁, hread, hclose⟩ := grouped_ok h
  exact (captures_under hbody flags hread).then_none (Moves.opens (moves_close start) hclose)

def capturesOf (p : Option Pattern) : List Nat := (p.map Pattern.captures).getD []

theorem opens_inline {body : Reading Pattern} (hbody : Captures body) {start : Nat} {atStart : Bool}
    {on : List Char} {inl : Option Inline} {p : Option Pattern}
    (h : (group.inline body start atStart on inl).run st = .ok (p, st')) :
    Opens st (capturesOf p) st' := by
  rcases inline_ok h with ⟨own, q, -, rfl, hgrouped⟩ | ⟨-, -, rfl, hset⟩
  · change Opens st q.captures st'
    exact captures_grouped hbody start _ hgrouped
  · cases hset
    exact Opens.of_eq rfl rfl id

theorem moves_flagsOn (on : List Char) (c : Char) (n : Nat) : Moves (flagsOn on c n) :=
  Steady.moves fun hd h => agree_flagsOn hd h

theorem opens_form {body branch : Reading Pattern} (hbody : Captures body) (hbranch : Captures branch)
    {start : Nat} {atStart : Bool} {t : Token} {p : Option Pattern}
    (h : ReadsForm body branch start atStart st t p st') : Opens st (capturesOf p) st' := by
  cases h with
  | named h => exact captures_namedForm hbody start h
  | @grouped q _ h | @atomic q _ h =>
      change Opens st q.captures st'
      exact captures_grouped hbody start _ h
  | comment h => exact Moves.opens (moves_skipComment _ _) h
  | ahead _ h => exact captures_lookaround hbody start _ _ h
  | behind _ hnext h => exact (Moves.opens moves_next hnext).trans (captures_lookaround hbody start _ _ h)
  | conditional h => exact captures_conditional hbranch start h
  | off hflags h => exact (Moves.opens (Steady.moves (steady_flagsEnd [] '-')) hflags).trans (opens_inline hbody h)
  | on _ hflags h => exact (Moves.opens (moves_flagsOn _ _ _) hflags).trans (opens_inline hbody h)

theorem opens_group {body branch : Reading Pattern} (hbody : Captures body) (hbranch : Captures branch)
    {start : Nat} {atStart : Bool} {p : Option Pattern}
    (h : (group body branch start atStart).run st = .ok (p, st')) : Opens st (capturesOf p) st' := by
  rcases group_ok h with ⟨p, rfl, -, h⟩ | ⟨t, st₁, st₂, hmark, hnext, hform⟩
  · exact captures_capturing hbody start (by simp) h
  · exact (Moves.opens moves_next hmark).trans ((Moves.opens moves_next hnext).trans (opens_form hbody hbranch hform))

theorem opens_item {body branch : Reading Pattern} (hbody : Captures body) (hbranch : Captures branch)
    {start : Nat} {atStart : Bool} {flags : Flags} {done done' : List Pattern} {t : Token}
    (h : (item body branch start atStart flags done t).run st = .ok (done', st')) :
    ∃ l, Opens st l st' ∧
      done'.reverse.flatMap Pattern.captures = done.reverse.flatMap Pattern.captures ++ l := by
  have hliteral (code : Nat) : Captures (literal code) :=
    Bare.captures (bare_literal code) (Steady.moves (steady_literal code))
  cases item_ok h with
  | escaped hp => exact ⟨_, Bare.captures (bare_escape _) (Steady.moves (steady_escape _)) hp, by simp⟩
  | set hp => exact ⟨_, Bare.captures bare_set (Steady.moves steady_set) hp, by simp⟩
  | literal _ _ _ hp => exact ⟨_, hliteral _ hp, by simp⟩
  | space => exact ⟨[], Opens.of_eq rfl rfl id, by simp⟩
  | any | anchor => exact ⟨[], Opens.of_eq rfl rfl id, by simp [Pattern.captures]⟩
  | comment _ hskip => exact ⟨[], Moves.opens (moves_skipLine _) hskip, by simp⟩
  | @group p _ hp =>
      refine ⟨capturesOf p, opens_group hbody hbranch hp, ?_⟩
      cases p <;> simp [capturesOf]
  | counts _ hcounts hp =>
      exact ⟨_, (Moves.opens (Steady.moves (steady_counts _)) hcounts).trans (hliteral _ hp), by simp⟩
  | repeated _ hcounts hrepeated =>
      obtain ⟨hrepeated, hdone⟩ := captures_repeated hrepeated
      exact ⟨[], (Moves.opens (Steady.moves (steady_counts _)) hcounts).trans hrepeated, by simp [hdone]⟩

theorem follows (n : Nat) :
    (∀ {nested done st p st'}, (branches nested done n).run st = .ok (p, st') →
      ∃ l, Opens st l st' ∧ p.captures = done.reverse.flatMap Pattern.captures ++ l) ∧
    ∀ {first done st p st'}, (items first done n).run st = .ok (p, st') →
      ∃ l, Opens st l st' ∧ p.captures = done.reverse.flatMap Pattern.captures ++ l := by
  induction n with
  | zero =>
      exact ⟨fun h => absurd h (branches_zero_fails _ _ _ _), fun h => absurd h (items_zero_fails _ _ _ _)⟩
  | succ n ih =>
      obtain ⟨hbranches, hitems⟩ := ih
      have hbody : Captures (branches true [] n) := by
        intro st p st' h
        obtain ⟨l, hopens, hp⟩ := hbranches h
        exact hp ▸ hopens
      have hbranch : Captures (items false [] n) := by
        intro st p st' h
        obtain ⟨l, hopens, hp⟩ := hitems h
        exact hp ▸ hopens
      constructor
      · intro nested done st p st' h
        obtain ⟨q, st₁, b, st₂, hq, hbar, h⟩ := branches_ok h
        obtain ⟨l', hopens, hq⟩ := hitems hq
        have hfirst := hopens.then_none (Moves.opens (moves_accept '|') hbar)
        cases b with
        | true =>
            obtain ⟨l, hopens', hp⟩ := hbranches h
            exact ⟨l' ++ l, hfirst.trans hopens', by simp [hp, hq]⟩
        | false =>
            cases h
            exact ⟨l', hfirst, by simp [Pattern.captures_ofBranches, hq]⟩
      · intro first done st p st' h
        by_cases hend : ∀ t, tokenOf st.rest = some t → t = .plain '|' ∨ t = .plain ')'
        · obtain ⟨rfl, rfl⟩ := items_end hend h
          exact ⟨[], Opens.of_eq rfl rfl id, by simp [Pattern.captures_ofList]⟩
        · simp only [not_forall] at hend
          obtain ⟨t, ht, hmore⟩ := hend
          obtain ⟨done', st₁, hnext, hitem, h⟩ := items_more ht hmore h
          obtain ⟨l', hopens, hdone⟩ := opens_item hbody hbranch hitem
          obtain ⟨l, hopens', hp⟩ := hitems h
          have hfirst := (Moves.opens moves_next hnext).trans hopens
          exact ⟨l' ++ l, hfirst.trans hopens', by simp [hp, hdone]⟩

theorem captures_branches (nested : Bool) (n : Nat) : Captures (branches nested [] n) := by
  intro st p st' h
  obtain ⟨l, hopens, hp⟩ := (follows n).1 h
  exact hp ▸ hopens

theorem tokenOf_eq_none {u : List Char} (h : tokenOf u = none) : u = [] := by
  rw [tokenOf.eq_def] at h
  split at h
  · rfl
  · cases h
  · cases h

theorem whole_ok {n : Nat} {p : Pattern} (h : (whole n).run st = .ok (p, st')) :
    (branches false [] n).run st = .ok (p, st') ∧ st'.rest = [] := by
  unfold whole at h
  obtain ⟨q, st₁, hread, h⟩ := run_bind_eq_ok.mp h
  rw [run_bind_ok (run_get st₁)] at h
  split at h
  · exact absurd h (fails_throw _ _ _ _)
  rw [run_bind_ok (run_peek st₁)] at h
  split at h
  · exact absurd h (fails_refuse _ _ _ _ _)
  rename_i hend
  have hrest : st₁.rest = [] := tokenOf_eq_none (by simpa using hend)
  split at h
  · exact absurd h (fails_throw _ _ _ _)
  split at h
  · exact absurd h (fails_throw _ _ _ _)
  · exact absurd h (fails_throw _ _ _ _)
  · cases h
    exact ⟨hread, hrest⟩

end Reader

/-- The groups of a program are numbered from one in the order in which they open, and the names are
identifiers, each of one group. -/
structure Program.Numbered (p : Program) : Prop where
  captures : p.body.captures = List.range' 1 p.groups
  keys : (p.names.map Prod.fst).Nodup
  ordered : (p.names.map Prod.snd).Pairwise (· < ·)
  bounds : ∀ e ∈ p.names, 1 ≤ e.2 ∧ e.2 ≤ p.groups
  valid : ∀ e ∈ p.names, Text.isName e.1.toList = true

def Reader.State.start (known : CharacterNames) (pattern : List Char) (flags : Flags) : Reader.State :=
  { rest := pattern, position := 0, flags, characters := known }

theorem read_ok {known : CharacterNames} {pattern : List Char} {flags : Flags} {program : Program}
    (h : read known pattern flags = .ok program) :
    pattern ≠ ['\\'] ∧ ∃ st' : Reader.State,
      (Reader.branches false [] (3 * pattern.length + 8)).run (.start known pattern flags) =
          .ok (program.body, st') ∧ st'.rest = [] ∧ program.groups = st'.groups - 1 ∧
        program.names = st'.names := by
  have hread : read known pattern flags = (do
      Reader.checkEnd (.start known pattern flags)
      let r ← (Reader.whole (3 * pattern.length + 8)).run (.start known pattern flags)
      return ⟨r.1, r.2.groups - 1, r.2.names⟩) := rfl
  rw [hread] at h
  by_cases hend : pattern = ['\\']
  · have hcheck : Reader.checkEnd (.start known pattern flags) =
        .error (.flaw .trailingBackslash (some 0)) := if_pos hend
    rw [hcheck] at h
    cases h
  · have hcheck : Reader.checkEnd (.start known pattern flags) = .ok () := if_neg hend
    rw [hcheck] at h
    cases hrun : (Reader.whole (3 * pattern.length + 8)).run (.start known pattern flags) with
    | error r =>
        rw [hrun] at h
        cases h
    | ok r =>
        rw [hrun] at h
        cases h
        obtain ⟨hbranches, hrest⟩ := Reader.whole_ok hrun
        exact ⟨hend, r.2, hbranches, hrest, rfl, rfl⟩

theorem read_numbered {known : CharacterNames} {pattern : List Char} {flags : Flags} {program : Program}
    (h : read known pattern flags = .ok program) : program.Numbered ∧ ¬Reader.Torn pattern := by
  obtain ⟨-, st', hrun, hrest, hgroups, hnames⟩ := read_ok h
  have hopens := Reader.captures_branches _ _ hrun
  have hgroups' : program.groups = program.body.captures.length := by
    rw [hgroups, hopens.groups]
    exact Nat.add_sub_cancel_left 1 _
  have hnamed := hopens.named ⟨le_rfl, List.nodup_nil, List.Pairwise.nil,
    by simp [Reader.State.start], by simp [Reader.State.start]⟩
  refine ⟨⟨?_, hnames ▸ hnamed.keys, hnames ▸ hnamed.ordered, ?_, hnames ▸ hnamed.valid⟩, ?_⟩
  · rw [hgroups']
    exact hopens.opened
  · intro e he
    rw [hnames] at he
    obtain ⟨hle, hlt⟩ := hnamed.opened e he
    exact ⟨hle, by omega⟩
  · intro htorn
    have hend := hopens.torn htorn
    rw [hrest] at hend
    exact Reader.not_torn_nil hend

theorem read_of_ofPattern {known : CharacterNames} {pattern : List Char} {options : RegexOptions} {r : Regex}
    (h : ofPattern known pattern options = .ok r) :
    read known (Spelling.normalize pattern options.explicitCapture) options.flags = .ok r.program := by
  rw [ofPattern] at h
  split at h
  · cases h
  · split at h
    · cases h
      assumption
    · cases h
    · cases h

end BaseLib.Regex
