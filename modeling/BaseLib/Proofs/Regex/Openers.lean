import BaseLib.Proofs.Regex.Passages

namespace BaseLib.Regex.Reader

open Place

variable {α : Type} {pl pl₁ pl' : Place} {st st₁ st' : State} {t : Token} {c : Char}

def Counts (pl pl' : Place) (st st' : State) : Prop :=
  openers pl (tokens st.rest) + st.groups + st'.names.length =
    openers pl' (tokens st'.rest) + st'.groups + st.names.length

theorem Counts.trans (h : Counts pl pl₁ st st₁) (h' : Counts pl₁ pl' st₁ st') : Counts pl pl' st st' := by
  unfold Counts at *
  omega

structure Leads (pl pl' : Place) (st st' : State) : Prop where
  flags : st'.flags = st.flags
  counts : Counts pl pl' st st'

theorem Leads.trans (h : Leads pl pl₁ st st₁) (h' : Leads pl₁ pl' st₁ st') : Leads pl pl' st st' :=
  ⟨h'.flags.trans h.flags, h.counts.trans h'.counts⟩

theorem Leads.of_eq (hrest : st'.rest = st.rest) (hgroups : st'.groups = st.groups) (hnames : st'.names = st.names)
    (hflags : st'.flags = st.flags) : Leads pl pl st st' :=
  ⟨hflags, by rw [Counts, hrest, hgroups, hnames]⟩

theorem Passes.leads {f : Reading α} {x : α} (hf : Passes pl pl' f st) (h : f.run st = .ok (x, st')) :
    Leads pl pl' st st' := by
  obtain ⟨n, rfl, heq⟩ := hf x st' h
  refine ⟨rfl, ?_⟩
  change openers pl (tokens st.rest) + st.groups + st.names.length =
    openers pl' (tokens (st.past n).rest) + st.groups + st.names.length
  rw [heq]

def State.place (st : State) (outer : List Bool) : Place := ⟨.item, st.flags.verbose, outer⟩

def State.inner (st : State) (outer : List Bool) : Place := ⟨.item, st.flags.verbose, st.flags.verbose :: outer⟩

@[simp]
theorem State.mode_place (st : State) (outer : List Bool) : (st.place outer).mode = .item := rfl

@[simp]
theorem State.mode_inner (st : State) (outer : List Bool) : (st.inner outer).mode = .item := rfl

theorem Leads.then_inner {outer : List Bool} (h : Leads pl (st.inner outer) st st₁)
    (h' : Leads (st₁.inner outer) (st₁.place outer) st₁ st') : Leads pl (st.place outer) st st' := by
  rw [State.inner, State.place, h.flags] at h'
  exact h.trans h'

def Scans (f : Reading Pattern) : Prop :=
  ∀ {st p st'}, f.run st = .ok (p, st') → ∀ outer, Leads (st.place outer) (st.place outer) st st'

theorem leads_past (pl : Place) (hmode : pl.mode ≠ .opened) (ht : tokenOf st.rest = some t) :
    Leads pl (pl.next t) st (st.past t.size) := by
  refine ⟨rfl, ?_⟩
  rw [Counts, tokens_of_some ht, openers_cons hmode]
  rfl

theorem leads_next (pl : Place) (hmode : pl.mode ≠ .opened) (h : next.run st = .ok (some t, st')) :
    Leads pl (pl.next t) st st' := by
  rcases next_eq_ok.mp h with ⟨-, ht, -⟩ | ⟨t', ht, heq, -, rfl⟩
  · cases ht
  · cases heq
    exact leads_past pl hmode ht

theorem leads_close {start : Nat} {x : Unit} (verbose : Bool) {verbose' : Bool} {outer : List Bool}
    (h : (close start).run st = .ok (x, st')) :
    Leads ⟨.item, verbose', verbose :: outer⟩ ⟨.item, verbose, outer⟩ st st' := by
  obtain ⟨ht, rfl⟩ := close_ok h
  exact leads_past ⟨.item, verbose', verbose :: outer⟩ (by simp) ht

theorem leads_under {body : Reading Pattern} (hbody : Scans body) {flags : Flags} {p : Pattern}
    (h : (under flags body).run st = .ok (p, st')) (outer : List Bool) :
    Leads ⟨.item, flags.verbose, outer⟩ ⟨.item, flags.verbose, outer⟩ st st' := by
  obtain ⟨st₁, hread, rfl⟩ := under_ok h
  exact ⟨rfl, (hbody hread outer).counts⟩

theorem leads_capturing {body : Reading Pattern} (hbody : Scans body) {start : Nat} {name : Option (List Char)}
    {p : Pattern} (h : (capturing body start name).run st = .ok (p, st')) (outer : List Bool) :
    ∃ st₁, st₁.rest = st.rest ∧ st₁.flags = st.flags ∧ st₁.groups = st.groups + 1 ∧
      st₁.names.length = st.names.length + name.toList.length ∧
      Leads (st.inner outer) (st.place outer) st₁ st' := by
  obtain ⟨g, q, st₁, st₂, st₃, rfl, hopen, hread, hclose, rfl⟩ := capturing_ok h
  obtain ⟨-, -, rfl⟩ := openGroup_ok hopen
  have hinner := leads_under hbody hread (st.flags.verbose :: outer)
  refine ⟨_, ?_, ?_, ?_, ?_, (hinner.trans (leads_close st.flags.verbose hclose)).trans (.of_eq rfl rfl rfl rfl)⟩
  · rfl
  · rfl
  · rfl
  · rw [List.length_append, List.length_map]

theorem leads_named {body : Reading Pattern} (hbody : Scans body) {start : Nat} {name : List Char}
    {p : Pattern} (h : (capturing body start (some name)).run st = .ok (p, st')) (outer : List Bool) :
    Leads (st.inner outer) (st.place outer) st st' := by
  obtain ⟨st₁, hrest, hflags, hgroups, hnames, hleads⟩ := leads_capturing hbody h outer
  refine Leads.trans ⟨hflags, ?_⟩ hleads
  rw [Counts, hrest, hgroups, hnames, Option.toList_some, List.length_singleton]
  omega

theorem leads_unnamed {body : Reading Pattern} (hbody : Scans body) {start : Nat} {p : Pattern}
    (hmark : tokenOf st.rest ≠ some (.plain '?'))
    (h : (capturing body start none).run st = .ok (p, st')) (outer : List Bool) :
    Leads (st.place outer).opening (st.place outer) st st' := by
  obtain ⟨st₁, hrest, hflags, hgroups, hnames, hleads⟩ := leads_capturing hbody h outer
  refine Leads.trans ⟨hflags, ?_⟩ hleads
  have hcount : openers (st.place outer).opening (tokens st.rest) =
      openers (st.inner outer) (tokens st.rest) + 1 := by
    cases ht : tokenOf st.rest with
    | none =>
        rw [tokens_of_none ht]
        rfl
    | some t =>
        have ht' : t ≠ .plain '?' := fun heq => hmark (heq ▸ ht)
        have hbare : (st.place outer).opening.bare (some t) = 1 := if_pos ⟨rfl, fun h => ht' (Option.some.inj h)⟩
        have hnext : (st.place outer).opening.next t = (st.inner outer).next t := if_neg ht'
        rw [tokens_of_some ht, openers, openers, hbare, hnext]
        rfl
  rw [Counts, hrest, hgroups, hnames, hcount, Option.toList_none, List.length_nil]
  omega

theorem leads_name {terminator : Char} {what : String} {name : List Char} (hitem : pl.mode = .item)
    (h : (takeName terminator what).run st = .ok (name, st')) (hname : Text.isName name = true) :
    Leads pl (pl.next (.plain terminator)) st st' := by
  obtain ⟨ts, k, rfl, htokens, rfl, -⟩ := takeName_ok h
  have hmode : pl.mode ≠ .opened := by simp [hitem]
  refine ⟨rfl, ?_⟩
  rw [Counts, htokens, openers_identifier hname hitem, openers_cons hmode]
  rfl

theorem leads_namedReference {p : Pattern} {outer : List Bool}
    (h : namedReference.run st = .ok (p, st')) : Leads (st.inner outer) (st.place outer) st st' := by
  unfold namedReference at h
  obtain ⟨name, st₁, hname, h⟩ := run_bind_eq_ok.mp h
  obtain ⟨_, st₂, hcheck, h⟩ := run_bind_eq_ok.mp h
  obtain ⟨hvalid, hkept⟩ := checkName_ok hcheck
  rw [hkept] at h
  have hnamed : Leads (st.inner outer) (st.place outer) st st₁ := leads_name rfl hname hvalid
  refine hnamed.trans (Passes.leads ?_ h)
  refine .get ?_
  split
  · exact .refuse _ _
  · refine .bind (passes_isClosed _) fun closed _ => .ite (fun _ => .refuse _ _) fun _ => ?_
    exact .bind (passes_checkLookbehind _) fun _ _ => passes_backref _

theorem leads_namedForm {body : Reading Pattern} (hbody : Scans body) {start : Nat} {p : Pattern}
    (h : (namedForm body start).run st = .ok (p, st')) (outer : List Bool) :
    Leads (st.inner outer) (st.place outer) st st' := by
  have hinner : (st.inner outer).idle := .inl rfl
  rcases namedForm_ok h with ⟨name, st₁, st₂, hangle, hname, hvalid, h⟩ | ⟨st₁, st₂, hangle, hequals, h⟩
  · have hfirst := (passes_accept hinner (by decide)).leads hangle
    have hnamed : Leads (st.inner outer) (st.inner outer) st₁ st₂ := leads_name rfl hname hvalid
    exact (hfirst.trans hnamed).then_inner (leads_named hbody h outer)
  · have hfirst := (passes_accept hinner (by decide)).leads hangle
    have hsecond := hfirst.trans ((passes_accept hinner (by decide)).leads hequals)
    exact hsecond.then_inner (leads_namedReference h)

theorem leads_grouped {body : Reading Pattern} (hbody : Scans body) {start : Nat} {flags : Flags} {p : Pattern}
    (h : (group.grouped body start flags).run st = .ok (p, st')) (outer : List Bool) :
    Leads ⟨.item, flags.verbose, st.flags.verbose :: outer⟩ (st.place outer) st st' := by
  obtain ⟨st₁, hread, hclose⟩ := grouped_ok h
  exact (leads_under hbody hread (st.flags.verbose :: outer)).trans (leads_close st.flags.verbose hclose)

theorem leads_lookaround {body : Reading Pattern} (hbody : Scans body) {start : Nat} {isBehind negated : Bool}
    {p : Pattern} (h : (lookaround body start isBehind negated).run st = .ok (p, st')) (outer : List Bool) :
    Leads (st.inner outer) (st.place outer) st st' := by
  obtain ⟨q, st₁, st₂, before, after, bad, -, hread, hclose, rfl⟩ := lookaround_ok h
  have hbefore : Leads (st.inner outer) (st.inner outer) st { st with lookbehind := before } := .of_eq rfl rfl rfl rfl
  have hafter : Leads (st.inner outer) (st.inner outer) st₁ { st₁ with lookbehind := after } := .of_eq rfl rfl rfl rfl
  have hunder := (hbefore.trans (leads_under hbody hread (st.flags.verbose :: outer))).trans hafter
  exact (hunder.trans (leads_close st.flags.verbose hclose)).trans (.of_eq rfl rfl rfl rfl)

theorem leads_conditionGroup {g : Nat} (h : conditionGroup.run st = .ok (g, st')) (outer : List Bool) :
    Leads ⟨.comment, st.flags.verbose, st.flags.verbose :: st.flags.verbose :: outer⟩ (st.inner outer) st st' := by
  obtain ⟨name, st₁, conditions, hname, rfl⟩ := conditionGroup_ok h
  obtain ⟨ts, k, rfl, htokens, -, hnot⟩ := takeName_ok hname
  refine ⟨rfl, ?_⟩
  rw [Counts, htokens, openers_condition hnot]
  rfl

theorem leads_branch {branch : Reading Pattern} (hbranch : Scans branch) {p : Pattern} {flags : Flags}
    (hflags : st.flags = flags) (h : (under st.flags branch).run st = .ok (p, st')) (outer : List Bool) :
    Leads ⟨.item, flags.verbose, outer⟩ ⟨.item, flags.verbose, outer⟩ st st' := by
  subst hflags
  exact leads_under hbranch h outer

theorem leads_conditional {branch : Reading Pattern} (hbranch : Scans branch) {start : Nat} {p : Pattern}
    (h : (conditional branch start).run st = .ok (p, st')) (outer : List Bool) :
    Leads ⟨.comment, st.flags.verbose, st.flags.verbose :: st.flags.verbose :: outer⟩ (st.place outer) st st' := by
  have hinner : (st.inner outer).idle := .inl rfl
  obtain ⟨g, yes, second, st₁, st₂, st₃, hgroup, hyes, hbar, hbranches⟩ := conditional_ok h
  have hcondition := leads_conditionGroup hgroup outer
  have hfirst := (hcondition.trans (leads_branch hbranch hcondition.flags hyes _)).trans
    ((passes_accept hinner (by decide)).leads hbar)
  rcases hbranches with ⟨no, st₄, -, hno, hclose⟩ | ⟨-, hclose⟩
  · exact (hfirst.trans (leads_branch hbranch hfirst.flags hno _)).trans (leads_close st.flags.verbose hclose)
  · exact hfirst.trans (leads_close st.flags.verbose hclose)

theorem verbose_foldl_switch (value : Bool) (cs : List Char) (f : Flags) :
    (cs.foldl (fun f c => switch f value c) f).verbose = if cs.contains 'x' then value else f.verbose := by
  induction cs generalizing f with
  | nil => rfl
  | cons c cs ih =>
      rw [List.foldl_cons, ih, List.contains_cons]
      by_cases hc : c = 'x'
      · subst hc
        simp [switch]
      · have hswitch : (switch f value c).verbose = f.verbose := by
          unfold switch
          split <;> first | rfl | contradiction
        have hbeq : ('x' == c) = false := beq_eq_false_iff_ne.mpr (Ne.symm hc)
        rw [hswitch, hbeq, Bool.false_or]

theorem verbose_setGlobal (on : List Char) (f : Flags) :
    ((on.filter (· != 'u')).foldl (fun f c => switch f true c) f).verbose = (f.verbose || on.contains 'x') := by
  have hx : (on.filter (· != 'u')).contains 'x' = on.contains 'x' := by simp
  rw [verbose_foldl_switch, hx]
  cases on.contains 'x' <;> cases f.verbose <;> rfl

def Inline.verbose (inl : Inline) (verbose : Bool) : Bool :=
  (verbose || inl.on.contains 'x') && !inl.off.contains 'x'

theorem Inline.verbose_apply (inl : Inline) (f : Flags) : (inl.apply f).verbose = inl.verbose f.verbose := by
  rw [apply, verbose_foldl_switch, verbose_foldl_switch, verbose]
  cases inl.on.contains 'x' <;> cases inl.off.contains 'x' <;> cases f.verbose <;> rfl

/-- Where an item may begin behind flags: in their group, or behind one that is set for the whole pattern. -/
def Place.flagged (verbose : Bool) (outer : List Bool) (on : List Char) : Option Inline → Place
  | some inl => ⟨.item, inl.verbose verbose, outer⟩
  | none => ⟨.item, verbose || on.contains 'x', outer.tail⟩

theorem next_flag {off verbose : Bool} (hmode : pl.mode = .flags off verbose) (hc : isFlag c = true) :
    pl.next (.plain c) = pl.moved (.flags off (if c = 'x' then !off else verbose)) := by
  have hne {d : Char} (hd : isFlag d = false) : c ≠ d := fun h => Bool.false_ne_true (hd.symm.trans (h ▸ hc))
  obtain ⟨mode, verbose', outer⟩ := pl
  subst hmode
  simp only [Place.next, afterFlag]
  rw [if_neg (hne (by decide)), if_neg (hne (by decide)), if_neg (hne (by decide)), if_pos hc]

theorem verbose_on (on : List Char) (c : Char) (verbose : Bool) :
    (verbose || (on ++ [c]).contains 'x') = if c = 'x' then true else verbose || on.contains 'x' := by
  by_cases hc : c = 'x' <;> simp [hc, eq_comm]

theorem next_asked (hmode : pl.mode = .asked) (hc : isFlag c = true) :
    pl.next (.plain c) = pl.moved (.flags false (pl.verbose || ([] ++ [c]).contains 'x')) := by
  have hne {d : Char} (hd : isFlag d = false) : c ≠ d := fun h => Bool.false_ne_true (hd.symm.trans (h ▸ hc))
  obtain ⟨mode, verbose, outer⟩ := pl
  subst hmode
  simp only [Place.next, afterQuestion]
  rw [if_neg (hne (by decide)), if_neg (hne (by decide)), if_neg (hne (by decide)), if_neg (hne (by decide)),
    if_pos hc, List.nil_append, List.contains_cons, BEq.comm, List.contains_nil, Bool.or_false]

theorem verbose_off (on off : List Char) (c : Char) (verbose : Bool) :
    Inline.verbose ⟨on, off ++ [c]⟩ verbose = if c = 'x' then false else Inline.verbose ⟨on, off⟩ verbose := by
  by_cases hc : c = 'x' <;> simp [Inline.verbose, hc, eq_comm]

theorem leads_flagsOff {on off : List Char} {n : Nat} {inl : Inline} (verbose : Bool) (outer : List Bool)
    (h : (flagsOff on off c n).run st = .ok (inl, st')) :
    Leads ⟨.flags true (Inline.verbose ⟨on, off ++ [c]⟩ verbose), verbose, outer⟩
      ⟨.item, inl.verbose verbose, outer⟩ st st' := by
  induction n generalizing st off c with
  | zero => exact absurd h (fails_throw _ _ _ _)
  | succ n ih =>
      rw [flagsOff] at h
      split at h
      · exact absurd h (fails_refuse _ _ _ _ _)
      obtain ⟨x, st₁, hnext, h⟩ := run_bind_eq_ok.mp h
      have hfirst {t : Token} (hx : x = some t) := leads_next
        ⟨.flags true (Inline.verbose ⟨on, off ++ [c]⟩ verbose), verbose, outer⟩ (by simp) (hx ▸ hnext)
      split at h
      · exact absurd h (fails_refuse _ _ _ _ _)
      · split at h
        · exact absurd h (fails_refuse _ _ _ _ _)
        split at h
        · exact absurd h (fails_refuse _ _ _ _ _)
        · cases h
          exact hfirst rfl
      · split at h
        · rename_i hflag
          have hflags := hfirst rfl
          have hrest := ih h
          rw [next_flag rfl hflag] at hflags
          rw [verbose_off] at hrest
          exact hflags.trans hrest
        · exact absurd h (notFlag_fails _ _ _ _ _)
      · exact absurd h (notFlag_fails _ _ _ _ _)

theorem leads_flagsEnd {on : List Char} {last : Char} {inl : Option Inline} (verbose : Bool) (outer : List Bool)
    (hlast : last = ')' ∨ last = '-' ∨ last = ':') (h : (flagsEnd on last).run st = .ok (inl, st')) :
    Leads ((⟨.flags false (verbose || on.contains 'x'), verbose, outer⟩ : Place).next (.plain last))
      (flagged verbose outer on inl) st st' := by
  have hverbose : Inline.verbose ⟨on, []⟩ verbose = (verbose || on.contains 'x') := Bool.and_true _
  unfold flagsEnd at h
  split at h
  · rename_i hclose
    subst hclose
    cases h
    exact .of_eq rfl rfl rfl rfl
  rename_i hclose
  split at h
  · exact absurd h (fails_refuse _ _ _ _ _)
  split at h
  · rename_i hdash
    subst hdash
    obtain ⟨x, st₁, hnext, h⟩ := run_bind_eq_ok.mp h
    have hfirst {t : Token} (hx : x = some t) := leads_next
      ⟨.flags true (verbose || on.contains 'x'), verbose, outer⟩ (by simp) (hx ▸ hnext)
    split at h
    · exact absurd h (fails_refuse _ _ _ _ _)
    · split at h
      · rename_i hflag
        rw [run_bind_ok (run_get st₁)] at h
        obtain ⟨off, st₂, hoff, h⟩ := run_bind_eq_ok.mp h
        cases h
        have hflags := hfirst rfl
        have hrest := leads_flagsOff verbose outer hoff
        rw [next_flag rfl hflag] at hflags
        rw [verbose_off, hverbose] at hrest
        exact hflags.trans hrest
      · exact absurd h ((notFlag_fails _ _ _).bind _ _ _)
    · exact absurd h ((notFlag_fails _ _ _).bind _ _ _)
  · rename_i hdash
    obtain rfl : last = ':' := by simpa [hclose, hdash] using hlast
    cases h
    rw [flagged, hverbose]
    exact .of_eq rfl rfl rfl rfl

theorem leads_flagsOn {on on' : List Char} {n : Nat} {inl : Option Inline} (verbose : Bool) (outer : List Bool)
    (h : (flagsOn on c n).run st = .ok ((on', inl), st')) :
    Leads ⟨.flags false (verbose || (on ++ [c]).contains 'x'), verbose, outer⟩ (flagged verbose outer on' inl)
      st st' := by
  induction n generalizing st on c with
  | zero => exact absurd h (fails_throw _ _ _ _)
  | succ n ih =>
      rw [flagsOn] at h
      split at h
      · exact absurd h (fails_refuse _ _ _ _ _)
      dsimp only at h
      split at h
      · exact absurd h (fails_refuse _ _ _ _ _)
      obtain ⟨x, st₁, hnext, h⟩ := run_bind_eq_ok.mp h
      have hfirst {t : Token} (hx : x = some t) := leads_next
        ⟨.flags false (verbose || (on ++ [c]).contains 'x'), verbose, outer⟩ (by simp) (hx ▸ hnext)
      split at h
      · exact absurd h (fails_refuse _ _ _ _ _)
      · split at h
        · rename_i hlast
          obtain ⟨inl', st₂, hend, h⟩ := run_bind_eq_ok.mp h
          cases h
          exact (hfirst rfl).trans (leads_flagsEnd verbose outer hlast hend)
        split at h
        · rename_i hflag
          have hflags := hfirst rfl
          have hrest := ih h
          rw [next_flag rfl hflag] at hflags
          rw [verbose_on] at hrest
          exact hflags.trans hrest
        · exact absurd h ((notFlag_fails _ _ _).bind _ _ _)
      · exact absurd h ((notFlag_fails _ _ _).bind _ _ _)

structure Reaches (keeps : Bool) (pl : Place) (outer : List Bool) (st st' : State) : Prop where
  flags : keeps = true → st'.flags = st.flags
  counts : Counts pl (st'.place outer) st st'

theorem Leads.reaches {outer : List Bool} (h : Leads pl (st.place outer) st st') (keeps : Bool) :
    Reaches keeps pl outer st st' := by
  refine ⟨fun _ => h.flags, ?_⟩
  rw [State.place, h.flags]
  exact h.counts

theorem Leads.then_reaches {keeps : Bool} {outer : List Bool} (h : Leads pl pl₁ st st₁)
    (h' : Reaches keeps pl₁ outer st₁ st') : Reaches keeps pl outer st st' :=
  ⟨fun hk => (h'.flags hk).trans h.flags, h.counts.trans h'.counts⟩

theorem Reaches.trans {keeps : Bool} {outer : List Bool} (h : Reaches keeps pl outer st st₁)
    (h' : Reaches keeps (st₁.place outer) outer st₁ st') : Reaches keeps pl outer st st' :=
  ⟨fun hk => (h'.flags hk).trans (h.flags hk), h.counts.trans h'.counts⟩

theorem Reaches.mono {keeps keeps' : Bool} {outer : List Bool} (h : Reaches keeps pl outer st st')
    (hk : keeps' = true → keeps = true) : Reaches keeps' pl outer st st' :=
  ⟨fun hk' => h.flags (hk hk'), h.counts⟩

theorem Reaches.leads {keeps : Bool} {outer : List Bool} (h : Reaches keeps pl outer st st')
    (hk : keeps = true) : Leads pl (st.place outer) st st' := by
  have hflags := h.flags hk
  have hcounts := h.counts
  rw [State.place, hflags] at hcounts
  exact ⟨hflags, hcounts⟩

theorem reaches_inline {body : Reading Pattern} (hbody : Scans body) {start : Nat} {atStart : Bool}
    {on : List Char} {inl : Option Inline} {p : Option Pattern} {outer : List Bool}
    (hflags : Leads pl (flagged st.flags.verbose (st.flags.verbose :: outer) on inl) st st₁)
    (h : (group.inline body start atStart on inl).run st₁ = .ok (p, st')) :
    Reaches (!atStart) pl outer st st' := by
  refine hflags.then_reaches ?_
  rw [← hflags.flags]
  rcases inline_ok h with ⟨own, q, rfl, -, hgrouped⟩ | ⟨rfl, hstart, -, hset⟩
  · have hleads := leads_grouped hbody hgrouped outer
    rw [Inline.verbose_apply] at hleads
    exact hleads.reaches _
  · cases hset
    refine ⟨fun hk => by simp [hstart] at hk, ?_⟩
    rw [Counts, State.place, verbose_setGlobal]
    rfl

theorem reaches_form {body branch : Reading Pattern} (hbody : Scans body) (hbranch : Scans branch)
    {start : Nat} {atStart : Bool} {p : Option Pattern} (outer : List Bool)
    (h : ReadsForm body branch start atStart st t p st') :
    Reaches (!atStart) (((st.place outer).opening.moved .asked).next t) outer st st' := by
  cases h with
  | named h => exact (leads_namedForm hbody h outer).reaches _
  | grouped h | atomic h => exact (leads_grouped hbody h outer).reaches _
  | comment h => exact ((passes_skipComment _ _ _ _).leads h).reaches _
  | ahead hc h =>
      rcases hc with rfl | rfl
      · exact (leads_lookaround hbody h outer).reaches _
      · exact (leads_lookaround hbody h outer).reaches _
  | behind hc hnext h =>
      have hleads := leads_next (st.inner outer) (by simp) hnext
      rcases hc with rfl | rfl
      · exact (hleads.then_inner (leads_lookaround hbody h outer)).reaches _
      · exact (hleads.then_inner (leads_lookaround hbody h outer)).reaches _
  | conditional h => exact (leads_conditional hbranch h outer).reaches _
  | off hflags h =>
      have hleads := leads_flagsEnd st.flags.verbose (st.flags.verbose :: outer) (.inr (.inl rfl)) hflags
      rw [List.contains_nil, Bool.or_false] at hleads
      exact reaches_inline hbody hleads h
  | on hc hflags h =>
      rw [next_asked rfl hc]
      exact reaches_inline hbody (leads_flagsOn st.flags.verbose (st.flags.verbose :: outer) hflags) h

theorem reaches_group {body branch : Reading Pattern} (hbody : Scans body) (hbranch : Scans branch)
    {start : Nat} {atStart : Bool} {p : Option Pattern} (outer : List Bool)
    (h : (group body branch start atStart).run st = .ok (p, st')) :
    Reaches (!atStart) (st.place outer).opening outer st st' := by
  rcases group_ok h with ⟨q, -, hmark, hread⟩ | ⟨t, st₁, st₂, hmark, hnext, hform⟩
  · exact (leads_unnamed hbody hmark hread outer).reaches _
  · have hasked : Leads (st.place outer).opening ((st.place outer).opening.moved .asked) st st₁ := by
      rcases next_eq_ok.mp hmark with ⟨-, ht, -⟩ | ⟨t', ht, heq, -, rfl⟩
      · cases ht
      · cases heq
        refine ⟨rfl, ?_⟩
        rw [Counts, tokens_of_some ht]
        rfl
    have hsecond := hasked.trans (leads_next _ (by simp) hnext)
    have hreaches := reaches_form hbody hbranch outer hform
    rw [State.place, hsecond.flags] at hreaches
    exact hsecond.then_reaches hreaches

theorem escape_k_fails : Fails (escape 'k') st := by
  intro p st' h
  cases h

theorem next_escaped (pl : Place) (hmode : pl.mode = .item) (hc : c ≠ 'k') : pl.next (.escaped c) = pl := by
  obtain ⟨mode, verbose, outer⟩ := pl
  subst hmode
  simp [Place.next, afterItem, moved, hc]

theorem reaches_item {body branch : Reading Pattern} (hbody : Scans body) (hbranch : Scans branch)
    {start : Nat} {atStart : Bool} {flags : Flags} {done done' : List Pattern} (outer : List Bool)
    (hclose : t ≠ .plain ')') (hflags : st.flags = flags)
    (h : (item body branch start atStart flags done t).run st = .ok (done', st')) :
    Reaches (!atStart) ((st.place outer).next t) outer st st' := by
  subst hflags
  have hidle : (st.place outer).idle := .inl rfl
  have hplain {c : Char} (ht : t = .plain c) (hopen : c ≠ '(') (hset : c ≠ '[')
      (hcomment : ¬(st.flags.verbose = true ∧ c = '#')) : (st.place outer).next (.plain c) = st.place outer :=
    next_item rfl hopen (fun hc => hclose (ht.trans (congrArg _ hc))) hset fun h => hcomment h.symm
  have hcounted {c : Char} (ht : t = .plain c) (hc : c = '*' ∨ c = '+' ∨ c = '?' ∨ c = '\x7b') :
      (st.place outer).next (.plain c) = st.place outer := by
    have hne {d : Char} (hd : ¬(d = '*' ∨ d = '+' ∨ d = '?' ∨ d = '\x7b')) : c ≠ d := fun heq => hd (heq ▸ hc)
    exact hplain ht (hne (by decide)) (hne (by decide)) fun h => hne (by decide) h.2
  cases item_ok h with
  | @escaped c _ _ hp =>
      have hk : c ≠ 'k' := by
        rintro rfl
        exact escape_k_fails _ _ hp
      rw [next_escaped _ rfl hk]
      exact ((passes_escape hidle c).leads hp).reaches _
  | @space c hverbose hspace =>
      have hne {d : Char} (hd : isVerboseSpace d = false) : c ≠ d :=
        fun heq => Bool.false_ne_true (hd.symm.trans (heq ▸ hspace))
      rw [hplain rfl (hne (by decide)) (hne (by decide)) fun h => hne (by decide) h.2]
      exact (Leads.of_eq rfl rfl rfl rfl).reaches _
  | comment hverbose hskip =>
      have hnext : (st.place outer).next (.plain '#') = ⟨.line, st.flags.verbose, outer⟩ := if_pos ⟨rfl, hverbose⟩
      rw [hnext]
      exact ((passes_skipLine _ _ _).leads hskip).reaches _
  | set hp => exact ((passes_set _ _).leads hp).reaches _
  | any => exact (Leads.of_eq rfl rfl rfl rfl).reaches _
  | anchor hc =>
      rcases hc with rfl | rfl
      · exact (Leads.of_eq rfl rfl rfl rfl).reaches _
      · exact (Leads.of_eq rfl rfl rfl rfl).reaches _
  | group hp => exact reaches_group hbody hbranch outer hp
  | counts hc hcounts hp =>
      rw [hcounted rfl hc]
      exact (((passes_counts hidle _).leads hcounts).trans ((passes_literal _).leads hp)).reaches _
  | repeated hc hcounts hrepeated =>
      rw [hcounted rfl hc]
      exact (((passes_counts hidle _).leads hcounts).trans
        ((passes_repeated hidle _ _ _ _).leads hrepeated)).reaches _
  | literal hopen hset hcomment hp =>
      rw [hplain rfl hopen hset hcomment]
      exact ((passes_literal _).leads hp).reaches _

/-- The groups without a name that branches and items open are those that the pass counts. Only in the first
branch of a pattern do flags change. -/
theorem reaches (n : Nat) :
    (∀ {nested done st p st'}, (branches nested done n).run st = .ok (p, st') →
      ∀ outer, Reaches nested (st.place outer) outer st st') ∧
    ∀ {first done st p st'}, (items first done n).run st = .ok (p, st') →
      ∀ outer, Reaches (!first) (st.place outer) outer st st' := by
  induction n with
  | zero =>
      exact ⟨fun h => absurd h (branches_zero_fails _ _ _ _), fun h => absurd h (items_zero_fails _ _ _ _)⟩
  | succ n ih =>
      obtain ⟨hbranches, hitems⟩ := ih
      have hbody : Scans (branches true [] n) := fun h outer => (hbranches h outer).leads rfl
      have hbranch : Scans (items false [] n) := fun h outer => (hitems h outer).leads rfl
      constructor
      · intro nested done st p st' h outer
        obtain ⟨q, st₁, b, st₂, hq, hbar, h⟩ := branches_ok h
        have hfirst := (hitems hq outer).mono fun hn : nested = true => by simp [hn]
        have hidle : (st₁.place outer).idle := .inl rfl
        have hsecond := hfirst.trans (((passes_accept hidle (by decide)).leads hbar).reaches nested)
        cases b with
        | true => exact hsecond.trans (hbranches h outer)
        | false =>
            cases h
            exact hsecond
      · intro first done st p st' h outer
        by_cases hend : ∀ t, tokenOf st.rest = some t → t = .plain '|' ∨ t = .plain ')'
        · obtain ⟨rfl, rfl⟩ := items_end hend h
          exact (Leads.of_eq rfl rfl rfl rfl).reaches _
        · simp only [not_forall] at hend
          obtain ⟨t, ht, hmore⟩ := hend
          obtain ⟨done', st₁, hnext, hitem, h⟩ := items_more ht hmore h
          have htoken : Leads (st.place outer) ((st.place outer).next t) st (st.past t.size) :=
            leads_next _ (by simp) hnext
          have hflags : (st.past t.size).flags = st.flags := rfl
          have hfirst := reaches_item hbody hbranch outer (fun hclose => hmore (.inr hclose)) hflags hitem
          have hkeeps : (!first) = true → (!(first && done.isEmpty)) = true := fun hf => by simp_all
          exact (htoken.then_reaches (hfirst.mono hkeeps)).trans (hitems h outer)

end Reader

/-- A pattern that is read has as many groups as it has names, and one for each group that opens without a
name. -/
theorem read_openers {known : CharacterNames} {pattern : List Char} {flags : Flags} {program : Program}
    (h : read known pattern flags = .ok program) :
    program.groups = program.names.length + Reader.openers (.start flags.verbose) (Reader.tokens pattern) := by
  obtain ⟨-, st', hrun, hrest, hgroups, hnames⟩ := read_ok h
  have hcounts := ((Reader.reaches _).1 hrun []).counts
  have hend : Reader.openers (st'.place []) (Reader.tokens st'.rest) = 0 := by
    rw [hrest]
    rfl
  rw [Reader.Counts, hend] at hcounts
  rw [hgroups, hnames]
  change Reader.openers (.start flags.verbose) (Reader.tokens pattern) + 1 + st'.names.length =
    0 + st'.groups + 0 at hcounts
  omega

end BaseLib.Regex
