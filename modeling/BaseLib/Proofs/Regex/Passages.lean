import BaseLib.Proofs.Regex.Numbering
import BaseLib.Proofs.Regex.Places
import BaseLib.Proofs.Text.Classes

namespace BaseLib.Regex.Reader

open Place

variable {α β : Type} {pl pl₁ pl' : Place} {st st₁ st' : State} {t : Token} {c : Char}

/-- Where the reading succeeds, it takes the pass from one place to the other. -/
def Passes (pl pl' : Place) (f : Reading α) (st : State) : Prop :=
  ∀ x st', f.run st = .ok (x, st') →
    ∃ n, st' = st.past n ∧ openers pl (tokens st.rest) = openers pl' (tokens st'.rest)

namespace Passes

variable {f : Reading α} {F : α → Reading β}

theorem bind (hf : Passes pl pl₁ f st) (hF : ∀ x n, Passes pl₁ pl' (F x) (st.past n)) :
    Passes pl pl' (f >>= F) st := by
  intro y st' h
  obtain ⟨x, st₁, hfirst, hsecond⟩ := run_bind_eq_ok.mp h
  obtain ⟨n, rfl, heq⟩ := hf x st₁ hfirst
  obtain ⟨m, rfl, heq'⟩ := hF x n y st' hsecond
  exact ⟨n + m, past_past st n m, heq.trans heq'⟩

theorem pure (x : α) : Passes pl pl (pure x) st := by
  intro y st' h
  cases h
  exact ⟨0, rfl, rfl⟩

theorem of_fails (h : Fails f st) : Passes pl pl' f st :=
  fun x st' hrun => absurd hrun (h x st')

theorem refuse (flaw : Flaw) (back : Nat) : Passes pl pl' (Reader.refuse flaw back : Reading α) st :=
  of_fails (fails_refuse flaw back st)

theorem ite {p : Prop} [Decidable p] {g : Reading α} (hf : p → Passes pl pl' f st) (hg : ¬p → Passes pl pl' g st) :
    Passes pl pl' (if p then f else g) st := by
  by_cases hp : p
  · rw [if_pos hp]
    exact hf hp
  · rw [if_neg hp]
    exact hg hp

theorem get {F : State → Reading β} (h : Passes pl pl' (F st) st) : Passes pl pl' (get >>= F) st := by
  intro y st' hrun
  rw [run_bind_ok (run_get st)] at hrun
  exact h y st' hrun

theorem peek {F : Option Token → Reading β} (h : Passes pl pl' (F (tokenOf st.rest)) st) :
    Passes pl pl' (peek >>= F) st := by
  intro y st' hrun
  rw [run_bind_ok (run_peek st)] at hrun
  exact h y st' hrun

theorem next {F : Option Token → Reading β} (hmode : pl.mode ≠ .opened)
    (hnone : st.rest = [] → Passes pl pl' (F none) st)
    (hsome : ∀ t, tokenOf st.rest = some t → Passes (pl.next t) pl' (F (some t)) (st.past t.size)) :
    Passes pl pl' (next >>= F) st := by
  intro y st' hrun
  obtain ⟨x, st₁, hfirst, hsecond⟩ := run_bind_eq_ok.mp hrun
  rcases next_eq_ok.mp hfirst with ⟨hend, rfl, rfl⟩ | ⟨t, ht, rfl, -, rfl⟩
  · exact hnone (tokenOf_eq_none hend) y st' hsecond
  · obtain ⟨n, rfl, heq⟩ := hsome t ht y st' hsecond
    refine ⟨t.size + n, past_past st t.size n, ?_⟩
    rw [tokens_of_some ht, openers_cons hmode]
    exact heq

end Passes

def signs : List Char := ['(', ')', '[', ']', '#']

def Place.idle (pl : Place) : Prop := pl.mode = .item ∨ pl.mode = .set

theorem Place.idle.ne_opened (h : pl.idle) : pl.mode ≠ .opened := by
  rcases h with h | h <;> simp [h]

theorem Place.idle.next (h : pl.idle) (hc : c ∉ signs) : pl.next (.plain c) = pl := by
  have hne {d : Char} (hd : d ∈ signs) : c ≠ d := fun h => hc (h ▸ hd)
  rcases h with h | h
  · exact next_item h (hne (by decide)) (hne (by decide)) (hne (by decide)) fun hline => hne (by decide) hline.1
  · obtain ⟨mode, verbose, outer⟩ := pl
    subst h
    have hclose : Token.plain c ≠ .plain ']' := fun h => hne (by decide) (Token.plain.inj h)
    simp only [Place.next, if_neg hclose]
    rfl

theorem passes_accept (h : pl.idle) (hc : c ∉ signs) : Passes pl pl (accept c) st := by
  unfold accept
  refine .peek (.ite (fun ht => ?_) fun _ => .pure _)
  refine .next h.ne_opened (fun _ => .pure _) fun t ht' => ?_
  cases ht'.symm.trans ht
  rw [h.next hc]
  exact .pure _

theorem not_mem_signs {p : Char → Bool} (hp : signs.all (!p ·) = true) (hc : p c = true) : c ∉ signs := by
  intro hmem
  have hnot := List.all_eq_true.mp hp c hmem
  rw [hc] at hnot
  cases hnot

theorem passes_takeWhile {p : Char → Bool} (h : pl.idle) (hp : signs.all (!p ·) = true) (n : Nat) :
    Passes pl pl (takeWhile p n) st := by
  induction n generalizing st with
  | zero => exact .pure _
  | succ n ih =>
      rw [takeWhile]
      refine .peek ?_
      split
      · rename_i c ht
        refine .ite (fun hc => ?_) fun _ => .pure _
        refine .next h.ne_opened (fun _ => .bind ih fun _ _ => .pure _) fun t ht' => ?_
        cases ht'.symm.trans ht
        rw [h.next (not_mem_signs hp hc)]
        exact .bind ih fun _ _ => .pure _
      · exact .pure _

theorem isHex_signs : signs.all (!isHex ·) = true := by decide

theorem isOctal_signs : signs.all (!isOctal ·) = true := by decide

theorem isAsciiDigit_signs : signs.all (!Number.isAsciiDigit ·) = true := by decide

theorem passes_hexEscape (h : pl.idle) (letter : Char) (count : Nat) :
    Passes pl pl (hexEscape letter count) st := by
  unfold hexEscape
  refine .bind (passes_takeWhile h isHex_signs _) fun ds n => ?_
  exact .ite (fun _ => .refuse _ _) fun _ => .ite (fun _ => .refuse _ _) fun _ => .pure _

theorem isNameCharacter_signs : signs.all (!isNameCharacter ·) = true := by decide

theorem passes_namedCharacter (h : pl.idle) : Passes pl pl namedCharacter st := by
  unfold namedCharacter
  refine .bind (passes_accept h (by decide)) fun opened n => ?_
  refine .ite (fun _ => .refuse _ _) fun _ => .get ?_
  refine .bind (passes_takeWhile h isNameCharacter_signs _) fun name n => ?_
  refine .peek (.ite (fun ht => ?_) fun _ => .of_fails ?_)
  · refine .next h.ne_opened (fun hend => ?_) fun t ht' => ?_
    · rw [hend] at ht
      cases ht
    cases ht'.symm.trans ht
    rw [h.next (by decide)]
    refine .ite (fun _ => .refuse _ _) fun _ => ?_
    split
    · exact .pure _
    · exact .refuse _ _
  · exact Fails.bind_right fun s _ => Fails.bind_right fun name _ => fails_refuse _ _ _

theorem passes_commonEscape (h : pl.idle) (c : Char) : Passes pl pl (commonEscape c) st := by
  unfold commonEscape
  refine .ite (fun _ => passes_hexEscape h _ _) fun _ => ?_
  refine .ite (fun _ => passes_hexEscape h _ _) fun _ => ?_
  refine .ite (fun _ => passes_hexEscape h _ _) fun _ => ?_
  refine .ite (fun _ => passes_namedCharacter h) fun _ => ?_
  exact .ite (fun _ => .refuse _ _) fun _ => .pure _

theorem passes_octalEscape (h : pl.idle) (first : Char) : Passes pl pl (octalEscape first) st := by
  unfold octalEscape
  refine .bind (passes_takeWhile h isOctal_signs _) fun ds n => ?_
  exact .ite (fun _ => .refuse _ _) fun _ => .pure _

theorem passes_setMember (h : pl.idle) (t : Token) : Passes pl pl (setMember t) st := by
  cases t with
  | plain c => exact .pure _
  | escaped c =>
      rw [setMember, setEscape]
      cases control? c with
      | some n => exact .pure _
      | none =>
          cases category? c with
          | some item => exact .pure _
          | none =>
              refine .ite (fun _ => ?_) fun _ => ?_
              · exact .bind (passes_octalEscape h c) fun _ _ => .pure _
              · exact .bind (passes_commonEscape h c) fun _ _ => .pure _

theorem passes_isClosed (g : Nat) : Passes pl pl (isClosed g) st := .get (.pure _)

theorem passes_checkLookbehind (g : Nat) : Passes pl pl (checkLookbehind g) st := by
  unfold checkLookbehind
  refine .get ?_
  cases st.lookbehind with
  | none => exact .pure _
  | some before =>
      refine .bind (passes_isClosed g) fun closed n => ?_
      exact .ite (fun _ => .refuse _ _) fun _ => .ite (fun _ => .refuse _ _) fun _ => .pure _

theorem passes_literal (code : Nat) : Passes pl pl (literal code) st := .get (.pure _)

theorem passes_backref (g : Nat) : Passes pl pl (backref g) st := .get (.pure _)

theorem passes_numberedReference (digits : List Char) : Passes pl pl (numberedReference digits) st := by
  unfold numberedReference
  refine .get (.ite (fun _ => .refuse _ _) fun _ => ?_)
  refine .bind (passes_isClosed _) fun closed n => .ite (fun _ => .refuse _ _) fun _ => ?_
  exact .bind (passes_checkLookbehind _) fun _ _ => passes_backref _

theorem passes_digitEscape (h : pl.idle) (first : Char) : Passes pl pl (digitEscape first) st := by
  unfold digitEscape
  refine .peek ?_
  split
  · rename_i second ht
    refine .ite (fun hsecond => ?_) fun _ => passes_numberedReference _
    refine .next h.ne_opened (fun hend => ?_) fun t ht' => ?_
    · rw [hend] at ht
      cases ht
    cases ht'.symm.trans ht
    rw [h.next (not_mem_signs isAsciiDigit_signs hsecond)]
    refine .peek ?_
    split
    · rename_i third ht
      refine .ite (fun hthird => ?_) fun _ => passes_numberedReference _
      simp only [Bool.and_eq_true] at hthird
      refine .next h.ne_opened (fun hend => ?_) fun t ht' => ?_
      · rw [hend] at ht
        cases ht
      cases ht'.symm.trans ht
      rw [h.next (not_mem_signs isOctal_signs hthird.2)]
      exact .ite (fun _ => .refuse _ _) fun _ => passes_literal _
    · exact passes_numberedReference _
  · exact passes_numberedReference _

theorem passes_escape (h : pl.idle) (c : Char) : Passes pl pl (escape c) st := by
  unfold escape
  refine .get ?_
  dsimp only
  split
  · exact .pure _
  · exact .pure _
  · exact .pure _
  · exact .pure _
  · cases category? c with
    | some item => exact .pure _
    | none =>
        cases control? c with
        | some n => exact passes_literal n
        | none =>
            refine .ite (fun _ => ?_) fun _ => .ite (fun _ => passes_digitEscape h c) fun _ => ?_
            · exact .bind (passes_takeWhile h isOctal_signs _) fun _ _ => passes_literal _
            · exact .bind (passes_commonEscape h c) fun _ _ => passes_literal _

theorem passes_setItems (start n : Nat) (done : List SetItem) (verbose : Bool) (outer : List Bool) :
    Passes ⟨if done.isEmpty then .setFirst else .set, verbose, outer⟩ ⟨.item, verbose, outer⟩
      (setItems start done n) st := by
  induction n generalizing st done with
  | zero => exact .of_fails (fails_throw _ _)
  | succ n ih =>
      have hset : (⟨.set, verbose, outer⟩ : Place).idle := .inr rfl
      have hmember {t : Token} (ht : t ≠ .plain ']') :
          (⟨.set, verbose, outer⟩ : Place).next t = ⟨.set, verbose, outer⟩ := by
        simp only [Place.next, if_neg ht]
        rfl
      rw [setItems]
      refine .next (by cases done <;> simp) (fun _ => .of_fails (fails_throw _ _)) fun this _ => ?_
      refine .ite (fun hclose => ?_) fun hmore => ?_
      · obtain ⟨rfl, hdone⟩ := hclose
        rw [if_neg (by simpa using hdone)]
        exact .pure _
      · have hnext : (⟨if done.isEmpty then .setFirst else .set, verbose, outer⟩ : Place).next this =
            ⟨.set, verbose, outer⟩ := by
          cases done with
          | nil => rfl
          | cons item done => exact hmember fun hthis => hmore ⟨hthis, rfl⟩
        rw [hnext]
        refine .bind (passes_setMember hset this) fun low _ => ?_
        refine .bind (passes_accept hset (by decide)) fun dash _ => .ite (fun _ => ?_) fun _ => ih (low :: done)
        refine .next (by simp) (fun _ => .of_fails (fails_throw _ _)) fun that _ => .ite (fun hclose => ?_) fun hne => ?_
        · rw [hclose]
          exact .pure _
        · rw [hmember hne]
          refine .bind (passes_setMember hset that) fun high _ => ?_
          dsimp only
          split
          · rename_i a b _ _
            exact .ite (fun _ => .refuse _ _) fun _ => ih (.range a b :: done)
          · exact .refuse _ _

theorem passes_caret (verbose : Bool) (outer : List Bool) :
    Passes ⟨.setStart, verbose, outer⟩ ⟨.setFirst, verbose, outer⟩ (accept '^') st := by
  unfold accept
  refine .peek (.ite (fun ht => ?_) fun hne => ?_)
  · refine .next (by simp) (fun hend => ?_) fun t ht' => ?_
    · rw [hend] at ht
      cases ht
    · cases ht'.symm.trans ht
      exact .pure _
  · -- Without the caret both places come to the members with the next token.
    intro x st' h
    cases h
    refine ⟨0, rfl, ?_⟩
    cases ht : tokenOf st.rest with
    | none =>
        rw [tokens_of_none ht]
        rfl
    | some t =>
        have hcaret : t ≠ .plain '^' := fun heq => hne (heq ▸ ht)
        rw [tokens_of_some ht, openers, openers]
        simp only [Place.next, if_neg hcaret]
        rfl

theorem passes_set (verbose : Bool) (outer : List Bool) :
    Passes ⟨.setStart, verbose, outer⟩ ⟨.item, verbose, outer⟩ set st := by
  unfold set
  refine .get (.bind (passes_caret verbose outer) fun negated _ => .get ?_)
  refine .bind (passes_setItems _ _ [] verbose outer) fun items _ => .get ?_
  dsimp only
  split
  · exact .pure _
  · exact .pure _

theorem passes_count (digits : List Char) : Passes pl pl (count digits) st :=
  .ite (fun _ => .of_fails (fails_throw _ _)) fun _ => .ite (fun _ => .of_fails (fails_throw _ _)) fun _ => .pure _

theorem passes_numerals (h : pl.idle) (limit : Nat) : Passes pl pl (numerals limit) st := by
  unfold numerals
  refine .bind (passes_takeWhile h isAsciiDigit_signs _) fun low _ => ?_
  refine .bind (passes_accept h (by decide)) fun comma _ => ?_
  have hend (high : List Char) {st : State} : Passes pl pl (do
      let closed ← accept '\x7d'
      return if closed then some (low, high) else none) st :=
    .bind (passes_accept h (by decide)) fun _ _ => .pure _
  refine .ite (fun _ => ?_) fun _ => ?_
  · exact .bind (passes_takeWhile h isAsciiDigit_signs _) fun high _ => hend high
  · exact .bind (.pure low) fun high _ => hend high

theorem passes_countsOf (saved : State) (low high : List Char) : Passes pl pl (countsOf saved low high) st := by
  have hgreatest (least : Nat) {st : State} : Passes pl pl (greatestOf saved least high) st := by
    unfold greatestOf
    refine .ite (fun _ => .pure _) fun _ => .bind (passes_count high) fun greatest _ => ?_
    exact .ite (fun _ => .get (.refuse _ _)) fun _ => .pure _
  unfold countsOf
  refine .ite (fun _ => ?_) fun _ => ?_
  · exact .bind (.pure 0) fun least _ => hgreatest least
  · exact .bind (passes_count low) fun least _ => hgreatest least

theorem passes_braces (h : pl.idle) : Passes pl pl braces st := by
  rw [braces_eq]
  refine .get (.peek (.ite (fun _ => .pure _) fun _ => ?_))
  intro x st' hrun
  obtain ⟨r, st₁, hnumerals, hrun⟩ := run_bind_eq_ok.mp hrun
  cases r with
  | none =>
      cases hrun
      exact ⟨0, rfl, rfl⟩
  | some r =>
      obtain ⟨n, rfl, heq⟩ := passes_numerals h _ _ _ hnumerals
      obtain ⟨m, rfl, heq'⟩ := passes_countsOf st r.1 r.2 _ _ hrun
      exact ⟨n + m, past_past st n m, heq.trans heq'⟩

theorem passes_counts (h : pl.idle) (mark : Char) : Passes pl pl (counts mark) st := by
  unfold counts
  split
  · exact .pure _
  · exact .pure _
  · exact .pure _
  · exact passes_braces h

theorem passes_repeated (h : pl.idle) (start low : Nat) (high : Option Nat) (done : List Pattern) :
    Passes pl pl (repeated start low high done) st := by
  have hgreed {st : State} : Passes pl pl greed st := by
    unfold greed
    refine .bind (passes_accept h (by decide)) fun _ _ => .ite (fun _ => .pure _) fun _ => ?_
    exact .bind (passes_accept h (by decide)) fun _ _ => .ite (fun _ => .pure _) fun _ => .pure _
  unfold repeated
  split
  · exact .of_fails (fails_throw _ _)
  · exact .of_fails (fails_throw _ _)
  · exact .of_fails (fails_throw _ _)
  · exact .bind hgreed fun _ _ => .pure _

theorem passes_skipLine (verbose : Bool) (outer : List Bool) (n : Nat) :
    Passes ⟨.line, verbose, outer⟩ ⟨.item, verbose, outer⟩ (skipLine n) st := by
  induction n generalizing st with
  | zero => exact .of_fails (fails_throw _ _)
  | succ n ih =>
      rw [skipLine]
      refine .next (by simp) (fun hend => ?_) fun t ht => ?_
      · intro x st' h
        cases h
        refine ⟨0, rfl, ?_⟩
        rw [hend]
        rfl
      · by_cases hline : t = .plain '\n'
        · rw [hline]
          exact .pure _
        · have hnext : (⟨.line, verbose, outer⟩ : Place).next t = ⟨.line, verbose, outer⟩ := if_neg hline
          rw [hnext]
          split
          · contradiction
          · rename_i heq
            exact absurd (Option.some.inj heq) hline
          · exact ih

theorem passes_skipComment (verbose : Bool) (outer : List Bool) (start n : Nat) :
    Passes ⟨.comment, verbose, verbose :: outer⟩ ⟨.item, verbose, outer⟩ (skipComment start n) st := by
  induction n generalizing st with
  | zero => exact .of_fails (fails_throw _ _)
  | succ n ih =>
      rw [skipComment]
      refine .next (by simp) (fun _ => .of_fails (fails_throw _ _)) fun t ht => ?_
      by_cases hclose : t = .plain ')'
      · rw [hclose]
        exact .pure _
      · have hnext : (⟨.comment, verbose, verbose :: outer⟩ : Place).next t = ⟨.comment, verbose, verbose :: outer⟩ :=
          if_neg hclose
        rw [hnext]
        split
        · contradiction
        · rename_i heq
          exact absurd (Option.some.inj heq) hclose
        · exact ih

theorem takeUntil_ok {terminator : Char} {what : String} {soFar name : List Char} {n : Nat}
    (h : (takeUntil terminator what soFar n).run st = .ok (name, st')) :
    ∃ ts k, st' = st.past k ∧ tokens st.rest = ts ++ .plain terminator :: tokens st'.rest ∧
      name = soFar ++ ts.flatMap Token.text ∧ .plain terminator ∉ ts := by
  induction n generalizing st soFar with
  | zero => exact absurd h (fails_throw _ _ _ _)
  | succ n ih =>
      rw [takeUntil] at h
      obtain ⟨x, st₁, hnext, hgo⟩ := run_bind_eq_ok.mp h
      rcases next_eq_ok.mp hnext with ⟨-, rfl, rfl⟩ | ⟨t, ht, rfl, -, rfl⟩
      · dsimp only at hgo
        split at hgo <;> exact absurd hgo (fails_refuse _ _ _ _ _)
      · have htokens := tokens_of_some ht
        dsimp only at hgo
        by_cases hend : t = .plain terminator
        · rw [if_pos hend] at hgo
          split at hgo
          · exact absurd hgo (fails_refuse _ _ _ _ _)
          · cases hgo
            exact ⟨[], t.size, rfl, hend ▸ htokens, by simp, List.not_mem_nil⟩
        · rw [if_neg hend] at hgo
          obtain ⟨ts, k, rfl, hrest, rfl, hnot⟩ := ih hgo
          refine ⟨t :: ts, t.size + k, past_past st t.size k, ?_, by simp, ?_⟩
          · rw [htokens, List.cons_append, ← hrest]
            rfl
          · rw [List.mem_cons, not_or]
            exact ⟨fun heq => hend heq.symm, hnot⟩

theorem takeName_ok {terminator : Char} {what : String} {name : List Char}
    (h : (takeName terminator what).run st = .ok (name, st')) :
    ∃ ts k, st' = st.past k ∧ tokens st.rest = ts ++ .plain terminator :: tokens st'.rest ∧
      name = ts.flatMap Token.text ∧ .plain terminator ∉ ts := by
  rw [takeName, run_bind_ok (run_get st)] at h
  exact takeUntil_ok h

theorem openers_identifier {ts : List Token} (hname : Text.isName (ts.flatMap Token.text) = true)
    (hitem : pl.mode = .item) (us : List Token) : openers pl (ts ++ us) = openers pl us := by
  have hsigns : ('\\' :: signs).all
      (fun c => !(Text.canStartName c.toNat || Text.canContinueName c.toNat)) = true := by decide
  have hplain : ∀ t ∈ ts, ∃ c, t = .plain c ∧ c ∉ signs := by
    intro t ht
    have hnot {c : Char} (hc : c ∈ t.text) : c ∉ '\\' :: signs := by
      intro hsign
      have hneither := List.all_eq_true.mp hsigns c hsign
      rw [Text.starts_or_continues hname (List.mem_flatMap.mpr ⟨t, ht, hc⟩)] at hneither
      cases hneither
    cases t with
    | plain c => exact ⟨c, rfl, fun hsign => hnot List.mem_cons_self (List.mem_cons_of_mem _ hsign)⟩
    | escaped c => exact absurd List.mem_cons_self (hnot (c := '\\') List.mem_cons_self)
  clear hname
  induction ts with
  | nil => rfl
  | cons t ts ih =>
      obtain ⟨⟨c, rfl, hc⟩, hrest⟩ := List.forall_mem_cons.mp hplain
      have hidle : pl.idle := .inl hitem
      rw [List.cons_append, openers_cons hidle.ne_opened, hidle.next hc, ih hrest]

theorem openers_condition {ts : List Token} (h : .plain ')' ∉ ts) (verbose : Bool) (outer : List Bool)
    (us : List Token) : openers ⟨.comment, verbose, outer⟩ (ts ++ us) = openers ⟨.comment, verbose, outer⟩ us := by
  induction ts with
  | nil => rfl
  | cons t ts ih =>
      rw [List.mem_cons, not_or] at h
      have hnext : (⟨.comment, verbose, outer⟩ : Place).next t = ⟨.comment, verbose, outer⟩ := if_neg (Ne.symm h.1)
      rw [List.cons_append, openers, hnext, ih h.2]
      rfl

end BaseLib.Regex.Reader
