import BaseLib.Proofs.Regex.Agreement

namespace BaseLib.Regex.Reader

variable {α β : Type} {st st' A E A' E' : State} {d e u v : List Char}

theorem plain_mem_fences {c : Char} : some (.plain c) ∈ fences ↔ c = '(' ∨ c = '\\' ∨ c = ')' := by
  simp [fences]

theorem steady_accept {c : Char} (hc : some (.plain c) ∉ fences) : Steady (accept c) := by
  intro d e A E hd h
  unfold accept
  refine Agree.test hc hd h (fun hne => ?_) (Agree.pure h _)
  exact Agree.bind (Agree.advance h hne) fun _ _ h' => Agree.pure h' _

theorem takeWhile_fence {p : Char → Bool} (hp : ∀ c, some (.plain c) ∈ fences → p c = false)
    (h : tokenOf st.rest ∈ fences) (n : Nat) : (takeWhile p n).run st = .ok ([], st) := by
  cases n with
  | zero => rfl
  | succ n =>
      rw [takeWhile, run_bind_ok (run_peek st)]
      split
      · rename_i c hc
        rw [hc] at h
        rw [hp c h]
        rfl
      · rfl

theorem agree_takeWhile_fence {p : Char → Bool} (hp : ∀ c, some (.plain c) ∈ fences → p c = false)
    (hd : Fence d e) (h : Beside d e A E) (hA : A.rest = d) (n m : Nat) :
    Agree d e (takeWhile p n) (takeWhile p m) A E := by
  constructor
  intro x y A' E' hf hg
  have hE : E.rest = e := (hA ▸ h.along).of_left
  rw [takeWhile_fence hp (hA ▸ hd.left.1)] at hf
  rw [takeWhile_fence hp (hE ▸ hd.right)] at hg
  cases hf
  cases hg
  exact ⟨rfl, ⟨0, rfl, rfl⟩, h⟩

theorem agree_takeWhile {p : Char → Bool} (hp : ∀ c, some (.plain c) ∈ fences → p c = false)
    (hd : Fence d e) (h : Beside d e A E) {n m : Nat}
    (hlimit : n = m ∨ A.rest.length ≤ n ∧ E.rest.length ≤ m) :
    Agree d e (takeWhile p n) (takeWhile p m) A E := by
  induction n generalizing A E m with
  | zero =>
      rcases hlimit with rfl | ⟨hlen, -⟩
      · exact Agree.pure h _
      · refine agree_takeWhile_fence hp hd h ?_ 0 m
        by_contra hA
        obtain ⟨t, ht, -⟩ := h.along.cases.resolve_left fun hhere => hA hhere.1
        have hsize := tokenOf_size ht
        omega
  | succ n ih =>
      by_cases hA : A.rest = d
      · exact agree_takeWhile_fence hp hd h hA _ m
      · obtain ⟨t, htA, htE, -, -⟩ := h.along.cases.resolve_left fun hhere => hA hhere.1
        have hsize := tokenOf_size htE
        obtain ⟨m, rfl⟩ : ∃ k, m = k + 1 := ⟨m - 1, by omega⟩
        rw [takeWhile, takeWhile]
        refine Agree.peek h (fun t _ _ => ?_) fun hd _ => absurd hd hA
        cases t with
        | escaped c => exact Agree.pure h _
        | plain c =>
            refine Agree.ite (fun _ => ?_) fun _ => Agree.pure h _
            refine Agree.next h (fun t ht _ _ h' => ?_) fun hd => absurd hd hA
            have hsize := tokenOf_size ht
            refine Agree.bind (ih h' ?_) fun _ _ h'' => Agree.pure h'' _
            simp only [State.past, List.length_drop]
            omega

theorem steady_takeWhile {p : Char → Bool} (hp : ∀ c, some (.plain c) ∈ fences → p c = false)
    (n : Nat) :
    Steady (takeWhile p n) := fun hd h => agree_takeWhile hp hd h (.inl rfl)

theorem not_at_fence {p : Char → Bool} (hopen : p '(' = false) (hback : p '\\' = false)
    (hclose : p ')' = false) : ∀ c, some (.plain c) ∈ fences → p c = false := by
  intro c hc
  rcases plain_mem_fences.mp hc with rfl | rfl | rfl
  · exact hopen
  · exact hback
  · exact hclose

theorem isHex_fence : ∀ c, some (.plain c) ∈ fences → isHex c = false :=
  not_at_fence (by decide) (by decide) (by decide)

theorem isOctal_fence : ∀ c, some (.plain c) ∈ fences → isOctal c = false :=
  not_at_fence (by decide) (by decide) (by decide)

theorem isAsciiDigit_fence : ∀ c, some (.plain c) ∈ fences → Number.isAsciiDigit c = false :=
  not_at_fence (by decide) (by decide) (by decide)

theorem steady_hexEscape (letter : Char) (count : Nat) : Steady (hexEscape letter count) := by
  unfold hexEscape
  refine Steady.bind (steady_takeWhile isHex_fence _) fun ds => ?_
  refine Steady.ite (fun _ => steady_refuse _ _) fun _ => ?_
  exact Steady.ite (fun _ => steady_refuse _ _) fun _ => Steady.pure _

theorem isNameCharacter_fence : ∀ c, some (.plain c) ∈ fences → isNameCharacter c = false :=
  not_at_fence (by decide) (by decide) (by decide)

theorem steady_namedCharacter : Steady namedCharacter := by
  intro d e A E hd h
  unfold namedCharacter
  refine Agree.bind (steady_accept (by simp [fences]) hd h) fun opened _ h => ?_
  refine Agree.ite (fun _ => Agree.of_fails (fails_refuse _ _ _)) fun _ => Agree.get ?_
  rw [h.characters]
  refine Agree.bind (agree_takeWhile isNameCharacter_fence hd h (.inr ⟨le_rfl, le_rfl⟩)) fun name _ h => ?_
  refine Agree.test (by simp [fences]) hd h (fun hne => ?_) (Agree.of_fails ?_)
  · refine Agree.bind (Agree.advance h hne) fun _ _ h => ?_
    refine Agree.ite (fun _ => Agree.of_fails (fails_refuse _ _ _)) fun _ => ?_
    split
    · exact Agree.pure h _
    · exact Agree.of_fails (fails_refuse _ _ _)
  · exact Fails.bind_right fun s _ => Fails.bind_right fun name _ => fails_refuse _ _ _

theorem steady_commonEscape (c : Char) : Steady (commonEscape c) := by
  unfold commonEscape
  refine Steady.ite (fun _ => steady_hexEscape _ _) fun _ => ?_
  refine Steady.ite (fun _ => steady_hexEscape _ _) fun _ => ?_
  refine Steady.ite (fun _ => steady_hexEscape _ _) fun _ => ?_
  refine Steady.ite (fun _ => steady_namedCharacter) fun _ => ?_
  exact Steady.ite (fun _ => steady_refuse _ _) fun _ => Steady.pure _

theorem steady_octalEscape (first : Char) : Steady (octalEscape first) := by
  unfold octalEscape
  refine Steady.bind (steady_takeWhile isOctal_fence _) fun ds => ?_
  exact Steady.ite (fun _ => steady_refuse _ _) fun _ => Steady.pure _

theorem steady_setEscape (c : Char) : Steady (setEscape c) := by
  unfold setEscape
  cases control? c with
  | some n => exact Steady.pure _
  | none =>
      cases category? c with
      | some item => exact Steady.pure _
      | none =>
          refine Steady.ite (fun _ => ?_) fun _ => ?_
          · exact Steady.bind (steady_octalEscape c) fun _ => Steady.pure _
          · exact Steady.bind (steady_commonEscape c) fun _ => Steady.pure _

theorem steady_isClosed (g : Nat) : Steady (isClosed g) := by
  intro d e A E hd h
  unfold isClosed
  refine Agree.get ?_
  rw [h.groups, h.closed]
  exact Agree.pure h _

theorem steady_checkLookbehind (g : Nat) : Steady (checkLookbehind g) := by
  intro d e A E hd h
  unfold checkLookbehind
  refine Agree.get ?_
  rw [h.lookbehind]
  cases E.lookbehind with
  | none => exact Agree.pure h _
  | some before =>
      refine Agree.bind (steady_isClosed g hd h) fun closed n h' => ?_
      refine Agree.ite (fun _ => Agree.of_fails (fails_refuse _ _ _)) fun _ => ?_
      exact Agree.ite (fun _ => Agree.of_fails (fails_refuse _ _ _)) fun _ => Agree.pure h' _

theorem steady_literal (code : Nat) : Steady (literal code) := by
  intro d e A E hd h
  unfold literal
  refine Agree.get ?_
  rw [h.flags]
  exact Agree.pure h _

theorem steady_backref (g : Nat) : Steady (backref g) := by
  intro d e A E hd h
  unfold backref
  refine Agree.get ?_
  rw [h.flags]
  exact Agree.pure h _

theorem steady_numberedReference (digits : List Char) : Steady (numberedReference digits) := by
  intro d e A E hd h
  unfold numberedReference
  refine Agree.get ?_
  rw [h.groups]
  refine Agree.ite (fun _ => Agree.of_fails (fails_refuse _ _ _)) fun _ => ?_
  refine Agree.bind (steady_isClosed _ hd h) fun closed n h' => ?_
  refine Agree.ite (fun _ => Agree.of_fails (fails_refuse _ _ _)) fun _ => ?_
  exact Agree.bind (steady_checkLookbehind _ hd h') fun _ _ h'' => steady_backref _ hd h''

theorem steady_digitEscape (first : Char) : Steady (digitEscape first) := by
  intro d e A E hd h
  unfold digitEscape
  refine Agree.peek_or hd h (fun t _ hne => ?_) ?_ (steady_numberedReference [first] hd h)
  · cases t with
    | escaped c => exact steady_numberedReference _ hd h
    | plain second =>
        refine Agree.ite (fun _ => ?_) fun _ => steady_numberedReference _ hd h
        refine Agree.bind (Agree.advance h hne) fun _ n h' => ?_
        refine Agree.peek_or hd h' (fun t _ hne' => ?_) ?_
          (steady_numberedReference [first, second] hd h')
        · cases t with
          | escaped c => exact steady_numberedReference _ hd h'
          | plain third =>
              refine Agree.ite (fun _ => ?_) fun _ => steady_numberedReference _ hd h'
              refine Agree.bind (Agree.advance h' hne') fun _ m h'' => ?_
              exact Agree.ite (fun _ => Agree.of_fails (fails_refuse _ _ _)) fun _ =>
                steady_literal _ hd h''
        · rintro (_ | c | c) hc
          · rfl
          · exact if_neg (by simp [isOctal_fence c hc])
          · rfl
  · rintro (_ | c | c) hc
    · rfl
    · exact if_neg (by simp [isAsciiDigit_fence c hc])
    · rfl

theorem steady_escape (c : Char) : Steady (escape c) := by
  intro d e A E hd h
  unfold escape
  refine Agree.get ?_
  rw [h.flags]
  dsimp only
  split
  · exact Agree.pure h _
  · exact Agree.pure h _
  · exact Agree.pure h _
  · exact Agree.pure h _
  · cases category? c with
    | some item => exact Agree.pure h _
    | none =>
        cases control? c with
        | some n => exact steady_literal n hd h
        | none =>
            refine Agree.ite (fun _ => ?_) fun _ => ?_
            · exact Steady.bind (steady_takeWhile isOctal_fence _) (fun _ => steady_literal _) hd h
            · refine Agree.ite (fun _ => steady_digitEscape c hd h) fun _ => ?_
              exact Steady.bind (steady_commonEscape c) (fun _ => steady_literal _) hd h

theorem steady_setMember (t : Token) : Steady (setMember t) := by
  cases t with
  | plain c => exact Steady.pure _
  | escaped c => exact steady_setEscape c

theorem steady_dash : Steady (accept '-') := steady_accept (by decide)

theorem Fails.member {F : Option Token → Reading β} {G : Token → SetItem → Reading β}
    (h : ']' ∉ st.rest) (hnone : Fails (F none) st)
    (hF : ∀ t, t ≠ .plain ']' → F (some t) = setMember t >>= G t)
    (hG : ∀ t item n, ']' ∉ (st.past n).rest → Fails (G t item) (st.past n)) :
    Fails (Reader.next >>= F) st := by
  refine Fails.next_without h hnone fun t n hne h' => ?_
  rw [hF t hne]
  refine Fails.bind_steady (steady_setMember t) h' fun item m h'' => ?_
  rw [past_past] at h'' ⊢
  exact hG t item _ h''

theorem setItems_fails {start : Nat} {done : List SetItem} {n : Nat} (h : ']' ∉ st.rest) :
    Fails (setItems start done n) st := by
  induction n generalizing st done with
  | zero => exact fails_throw _ _
  | succ n ih =>
      rw [setItems]
      refine Fails.member h (fails_throw _ _) (fun _ hne => if_neg fun hclose => hne hclose.1)
        fun this low _ h => ?_
      refine Fails.bind_steady steady_dash h fun dash _ h => ?_
      split
      · refine Fails.member h (fails_throw _ _) (fun _ hne => if_neg hne) fun that high _ h => ?_
        dsimp only
        split
        · split
          · exact fails_refuse _ _ _
          · exact ih h
        · exact fails_refuse _ _ _
      · exact ih h

theorem agree_setItems (hd : Fence d e) (h : Beside d e A E) {start start' : Nat}
    {done : List SetItem} {n m : Nat} :
    Agree d e (setItems start done n) (setItems start' done m) A E := by
  induction n generalizing A E done m with
  | zero => exact Agree.of_fails (fails_throw _ _)
  | succ n ih =>
      cases m with
      | zero => exact Agree.of_fails_right (fails_throw _ _)
      | succ m =>
          by_cases hA : A.rest = d
          · exact Agree.of_fails (setItems_fails (hA ▸ hd.bracket))
          · rw [setItems, setItems]
            refine Agree.bind (Agree.advance h hA) fun t _ h => ?_
            cases t with
            | none => exact Agree.of_fails (fails_throw _ _)
            | some this =>
                refine Agree.ite (fun _ => Agree.pure h _) fun _ => ?_
                refine Agree.bind (steady_setMember this hd h) fun low _ h => ?_
                refine Agree.bind (steady_dash hd h) fun dash _ h => ?_
                refine Agree.ite (fun _ => ?_) fun _ => ih h
                refine Agree.next h (fun that _ _ _ h => ?_) fun hA => Agree.of_fails ?_
                · refine Agree.ite (fun _ => Agree.pure h _) fun _ => ?_
                  refine Agree.bind (steady_setMember that hd h) fun high _ h => ?_
                  dsimp only
                  split
                  · exact Agree.ite (fun _ => Agree.of_fails (fails_refuse _ _ _)) fun _ => ih h
                  · exact Agree.of_fails (fails_refuse _ _ _)
                · refine Fails.member (hA ▸ hd.bracket) (fails_throw _ _) (fun _ hne => if_neg hne)
                    fun that high _ h => ?_
                  dsimp only
                  split
                  · split
                    · exact fails_refuse _ _ _
                    · exact setItems_fails h
                  · exact fails_refuse _ _ _

theorem steady_set : Steady set := by
  intro d e A E hd h
  unfold set
  refine Agree.get ?_
  refine Agree.bind (steady_accept (by decide) hd h) fun negated _ h => ?_
  refine Agree.get ?_
  refine Agree.bind (agree_setItems hd h) fun items _ h => ?_
  refine Agree.get ?_
  rw [h.flags]
  dsimp only
  split
  · exact Agree.pure h _
  · exact Agree.pure h _

theorem steady_count (digits : List Char) : Steady (count digits) := by
  unfold count
  refine Steady.ite (fun _ => Steady.of_fails (fails_throw _)) fun _ => ?_
  exact Steady.ite (fun _ => Steady.of_fails (fails_throw _)) fun _ => Steady.pure _

def numerals (limit : Nat) : Reading (Option (List Char × List Char)) := do
  let low ← takeWhile Number.isAsciiDigit limit
  let comma ← accept ','
  let high ← if comma then takeWhile Number.isAsciiDigit limit else pure low
  let closed ← accept '\x7d'
  return if closed then some (low, high) else none

def greatestOf (saved : State) (least : Nat) (high : List Char) : Reading (Option (Nat × Option Nat)) := do
  if high.isEmpty then return some (least, none)
  else
    let greatest ← count high
    if greatest < least then refuse .repeatOrder ((← get).position - saved.position)
    else return some (least, some greatest)

def countsOf (saved : State) (low high : List Char) : Reading (Option (Nat × Option Nat)) := do
  let least ← if low.isEmpty then pure 0 else count low
  greatestOf saved least high

theorem braces_eq : braces = (do
    let saved ← get
    if (← peek) = some (.plain '\x7d') then return none
    else
      match ← numerals saved.rest.length with
      | none =>
        braces.set saved
        return none
      | some (low, high) => countsOf saved low high) := by
  unfold braces
  refine bind_congr fun saved => bind_congr fun t => ?_
  split
  · rfl
  · simp only [numerals, bind_assoc]
    refine bind_congr fun low => bind_congr fun comma => ?_
    split
    · rw [bind_assoc]
      refine bind_congr fun high => ?_
      rw [bind_assoc]
      refine bind_congr fun closed => ?_
      cases closed <;> rfl
    · rw [bind_assoc]
      refine bind_congr fun high => ?_
      rw [bind_assoc]
      refine bind_congr fun closed => ?_
      cases closed <;> rfl

theorem agree_numerals (hd : Fence d e) (h : Beside d e A E) :
    Agree d e (numerals A.rest.length) (numerals E.rest.length) A E := by
  unfold numerals
  refine Agree.bind (agree_takeWhile isAsciiDigit_fence hd h (.inr ⟨le_rfl, le_rfl⟩))
    fun low n h' => ?_
  refine Agree.bind (steady_accept (by decide) hd h') fun comma m h'' => ?_
  refine Agree.ite (fun _ => ?_) fun _ => ?_
  · have hlimit : ((A.past n).past m).rest.length ≤ A.rest.length ∧
        ((E.past n).past m).rest.length ≤ E.rest.length := by
      simp only [State.past, List.length_drop]
      omega
    refine Agree.bind (agree_takeWhile isAsciiDigit_fence hd h'' (.inr hlimit)) fun high _ h => ?_
    exact Agree.bind (steady_accept (by decide) hd h) fun _ _ h => Agree.pure h _
  · refine Agree.bind (Agree.pure h'' low) fun high _ h => ?_
    exact Agree.bind (steady_accept (by decide) hd h) fun _ _ h => Agree.pure h _

theorem agree_greatestOf (hd : Fence d e) (h : Beside d e A E) (saved saved' : State) (least : Nat)
    (high : List Char) : Agree d e (greatestOf saved least high) (greatestOf saved' least high) A E := by
  unfold greatestOf
  refine Agree.ite (fun _ => Agree.pure h _) fun _ => ?_
  refine Agree.bind (steady_count high hd h) fun greatest _ h => ?_
  refine Agree.ite (fun _ => ?_) fun _ => Agree.pure h _
  exact Agree.get (Agree.of_fails (fails_refuse _ _ _))

theorem agree_countsOf (hd : Fence d e) (h : Beside d e A E) (saved saved' : State)
    (low high : List Char) :
    Agree d e (countsOf saved low high) (countsOf saved' low high) A E := by
  unfold countsOf
  refine Agree.ite (fun _ => ?_) fun _ => ?_
  · exact Agree.bind (Agree.pure h _) fun _ _ h => agree_greatestOf hd h _ _ _ _
  · exact Agree.bind (steady_count low hd h) fun _ _ h => agree_greatestOf hd h _ _ _ _

theorem steady_braces : Steady braces := by
  intro d e A E hd h
  rw [braces_eq]
  refine Agree.get (Agree.test (by decide) hd h (fun _ => Agree.pure h _) ?_)
  constructor
  intro x y A' E' hf hg
  obtain ⟨r, A₁, hf₁, hf⟩ := run_bind_eq_ok.mp hf
  obtain ⟨r', E₁, hg₁, hg⟩ := run_bind_eq_ok.mp hg
  obtain ⟨rfl, ⟨n, rfl, rfl⟩, h'⟩ := (agree_numerals hd h).of_runs hf₁ hg₁
  cases r with
  | none =>
      cases hf
      cases hg
      exact ⟨rfl, ⟨0, rfl, rfl⟩, h⟩
  | some r =>
      obtain ⟨hxy, ⟨m, rfl, rfl⟩, h''⟩ := (agree_countsOf hd h' A E r.1 r.2).of_runs hf hg
      exact ⟨hxy, ⟨n + m, past_past A n m, past_past E n m⟩, h''⟩

theorem steady_counts (mark : Char) : Steady (counts mark) := by
  unfold counts
  split
  · exact Steady.pure _
  · exact Steady.pure _
  · exact Steady.pure _
  · exact steady_braces

theorem steady_greed : Steady greed := by
  unfold greed
  refine Steady.bind (steady_accept (by decide)) fun question => ?_
  refine Steady.ite (fun _ => Steady.pure _) fun _ => ?_
  refine Steady.bind (steady_accept (by decide)) fun plus => ?_
  exact Steady.ite (fun _ => Steady.pure _) fun _ => Steady.pure _

theorem agree_repeated (hd : Fence d e) (h : Beside d e A E) (start start' low : Nat)
    (high : Option Nat) (done : List Pattern) :
    Agree d e (repeated start low high done) (repeated start' low high done) A E := by
  unfold repeated
  split
  · exact Agree.of_fails (fails_throw _ _)
  · exact Agree.of_fails (fails_throw _ _)
  · exact Agree.of_fails (fails_throw _ _)
  · exact Agree.bind (steady_greed hd h) fun _ _ h => Agree.pure h _

theorem takeUntil_fails {terminator : Char} {what : String} {soFar : List Char} {n : Nat}
    (h : terminator ∉ st.rest) : Fails (takeUntil terminator what soFar n) st := by
  induction n generalizing st soFar with
  | zero => exact fails_throw _ _
  | succ n ih =>
      rw [takeUntil]
      refine Fails.next_without h ?_ fun t _ hne h => ?_
      · dsimp only
        split <;> exact fails_refuse _ _ _
      · dsimp only
        rw [if_neg hne]
        exact ih h

def Ending (c : Char) (d : List Char) (A : State) : Prop := c ∉ d ∨ c = ')' ∧ A.rest ≠ d

theorem Ending.past {c : Char} (h : Ending c d A) (hd : Fence d e) {t : Token} (ht : t ≠ .plain c)
    (last : tokenOf d = some (.escaped 'k') → (A.past t.size).rest = d → t = .plain ')') :
    Ending c d (A.past t.size) := by
  by_cases hc : c ∈ d
  · rcases h with h | ⟨rfl, -⟩
    · exact absurd hc h
    · exact .inr ⟨rfl, fun hrest => ht (last (hd.paren hc) hrest)⟩
  · exact .inl hc

theorem agree_takeUntil (hd : Fence d e) (h : Beside d e A E) {terminator : Char}
    (hend : Ending terminator d A) {what : String} {soFar : List Char} {n m : Nat} :
    Agree d e (takeUntil terminator what soFar n) (takeUntil terminator what soFar m) A E := by
  induction n generalizing A E soFar m with
  | zero => exact Agree.of_fails (fails_throw _ _)
  | succ n ih =>
      cases m with
      | zero => exact Agree.of_fails_right (fails_throw _ _)
      | succ m =>
          by_cases hA : A.rest = d
          · have hterminator := hend.resolve_right fun hne => hne.2 hA
            exact Agree.of_fails (takeUntil_fails (hA ▸ hterminator))
          · rw [takeUntil, takeUntil]
            refine Agree.next h (fun t _ _ last h => ?_) fun hd => absurd hd hA
            refine Agree.ite (fun _ => ?_) fun ht => ih h (hend.past hd ht last)
            exact Agree.ite (fun _ => Agree.of_fails (fails_refuse _ _ _)) fun _ => Agree.pure h _

theorem agree_takeName (hd : Fence d e) (h : Beside d e A E) {terminator : Char}
    (hend : Ending terminator d A) (what : String) :
    Agree d e (takeName terminator what) (takeName terminator what) A E :=
  Agree.get (agree_takeUntil hd h hend)

theorem skipComment_fails {start n : Nat} (h : ')' ∉ st.rest) : Fails (skipComment start n) st := by
  induction n generalizing st with
  | zero => exact fails_throw _ _
  | succ n ih =>
      rw [skipComment]
      refine Fails.next_without h (fails_throw _ _) fun t _ hne h => ?_
      split
      · rename_i heq
        cases heq
      · rename_i heq
        exact absurd (Option.some.inj heq) hne
      · exact ih h

theorem agree_skipComment (hd : Fence d e) (h : Beside d e A E) (hend : Ending ')' d A)
    {start start' n m : Nat} : Agree d e (skipComment start n) (skipComment start' m) A E := by
  induction n generalizing A E m with
  | zero => exact Agree.of_fails (fails_throw _ _)
  | succ n ih =>
      cases m with
      | zero => exact Agree.of_fails_right (fails_throw _ _)
      | succ m =>
          by_cases hA : A.rest = d
          · have hterminator := hend.resolve_right fun hne => hne.2 hA
            exact Agree.of_fails (skipComment_fails (hA ▸ hterminator))
          · rw [skipComment, skipComment]
            refine Agree.next h (fun t _ _ last h => ?_) fun hd => absurd hd hA
            split
            · exact Agree.of_fails (fails_throw _ _)
            · exact Agree.pure h _
            · rename_i t' hne heq
              cases heq
              exact ih h (hend.past hd hne last)

theorem steady_checkName (name : List Char) : Steady (checkName name) := by
  unfold checkName
  exact Steady.ite (fun _ => Steady.pure _) fun _ => steady_refuse _ _

def namedReference : Reading Pattern := do
  let name ← takeName ')' "group name"
  checkName name
  match (← get).names.lookup (String.ofList name) with
  | none => refuse (.unknownName (String.ofList name)) (name.length + 1)
  | some g =>
    if !(← isClosed g) then refuse .openGroup (name.length + 1)
    else
      checkLookbehind g
      backref g

theorem namedForm_eq (body : Reading Pattern) (start : Nat) : namedForm body start = (do
    if ← accept '<' then
      let name ← takeName '>' "group name"
      checkName name
      capturing body start (some name)
    else if ← accept '=' then namedReference
    else
      match ← next with
      | none => refuse .unexpectedEnd
      | some t => refuse (.unknownExtension (String.ofList ('?' :: 'P' :: t.text))) (t.size + 2)) :=
  rfl

theorem agree_namedReference (hd : Fence d e) (h : Beside d e A E) (hend : Ending ')' d A) :
    Agree d e namedReference namedReference A E := by
  unfold namedReference
  refine Agree.bind (agree_takeName hd h hend _) fun name _ h => ?_
  refine Agree.bind (steady_checkName name hd h) fun _ _ h => Agree.get ?_
  rw [h.names]
  split
  · exact Agree.of_fails (fails_refuse _ _ _)
  · refine Agree.bind (steady_isClosed _ hd h) fun closed _ h => ?_
    refine Agree.ite (fun _ => Agree.of_fails (fails_refuse _ _ _)) fun _ => ?_
    exact Agree.bind (steady_checkLookbehind _ hd h) fun _ _ h => steady_backref _ hd h

theorem notFlag_fails (t : Token) (expected : String) (st : State) : Fails (notFlag t expected) st := by
  cases t with
  | plain c => exact fails_refuse _ _ _
  | escaped c => exact fails_refuse _ _ _

theorem Fails.next_token {F : Option Token → Reading β}
    (h : ∀ st', Fails (F (tokenOf st.rest)) st') : Fails (next >>= F) st := by
  intro y st' hrun
  obtain ⟨x, st₁, hfirst, hsecond⟩ := run_bind_eq_ok.mp hrun
  obtain rfl : x = tokenOf st.rest := by
    rcases next_eq_ok.mp hfirst with ⟨hnone, rfl, -⟩ | ⟨t, ht, rfl, -⟩
    · exact hnone.symm
    · exact ht.symm
  exact h st₁ y st' hsecond

theorem Fence.left_cases (hd : Fence d e) :
    tokenOf d = none ∨ tokenOf d = some (.plain '(') ∨ tokenOf d = some (.plain '\\') ∨
      tokenOf d = some (.escaped 'k') := by
  obtain ⟨hmem, hne⟩ := hd.left
  simpa [fences, hne] using hmem

theorem Fails.next_fence (hd : Fence d e) (hA : A.rest = d) {F : Option Token → Reading β}
    (hnone : ∀ st, Fails (F none) st) (hopen : ∀ st, Fails (F (some (.plain '('))) st)
    (hback : ∀ st, Fails (F (some (.plain '\\'))) st) (href : ∀ st, Fails (F (some (.escaped 'k'))) st) :
    Fails (next >>= F) A := by
  refine Fails.next_token fun st => ?_
  rw [hA]
  rcases hd.left_cases with h | h | h | h
  · exact h ▸ hnone st
  · exact h ▸ hopen st
  · exact h ▸ hback st
  · exact h ▸ href st

theorem agree_flagsOff (hd : Fence d e) (h : Beside d e A E) {on off : List Char} {c : Char}
    {n m : Nat} : Agree d e (flagsOff on off c n) (flagsOff on off c m) A E := by
  induction n generalizing A E off c m with
  | zero => exact Agree.of_fails (fails_throw _ _)
  | succ n ih =>
      cases m with
      | zero => exact Agree.of_fails_right (fails_throw _ _)
      | succ m =>
          rw [flagsOff, flagsOff]
          refine Agree.ite (fun _ => Agree.of_fails (fails_refuse _ _ _)) fun _ => ?_
          refine Agree.next h (fun t _ _ _ h => ?_) fun hA => ?_
          · split
            · exact Agree.of_fails (fails_refuse _ _ _)
            · refine Agree.ite (fun _ => Agree.of_fails (fails_refuse _ _ _)) fun _ => ?_
              exact Agree.ite (fun _ => Agree.of_fails (fails_refuse _ _ _)) fun _ => Agree.pure h _
            · exact Agree.ite (fun _ => ih h) fun _ => Agree.of_fails (notFlag_fails _ _ _)
            · exact Agree.of_fails (notFlag_fails _ _ _)
          · exact Agree.of_fails (Fails.next_fence hd hA (fails_refuse _ _) (fails_refuse _ _)
              (fails_refuse _ _) (fails_refuse _ _))

theorem steady_flagsEnd (on : List Char) (last : Char) : Steady (flagsEnd on last) := by
  intro d e A E hd h
  unfold flagsEnd
  refine Agree.ite (fun _ => Agree.pure h _) fun _ => ?_
  refine Agree.ite (fun _ => Agree.of_fails (fails_refuse _ _ _)) fun _ => ?_
  refine Agree.ite (fun _ => ?_) fun _ => Agree.pure h _
  refine Agree.next h (fun t _ _ _ h => ?_) fun hA => ?_
  · split
    · exact Agree.of_fails (fails_refuse _ _ _)
    · refine Agree.ite (fun _ => Agree.get ?_) fun _ => ?_
      · exact Agree.bind (agree_flagsOff hd h) fun _ _ h => Agree.pure h _
      · exact Agree.of_fails (Fails.bind (notFlag_fails _ _ _) _)
    · exact Agree.of_fails (Fails.bind (notFlag_fails _ _ _) _)
  · exact Agree.of_fails (Fails.next_fence hd hA (fails_refuse _ _) (fun _ => (notFlag_fails _ _ _).bind _)
      (fun _ => (notFlag_fails _ _ _).bind _) fun _ => (notFlag_fails _ _ _).bind _)

theorem agree_flagsOn (hd : Fence d e) (h : Beside d e A E) {on : List Char} {c : Char} {n m : Nat} :
    Agree d e (flagsOn on c n) (flagsOn on c m) A E := by
  induction n generalizing A E on c m with
  | zero => exact Agree.of_fails (fails_throw _ _)
  | succ n ih =>
      cases m with
      | zero => exact Agree.of_fails_right (fails_throw _ _)
      | succ m =>
          rw [flagsOn, flagsOn]
          refine Agree.ite (fun _ => Agree.of_fails (fails_refuse _ _ _)) fun _ => ?_
          refine Agree.ite (fun _ => Agree.of_fails (fails_refuse _ _ _)) fun _ => ?_
          refine Agree.next h (fun t _ _ _ h => ?_) fun hA => ?_
          · split
            · exact Agree.of_fails (fails_refuse _ _ _)
            · refine Agree.ite (fun _ => ?_) fun _ => ?_
              · exact Agree.bind (steady_flagsEnd _ _ hd h) fun _ _ h => Agree.pure h _
              · exact Agree.ite (fun _ => ih h) fun _ =>
                  Agree.of_fails (Fails.bind (notFlag_fails _ _ _) _)
            · exact Agree.of_fails (Fails.bind (notFlag_fails _ _ _) _)
          · exact Agree.of_fails (Fails.next_fence hd hA (fails_refuse _ _)
              (fun _ => (notFlag_fails _ _ _).bind _) (fun _ => (notFlag_fails _ _ _).bind _)
              fun _ => (notFlag_fails _ _ _).bind _)

def item (body branch : Reading Pattern) (start : Nat) (atStart : Bool) (flags : Flags)
    (done : List Pattern) : Token → Reading (List Pattern)
  | .escaped c => do return (← escape c) :: done
  | .plain c => do
    if flags.verbose && isVerboseSpace c then return done
    else if flags.verbose && c = '#' then
      skipLine ((← get).rest.length + 1)
      return done
    else if c = '[' then return (← set) :: done
    else if c = '.' then return .char (.any flags.dotAll) :: done
    else if c = '^' then
      return .anchor (if flags.multiline then .lineStart else .textStart) :: done
    else if c = '$' then
      return .anchor (if flags.multiline then .lineEnd else .lastLineEnd) :: done
    else if c = '(' then
      match ← group body branch start atStart with
      | some p => return p :: done
      | none => return done
    else if c = '*' ∨ c = '+' ∨ c = '?' ∨ c = '\x7b' then
      match ← counts c with
      | none => return (← literal c.toNat) :: done
      | some (low, high) => repeated start low high done
    else return (← literal c.toNat) :: done

inductive ReadsItem (body branch : Reading Pattern) (start : Nat) (atStart : Bool) (flags : Flags)
    (done : List Pattern) (st : State) : Token → List Pattern → State → Prop
  | escaped {c : Char} {p : Pattern} {st' : State} (h : (escape c).run st = .ok (p, st')) :
      ReadsItem body branch start atStart flags done st (.escaped c) (p :: done) st'
  | space {c : Char} (hverbose : flags.verbose = true) (hspace : isVerboseSpace c = true) :
      ReadsItem body branch start atStart flags done st (.plain c) done st
  | comment {st' : State} (hverbose : flags.verbose = true)
      (h : (skipLine (st.rest.length + 1)).run st = .ok ((), st')) :
      ReadsItem body branch start atStart flags done st (.plain '#') done st'
  | set {p : Pattern} {st' : State} (h : set.run st = .ok (p, st')) :
      ReadsItem body branch start atStart flags done st (.plain '[') (p :: done) st'
  | any : ReadsItem body branch start atStart flags done st (.plain '.') (.char (.any flags.dotAll) :: done) st
  | anchor {c : Char} {a : Anchor} (hc : c = '^' ∨ c = '$') :
      ReadsItem body branch start atStart flags done st (.plain c) (.anchor a :: done) st
  | group {p : Option Pattern} {st' : State} (h : (group body branch start atStart).run st = .ok (p, st')) :
      ReadsItem body branch start atStart flags done st (.plain '(') (p.toList ++ done) st'
  | repeated {c : Char} {low : Nat} {high : Option Nat} {done' : List Pattern} {st₁ st' : State}
      (hc : c = '*' ∨ c = '+' ∨ c = '?' ∨ c = '\x7b') (h : (counts c).run st = .ok (some (low, high), st₁))
      (hrepeated : (repeated start low high done).run st₁ = .ok (done', st')) :
      ReadsItem body branch start atStart flags done st (.plain c) done' st'
  | counts {c : Char} {p : Pattern} {st₁ st' : State} (hc : c = '*' ∨ c = '+' ∨ c = '?' ∨ c = '\x7b')
      (h : (counts c).run st = .ok (none, st₁)) (hliteral : (literal c.toNat).run st₁ = .ok (p, st')) :
      ReadsItem body branch start atStart flags done st (.plain c) (p :: done) st'
  | literal {c : Char} {p : Pattern} {st' : State} (hopen : c ≠ '(') (hset : c ≠ '[')
      (hcomment : ¬(flags.verbose = true ∧ c = '#')) (h : (literal c.toNat).run st = .ok (p, st')) :
      ReadsItem body branch start atStart flags done st (.plain c) (p :: done) st'

theorem item_ok {body branch : Reading Pattern} {start : Nat} {atStart : Bool} {flags : Flags}
    {done done' : List Pattern} {t : Token}
    (h : (item body branch start atStart flags done t).run st = .ok (done', st')) :
    ReadsItem body branch start atStart flags done st t done' st' := by
  have hone {f : Reading Pattern} (h : (f >>= fun p => pure (p :: done)).run st = .ok (done', st')) :
      ∃ p, done' = p :: done ∧ f.run st = .ok (p, st') := by
    obtain ⟨p, st₁, hp, h⟩ := run_bind_eq_ok.mp h
    cases h
    exact ⟨p, rfl, hp⟩
  cases t with
  | escaped c =>
      obtain ⟨p, rfl, hp⟩ := hone h
      exact .escaped hp
  | plain c =>
      rw [item] at h
      by_cases hspace : (flags.verbose && isVerboseSpace c) = true
      · rw [if_pos hspace] at h
        cases h
        rw [Bool.and_eq_true] at hspace
        exact .space hspace.1 hspace.2
      rw [if_neg hspace] at h
      by_cases hcomment : (flags.verbose && c = '#') = true
      · rw [if_pos hcomment, run_bind_ok (run_get st)] at h
        obtain ⟨_, st₁, hskip, h⟩ := run_bind_eq_ok.mp h
        cases h
        rw [Bool.and_eq_true, decide_eq_true_eq] at hcomment
        obtain ⟨hverbose, rfl⟩ := hcomment
        exact .comment hverbose hskip
      rw [if_neg hcomment] at h
      by_cases hset : c = '['
      · rw [if_pos hset] at h
        obtain ⟨p, rfl, hp⟩ := hone h
        exact hset ▸ .set hp
      rw [if_neg hset] at h
      by_cases hdot : c = '.'
      · rw [if_pos hdot] at h
        cases h
        exact hdot ▸ .any
      rw [if_neg hdot] at h
      by_cases hcaret : c = '^'
      · rw [if_pos hcaret] at h
        cases h
        exact .anchor (.inl hcaret)
      rw [if_neg hcaret] at h
      by_cases hdollar : c = '$'
      · rw [if_pos hdollar] at h
        cases h
        exact .anchor (.inr hdollar)
      rw [if_neg hdollar] at h
      by_cases hopen : c = '('
      · rw [if_pos hopen] at h
        subst hopen
        obtain ⟨p, st₁, hp, h⟩ := run_bind_eq_ok.mp h
        cases p with
        | none | some p =>
            cases h
            exact .group hp
      rw [if_neg hopen] at h
      by_cases hc : c = '*' ∨ c = '+' ∨ c = '?' ∨ c = '\x7b'
      · rw [if_pos hc] at h
        obtain ⟨r, st₁, hr, h⟩ := run_bind_eq_ok.mp h
        cases r with
        | none =>
            obtain ⟨p, st₂, hp, h⟩ := run_bind_eq_ok.mp h
            cases h
            exact .counts hc hr hp
        | some r => exact .repeated hc hr h
      · rw [if_neg hc] at h
        obtain ⟨p, rfl, hp⟩ := hone h
        exact .literal hopen hset (by simpa using hcomment) hp

theorem ite_bind {c : Prop} [Decidable c] (f g : Reading α) (F : α → Reading β) :
    (if c then f else g) >>= F = if c then f >>= F else g >>= F := by
  split <;> rfl

theorem items_eq (first : Bool) (done : List Pattern) (n : Nat) : items first done (n + 1) = (do
    let start := (← get).position
    let flags := (← get).flags
    match ← peek with
    | none => return Pattern.ofList done.reverse
    | some t =>
      if t = .plain '|' ∨ t = .plain ')' then return Pattern.ofList done.reverse
      else
        let _ ← next
        let done ← item (branches true [] n) (items false [] n) start (first && done.isEmpty) flags done t
        items first done n) := by
  rw [items]
  refine bind_congr fun s => bind_congr fun s' => bind_congr fun t => ?_
  rcases t with _ | c | c
  · rfl
  · split
    · cases ‹some (Token.plain c) = none›
    · rename_i h
      cases h
      rfl
    · rename_i h
      cases h
      rfl
    · cases ‹some (Token.plain c) = some (Token.escaped _)›
    · rename_i hbar hparen h
      cases h
      have hne : ¬(Token.plain c = .plain '|' ∨ Token.plain c = .plain ')') := by
        simpa using ⟨hbar, hparen⟩
      dsimp only
      rw [if_neg hne]
      refine bind_congr fun _ => ?_
      simp only [item, ite_bind, bind_assoc, pure_bind]
      refine ite_congr rfl (fun _ => rfl) fun _ => ?_
      refine ite_congr rfl (fun _ => rfl) fun _ => ?_
      refine ite_congr rfl (fun _ => rfl) fun _ => ?_
      refine ite_congr rfl (fun _ => rfl) fun _ => ?_
      refine ite_congr rfl (fun _ => rfl) fun _ => ?_
      refine ite_congr rfl (fun _ => rfl) fun _ => ?_
      refine ite_congr rfl (fun _ => bind_congr fun p => ?_) fun _ => ?_
      · cases p <;> rfl
      refine ite_congr rfl (fun _ => bind_congr fun r => ?_) fun _ => rfl
      cases r with
      | none => simp only [bind_assoc, pure_bind]
      | some r => rfl
  · simp only [item, bind_assoc, pure_bind]
    rfl

section

variable {nested first : Bool} {done : List Pattern} {n : Nat} {p : Pattern}

theorem branches_zero_fails (nested : Bool) (done : List Pattern) : Fails (branches nested done 0) st := by
  rw [branches]
  exact fails_throw _ _

theorem items_zero_fails (first : Bool) (done : List Pattern) : Fails (items first done 0) st := by
  rw [items]
  exact fails_throw _ _

theorem branches_ok (h : (branches nested done (n + 1)).run st = .ok (p, st')) :
    ∃ q st₁ b st₂, (items (!nested && done.isEmpty) [] n).run st = .ok (q, st₁) ∧
      (accept '|').run st₁ = .ok (b, st₂) ∧
      (if b then branches nested (q :: done) n else pure (Pattern.ofBranches (q :: done).reverse)).run st₂ =
        .ok (p, st') := by
  rw [branches] at h
  obtain ⟨q, st₁, hitems, h⟩ := run_bind_eq_ok.mp h
  obtain ⟨b, st₂, hbar, h⟩ := run_bind_eq_ok.mp h
  exact ⟨q, st₁, b, st₂, hitems, hbar, h⟩

theorem items_end (hend : ∀ t, tokenOf st.rest = some t → t = .plain '|' ∨ t = .plain ')')
    (h : (items first done n).run st = .ok (p, st')) : p = Pattern.ofList done.reverse ∧ st' = st := by
  cases n with
  | zero => exact absurd h (items_zero_fails _ _ _ _)
  | succ n =>
      rw [items_eq, run_bind_ok (run_get st), run_bind_ok (run_get st), run_bind_ok (run_peek st)] at h
      cases ht : tokenOf st.rest with
      | none =>
          rw [ht] at h
          cases h
          exact ⟨rfl, rfl⟩
      | some t =>
          rw [ht] at h
          dsimp only at h
          rw [if_pos (hend t ht)] at h
          cases h
          exact ⟨rfl, rfl⟩

theorem items_nil_ok (hrest : st.rest = []) (h : (items first done n).run st = .ok (p, st')) :
    p = Pattern.ofList done.reverse ∧ st' = st :=
  items_end (by simp [hrest, tokenOf]) h

theorem items_more {t : Token} (ht : tokenOf st.rest = some t) (hmore : ¬(t = .plain '|' ∨ t = .plain ')'))
    (h : (items first done (n + 1)).run st = .ok (p, st')) :
    ∃ done' st₁, next.run st = .ok (some t, st.past t.size) ∧
      (item (branches true [] n) (items false [] n) st.position (first && done.isEmpty) st.flags done t).run
        (st.past t.size) = .ok (done', st₁) ∧
      (items first done' n).run st₁ = .ok (p, st') := by
  rw [items_eq, run_bind_ok (run_get st), run_bind_ok (run_get st), run_bind_ok (run_peek st), ht] at h
  dsimp only at h
  rw [if_neg hmore] at h
  obtain ⟨x, st₁, hnext, h⟩ := run_bind_eq_ok.mp h
  obtain ⟨rfl, rfl, -⟩ := next_some ht hnext
  obtain ⟨done', st₂, hitem, h⟩ := run_bind_eq_ok.mp h
  exact ⟨done', st₂, hnext, hitem, h⟩

end

end BaseLib.Regex.Reader
