import BaseLib.Proofs.Regex.GroupTable
import BaseLib.Proofs.Regex.Literal
import BaseLib.Proofs.Regex.References

namespace BaseLib.Regex

open Text.Composite

def Match.numbered? (m : Match) (digits : List Char) : Option Group := do m.groups[← Text.decimalValue? digits]?

def Match.named? (m : Match) (name : List Char) : Option Group := do m.groups[← m.regex.groupNames.idxOf? name]?

/-- The group of a key: the one of that number if the key is written in digits, else the one of that name. -/
def Match.keyed? (m : Match) (key : List Char) : Option Group :=
  if Text.allDigits key then m.numbered? key else m.named? key

/-- Of the beginnings of a run of digits, the longest that numbers a group has `k` of them. -/
structure IsLongest (m : Match) (run : List Char) (k : Nat) (g : Group) : Prop where
  nonempty : 0 < k
  within : k ≤ run.length
  number : m.numbered? (run.take k) = some g
  longest : ∀ j, k < j → j ≤ run.length → m.numbered? (run.take j) = none

inductive Stands (m : Match) (text : List Char) : Char → List Char → Prop
  | dollar : Stands m text '$' ['$']
  | whole : Stands m text '&' m.whole.value
  | before : Stands m text '\x60' (text.take m.whole.index)
  | after : Stands m text '\'' (text.drop (m.whole.index + m.whole.length))
  | text : Stands m text '_' text
  | last : Stands m text '+' ((m.groups.tail.getLast?.map (·.value)).getD [])

/-- What follows a dollar sign makes a token with it: the token's meaning, and what is left after the token. -/
inductive Asked (m : Match) (text : List Char) : List Char → List Char → List Char → Prop
  | mark {c : Char} {value rest : List Char} (h : Stands m text c value) : Asked m text (c :: rest) value rest
  | braces {key rest : List Char} {g : Group} (closed : '}' ∉ key) (h : m.keyed? key = some g) :
    Asked m text ('{' :: (key ++ '}' :: rest)) g.value rest
  | number {run rest : List Char} {k : Nat} {g : Group} (digits : Text.allDigits run = true)
    (stops : Stops (Text.isDigit ·.toNat) rest) (h : IsLongest m run k g) :
    Asked m text (run ++ rest) g.value (run.drop k ++ rest)

/-- One step through a replacement: a character that stands for itself, a token, or a dollar sign that makes no
token and stands for itself. -/
inductive Next (m : Match) (text : List Char) : List Char → List Char → List Char → Prop
  | plain {c : Char} {rest : List Char} (hc : c ≠ '$') : Next m text (c :: rest) [c] rest
  | token {t value rest : List Char} (h : Asked m text t value rest) : Next m text ('$' :: t) value rest
  | dollar {t : List Char} (h : ∀ value rest, ¬Asked m text t value rest) : Next m text ('$' :: t) ['$'] t

/-- A replacement is read to its end, and the meanings of the steps are put together. -/
inductive Expands (m : Match) (text : List Char) : List Char → List Char → Prop
  | done : Expands m text [] []
  | step {t value rest out : List Char} (h : Next m text t value rest) (hrest : Expands m text rest out) :
    Expands m text t (value ++ out)

def Comes (m : Match) (text : List Char) : List Char → List Char → Prop :=
  Relation.ReflTransGen fun t rest => ∃ value, Next m text t value rest

section

variable {m : Match} {text t rest value : List Char}

theorem Stands.unique {c : Char} {v w : List Char} (hv : Stands m text c v) (hw : Stands m text c w) : v = w := by
  cases hv <;> cases hw <;> rfl

theorem Stands.not_open {c : Char} (h : Stands m text c value) : c ≠ '{' := by
  cases h <;> decide

theorem Stands.not_digit {c : Char} (h : Stands m text c value) : Text.isDigit c.toNat = false := by
  cases h <;> decide

theorem IsLongest.unique {run : List Char} {k l : Nat} {g x : Group} (hk : IsLongest m run k g)
    (hl : IsLongest m run l x) : k = l ∧ g = x := by
  have hle {k l : Nat} {g x : Group} (hk : IsLongest m run k g) (hl : IsLongest m run l x) : l ≤ k := by
    by_contra hlt
    have hnone := hk.longest l (Nat.lt_of_not_le hlt) hl.within
    rw [hl.number] at hnone
    cases hnone
  obtain rfl : k = l := Nat.le_antisymm (hle hl hk) (hle hk hl)
  exact ⟨rfl, Option.some.inj (hk.number.symm.trans hl.number)⟩

theorem Stands.not_run {c : Char} {run : List Char} (h : Stands m text c value)
    (digits : Text.allDigits run = true) (rest : List Char) : run ++ rest ≠ c :: t := by
  obtain ⟨hne, hall⟩ := allDigits_iff.mp digits
  cases run with
  | nil => exact absurd rfl hne
  | cons d run =>
      intro heq
      have hd := hall d List.mem_cons_self
      rw [(List.cons.inj heq).1, h.not_digit] at hd
      cases hd

theorem exists_run {c : Char} (hc : Text.isDigit c.toNat = true) (t : List Char) :
    ∃ run rest, c :: t = run ++ rest ∧ Text.allDigits run = true ∧ Stops (Text.isDigit ·.toNat) rest := by
  refine ⟨(c :: t).takeWhile (Text.isDigit ·.toNat), (c :: t).dropWhile (Text.isDigit ·.toNat),
    (List.takeWhile_append_dropWhile).symm, ?_, stops_dropWhile _ _⟩
  refine allDigits_iff.mpr ⟨by simp [hc], fun d hd => ?_⟩
  exact List.mem_takeWhile_imp (p := fun c : Char => Text.isDigit c.toNat) hd

theorem Asked.mark_iff {c : Char} {v : List Char} (hc : Stands m text c v) :
    Asked m text (c :: t) value rest ↔ value = v ∧ rest = t := by
  constructor
  · generalize ht : c :: t = u
    intro h
    cases h with
    | mark h =>
        cases ht
        exact ⟨h.unique hc, rfl⟩
    | braces closed h => exact absurd (List.cons.inj ht).1 hc.not_open
    | number digits stops h => exact absurd ht.symm (hc.not_run digits _)
  · rintro ⟨rfl, rfl⟩
    exact .mark hc

theorem Asked.braces_iff {key u : List Char} (closed : '}' ∉ key) :
    Asked m text ('{' :: (key ++ '}' :: u)) value rest ↔
      ∃ g, m.keyed? key = some g ∧ value = g.value ∧ rest = u := by
  constructor
  · generalize ht : '{' :: (key ++ '}' :: u) = w
    intro h
    cases h with
    | mark h => exact absurd (List.cons.inj ht).1.symm h.not_open
    | braces closed' h =>
        have hbreak := Text.breakOn_singleton closed (r := u)
        rw [(List.cons.inj ht).2, Text.breakOn_singleton closed'] at hbreak
        cases hbreak
        exact ⟨_, h, rfl, rfl⟩
    | number digits stops h => exact absurd ht.symm (run_ne_open digits _)
  · rintro ⟨g, h, rfl, rfl⟩
    exact .braces closed h

theorem not_asked_open (ht : '}' ∉ t) : ¬Asked m text ('{' :: t) value rest := by
  generalize hw : '{' :: t = w
  intro h
  cases h with
  | mark h => exact absurd (List.cons.inj hw).1.symm h.not_open
  | braces closed h =>
      cases hw
      exact ht (by simp)
  | number digits stops h => exact absurd hw.symm (run_ne_open digits _)

theorem Asked.number_iff {run u : List Char} (digits : Text.allDigits run = true)
    (stops : Stops (Text.isDigit ·.toNat) u) :
    Asked m text (run ++ u) value rest ↔
      ∃ k g, IsLongest m run k g ∧ value = g.value ∧ rest = run.drop k ++ u := by
  constructor
  · generalize ht : run ++ u = w
    intro h
    cases h with
    | mark h => exact absurd ht (h.not_run digits _)
    | braces closed h => exact absurd ht (run_ne_open digits _)
    | number digits' stops' h =>
        obtain ⟨rfl, rfl⟩ := run_inj (allDigits_iff.mp digits).2 stops (allDigits_iff.mp digits').2 stops' ht
        exact ⟨_, _, h, rfl, rfl⟩
  · rintro ⟨k, g, h, rfl, rfl⟩
    exact .number digits stops h

theorem not_asked_other {c : Char} (hmark : ∀ v, ¬Stands m text c v) (hopen : c ≠ '{')
    (hdigit : Text.isDigit c.toNat = false) : ¬Asked m text (c :: t) value rest := by
  generalize hw : c :: t = w
  intro h
  cases h with
  | mark h =>
      cases hw
      exact hmark _ h
  | braces closed h => exact hopen (List.cons.inj hw).1
  | @number run _ _ _ digits stops h =>
      obtain ⟨hne, hall⟩ := allDigits_iff.mp digits
      cases run with
      | nil => exact hne rfl
      | cons d run =>
          have hd := hall d List.mem_cons_self
          rw [← (List.cons.inj hw).1, hdigit] at hd
          cases hd

theorem Asked.unique {v w r u : List Char} (hv : Asked m text t v r) (hw : Asked m text t w u) :
    v = w ∧ r = u := by
  cases hv with
  | mark h =>
      obtain ⟨rfl, rfl⟩ := (Asked.mark_iff h).mp hw
      exact ⟨rfl, rfl⟩
  | braces closed h =>
      obtain ⟨x, hx, rfl, rfl⟩ := (Asked.braces_iff closed).mp hw
      cases h.symm.trans hx
      exact ⟨rfl, rfl⟩
  | number digits stops h =>
      obtain ⟨l, x, hx, rfl, rfl⟩ := (Asked.number_iff digits stops).mp hw
      obtain ⟨rfl, rfl⟩ := h.unique hx
      exact ⟨rfl, rfl⟩

theorem Asked.shorter (h : Asked m text t value rest) : rest.length < t.length := by
  cases h with
  | mark h => exact Nat.lt_succ_self _
  | braces closed h =>
      simp only [List.length_cons, List.length_append]
      omega
  | number digits stops h =>
      have hk := h.nonempty
      have hle := h.within
      simp only [List.length_append, List.length_drop]
      omega

theorem Asked.suffix (h : Asked m text t value rest) : rest <:+ t := by
  cases h with
  | mark h => exact List.suffix_cons _ _
  | braces closed h => exact (List.suffix_cons _ _).trans ((List.suffix_append _ _).trans (List.suffix_cons _ _))
  | @number run rest k _ digits stops h =>
      exact ⟨run.take k, by rw [← List.append_assoc, List.take_append_drop]⟩

theorem Next.suffix (h : Next m text t value rest) : rest <:+ t := by
  cases h with
  | plain | dollar => exact List.suffix_cons _ _
  | token h => exact h.suffix.trans (List.suffix_cons _ _)

theorem Next.shorter (h : Next m text t value rest) : rest.length < t.length := by
  cases h with
  | plain | dollar => exact Nat.lt_succ_self _
  | token h => exact h.shorter.trans (Nat.lt_succ_self _)

theorem exists_next (m : Match) (text : List Char) (ht : t ≠ []) : ∃ value rest, Next m text t value rest := by
  cases t with
  | nil => exact absurd rfl ht
  | cons c t =>
      by_cases hc : c = '$'
      · subst hc
        by_cases h : ∃ value rest, Asked m text t value rest
        · obtain ⟨value, rest, h⟩ := h
          exact ⟨value, rest, .token h⟩
        · exact ⟨['$'], t, .dollar fun value rest ht => h ⟨value, rest, ht⟩⟩
      · exact ⟨[c], t, .plain hc⟩

theorem Next.unique {v w r u : List Char} (hv : Next m text t v r) (hw : Next m text t w u) :
    v = w ∧ r = u := by
  cases hv with
  | plain hc =>
      cases hw with
      | plain => exact ⟨rfl, rfl⟩
      | token | dollar => exact absurd rfl hc
  | token h =>
      cases hw with
      | plain hc => exact absurd rfl hc
      | token h' => exact h.unique h'
      | dollar h' => exact absurd h (h' _ _)
  | dollar h =>
      cases hw with
      | plain hc => exact absurd rfl hc
      | token h' => exact absurd h' (h _ _)
      | dollar => exact ⟨rfl, rfl⟩

theorem exists_expands (m : Match) (text t : List Char) : ∃ out, Expands m text t out := by
  by_cases ht : t = []
  · subst ht
    exact ⟨[], .done⟩
  · obtain ⟨value, rest, h⟩ := exists_next m text ht
    have hshorter := h.shorter
    obtain ⟨out, hout⟩ := exists_expands m text rest
    exact ⟨value ++ out, .step h hout⟩
termination_by t.length

theorem Expands.unique {out out' : List Char} (h : Expands m text t out) (h' : Expands m text t out') :
    out = out' := by
  induction h generalizing out' with
  | done =>
      generalize ht : ([] : List Char) = t at h'
      cases h' with
      | done => rfl
      | step hnext hrest => exact absurd (ht ▸ hnext.shorter) (Nat.not_lt_zero _)
  | step hnext _ ih =>
      cases h' with
      | done => exact absurd hnext.shorter (Nat.not_lt_zero _)
      | step hnext' hrest' =>
          obtain ⟨rfl, rfl⟩ := hnext.unique hnext'
          rw [ih hrest']

theorem length_groups (m : Match) : m.groups.length = m.regex.groupNames.length := by
  have hlay (text : List Char) (marks : Marks) (table : List (Nat × List Char)) (offset : Nat) :
      (Match.lay text marks table offset).length = table.length := by
    induction table generalizing offset with
    | nil => rfl
    | cons e table ih =>
        rw [Match.lay]
        split
        · exact congrArg (· + 1) (ih _)
        · exact congrArg (· + 1) (ih _)
  have hnames : m.regex.groupNames.length = m.regex.order.length := by
    simp only [groupNames, order, List.length_append, List.length_map, List.length_range, List.length_drop,
      List.length_cons]
    omega
  have horder : 0 < m.regex.order.length := Nat.succ_pos _
  rw [Match.groups]
  cases m.found with
  | none => exact List.length_map _
  | some f =>
      rw [List.length_cons, hlay, List.length_drop, List.length_zip]
      omega

theorem hasNumber_eq (table : GroupTable) (n : Nat) :
    (if table.hasNumber n then some (table.byNumber n) else none) = table.groups[n]? := by
  have hnumber : table.hasNumber n = decide (n < table.groups.length) := by
    simp [GroupTable.hasNumber]
  rw [hnumber]
  by_cases hn : n < table.groups.length
  · have hneg : ¬(n : Int) < 0 := by omega
    simp [GroupTable.byNumber, hn]
  · simp [hn]

theorem hasName_eq (m : Match) (name : List Char) :
    (if (GroupTable.ofMatch m).hasName name then some ((GroupTable.ofMatch m).byKnownName name) else none) =
      m.named? name := by
  have hplace : m.regex.groupNames.idxOf name =
      (m.regex.groupNames.idxOf? name).getD m.regex.groupNames.length := List.idxOf_eq_getD_idxOf? _ _
  rw [Match.named?, GroupTable.hasName, GroupTable.byKnownName]
  cases hname : m.regex.groupNames.idxOf? name with
  | none =>
      have hmem := List.idxOf?_eq_none_iff.mp hname
      simp [GroupTable.ofMatch, hmem]
  | some n =>
      obtain ⟨hn, hget, -⟩ := List.idxOf?_eq_some_iff.mp hname
      have hmem : name ∈ m.regex.groupNames := hget ▸ List.getElem_mem hn
      have hn : n < m.groups.length := (length_groups m).symm ▸ hn
      rw [hname] at hplace
      simp [GroupTable.ofMatch, hmem, hplace, hn]

theorem readNumeral_cases (digits : List Char) :
    (∃ n, Text.decimalValue? digits = some n ∧ readNumeral digits = .ok n) ∨
      readNumeral digits = .error (.misuse .badValue) := by
  rw [readNumeral]
  split
  · exact .inr rfl
  · cases Text.decimalValue? digits with
    | none => exact .inr rfl
    | some n => exact .inl ⟨n, rfl, rfl⟩

theorem readNumeral_readable {digits : List Char} (h : ¬Unreadable digits) :
    ∃ n, Text.decimalValue? digits = some n ∧ readNumeral digits = .ok n :=
  (readNumeral_cases digits).resolve_right fun herror =>
    h (misused_readNumeral.mp (herror ▸ misused_misuse _))

theorem readNumeral_unreadable {digits : List Char} (h : Unreadable digits) :
    readNumeral digits = .error (.misuse .badValue) := by
  refine (readNumeral_cases digits).resolve_left ?_
  rintro ⟨n, -, hok⟩
  exact misused_ok n (hok ▸ misused_readNumeral.mpr h)

theorem keyed?_eq {key : List Char} (h : Text.allDigits key = true → ¬Unreadable key) :
    (GroupTable.ofMatch m).keyed? key = .ok (m.keyed? key) := by
  rw [GroupTable.keyed?, Match.keyed?]
  split
  · rename_i hdigits
    obtain ⟨n, hvalue, hread⟩ := readNumeral_readable (h hdigits)
    rw [hread, Match.numbered?, hvalue]
    exact congrArg Except.ok (hasNumber_eq _ n)
  · exact congrArg Except.ok (hasName_eq m key)

theorem longest?_eq {run : List Char} (h : ¬Unreadable run) {n : Nat} (hn : n ≤ run.length) :
    (∃ k g, (GroupTable.ofMatch m).longest? run n = .ok (some (k, g)) ∧ 0 < k ∧ k ≤ n ∧
      m.numbered? (run.take k) = some g ∧ ∀ j, k < j → j ≤ n → m.numbered? (run.take j) = none) ∨
    ((GroupTable.ofMatch m).longest? run n = .ok none ∧
      ∀ j, 0 < j → j ≤ n → m.numbered? (run.take j) = none) := by
  induction n with
  | zero => exact .inr ⟨rfl, fun j hpos hj => absurd (hpos.trans_le hj) (Nat.lt_irrefl 0)⟩
  | succ n ih =>
      obtain ⟨v, hvalue, hread⟩ := readNumeral_readable fun htake => h (Unreadable.of_take (n := n + 1) htake)
      have hgroup := hasNumber_eq (GroupTable.ofMatch m) v
      have hnumber : m.numbered? (run.take (n + 1)) = m.groups[v]? := by
        rw [Match.numbered?, hvalue]
        rfl
      have hstep : (GroupTable.ofMatch m).longest? run (n + 1) =
          if (GroupTable.ofMatch m).hasNumber v then .ok (some (n + 1, (GroupTable.ofMatch m).byNumber v))
          else (GroupTable.ofMatch m).longest? run n := by
        rw [GroupTable.longest?, hread]
        rfl
      change _ = m.groups[v]? at hgroup
      rw [← hnumber] at hgroup
      rw [hstep]
      split at hgroup
      · rename_i hhas
        rw [if_pos hhas]
        exact .inl ⟨n + 1, _, rfl, Nat.succ_pos n, le_rfl, hgroup.symm,
          fun j hlt hle => absurd hle (Nat.not_le.mpr hlt)⟩
      · rename_i hhas
        rw [if_neg hhas]
        have hat {j : Nat} (hj : j ≤ n + 1) (hne : ¬j ≤ n) : m.numbered? (run.take j) = none := by
          obtain rfl : j = n + 1 := by omega
          exact hgroup.symm
        rcases ih (by omega) with ⟨k, g, hlongest, hpos, hk, hg, hbetween⟩ | ⟨hlongest, hnone⟩
        · refine .inl ⟨k, g, hlongest, hpos, hk.trans (Nat.le_succ n), hg, fun j hlt hj => ?_⟩
          by_cases hle : j ≤ n
          · exact hbetween j hlt hle
          · exact hat hj hle
        · refine .inr ⟨hlongest, fun j hpos hj => ?_⟩
          by_cases hle : j ≤ n
          · exact hnone j hpos hle
          · exact hat hj hle

theorem lastGroup_eq (m : Match) (text : List Char) :
    (Site.ofMatch m text).lastGroup = (m.groups.tail.getLast?.map (·.value)).getD [] := by
  show (if 1 < m.groups.length then (m.groups.getLast?.map (·.value)).getD [] else []) = _
  rcases m.groups with - | ⟨g, - | ⟨x, groups⟩⟩
  · rfl
  · rfl
  · rw [if_pos (by simp), List.getLast?_cons_cons, List.tail_cons]

theorem token?_mark {c : Char} (h : Stands m text c value) :
    (Site.ofMatch m text).token? (c :: t) = .ok (some (1, value)) := by
  cases h with
  | last => exact congrArg (fun v => Except.ok (some (1, v))) (lastGroup_eq m text)
  | _ => rfl

theorem token?_braces (m : Match) (text : List Char) {key rest : List Char} (closed : '}' ∉ key) :
    (Site.ofMatch m text).token? ('{' :: (key ++ '}' :: rest)) =
      ((GroupTable.ofMatch m).keyed? key).map (·.map fun g => (key.length + 2, g.value)) := by
  rw [Site.token?, Text.breakOn_singleton closed]
  dsimp only
  rfl

theorem token?_open (m : Match) (text : List Char) (ht : '}' ∉ t) :
    (Site.ofMatch m text).token? ('{' :: t) = .ok none := by
  rw [Site.token?, Text.breakOn_singleton_none ht]

theorem token?_unmarked {c : Char} (hmark : ∀ v, ¬Stands m text c v) (hopen : c ≠ '{') {run : List Char}
    (hrun : (c :: t).takeWhile (Text.isDigit ·.toNat) = run) :
    (Site.ofMatch m text).token? (c :: t) =
      ((GroupTable.ofMatch m).longest? run run.length).map (·.map fun (k, g) => (k, g.value)) := by
  subst hrun
  unfold Site.token?
  split
  · rename_i heq
    cases heq
  · rename_i heq
    cases heq
    exact absurd .dollar (hmark _)
  · rename_i heq
    cases heq
    exact absurd .whole (hmark _)
  · rename_i heq
    cases heq
    exact absurd .before (hmark _)
  · rename_i heq
    cases heq
    exact absurd .after (hmark _)
  · rename_i heq
    cases heq
    exact absurd .text (hmark _)
  · rename_i heq
    cases heq
    exact absurd .last (hmark _)
  · rename_i heq
    cases heq
    exact absurd rfl hopen
  · rfl

theorem token?_run (m : Match) (text : List Char) {run rest : List Char} (digits : Text.allDigits run = true)
    (stops : Stops (Text.isDigit ·.toNat) rest) :
    (Site.ofMatch m text).token? (run ++ rest) =
      ((GroupTable.ofMatch m).longest? run run.length).map (·.map fun (k, g) => (k, g.value)) := by
  have htake := takeWhile_append (allDigits_iff.mp digits).2 stops
  cases run with
  | nil => exact absurd rfl (allDigits_iff.mp digits).1
  | cons c run =>
      refine token?_unmarked (fun v hv => hv.not_run digits rest rfl) ?_ htake
      rintro rfl
      exact run_ne_open digits rest rfl

def Answers (m : Match) (text t : List Char) : Option (Nat × List Char) → Prop
  | some (n, value) => Asked m text t value (t.drop n)
  | none => ∀ value rest, ¬Asked m text t value rest

theorem answers_key {key rest : List Char} (closed : '}' ∉ key) :
    Answers m text ('{' :: (key ++ '}' :: rest)) ((m.keyed? key).map fun g => (key.length + 2, g.value)) := by
  cases hg : m.keyed? key with
  | none =>
      intro value u hasked
      obtain ⟨g, hsome, -⟩ := (Asked.braces_iff closed).mp hasked
      rw [hg] at hsome
      cases hsome
  | some g =>
      have hdrop : ('{' :: (key ++ '}' :: rest)).drop (key.length + 2) = rest := by simp
      show Asked m text _ g.value _
      rw [hdrop]
      exact .braces closed hg

theorem answers_run {run rest : List Char} (digits : Text.allDigits run = true)
    (stops : Stops (Text.isDigit ·.toNat) rest) (h : ¬Unreadable run) :
    ∃ found, (GroupTable.ofMatch m).longest? run run.length = .ok found ∧
      Answers m text (run ++ rest) (found.map fun (k, g) => (k, g.value)) := by
  rcases longest?_eq (m := m) h le_rfl with ⟨k, g, hlongest, hpos, hk, hg, hbetween⟩ | ⟨hlongest, hnone⟩
  · refine ⟨_, hlongest, ?_⟩
    show Asked m text _ g.value _
    rw [List.drop_append_of_le_length hk]
    exact .number digits stops ⟨hpos, hk, hg, hbetween⟩
  · refine ⟨_, hlongest, fun value u hasked => ?_⟩
    obtain ⟨k, g, hg, -⟩ := (Asked.number_iff digits stops).mp hasked
    have hk := hnone k hg.nonempty hg.within
    rw [hg.number] at hk
    cases hk

/-- The program's answer to what follows a dollar sign, where it comes to no unreadable digits. -/
theorem token?_answers (m : Match) (text : List Char) (h : ∀ digits, Refers t digits → ¬Unreadable digits) :
    ∃ answer, (Site.ofMatch m text).token? t = .ok answer ∧ Answers m text t answer := by
  cases t with
  | nil => exact ⟨none, rfl, fun value rest h => absurd h.shorter (Nat.not_lt_zero _)⟩
  | cons c t =>
      by_cases hmark : ∃ v, Stands m text c v
      · obtain ⟨v, hv⟩ := hmark
        exact ⟨_, token?_mark hv, .mark hv⟩
      · have hmark v hv : False := hmark ⟨v, hv⟩
        by_cases hopen : c = '{'
        · subst hopen
          by_cases hclosed : '}' ∈ t
          · obtain ⟨key, rest, rfl, hkey⟩ := List.eq_append_cons_of_mem hclosed
            rw [token?_braces m text hkey, keyed?_eq fun digits => h key (.braces hkey digits)]
            exact ⟨_, rfl, answers_key hkey⟩
          · exact ⟨none, token?_open m text hclosed, fun value rest => not_asked_open hclosed⟩
        · cases hdigit : Text.isDigit c.toNat with
          | false =>
              have hrun : (c :: t).takeWhile (Text.isDigit ·.toNat) = [] := by simp [hdigit]
              refine ⟨none, token?_unmarked hmark hopen hrun, fun value rest => ?_⟩
              exact not_asked_other hmark hopen hdigit
          | true =>
              obtain ⟨run, rest, hrun, hdigits, hstops⟩ := exists_run hdigit t
              rw [hrun] at h ⊢
              obtain ⟨found, hfound, hanswers⟩ := answers_run hdigits hstops (h run (.plain hdigits hstops))
              rw [token?_run m text hdigits hstops, hfound]
              exact ⟨_, rfl, hanswers⟩

theorem token?_unreadable {digits : List Char} (href : Refers t digits) (h : Unreadable digits) :
    (Site.ofMatch m text).token? t = .error (.misuse .badValue) := by
  cases href with
  | braces closed run =>
      rw [token?_braces m text closed, GroupTable.keyed?, if_pos run, readNumeral_unreadable h]
      rfl
  | plain run stops =>
      rw [token?_run m text run stops]
      cases digits with
      | nil => exact absurd rfl (allDigits_iff.mp run).1
      | cons c digits =>
          have htake : (c :: digits).take (digits.length + 1) = c :: digits := List.take_of_length_le le_rfl
          rw [List.length_cons, GroupTable.longest?, htake, readNumeral_unreadable h]
          rfl

theorem expandAfter_next (h : Next m text t value rest)
    (hread : ∀ u digits, t = '$' :: u → Refers u digits → ¬Unreadable digits) :
    (Site.ofMatch m text).expandAfter 0 t =
      (do pure (value ++ (← (Site.ofMatch m text).expandAfter 0 rest))) := by
  cases h with
  | plain hc =>
      rw [Site.expandAfter, if_neg hc]
      rfl
  | @token t _ _ h =>
      obtain ⟨answer, htoken, hanswers⟩ := token?_answers m text fun digits => hread t digits rfl
      rw [Site.expandAfter, if_pos rfl, htoken]
      cases answer with
      | none => exact absurd h (hanswers _ _)
      | some answer =>
          obtain ⟨rfl, rfl⟩ := h.unique hanswers
          rw [← expandAfter_drop]
          rfl
  | dollar h =>
      obtain ⟨answer, htoken, hanswers⟩ := token?_answers m text fun digits => hread _ digits rfl
      rw [Site.expandAfter, if_pos rfl, htoken]
      cases answer with
      | none => rfl
      | some answer => exact absurd hanswers (h _ _)

def Meets (m : Match) (text replacement : List Char) : Prop :=
  ∃ t digits, Comes m text replacement ('$' :: t) ∧ Refers t digits ∧ Unreadable digits

theorem Expands.expandAfter_eq {out : List Char} (h : Expands m text t out) (hread : ¬Meets m text t) :
    (Site.ofMatch m text).expandAfter 0 t = .ok out := by
  induction h with
  | done => rfl
  | step hnext _ ih =>
      have hhere u digits (ht : _ = '$' :: u) (href : Refers u digits) (h : Unreadable digits) : False :=
        hread ⟨u, digits, ht ▸ .refl, href, h⟩
      have hthere : ¬Meets m text _ := fun ⟨u, digits, hcomes, h⟩ =>
        hread ⟨u, digits, .head ⟨_, hnext⟩ hcomes, h⟩
      rw [expandAfter_next hnext hhere, ih hthere]
      rfl

theorem expandAfter_meets (h : Meets m text t) :
    (Site.ofMatch m text).expandAfter 0 t = .error (.misuse .badValue) := by
  obtain ⟨u, digits, hcomes, href, hdigits⟩ := h
  generalize hw : '$' :: u = w at hcomes
  induction hcomes using Relation.ReflTransGen.head_induction_on with
  | refl =>
      subst hw
      rw [Site.expandAfter, if_pos rfl, token?_unreadable href hdigits]
      rfl
  | @head t rest hstep hcomes ih =>
      obtain ⟨value, hnext⟩ := hstep
      by_cases hread : ∀ u digits, t = '$' :: u → Refers u digits → ¬Unreadable digits
      · rw [expandAfter_next hnext hread, ih]
        rfl
      · push Not at hread
        obtain ⟨u, digits, rfl, href, hdigits⟩ := hread
        rw [Site.expandAfter, if_pos rfl, token?_unreadable href hdigits]
        rfl

theorem Comes.suffix {u : List Char} (h : Comes m text t u) : u <:+ t := by
  induction h with
  | refl => exact List.suffix_refl _
  | tail _ hnext ih =>
      obtain ⟨value, hnext⟩ := hnext
      exact hnext.suffix.trans ih

theorem Refers.mem {digits : List Char} (h : Refers t digits) {c : Char} (hc : c ∈ digits) :
    c ∈ t ∧ Text.isDigit c.toNat = true := by
  cases h with
  | braces closed run => exact ⟨by simp [hc], (allDigits_iff.mp run).2 c hc⟩
  | plain run stops => exact ⟨List.mem_append_left _ hc, (allDigits_iff.mp run).2 c hc⟩

/-- Reading a replacement comes to a reference with more digits than are read. -/
def MeetsLong (m : Match) (text replacement : List Char) : Prop :=
  ∃ t digits, Comes m text replacement ('$' :: t) ∧ Refers t digits ∧ longestNumeral < digits.length

theorem meets_iff {replacement : List Char}
    (hascii : ∀ c ∈ replacement, Text.isDigit c.toNat = true → c.toNat < 128) :
    Meets m text replacement ↔ MeetsLong m text replacement := by
  have hdecimal : ∀ n < 128, Text.isDigit n = true → Text.isDecimal n = true := by decide +kernel
  refine exists_congr fun t => exists_congr fun digits => and_congr_right fun hcomes =>
    and_congr_right fun href => ⟨fun h => h.resolve_right ?_, .inl⟩
  rintro ⟨c, hc, hnone⟩
  obtain ⟨hmem, hdigit⟩ := href.mem hc
  have hin : c ∈ replacement := hcomes.suffix.mem (List.mem_cons_of_mem _ hmem)
  rw [hdecimal _ (hascii c hin hdigit) hdigit] at hnone
  cases hnone

end

/-- A replacement has one expansion by its tokens. The program gives it, unless reading comes to a reference with
more digits than are read; a text with its dollar signs doubled expands to the text. -/
theorem expand_meanings (m : Match) (text : List Char) {replacement : List Char}
    (hascii : ∀ c ∈ replacement, Text.isDigit c.toNat = true → c.toNat < 128) :
    (∃! out, Expands m text replacement out) ∧
      (∀ out, (Site.ofMatch m text).expand replacement = .ok out ↔
        Expands m text replacement out ∧ ¬MeetsLong m text replacement) ∧
      (MeetsLong m text replacement →
        (Site.ofMatch m text).expand replacement = .error (.misuse .badValue)) ∧
      ∀ w, (Site.ofMatch m text).expand (doubled w) = .ok w := by
  obtain ⟨out, hout⟩ := exists_expands m text replacement
  rw [← meets_iff hascii]
  refine ⟨⟨out, hout, fun _ h => h.unique hout⟩, fun v => ⟨fun h => ?_, fun ⟨hv, hread⟩ => ?_⟩,
    expandAfter_meets, expand_doubled _⟩
  · have hread : ¬Meets m text replacement := fun hmeets => by
      rw [Site.expand, expandAfter_meets hmeets] at h
      cases h
    rw [Site.expand, hout.expandAfter_eq hread] at h
    cases h
    exact ⟨hout, hread⟩
  · exact hv.expandAfter_eq hread

/-- The match of a named group and an unnamed one, which are numbered the other way round. -/
def bothGroups : Match := nameFirst.matchFrom "xab".toList 0

/-- There is no group 12, so the digit after group 1 stands for itself. -/
theorem expand_meanings_bothGroups :
    (∀ c ∈ "$12$\x7bn\x7d$$".toList, Text.isDigit c.toNat = true → c.toNat < 128) ∧
      Expands bothGroups "xab".toList "$12$\x7bn\x7d$$".toList "b2a$".toList := by
  have hascii : ∀ c ∈ "$12$\x7bn\x7d$$".toList, c.toNat < 128 := by simp
  have hexpand : (Site.ofMatch bothGroups "xab".toList).expand "$12$\x7bn\x7d$$".toList =
      .ok "b2a$".toList := by
    decide +kernel
  have hdigits := fun c hc (_ : Text.isDigit c.toNat = true) => hascii c hc
  exact ⟨hdigits, (((expand_meanings bothGroups "xab".toList hdigits).2.1 _).mp hexpand).1⟩

section

variable {m : Match} {text : List Char}

theorem expands_plain {t : List Char} (h : '$' ∉ t) : Expands m text t t := by
  induction t with
  | nil => exact .done
  | cons c t ih =>
      obtain ⟨hc, ht⟩ := not_or.mp (List.mem_cons.not.mp h)
      exact .step (.plain (Ne.symm hc)) (ih ht)

theorem exists_value_ones (k n : Nat) :
    ∃ v, n ≤ v ∧ (List.replicate k '1').foldlM
      (fun n c => (Text.digitValue? c.toNat).map (10 * n + ·)) n = some v := by
  induction k generalizing n with
  | zero => exact ⟨n, le_rfl, rfl⟩
  | succ k ih =>
      obtain ⟨v, hv, hvalue⟩ := ih (10 * n + 1)
      exact ⟨v, by omega, hvalue⟩

theorem numbered?_ones (hm : m.groups.length = 1) (k : Nat) :
    m.numbered? (List.replicate (k + 1) '1') = none := by
  obtain ⟨v, hv, hvalue⟩ := exists_value_ones k 1
  have hnumber : Text.decimalValue? (List.replicate (k + 1) '1') = some v := hvalue
  rw [Match.numbered?, hnumber]
  exact List.getElem?_eq_none (hm.trans_le hv)

def ones (n : Nat) : List Char := '$' :: List.replicate n '1'

theorem expands_ones (hm : m.groups.length = 1) {n : Nat} (hdigits : Text.allDigits (List.replicate n '1') = true)
    (hstops : Stops (fun c : Char => Text.isDigit c.toNat) []) : Expands m text (ones n) (ones n) := by
  have hnone value rest : ¬Asked m text (List.replicate n '1') value rest := by
    intro h
    rw [← List.append_nil (List.replicate n '1')] at h
    obtain ⟨k, g, hlongest, -⟩ := (Asked.number_iff hdigits hstops).mp h
    obtain ⟨k, rfl⟩ := Nat.exists_eq_add_one_of_ne_zero hlongest.nonempty.ne'
    have hk := hlongest.number
    have hwithin := hlongest.within
    rw [List.length_replicate] at hwithin
    rw [List.take_replicate, Nat.min_eq_left hwithin, numbered?_ones hm k] at hk
    cases hk
  exact .step (.dollar hnone) (expands_plain fun h => absurd (List.eq_of_mem_replicate h) (by decide))

theorem ones_long {n : Nat} (hn : longestNumeral < n) (hm : m.groups.length = 1) :
    Expands m text (ones n) (ones n) ∧
      (Site.ofMatch m text).expand (ones n) = .error (.misuse .badValue) := by
  have hne : List.replicate n '1' ≠ [] := fun h => by
    rw [List.replicate_eq_nil_iff] at h
    exact Nat.not_lt_zero _ (h ▸ hn)
  have hdigits : Text.allDigits (List.replicate n '1') = true :=
    allDigits_iff.mpr ⟨hne, fun c hc => List.eq_of_mem_replicate hc ▸ by decide⟩
  have hstops : Stops (fun c : Char => Text.isDigit c.toNat) [] := fun c hc => by cases hc
  have href := Refers.plain hdigits hstops
  rw [List.append_nil] at href
  have hlong : Unreadable (List.replicate n '1') := .inl (by rwa [List.length_replicate])
  exact ⟨expands_ones hm hdigits hstops, expandAfter_meets ⟨_, _, .refl, href, hlong⟩⟩

end

/-- There is no such group and the text stands for itself, but it is refused. -/
theorem ones_refused :
    Expands ((escaped ['a']).matchFrom ['a'] 0) ['a'] (ones 4301) (ones 4301) ∧
      (Site.ofMatch ((escaped ['a']).matchFrom ['a'] 0) ['a']).expand (ones 4301) =
        .error (.misuse .badValue) :=
  ones_long (by decide) (by decide)

end BaseLib.Regex
