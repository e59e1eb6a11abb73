import BaseLib.Proofs.Regex.Progress
import BaseLib.Regex.Match
import Mathlib.Data.List.Basic

namespace BaseLib.Regex

variable {p : Program} {text : Array Char} {start : Nat} {advance : Bool} {m m' : Found}

structure Found.Lies (m : Found) (text : Array Char) (start : Nat) (advance : Bool) : Prop where
  start_le : start ≤ m.start
  le_stop : m.start ≤ m.stop
  stop_le : m.stop ≤ text.size
  moves : advance = true → m.stop ≠ start

theorem matchAt_lies (hs : start ≤ text.size) (h : p.matchAt text start advance = some m) :
    m.Lies text start advance ∧ m.start = start := by
  rw [Program.matchAt] at h
  obtain ⟨r, hr, rfl⟩ := Option.map_eq_some_iff.mp h
  obtain ⟨pos, marks, ⟨hle, hsize, -⟩, hk⟩ := p.body.run_advancing hs hr
  split at hk
  · cases hk
  · rename_i hadv
    cases hk
    exact ⟨⟨Nat.le_refl _, hle, hsize, fun ha => by simpa [ha] using hadv⟩, rfl⟩

theorem searchFrom_lies {more : Nat} (hs : start + more = text.size)
    (h : p.searchFrom text advance more start = some m) : m.Lies text start advance := by
  induction more generalizing start advance with
  | zero => exact (matchAt_lies (by omega) h).1
  | succ more ih =>
      rcases Option.or_eq_some_iff.mp h with h | ⟨-, h⟩
      · exact (matchAt_lies (by omega) h).1
      · have hm := ih (by omega) h
        have hstart := hm.start_le
        have hstop := hm.le_stop
        exact ⟨by omega, hstop, hm.stop_le, fun _ => by omega⟩

theorem search_lies (h : p.search text start advance = some m) : m.Lies text start advance := by
  rw [Program.search] at h
  split at h
  · exact searchFrom_lies (by omega) h
  · cases h

/-- The matches from a first one on, each leading to the one after it. -/
def walk (next : Found → Option Found) : Nat → Option Found → List Found
  | fuel + 1, some m => m :: walk next fuel (next m)
  | _, _ => []

def Program.stepped (p : Program) (text : Array Char) (m : Found) : Option Found :=
  if m.start = m.stop then
    if text.size ≤ m.stop then none else p.search text (m.stop + 1) false
  else p.search text m.stop false

def Program.resumed (p : Program) (text : Array Char) (m : Found) : Option Found :=
  p.search text m.stop (m.stop == m.start)

theorem next_eq (r : Regex) (t : List Char) (f : Found) :
    Match.next ⟨r, t, some f⟩ = ⟨r, t, r.program.stepped t.toArray f⟩ := by
  simp only [Match.next, Program.stepped, List.size_toArray]
  split
  · split <;> rfl
  · rfl

theorem chain_eq_walk (r : Regex) (t : List Char) (fuel : Nat) (o : Option Found) :
    Match.chain fuel ⟨r, t, o⟩ =
      (walk (r.program.stepped t.toArray) fuel o).map fun f => ⟨r, t, some f⟩ := by
  induction fuel generalizing o with
  | zero => cases o <;> rfl
  | succ fuel ih =>
      cases o with
      | none => rfl
      | some f =>
          simp only [Match.chain, Option.isSome_some, if_true, next_eq, ih, walk, List.map_cons]

theorem scanFrom_eq_walk (p : Program) (text : Array Char) (fuel start : Nat) (advance : Bool) :
    p.scanFrom text fuel start advance = walk (p.resumed text) fuel (p.search text start advance) := by
  induction fuel generalizing start advance with
  | zero => cases p.search text start advance <;> rfl
  | succ fuel ih =>
      rw [Program.scanFrom]
      cases p.search text start advance with
      | none => rfl
      | some m => simp only [ih, walk, Program.resumed]

theorem resumed_of_longer (he : m.start = m.stop) (hm : m.stop ≤ text.size)
    (ha : p.matchAt text m.stop true = some m') : p.resumed text m = some m' := by
  rw [Program.resumed, Program.search, he, beq_self_eq_true, if_pos hm]
  cases text.size - m.stop with
  | zero => exact ha
  | succ more => rw [Program.searchFrom, ha, Option.some_or]

theorem resumed_of_none (hm : m.stop ≤ text.size)
    (ha : m.start = m.stop → p.matchAt text m.stop true = none) :
    p.resumed text m = p.stepped text m := by
  rw [Program.resumed, Program.stepped]
  by_cases he : m.start = m.stop
  · rw [if_pos he, he, beq_self_eq_true, Program.search, if_pos hm]
    by_cases hend : text.size ≤ m.stop
    · have hzero : text.size - m.stop = 0 := by omega
      rw [if_pos hend, hzero, Program.searchFrom, ha he]
    · obtain ⟨more, hmore⟩ : ∃ k, text.size - m.stop = k + 1 :=
        ⟨text.size - m.stop - 1, by omega⟩
      have hrest : text.size - (m.stop + 1) = more := by omega
      have hle : m.stop + 1 ≤ text.size := by omega
      rw [if_neg hend, hmore, Program.searchFrom, ha he, Option.none_or, Program.search, if_pos hle,
        hrest]
  · have hne : (m.stop == m.start) = false := by simpa using fun h => he h.symm
    rw [if_neg he, hne]

theorem stop_lt_stepped (he : m.start = m.stop) (h : p.stepped text m = some m') :
    m.stop < m'.start := by
  rw [Program.stepped, if_pos he] at h
  split at h
  · cases h
  · exact (search_lies h).start_le

theorem resumed_eq_stepped_iff (hm : m.stop ≤ text.size) :
    p.resumed text m = p.stepped text m ↔
      (m.start = m.stop → p.matchAt text m.stop true = none) := by
  refine ⟨fun heq he => ?_, resumed_of_none hm⟩
  cases ha : p.matchAt text m.stop true with
  | none => rfl
  | some m' =>
      rw [resumed_of_longer he hm ha] at heq
      have hlt := stop_lt_stepped he heq.symm
      have hstart := (matchAt_lies hm ha).2
      omega

variable {next next' : Found → Option Found} {good : Found → Prop} {μ μ' : Found → Nat}

def Falls (next : Found → Option Found) (good : Found → Prop) (μ : Found → Nat) : Prop :=
  ∀ m m', good m → next m = some m' → good m' ∧ μ m' < μ m

theorem head?_walk {fuel : Nat} {o : Option Found} (h : ∀ m ∈ o, μ m < fuel) :
    (walk next fuel o).head? = o := by
  cases o with
  | none => cases fuel <;> rfl
  | some m =>
      obtain ⟨fuel, rfl⟩ : ∃ k, fuel = k + 1 := ⟨fuel - 1, by have := h m rfl; omega⟩
      rfl

theorem good_of_mem_walk (hf : Falls next good μ) {fuel : Nat} {o : Option Found}
    (ho : ∀ m ∈ o, good m) : ∀ m ∈ walk next fuel o, good m := by
  induction fuel generalizing o with
  | zero => cases o <;> simp [walk]
  | succ fuel ih =>
      cases o with
      | none => simp [walk]
      | some m =>
          have hm := ho m rfl
          simp only [walk, List.forall_mem_cons]
          exact ⟨hm, ih fun x hx => (hf m x hm hx).1⟩

theorem walk_eq_iff (hf : Falls next good μ) (hf' : Falls next' good μ') {fuel fuel' : Nat}
    {o : Option Found} (ho : ∀ m ∈ o, good m ∧ μ m < fuel ∧ μ' m < fuel') :
    walk next' fuel' o = walk next fuel o ↔ ∀ m ∈ walk next fuel o, next' m = next m := by
  induction fuel generalizing o fuel' with
  | zero =>
      cases o with
      | none => cases fuel' <;> simp [walk]
      | some m => exact absurd (ho m rfl).2.1 (Nat.not_lt_zero _)
  | succ fuel ih =>
      cases o with
      | none => cases fuel' <;> simp [walk]
      | some m =>
          obtain ⟨hgood, hμ, hμ'⟩ := ho m rfl
          obtain ⟨fuel', rfl⟩ : ∃ k, fuel' = k + 1 := ⟨fuel' - 1, by omega⟩
          have hnext : ∀ x ∈ next m, good x ∧ μ x < fuel := by
            intro x hx
            obtain ⟨hx, hlt⟩ := hf m x hgood hx
            exact ⟨hx, by omega⟩
          have hnext' : ∀ x ∈ next' m, μ' x < fuel' := by
            intro x hx
            have hlt := (hf' m x hgood hx).2
            omega
          simp only [walk, List.cons.injEq, true_and, List.forall_mem_cons]
          constructor
          · intro heq
            -- Equal walks begin with equal matches, which are those led to here.
            have hhead : (walk next' fuel' (next' m)).head? = next' m := head?_walk hnext'
            have hone : next' m = next m := by
              rw [← hhead, heq, head?_walk fun x hx => (hnext x hx).2]
            rw [hone] at heq hnext'
            exact ⟨hone, (ih fun x hx => ⟨(hnext x hx).1, (hnext x hx).2, hnext' x hx⟩).mp heq⟩
          · rintro ⟨hone, hrest⟩
            rw [hone] at hnext' ⊢
            exact (ih fun x hx => ⟨(hnext x hx).1, (hnext x hx).2, hnext' x hx⟩).mpr hrest

def Found.Inside (text : Array Char) (m : Found) : Prop := m.start ≤ m.stop ∧ m.stop ≤ text.size

def Found.places (text : Array Char) (m : Found) : Nat := text.size - m.start

/-- The turns that the scan may take after a match: two for each place, and one more where a match that
is not empty ends. -/
def Found.turns (text : Array Char) (m : Found) : Nat :=
  2 * (text.size - m.stop) + if m.start = m.stop then 0 else 1

theorem stepped_falls (p : Program) (text : Array Char) :
    Falls (p.stepped text) (Found.Inside text) (Found.places text) := by
  intro m m' hm h
  obtain ⟨hle, hsize⟩ := hm
  have later (start : Nat) (hlt : m.start < start) (h : p.search text start false = some m') :
      m'.Inside text ∧ text.size - m'.start < text.size - m.start := by
    obtain ⟨hs, hle', hsize', -⟩ := search_lies h
    exact ⟨⟨hle', hsize'⟩, by omega⟩
  rw [Program.stepped] at h
  split at h
  · split at h
    · cases h
    · exact later _ (by omega) h
  · exact later _ (by omega) h

theorem resumed_falls (p : Program) (text : Array Char) :
    Falls (p.resumed text) (Found.Inside text) (Found.turns text) := by
  intro m m' hm h
  obtain ⟨hle, hsize⟩ := hm
  obtain ⟨hs, hle', hsize', hmoves⟩ := search_lies h
  refine ⟨⟨hle', hsize'⟩, ?_⟩
  have hmoves : m.start = m.stop → m'.stop ≠ m.stop := fun he => hmoves (by simp [he])
  rw [Found.turns, Found.turns]
  split <;> split <;> omega

def Found.Fueled (text : Array Char) (fuel fuel' : Nat) (m : Found) : Prop :=
  m.Inside text ∧ m.places text < fuel ∧ m.turns text < fuel'

theorem search_fueled (h : p.search text start false = some m) :
    m.Fueled text (text.size - start + 1) (2 * (text.size - start) + 2) := by
  obtain ⟨hs, hle, hsize, -⟩ := search_lies h
  refine ⟨⟨hle, hsize⟩, ?_, ?_⟩
  · rw [Found.places]
    omega
  · rw [Found.turns]
    split <;> omega

theorem stop_le_stepped (h : p.stepped text m = some m') : m.stop ≤ m'.start := by
  by_cases he : m.start = m.stop
  · exact Nat.le_of_lt (stop_lt_stepped he h)
  · rw [Program.stepped, if_neg he] at h
    exact (search_lies h).start_le

/-- No longer match begins where an empty one is. -/
def NoneLonger (r : Regex) (t : List Char) (start : Nat) : Prop :=
  ∀ m ∈ r.matches_ t start, ∀ f, m.found = some f → f.start = f.stop →
    r.program.matchAt t.toArray f.stop true = none

def scanned (r : Regex) (t : List Char) (start : Nat) : List Match :=
  (r.program.scan t.toArray start).map fun f => ⟨r, t, some f⟩

theorem matches_eq_walk (r : Regex) (t : List Char) (start : Nat) :
    r.matches_ t start = (walk (r.program.stepped t.toArray) (t.length - start + 1)
      (r.program.search t.toArray start false)).map fun f => ⟨r, t, some f⟩ :=
  chain_eq_walk r t _ _

theorem scanned_eq_walk (r : Regex) (t : List Char) (start : Nat) :
    r.scanned t start = (walk (r.program.resumed t.toArray) (2 * (t.length - start) + 2)
      (r.program.search t.toArray start false)).map fun f => ⟨r, t, some f⟩ := by
  rw [scanned, Program.scan, scanFrom_eq_walk, List.size_toArray]

/-- The scan gives the matches of the walk exactly where no longer match begins at an empty one. -/
theorem scanned_eq_matches_iff (r : Regex) (t : List Char) (start : Nat) :
    r.scanned t start = r.matches_ t start ↔ r.NoneLonger t start := by
  have hinj : Function.Injective fun f : Found => (⟨r, t, some f⟩ : Match) := by
    intro f f' h
    cases h
    rfl
  have hfuel : ∀ m ∈ r.program.search t.toArray start false,
      m.Fueled t.toArray (t.length - start + 1) (2 * (t.length - start) + 2) := by
    intro m hm
    simpa using search_fueled hm
  have hinside : ∀ m ∈ walk (r.program.stepped t.toArray) (t.length - start + 1)
      (r.program.search t.toArray start false), m.Inside t.toArray :=
    good_of_mem_walk (stepped_falls r.program t.toArray) fun m hm => (hfuel m hm).1
  have heq := walk_eq_iff (stepped_falls r.program t.toArray) (resumed_falls r.program t.toArray) hfuel
  rw [NoneLonger, scanned_eq_walk, matches_eq_walk, hinj.list_map.eq_iff, heq,
    List.forall_mem_map]
  refine forall₂_congr fun m hm => ?_
  rw [resumed_eq_stepped_iff (hinside m hm).2]
  simp

end BaseLib.Regex
