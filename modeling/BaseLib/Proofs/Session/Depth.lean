import BaseLib.Session.View
import Mathlib.Data.Fintype.Card

namespace BaseLib

def Object.inner : Object → List Value
  | array items | tuple items => items
  | map entries => entries.flatMap fun (k, x) => [k, x]
  | nullable x => [x]
  | pair k x => [k, x]
  | _ => []

namespace Session

variable {s : Session} {p : Nat → Value → Prop} {n m : Nat} {v : Value}

/-- A property of values at a depth. It is kept when one looks deeper, and only an object can come to have it
late, by a value that comes to have it one step before. -/
structure Deepens (s : Session) (p : Nat → Value → Prop) : Prop where
  mono : ∀ {n m v}, p n v → n ≤ m → p m v
  descend : ∀ {n v}, p (n + 2) v → ¬ p (n + 1) v →
    (∃ id, v = .ref id ∧ id < s.store.size) ∧ ∃ w, p (n + 1) w ∧ ¬ p n w

namespace Deepens

/-- Below a value that has the property late there are values that come to have it at all depths before. -/
theorem occurs (hp : Deepens s p) (h : p (n + 2) v) (hm : ¬ p (n + 1) v) (hn : m ≤ n) :
    ∃ id < s.store.size, p (m + 2) (.ref id) ∧ ¬ p (m + 1) (.ref id) := by
  induction n generalizing v with
  | zero =>
      obtain ⟨⟨id, rfl, hid⟩, -⟩ := hp.descend h hm
      obtain rfl : m = 0 := by omega
      exact ⟨id, hid, h, hm⟩
  | succ n ih =>
      obtain ⟨⟨id, rfl, hid⟩, w, hw, hw'⟩ := hp.descend h hm
      by_cases hmn : m = n + 1
      · subst hmn
        exact ⟨id, hid, h, hm⟩
      · exact ih hw hw' (by omega)

theorem bound (hp : Deepens s p) (h : p n v) : p s.depth v := by
  classical
  have he : ∃ n, p n v := ⟨n, h⟩
  by_contra hd
  have hlt : s.depth < Nat.find he := by
    by_contra hge
    exact hd (hp.mono (Nat.find_spec he) (by omega))
  rw [depth] at hlt
  obtain ⟨m, hm⟩ : ∃ m, Nat.find he = m + 2 := ⟨Nat.find he - 2, by omega⟩
  have hfound := Nat.find_spec he
  have hleast : ¬ p (m + 1) v := Nat.find_min he (by omega)
  rw [hm] at hfound
  choose f hf using fun i : Fin (m + 1) => hp.occurs hfound hleast (Nat.le_of_lt_succ i.isLt)
  -- Objects that first occur at different depths are different; there are too many of them.
  let g : Fin (m + 1) → Fin s.store.size := fun i => ⟨f i, (hf i).1⟩
  have hg : Function.Injective g := by
    intro i j hij
    have hij : f i = f j := congrArg Fin.val hij
    by_contra hne
    rcases Nat.lt_or_gt_of_ne (Fin.val_ne_of_ne hne) with hl | hl
    · exact (hf j).2.2 (hp.mono (hij ▸ (hf i).2.1) (by omega))
    · exact (hf i).2.2 (hp.mono (hij ▸ (hf j).2.1) (by omega))
  have hcard := Fintype.card_le_of_injective g hg
  simp only [Fintype.card_fin] at hcard
  omega

end Deepens

def Stable (s : Session) (n : Nat) (v : Value) : Prop := ∀ d, n ≤ d → s.viewAt d v = s.viewAt n v

theorem Stable.mono (h : Stable s n v) (hm : n ≤ m) : Stable s m v := fun d hd => by
  rw [h d (hm.trans hd), h m hm]

theorem viewAt_succ_iff {id : Nat} {o : Object} (h : s.store[id]? = some o) (d d' : Nat) :
    s.viewAt (d + 1) (.ref id) = s.viewAt (d' + 1) (.ref id) ↔
      ∀ w ∈ o.inner, s.viewAt d w = s.viewAt d' w := by
  cases o with
  | map entries =>
      simp only [viewAt, h, Object.inner, Datum.map.injEq, true_and, List.map_inj_left, List.mem_flatMap]
      constructor
      · rintro heq w ⟨⟨k, x⟩, hmem, hw⟩
        have hkx := heq (k, x) hmem
        simp only [Datum.tuple.injEq, List.cons.injEq, and_true] at hkx
        obtain rfl | rfl := by simpa using hw
        · exact hkx.1
        · exact hkx.2
      · rintro heq ⟨k, x⟩ hmem
        rw [heq k ⟨_, hmem, by simp⟩, heq x ⟨_, hmem, by simp⟩]
  | _ => simp [viewAt, h, Object.inner]

theorem stable_one (h : ∀ id o, v = .ref id → s.store[id]? = some o → o.inner = []) : Stable s 1 v := by
  intro d hd
  obtain ⟨d, rfl⟩ : ∃ k, d = k + 1 := ⟨d - 1, by omega⟩
  cases v with
  | ref id =>
      cases hid : s.store[id]? with
      | none => simp only [viewAt, hid]
      | some o =>
          rw [viewAt_succ_iff hid, h id o rfl hid]
          exact fun w hw => absurd hw List.not_mem_nil
  | _ => rfl

theorem stable_succ_iff {id : Nat} {o : Object} (h : s.store[id]? = some o) :
    Stable s (n + 1) (.ref id) ↔ ∀ w ∈ o.inner, Stable s n w := by
  constructor
  · intro hs w hw d hd
    exact (viewAt_succ_iff h d n).mp (hs (d + 1) (by omega)) w hw
  · intro hs d hd
    obtain ⟨d, rfl⟩ : ∃ k, d = k + 1 := ⟨d - 1, by omega⟩
    exact (viewAt_succ_iff h d n).mpr fun w hw => hs w hw d (by omega)

theorem deepens_stable (s : Session) : Deepens s (Stable s) where
  mono := Stable.mono
  descend := by
    intro n v h hm
    have hinner : ∃ id o, v = .ref id ∧ s.store[id]? = some o := by
      by_contra hno
      refine hm ((stable_one fun id o hv ho => absurd ⟨id, o, hv, ho⟩ hno).mono (by omega))
    obtain ⟨id, o, rfl, ho⟩ := hinner
    rw [stable_succ_iff ho] at h hm
    push Not at hm
    obtain ⟨w, hw, hn⟩ := hm
    exact ⟨⟨id, rfl, (Array.getElem?_eq_some_iff.mp ho).1⟩, w, h w hw, hn⟩

theorem Stable.view_eq (h : Stable s n v) : s.view v = s.viewAt n v := by
  have hbound := (deepens_stable s).bound h
  rw [view, ← hbound (max s.depth n) (le_max_left _ _), h _ (le_max_right _ _)]

def IsSource (s : Session) (builder id : Nat) : Prop :=
  (id = builder ∧ ∃ b, s.store[id]? = some (.builder b)) ∨
    ∃ newLine, s.store[id]? = some (.writer (.builder builder) newLine)

/-- Showing the value reads the text of the builder. -/
inductive ReadsText (s : Session) (builder : Nat) : Value → Prop
  | source {id : Nat} (h : IsSource s builder id) : ReadsText s builder (.ref id)
  | inside {id : Nat} {o : Object} {w : Value} (h : s.store[id]? = some o) (hw : w ∈ o.inner)
      (hr : ReadsText s builder w) : ReadsText s builder (.ref id)

variable {b id d : Nat} {o : Object}

theorem showsAt_succ_iff (h : s.store[id]? = some o) :
    s.showsAt b (d + 1) (.ref id) = true ↔ IsSource s b id ∨ ∃ w ∈ o.inner, s.showsAt b d w = true := by
  rw [← List.any_eq_true]
  cases o with
  | writer target newLine => cases target <;> simp [showsAt, IsSource, h, Object.inner]
  | map entries => simp [showsAt, IsSource, h, Object.inner, List.any_flatMap]
  | _ => simp [showsAt, IsSource, h, Object.inner]

theorem exists_of_showsAt (h : s.showsAt b d v = true) : ∃ d' id o, d = d' + 1 ∧ v = .ref id ∧
    s.store[id]? = some o := by
  obtain ⟨d, rfl⟩ : ∃ k, d = k + 1 := by
    cases d with
    | zero => cases h
    | succ d => exact ⟨d, rfl⟩
  cases v with
  | ref id =>
      cases hid : s.store[id]? with
      | none => simp [showsAt, hid] at h
      | some o => exact ⟨d, id, o, rfl, rfl, hid⟩
  | _ => cases h

theorem showsAt_mono (h : s.showsAt b n v = true) (hm : n ≤ m) : s.showsAt b m v = true := by
  induction n generalizing v m with
  | zero => cases h
  | succ n ih =>
      obtain ⟨m, rfl⟩ : ∃ k, m = k + 1 := ⟨m - 1, by omega⟩
      obtain ⟨-, id, o, -, rfl, ho⟩ := exists_of_showsAt h
      rw [showsAt_succ_iff ho] at h ⊢
      exact h.imp_right fun ⟨w, hw, hs⟩ => ⟨w, hw, ih hs (by omega)⟩

theorem deepens_showsAt (s : Session) (b : Nat) : Deepens s fun n v => s.showsAt b n v = true where
  mono := showsAt_mono
  descend := by
    intro n v h hm
    obtain ⟨-, id, o, -, rfl, ho⟩ := exists_of_showsAt h
    rw [showsAt_succ_iff ho] at h hm
    push Not at hm
    obtain hsource | ⟨w, hw, hs⟩ := h
    · exact absurd hsource hm.1
    · exact ⟨⟨id, rfl, (Array.getElem?_eq_some_iff.mp ho).1⟩, w, hs, hm.2 w hw⟩

theorem IsSource.object (h : IsSource s b id) : ∃ o, s.store[id]? = some o := by
  obtain ⟨-, x, hx⟩ | ⟨newLine, hw⟩ := h
  · exact ⟨_, hx⟩
  · exact ⟨_, hw⟩

theorem readsText_of_showsAt (h : s.showsAt b n v = true) : ReadsText s b v := by
  induction n generalizing v with
  | zero => cases h
  | succ n ih =>
      obtain ⟨-, id, o, -, rfl, ho⟩ := exists_of_showsAt h
      obtain hsource | ⟨w, hw, hs⟩ := (showsAt_succ_iff ho).mp h
      · exact .source hsource
      · exact .inside ho hw (ih hs)

theorem shows_iff : s.shows b v = true ↔ ReadsText s b v := by
  refine ⟨readsText_of_showsAt, fun h => ?_⟩
  obtain ⟨n, hn⟩ : ∃ n, s.showsAt b n v = true := by
    induction h with
    | source h =>
        obtain ⟨o, ho⟩ := h.object
        exact ⟨1, (showsAt_succ_iff ho).mpr (.inl h)⟩
    | inside ho hw _ ih =>
        obtain ⟨n, hn⟩ := ih
        exact ⟨n + 1, (showsAt_succ_iff ho).mpr (.inr ⟨_, hw, hn⟩)⟩
  exact (deepens_showsAt s b).bound hn

end Session

end BaseLib
