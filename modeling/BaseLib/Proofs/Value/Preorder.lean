import BaseLib.Proofs.Value.Content

namespace BaseLib.Datum

variable (offset : Int)

theorem reaches_refl (x : Datum) : x.reaches x = true := by
  induction x using layerInduction with
  | leaf x hx =>
      rw [reaches_leaf hx]
      cases x <;> first | rfl | cases hx
  | nullable v ih => exact ih
  | pair k v ihk ihv => simp [reaches, ihk, ihv]

theorem equals_refl {x : Datum} (hx : x.tupleless = true) : x.equals offset x = true :=
  (equals_iff offset hx x).mpr ⟨rfl, reaches_refl x⟩

def openContent : Content → Bool
  | .number _ | .text _ | .symbol _ | .options _ => true
  | _ => false

theorem isOpen_eq {x : Datum} (hx : x.isLeaf = true) : x.isOpen = openContent (x.content offset) := by
  cases x <;> first | rfl | cases hx

theorem content_ne_pair {x : Datum} (hx : x.isLeaf = true) (k v : Content) :
    x.content offset ≠ .pair k v := by
  cases x <;> simp_all [isLeaf, content]

theorem reaches_of_open {x : Datum} (hx : x.isLeaf = true) (ho : x.isOpen = true) (y : Datum) :
    x.reaches y = true := by
  simp [reaches_leaf hx, ho]

theorem leaf_of_not_nullable {x : Datum} (hn : x.isNullable = false) :
    x.isLeaf = true ∨ ∃ k v, x = pair k v := by
  cases x <;> simp_all [isNullable, isLeaf]

theorem reaches_unwrap {x y : Datum} (h : x.reaches y = true) : x.unwrap.reaches y.unwrap = true := by
  cases hn : x.isNullable with
  | true =>
      obtain ⟨v, rfl⟩ := (isNullable_iff x).mp hn
      exact h
  | false =>
      have hx : x.unwrap = x := by cases x <;> first | rfl | cases hn
      rw [hx]
      cases hy : y.isNullable with
      | false =>
          have hy' : y.unwrap = y := by cases y <;> first | rfl | cases hy
          rwa [hy']
      | true =>
          obtain ⟨w, rfl⟩ := (isNullable_iff y).mp hy
          rcases leaf_of_not_nullable hn with hl | ⟨k, v, rfl⟩
          · rw [reaches_leaf hl] at h
            exact reaches_of_open hl (by simpa [isNullable] using h) _
          · simp [reaches, isNullable, isOpen] at h

theorem eq_pair_of_reaches {k v y : Datum} {a b : Content} (hy : y.content offset = .pair a b)
    (h : (pair k v).reaches y = true) : ∃ k' v', y = pair k' v' := by
  cases hn : y.isNullable with
  | true =>
      obtain ⟨w, rfl⟩ := (isNullable_iff y).mp hn
      simp [reaches, isNullable, isOpen] at h
  | false =>
      refine (leaf_of_not_nullable hn).resolve_left fun hl => ?_
      exact content_ne_pair offset hl a b hy

theorem reaches_trans {x y z : Datum} (hxy : x.content offset = y.content offset)
    (hyz : y.content offset = z.content offset) (h : x.reaches y = true) (h' : y.reaches z = true) :
    x.reaches z = true := by
  induction x using layerInduction generalizing y z with
  | leaf x hl =>
      rw [reaches_leaf hl] at h ⊢
      cases hz : z.isNullable with
      | false => rfl
      | true =>
          -- a layer on the right is passed by an open value, be it `y` or `x` itself
          cases hy : y.isNullable with
          | true => simpa [hy] using h
          | false =>
              rcases leaf_of_not_nullable hy with hl' | ⟨k, v, rfl⟩
              · rw [reaches_leaf hl', hz] at h'
                rw [isOpen_eq offset hl, hxy, ← isOpen_eq offset hl']
                exact h'
              · exact absurd hxy (content_ne_pair offset hl _ _)
  | nullable v ih =>
      refine ih (y := y.unwrap) (z := z.unwrap) ?_ ?_ h (reaches_unwrap h')
      · rw [content_unwrap]
        exact hxy
      · rw [content_unwrap, content_unwrap, hyz]
  | pair k v ihk ihv =>
      obtain ⟨k', v', rfl⟩ := eq_pair_of_reaches offset hxy.symm h
      obtain ⟨k'', v'', rfl⟩ := eq_pair_of_reaches offset hyz.symm h'
      simp only [content, Content.pair.injEq, reaches, Bool.and_eq_true] at hxy hyz h h' ⊢
      exact ⟨ihk hxy.1 hyz.1 h.1 h'.1, ihv hxy.2 hyz.2 h.2 h'.2⟩

theorem equals_trans {x y z : Datum} (hx : x.tupleless = true) (hy : y.tupleless = true)
    (h : x.equals offset y = true) (h' : y.equals offset z = true) : x.equals offset z = true := by
  rw [equals_iff offset hx] at h ⊢
  rw [equals_iff offset hy] at h'
  exact ⟨h.1.trans h'.1, reaches_trans offset h.1 h'.1 h.2 h'.2⟩

/-- Of two values of which one is equal to the other, the other is equal to the one exactly when it
reaches back. -/
theorem equals_symm_iff {x y : Datum} (hx : x.tupleless = true) (hy : y.tupleless = true)
    (h : x.equals offset y = true) : y.equals offset x = true ↔ y.reaches x = true := by
  rw [equals_iff offset hx] at h
  rw [equals_iff offset hy]
  exact and_iff_right h.1.symm

def layerless : Datum → Bool
  | nullable _ => false
  | pair k v => k.layerless && v.layerless
  | _ => true

theorem reaches_of_layerless {x y : Datum} (hx : x.layerless = true) (hy : y.layerless = true)
    (h : x.content offset = y.content offset) : x.reaches y = true := by
  induction x using layerInduction generalizing y with
  | leaf x hl =>
      have hn : y.isNullable = false := by cases y <;> first | rfl | cases hy
      simp [reaches_leaf hl, hn]
  | nullable v => cases hx
  | pair k v ihk ihv =>
      have hn : y.isNullable = false := by cases y <;> first | rfl | cases hy
      rcases leaf_of_not_nullable hn with hl | ⟨k', v', rfl⟩
      · exact absurd h.symm (content_ne_pair offset hl _ _)
      · simp only [layerless, Bool.and_eq_true, content, Content.pair.injEq] at hx hy h
        simp [reaches, ihk hx.1 hy.1 h.1, ihv hx.2 hy.2 h.2]

theorem equals_iff_content {x y : Datum} (ht : x.tupleless = true) (hx : x.layerless = true)
    (hy : y.layerless = true) :
    x.equals offset y = true ↔ x.content offset = y.content offset := by
  rw [equals_iff offset ht]
  exact and_iff_left_of_imp (reaches_of_layerless offset hx hy)

end BaseLib.Datum
