import BaseLib.Collection.Table
import Mathlib.Data.Finmap

namespace BaseLib

structure Keying.Classifies {κ γ : Type} (k : Keying κ) (good : Token κ → Prop)
    (cls : Token κ → γ) : Prop where
  answers_iff : ∀ {a b : Token κ}, good a → good b → (k.answers a b = true ↔ cls a = cls b)

namespace Table

variable {κ ν γ : Type} {k : Keying κ} {good : Token κ → Prop} {cls : Token κ → γ}
  {es : List (Token κ × ν)} {b : Token κ} {v : ν} {t : Table κ ν} {m : Finmap fun _ : γ => ν}
  {key : κ}

def classed (cls : Token κ → γ) (es : List (Token κ × ν)) : List (Σ _ : γ, ν) :=
  es.map fun e => ⟨cls e.1, e.2⟩

structure IsMap (good : Token κ → Prop) (cls : Token κ → γ) (t : Table κ ν)
    (m : Finmap fun _ : γ => ν) : Prop where
  good : ∀ e ∈ t.entries, good e.1
  entries : m.entries = (classed cls t.entries : Multiset (Σ _ : γ, ν))

theorem IsMap.nodup (h : t.IsMap good cls m) : (classed cls t.entries).NodupKeys := by
  rw [← Multiset.coe_nodupKeys, ← h.entries]
  exact m.nodupKeys

theorem IsMap.eq_toFinmap (h : t.IsMap good cls m) :
    m = (⟨classed cls t.entries, h.nodup⟩ : AList fun _ : γ => ν).toFinmap :=
  Finmap.ext h.entries

theorem empty_isMap : (empty : Table κ ν).IsMap good cls ∅ := ⟨by simp [empty], rfl⟩

theorem IsMap.size_eq (h : t.IsMap good cls m) : t.size = m.keys.card := by
  rw [h.eq_toFinmap]
  show _ = Multiset.card (List.keys (classed cls t.entries) : Multiset γ)
  simp [size, classed, List.keys]

theorem IsMap.values_eq (h : t.IsMap good cls m) :
    (t.values : Multiset ν) = m.entries.map Sigma.snd := by
  rw [h.entries, Multiset.map_coe]
  simp [values, classed, Function.comp_def]

theorem keys_replaceFirst (p : Token κ → Bool) (v : ν) (es : List (Token κ × ν)) :
    (replaceFirst p v es).map (·.1) = es.map (·.1) := by
  induction es with
  | nil => rfl
  | cons e es ih =>
      rw [replaceFirst]
      split
      · rfl
      · simp [ih]

theorem nodup_replaceFirst (p : Token κ → Bool) (v : ν) (hn : (classed cls es).NodupKeys) :
    (classed cls (replaceFirst p v es)).NodupKeys := by
  simp only [List.NodupKeys, List.keys, classed, List.map_map] at hn ⊢
  have hcls := congrArg (List.map cls) (keys_replaceFirst p v es)
  rw [List.map_map, List.map_map] at hcls
  exact hcls ▸ hn

variable [DecidableEq γ]

theorem find?_eq (hk : k.Classifies good cls) (hb : good b) (hes : ∀ e ∈ es, good e.1) :
    (es.find? fun e => k.answers e.1 b).map (·.2) = (classed cls es).dlookup (cls b) := by
  induction es with
  | nil => rfl
  | cons e es ih =>
      have he := hk.answers_iff (hes e (by simp)) hb
      have ih := ih fun e h => hes e (by simp [h])
      by_cases hc : cls e.1 = cls b
      · simp only [List.find?_cons, he.mpr hc, classed, List.map_cons, hc, List.dlookup_cons_eq,
          Option.map_some]
      · have ha : k.answers e.1 b = false := Bool.eq_false_iff.mpr fun h => hc (he.mp h)
        simp only [List.find?_cons, ha, ih]
        exact (List.dlookup_cons_ne _ _ (Ne.symm hc)).symm

theorem IsMap.get?_eq (h : t.IsMap good cls m) (hk : k.Classifies good cls) (hb : good (k.token key)) :
    t.get? k key = m.lookup (cls (k.token key)) := by
  rw [h.eq_toFinmap, Finmap.lookup_toFinmap]
  exact find?_eq hk hb h.good

theorem IsMap.contains_iff (h : t.IsMap good cls m) (hk : k.Classifies good cls)
    (hb : good (k.token key)) : t.contains k key = true ↔ cls (k.token key) ∈ m := by
  rw [← Finmap.lookup_isSome, ← h.get?_eq hk hb]
  simp [contains, get?]

theorem classed_eraseP (hk : k.Classifies good cls) (hb : good b) (hes : ∀ e ∈ es, good e.1) :
    classed cls (es.eraseP fun e => k.answers e.1 b) = (classed cls es).kerase (cls b) := by
  induction es with
  | nil => rfl
  | cons e es ih =>
      have he := hk.answers_iff (hes e (by simp)) hb
      have ih := ih fun e h => hes e (by simp [h])
      by_cases hc : cls e.1 = cls b
      · simp only [List.eraseP_cons, he.mpr hc]
        exact (List.kerase_cons_eq hc.symm).symm
      · have ha : k.answers e.1 b = false := Bool.eq_false_iff.mpr fun h => hc (he.mp h)
        simp only [List.eraseP_cons, ha]
        refine Eq.trans ?_ (List.kerase_cons_ne (Ne.symm hc)).symm
        exact congrArg _ ih

theorem IsMap.erase (h : t.IsMap good cls m) (hk : k.Classifies good cls) (hb : good (k.token key)) :
    (t.erase k key).IsMap good cls (m.erase (cls (k.token key))) := by
  refine ⟨fun e he => h.good e (List.mem_of_mem_eraseP he), ?_⟩
  rw [h.eq_toFinmap, Finmap.erase_toFinmap]
  exact congrArg _ (classed_eraseP hk hb h.good).symm

theorem IsMap.append (h : t.IsMap good cls m) (hb : good b) (hm : cls b ∉ m) :
    IsMap good cls ⟨t.entries ++ [(b, v)]⟩ (m.insert (cls b) v) := by
  refine ⟨fun e he => ?_, ?_⟩
  · rcases List.mem_append.mp he with he | he
    · exact h.good e he
    · obtain rfl := List.mem_singleton.mp he
      exact hb
  · rw [Finmap.entries_insert_of_notMem hm, h.entries]
    simpa [classed] using (List.perm_append_singleton _ _).symm

theorem IsMap.add?_eq (h : t.IsMap good cls m) (hk : k.Classifies good cls) (hb : good (k.token key)) :
    t.add? k key v =
      if cls (k.token key) ∈ m then none else some ⟨t.entries ++ [(k.token key, v)]⟩ := by
  rw [add?]
  simp only [h.contains_iff hk hb]

theorem mem_replaceFirst {p : Token κ → Bool} {e : Token κ × ν} (he : e ∈ replaceFirst p v es) :
    e ∈ es ∨ ∃ e', es.find? (fun e => p e.1) = some e' ∧ e = (e'.1, v) := by
  induction es with
  | nil => cases he
  | cons x es ih =>
      rw [replaceFirst] at he
      cases hp : p x.1 with
      | true =>
          rw [if_pos hp] at he
          rcases List.mem_cons.mp he with rfl | he
          · exact .inr ⟨x, by simp [hp], rfl⟩
          · exact .inl (by simp [he])
      | false =>
          rw [if_neg (by simp [hp])] at he
          rcases List.mem_cons.mp he with rfl | he
          · exact .inl (by simp)
          · rcases ih he with he | ⟨e', hf, rfl⟩
            · exact .inl (by simp [he])
            · exact .inr ⟨e', by simp [hp, hf], rfl⟩

/-- The entries after a key has been bound: the others, and one under the token that the key had
already, or under a new one. -/
theorem mem_set {e : Token κ × ν} (he : e ∈ (t.set k key v).entries) :
    e ∈ t.entries ∨ (∃ e' ∈ t.entries, t.get? k key = some e'.2 ∧ e = (e'.1, v)) ∨
      (t.get? k key = none ∧ e = (k.token key, v)) := by
  rw [Table.set] at he
  split at he
  · rcases mem_replaceFirst he with he | ⟨e', hf, rfl⟩
    · exact .inl he
    · exact .inr (.inl ⟨e', List.mem_of_find?_eq_some hf, by simp [get?, hf], rfl⟩)
  · rename_i hc
    rcases List.mem_append.mp he with he | he
    · exact .inl he
    · refine .inr (.inr ⟨?_, List.mem_singleton.mp he⟩)
      simpa [get?, contains] using hc

theorem dlookup_replaceFirst (hk : k.Classifies good cls) (hb : good b) (hes : ∀ e ∈ es, good e.1)
    (hin : ∃ e ∈ es, cls e.1 = cls b) (c : γ) :
    (classed cls (replaceFirst (k.answers · b) v es)).dlookup c =
      if c = cls b then some v else (classed cls es).dlookup c := by
  induction es with
  | nil => simp at hin
  | cons e es ih =>
      have he := hk.answers_iff (hes e (by simp)) hb
      rw [replaceFirst]
      by_cases hc : cls e.1 = cls b
      · rw [if_pos (he.mpr hc)]
        by_cases hcb : c = cls b
        · subst hcb
          simp only [classed, List.map_cons, hc, List.dlookup_cons_eq, if_true]
        · rw [if_neg hcb]
          simp only [classed, List.map_cons, hc]
          rw [List.dlookup_cons_ne _ _ hcb, List.dlookup_cons_ne _ _ hcb]
      · have ih := ih (fun e h => hes e (by simp [h])) (by simpa [hc] using hin)
        rw [if_neg fun h => hc (he.mp h)]
        simp only [classed, List.map_cons] at ih ⊢
        by_cases hce : c = cls e.1
        · subst hce
          simp [hc]
        · rw [List.dlookup_cons_ne _ _ hce, List.dlookup_cons_ne _ _ hce, ih]

theorem IsMap.replaceFirst (h : t.IsMap good cls m) (hk : k.Classifies good cls) (hb : good b)
    (hin : ∃ e ∈ t.entries, cls e.1 = cls b) :
    IsMap good cls ⟨Table.replaceFirst (k.answers · b) v t.entries⟩ (m.insert (cls b) v) := by
  refine ⟨fun e he => ?_, ?_⟩
  · rcases mem_replaceFirst he with he | ⟨e', hf, rfl⟩
    · exact h.good e he
    · exact h.good e' (List.mem_of_find?_eq_some hf)
  · have hnodup := nodup_replaceFirst (k.answers · b) v h.nodup
    suffices hm : m.insert (cls b) v = (⟨_, hnodup⟩ : AList fun _ : γ => ν).toFinmap by
      rw [hm]
      rfl
    refine Finmap.ext_lookup fun c => ?_
    rw [Finmap.lookup_toFinmap]
    refine Eq.trans ?_ (dlookup_replaceFirst hk hb h.good hin c).symm
    by_cases hcb : c = cls b
    · subst hcb
      simp
    · rw [if_neg hcb, Finmap.lookup_insert_of_ne _ hcb, h.eq_toFinmap, Finmap.lookup_toFinmap]
      rfl

theorem IsMap.set (h : t.IsMap good cls m) (hk : k.Classifies good cls) (hb : good (k.token key)) :
    (t.set k key v).IsMap good cls (m.insert (cls (k.token key)) v) := by
  rw [Table.set]
  split
  · rename_i hin
    obtain ⟨e, he, ha⟩ := List.any_eq_true.mp hin
    exact h.replaceFirst hk hb ⟨e, he, (hk.answers_iff (h.good e he) hb).mp ha⟩
  · rename_i hin
    exact h.append hb fun hm => hin ((h.contains_iff hk hb).mpr hm)

end Table

end BaseLib
