import BaseLib.Proofs.Session.Depth
import BaseLib.Proofs.Value.Preorder

namespace BaseLib

def Value.isPlain : Value → Bool
  | null | bool _ | int _ | double _ | text _ => true
  | _ => false

/-- The content of an object that equality takes as a whole; none where equality looks into the values
of the object, and for options. -/
def Object.whole? (offset : Int) (id : Nat) : Object → Option Content
  | nullable _ | pair _ _ | tuple _ | options _ => none
  | typeName name => some (.typeName name)
  | timeSpan t => some (.timeSpan t)
  | dateTime d => some (.instant (d.instant offset))
  | point x y => some (.point x y)
  | encoding code => some (.encoding code)
  | array _ => some (.array id)
  | map _ => some (.map id)
  | _ => some (.object id)

namespace Session

/-- Values of a height below a bound. Layers of `nullable` may occur if `layers` holds. -/
inductive Built (s : Session) (layers : Bool) : Nat → Value → Prop
  | plain {n v} (h : v.isPlain = true) : Built s layers (n + 1) v
  | whole {n id o c} (h : s.store[id]? = some o) (hc : o.whole? s.offset id = some c) :
      Built s layers (n + 1) (.ref id)
  | nullable {n id v} (hl : layers = true) (h : s.store[id]? = some (.nullable v))
      (hv : Built s layers n v) : Built s layers (n + 1) (.ref id)
  | pair {n id k v} (h : s.store[id]? = some (.pair k v)) (hk : Built s layers n k)
      (hv : Built s layers n v) : Built s layers (n + 1) (.ref id)

def contentAt (s : Session) (n : Nat) (v : Value) : Content := (s.viewAt n v).content s.offset

def content (s : Session) (v : Value) : Content := (s.view v).content s.offset

variable {s : Session} {layers : Bool} {n : Nat} {v : Value}

theorem viewAt_tupleless (h : Built s layers n v) (d : Nat) : (s.viewAt d v).tupleless = true := by
  induction h generalizing d with
  | @plain _ v h => cases d <;> cases v <;> simp_all [Value.isPlain, viewAt, Datum.tupleless]
  | @whole _ id o c h hc =>
      cases d with
      | zero => rfl
      | succ d => cases o <;> simp_all [Object.whole?, viewAt, Datum.tupleless]
  | nullable _ h _ ih =>
      cases d with
      | zero => rfl
      | succ d => simp [viewAt, h, Datum.tupleless, ih]
  | pair h _ _ ihk ihv =>
      cases d with
      | zero => rfl
      | succ d => simp [viewAt, h, Datum.tupleless, ihk, ihv]

theorem viewAt_layerless (h : Built s false n v) (d : Nat) : (s.viewAt d v).layerless = true := by
  induction h generalizing d with
  | @plain _ v h => cases d <;> cases v <;> simp_all [Value.isPlain, viewAt, Datum.layerless]
  | @whole _ id o c h hc =>
      cases d with
      | zero => rfl
      | succ d => cases o <;> simp_all [Object.whole?, viewAt, Datum.layerless]
  | nullable hl => cases hl
  | pair h _ _ ihk ihv =>
      cases d with
      | zero => rfl
      | succ d => simp [viewAt, h, Datum.layerless, ihk, ihv]

theorem Built.mono (h : Built s layers n v) {m : Nat} (hm : n ≤ m) : Built s layers m v := by
  induction h generalizing m with
  | plain h =>
      obtain ⟨m, rfl⟩ : ∃ k, m = k + 1 := ⟨m - 1, by omega⟩
      exact .plain h
  | whole h hc =>
      obtain ⟨m, rfl⟩ : ∃ k, m = k + 1 := ⟨m - 1, by omega⟩
      exact .whole h hc
  | nullable hl h _ ih =>
      obtain ⟨m, rfl⟩ : ∃ k, m = k + 1 := ⟨m - 1, by omega⟩
      exact .nullable hl h (ih (by omega))
  | pair h _ _ ihk ihv =>
      obtain ⟨m, rfl⟩ : ∃ k, m = k + 1 := ⟨m - 1, by omega⟩
      exact .pair h (ihk (by omega)) (ihv (by omega))

theorem contentAt_eq (h : Built s layers n v) {d : Nat} (hd : n ≤ d) :
    s.contentAt d v = s.contentAt n v := by
  induction h generalizing d with
  | @plain _ v h =>
      obtain ⟨d, rfl⟩ : ∃ k, d = k + 1 := ⟨d - 1, by omega⟩
      cases v <;> first | rfl | cases h
  | @whole _ id o c h hc =>
      obtain ⟨d, rfl⟩ : ∃ k, d = k + 1 := ⟨d - 1, by omega⟩
      cases o <;> simp_all [Object.whole?, contentAt, viewAt, Datum.content]
  | nullable _ h _ ih =>
      obtain ⟨d, rfl⟩ : ∃ k, d = k + 1 := ⟨d - 1, by omega⟩
      have ih := ih (d := d) (by omega)
      simp_all [contentAt, viewAt, Datum.content]
  | pair h _ _ ihk ihv =>
      obtain ⟨d, rfl⟩ : ∃ k, d = k + 1 := ⟨d - 1, by omega⟩
      have ihk := ihk (d := d) (by omega)
      have ihv := ihv (d := d) (by omega)
      simp_all [contentAt, viewAt, Datum.content]

theorem Built.descend (h : Built s layers (n + 2) v) (hm : ¬ Built s layers (n + 1) v) :
    (∃ id, v = .ref id ∧ id < s.store.size) ∧
      ∃ w, Built s layers (n + 1) w ∧ ¬ Built s layers n w := by
  cases h with
  | plain h => exact absurd (.plain h) hm
  | whole h hc => exact absurd (.whole h hc) hm
  | nullable hl h hv =>
      refine ⟨⟨_, rfl, (Array.getElem?_eq_some_iff.mp h).1⟩, _, hv, fun hw => hm ?_⟩
      exact .nullable hl h hw
  | @pair _ id k w h hk hv =>
      refine ⟨⟨_, rfl, (Array.getElem?_eq_some_iff.mp h).1⟩, ?_⟩
      by_cases hk' : Built s layers n k
      · exact ⟨w, hv, fun hw => hm (.pair h hk' hw)⟩
      · exact ⟨k, hk, hk'⟩

theorem Built.bound (h : Built s layers n v) : Built s layers s.depth v := by
  have hdeepens : Deepens s (Built s layers) := ⟨fun h hm => h.mono hm, Built.descend⟩
  exact hdeepens.bound h

theorem content_eq (h : Built s layers n v) {d : Nat} (hd : n ≤ d) :
    s.contentAt d v = s.content v := by
  have hb := contentAt_eq h.bound (le_max_left s.depth d)
  have hm := contentAt_eq h (hd.trans (le_max_right s.depth d))
  rw [contentAt_eq h hd, ← hm, hb]
  rfl

theorem Built.layered (h : Built s layers n v) : Built s true n v := by
  induction h with
  | plain h => exact .plain h
  | whole h hc => exact .whole h hc
  | nullable _ h _ ih => exact .nullable rfl h ih
  | pair h _ _ ihk ihv => exact .pair h ihk ihv

theorem content_nullable {id : Nat} (h : s.store[id]? = some (.nullable v)) (hv : Built s layers n v) :
    s.content (.ref id) = s.content v := by
  have hb : Built s true (n + 1) (.ref id) := .nullable rfl h hv.layered
  rw [← content_eq hb le_rfl, ← content_eq hv le_rfl]
  simp [contentAt, viewAt, h, Datum.content]

theorem content_pair {id : Nat} {k : Value} (h : s.store[id]? = some (.pair k v))
    (hk : Built s layers n k) (hv : Built s layers n v) :
    s.content (.ref id) = .pair (s.content k) (s.content v) := by
  rw [← content_eq (.pair h hk hv) le_rfl, ← content_eq hk le_rfl, ← content_eq hv le_rfl]
  simp [contentAt, viewAt, h, Datum.content]

theorem hash_eq (h : Built s layers n v) : s.hash v = (s.content v).hash :=
  Datum.hash_eq s.offset _ (viewAt_tupleless h _)

theorem equals_iff {x : Value} (h : Built s layers n x) (y : Value) :
    s.equals x y = true ↔ s.content x = s.content y ∧ (s.view x).reaches (s.view y) = true :=
  Datum.equals_iff s.offset (viewAt_tupleless h _) _

theorem equals_iff_content {x y : Value} {m : Nat} (hx : Built s false n x) (hy : Built s false m y) :
    s.equals x y = true ↔ s.content x = s.content y :=
  Datum.equals_iff_content s.offset (viewAt_tupleless hx _) (viewAt_layerless hx _)
    (viewAt_layerless hy _)

structure Similar (s t : Session) : Prop where
  offset : t.offset = s.offset
  kept : ∀ {id : Nat} {o : Object}, s.store[id]? = some o →
    ∃ o' : Object, t.store[id]? = some o' ∧ o'.whole? s.offset id = o.whole? s.offset id ∧
      (o.whole? s.offset id = none → o' = o)

theorem Similar.refl (s : Session) : Similar s s := ⟨rfl, fun h => ⟨_, h, rfl, fun _ => rfl⟩⟩

theorem Similar.trans {t u : Session} (h : Similar s t) (h' : Similar t u) : Similar s u := by
  refine ⟨h'.offset.trans h.offset, fun {id o} ho => ?_⟩
  obtain ⟨o', ho', hw, hn⟩ := h.kept ho
  obtain ⟨o'', ho'', hw', hn'⟩ := h'.kept ho'
  rw [h.offset] at hw' hn'
  refine ⟨o'', ho'', hw'.trans hw, fun hc => ?_⟩
  rw [hn' (hw.trans hc), hn hc]

theorem Built.similar {t : Session} (hst : Similar s t) (h : Built s layers n v) :
    Built t layers n v := by
  induction h with
  | plain h => exact .plain h
  | whole h hc =>
      obtain ⟨o', ho', hw, -⟩ := hst.kept h
      exact .whole ho' (by rw [hst.offset, hw, hc])
  | nullable hl h _ ih =>
      obtain ⟨o', ho', -, hn⟩ := hst.kept h
      exact .nullable hl (hn rfl ▸ ho') ih
  | pair h _ _ ihk ihv =>
      obtain ⟨o', ho', -, hn⟩ := hst.kept h
      exact .pair (hn rfl ▸ ho') ihk ihv

theorem content_whole {id : Nat} {o : Object} {c : Content} (h : s.store[id]? = some o)
    (hc : o.whole? s.offset id = some c) : s.content (.ref id) = c := by
  have hb : Built s true 1 (.ref id) := .whole h hc
  rw [← content_eq hb le_rfl]
  cases o <;> simp_all [Object.whole?, contentAt, viewAt, Datum.content]

theorem content_similar {t : Session} (hst : Similar s t) (h : Built s layers n v) :
    t.content v = s.content v := by
  induction h with
  | @plain _ v h => cases v <;> first | rfl | cases h
  | whole h hc =>
      obtain ⟨o', ho', hw, -⟩ := hst.kept h
      rw [content_whole h hc, content_whole ho' (by rw [hst.offset, hw, hc])]
  | nullable _ h hv ih =>
      obtain ⟨o', ho', -, hn⟩ := hst.kept h
      rw [content_nullable h hv, content_nullable (hn rfl ▸ ho') (hv.similar hst), ih]
  | pair h hk hv ihk ihv =>
      obtain ⟨o', ho', -, hn⟩ := hst.kept h
      rw [content_pair h hk hv, content_pair (hn rfl ▸ ho') (hk.similar hst) (hv.similar hst), ihk,
        ihv]

end Session

end BaseLib
